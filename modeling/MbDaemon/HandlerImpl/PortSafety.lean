import MbDaemon.HandlerImpl.Steps

/-!
# The port and the firmware

A client that holds the port relies on the firmware running. `Reset` looks at the acquisition flag
in one critical section and takes the chip down in a later one, under another mutex, so a `Connect`
can come in between. `NoOvertaking` rules that order out: a `Connect` does not read the state
`Running` while a reset is on its way from its `EnsureNotAcquired` to its check of the state. In the
runs that meet it the port is held only while the firmware runs.
-/

namespace MbDaemon

namespace HandlerImpl

/-- `t` is in a `Connect` that has read the state `Running` and has not finished. -/
def Connecting (c : Config) (t : Tid) : Prop :=
  match c.frame t with
  | .stateCheck _ _ =>
    c.firmware.pc t = .getUnlock (.state .running) ∨
      c.firmware.pc t = .done (.value (.state .running))
  | .getPort _ _ | .portRead _ _ | .clearPort _ _ _ | .store _ _ _ => True
  | _ => False

/-- `t` is in a `Reset` that has passed `EnsureNotAcquired` and has not checked the state yet. -/
def ResetPending (c : Config) (t : Tid) : Prop :=
  c.frame t = .unlock (.firmware .resetChip) ∨ c.frame t = .enter .resetChip ∨
    (c.frame t = .firmware .resetChip ∧
      (c.firmware.pc t = .lock .resetChip ∨ c.firmware.pc t = .check .resetChip))

/-- A step in which a `Connect` reads the state `Running` is taken with no reset pending. -/
def NoOvertaking (c : Config) (l : Label) : Prop :=
  ∀ t, l = .firmware (.step t) → c.firmware.pc t = .getWork .getState →
    c.firmware.state = .running → ∀ u, ¬ ResetPending c u

/-- Who holds the port finds the firmware running, and no transition is in progress. -/
def PortSafe (c : Config) : Prop :=
  c.acquired = true →
    c.firmware.state = .running ∧ ∀ t, (c.firmware.pc t).active = none

def Begins (c : Config) (l : Label) : Prop :=
  ∃ t op, l = .firmware (.step t) ∧ c.firmware.pc t = .check op ∧
    c.firmware.checkState op.routine.expectedStates = true

end HandlerImpl

namespace FirmwareFSM

theorem state_step {c c' : Config} {l : Label} (hs : step c l = some c') :
    c'.state = c.state ∨
    (∃ t op, l = .step t ∧ c.pc t = .check op ∧
      c.checkState op.routine.expectedStates = true) ∨
    (∃ t op e, l = .step t ∧ c.pc t = .setWork op e) := by
  cases step_cases hs with
  | @accept t op pc ok => exact .inr (.inl ⟨t, op, rfl, pc, ok⟩)
  | @setWork t op e pc => exact .inr (.inr ⟨t, op, e, rfl, pc⟩)
  | _ => exact .inl rfl

theorem value_step {c c' : Config} {l : Label} (hs : step c l = some c') {t : Tid} {s : FWState}
    (h : c'.pc t = .getUnlock (.state s) ∨ c'.pc t = .done (.value (.state s))) :
    (c.pc t = .getUnlock (.state s) ∨ c.pc t = .done (.value (.state s))) ∨
      (l = .step t ∧ c.pc t = .getWork .getState ∧ c.state = s) := by
  by_cases ht : l.thread = some t
  · cases step_cases hs with
    | exit => cases ht
    | @getWork u g pc =>
      cases ht
      cases g <;> simp_all [Config.goto, get]
    | @getUnlock u v pc =>
      cases ht
      left; left
      simp_all [Config.goto]
    | @setUnlock u op e pc => cases ht; cases e <;> simp_all [Config.goto, result]
    | @call u k pc => cases ht; cases k <;> simp_all [Config.goto, Call.entry]
    | @unlock u op ok pc => cases ht; cases ok <;> simp_all [Config.goto]
    | _ => cases ht; simp_all [Config.goto]
  · rw [pc_of_other hs ht] at h
    exact .inl h

end FirmwareFSM

namespace HandlerImpl

/-- A `Connect` gets past its check of the state only by reading `Running`. -/
theorem connecting_step {c c' : Config} {l : Label} (hs : step c l = some c') {t : Tid}
    (h : Connecting c' t) :
    Connecting c t ∨ (l = .firmware (.step t) ∧ c.firmware.pc t = .getWork .getState ∧
      c.firmware.state = .running) := by
  by_cases ht : l.thread = some t
  · cases step_cases hs with
    | @firmware m fw inner firmware =>
      unfold Connecting at h ⊢
      simp only at h
      split at h
      · rcases FirmwareFSM.value_step firmware h with hold | ⟨rfl, pc, hrun⟩
        · exact .inl hold
        · exact .inr ⟨rfl, pc, hrun⟩
      · exact .inl trivial
      · exact .inl trivial
      · exact .inl trivial
      · exact .inl trivial
      · exact h.elim
    | call frame calls firmware =>
      cases ht
      left
      cases FirmwareFSM.step_cases firmware
      cases calls <;>
        simp_all [Connecting, Config.goto, FirmwareFSM.Config.goto, FirmwareFSM.Call.entry]
    | ret frame pc returns firmware =>
      cases ht
      left
      cases FirmwareFSM.step_cases firmware
      cases returns <;> simp_all [Connecting, Config.goto, FirmwareFSM.Config.goto]
    | @request u r frame =>
      cases ht
      left
      cases r <;> simp_all [Connecting, Config.goto, Request.entry]
    | @unlock u n frame =>
      cases ht
      left
      cases n <;> simp_all [Connecting, Config.goto, Next.frame]
    | _ =>
      cases ht
      left
      simp_all [Connecting, Config.goto]
  · obtain ⟨hframe, hpc⟩ := of_other hs ht
    exact .inl (by rwa [Connecting, hframe, hpc] at h)

theorem Connecting.holds {c : Config} {t : Tid} (h : Connecting c t) :
    (c.frame t).holds = true := by
  unfold Connecting at h
  split at h
  case h_6 => exact h.elim
  all_goals rename_i frame; simp [frame, Frame.holds]

/-- A reset becomes pending only by passing `EnsureNotAcquired`. -/
theorem resetPending_step {c c' : Config} {l : Label} (hs : step c l = some c') {t : Tid}
    (h : ResetPending c' t) :
    ResetPending c t ∨
      (l = .step t ∧ c.frame t = .held .reset ∧ c.acquired = false ∧ c'.acquired = false) := by
  by_cases ht : l.thread = some t
  · cases step_cases hs with
    | firmware inner firmware =>
      left
      rcases h with h | h | ⟨h, hpc⟩
      · exact .inl h
      · exact .inr (.inl h)
      refine .inr (.inr ⟨h, ?_⟩)
      cases FirmwareFSM.step_cases firmware with
      | exit => cases ht
      | call => cases inner
      | ret => cases inner
      | @unlock u op ok pc => cases ht; cases ok <;> simp_all [FirmwareFSM.Config.goto]
      | lock pc => cases ht; left; simp_all [FirmwareFSM.Config.goto]
      | _ => cases ht; simp_all [FirmwareFSM.Config.goto]
    | call frame calls firmware =>
      cases ht
      left
      cases FirmwareFSM.step_cases firmware
      cases calls <;> simp_all [ResetPending, Config.goto]
    | ret frame pc returns firmware =>
      cases ht
      left
      cases FirmwareFSM.step_cases firmware
      cases returns <;> simp_all [ResetPending, Config.goto]
    | @pass u r op frame guarded free =>
      cases ht
      right
      cases r <;> simp_all [ResetPending, Config.goto, Request.op]
    | @request u r frame =>
      cases ht
      left
      cases r <;> simp_all [ResetPending, Config.goto, Request.entry]
    | @unlock u n frame =>
      cases ht
      left
      cases n <;> simp_all [ResetPending, Config.goto, Next.frame]
    | _ =>
      cases ht
      left
      simp_all [ResetPending, Config.goto]
  · obtain ⟨hframe, hpc⟩ := of_other hs ht
    exact .inl (by rwa [ResetPending, hframe, hpc] at h)

/-- The acquisition flag goes up only at the end of a `Connect`. -/
theorem acquired_step {c c' : Config} {l : Label} (hs : step c l = some c')
    (h : c'.acquired = true) :
    c.acquired = true ∨ (c'.firmware = c.firmware ∧ ∃ t, Connecting c t) := by
  cases step_cases hs with
  | @store t name pid path frame => exact .inr ⟨rfl, t, by simp [Connecting, frame]⟩
  | disconnect => cases h
  | _ => exact .inl h

/-- While the firmware runs, only a pending reset takes the chip out of `Running`. -/
theorem leaves_running {c c' : Config} {l : Label} (hi : Inv c) (hs : step c l = some c')
    (hrun : c.firmware.state = .running) :
    c'.firmware.state = .running ∨ ∃ t, ResetPending c t := by
  rcases firmware_step hs with e | ⟨m, hm⟩
  · exact .inl (by rw [e, hrun])
  rcases FirmwareFSM.state_step hm with e | ⟨t, op, rfl, pc, ok⟩ | ⟨t, op, e, rfl, pc⟩
  · exact .inl (e.trans hrun)
  · right
    have hmem := FirmwareFSM.checkState_eq_true.1 ok
    rw [hrun] at hmem
    cases op with
    | flashBootlader _ | startFirmware =>
      simp [FirmwareFSM.Op.routine, FirmwareFSM.flashBootlader, FirmwareFSM.startFirmware] at hmem
    | resetChip =>
      -- a thread at that check is inside the firmware call of a `Reset`
      refine ⟨t, .inr (.inr ⟨?_, .inr pc⟩)⟩
      have hp := hi.placed t
      rw [pc] at hp
      cases hf : c.frame t <;>
        simp_all [Placed, Frame.call, FirmwareFSM.Serves, FirmwareFSM.Pc.op]
  · -- a transition in progress contradicts `Running`
    rw [(hi.firmware.phase.of_active (congrArg FirmwareFSM.Pc.active pc)).2.1] at hrun
    cases hrun

/-- What the runs without overtaking keep. -/
structure Safe (c : Config) : Prop where
  inv : Inv c
  held : c.acquired = true → c.firmware.state = .running
  connecting : ∀ t, Connecting c t → c.firmware.state = .running
  pending : ∀ t, ResetPending c t → c.acquired = false ∧ ∀ u, ¬ Connecting c u

theorem safe_init (port : Text) : Safe (Config.init port) where
  inv := inv_init port
  held := fun h => by cases h
  connecting := fun _ h => h.elim
  pending := fun _ h => by simp [ResetPending, Config.init] at h

theorem safe_step {c c' : Config} {l : Label} (h : Safe c) (hl : NoOvertaking c l)
    (hs : step c l = some c') : Safe c' := by
  refine ⟨inv_step h.inv hs, fun hacq => ?_, fun t ht => ?_, fun t ht => ?_⟩
  · rcases acquired_step hs hacq with hold | ⟨hfw, t, ht⟩
    · rcases leaves_running h.inv hs (h.held hold) with hrun | ⟨t, ht⟩
      · exact hrun
      · rw [(h.pending t ht).1] at hold; cases hold
    · rw [hfw]; exact h.connecting t ht
  · rcases connecting_step hs ht with hold | ⟨rfl, pc, hrun⟩
    · rcases leaves_running h.inv hs (h.connecting t hold) with hrun | ⟨u, hu⟩
      · exact hrun
      · exact absurd hold ((h.pending u hu).2 t)
    · rcases leaves_running h.inv hs hrun with hrun' | ⟨u, hu⟩
      · exact hrun'
      · exact absurd hu (hl t rfl pc hrun u)
  · rcases resetPending_step hs ht with hold | ⟨rfl, frame, free, free'⟩
    · obtain ⟨hacq, hcon⟩ := h.pending t hold
      refine ⟨?_, fun u hu => ?_⟩
      · by_contra hacq'
        rcases acquired_step hs (by simpa using hacq') with h1 | ⟨-, v, hv⟩
        · rw [hacq] at h1; cases h1
        · exact hcon v hv
      · rcases connecting_step hs hu with h1 | ⟨rfl, pc, hrun⟩
        · exact hcon u h1
        · exact hl u rfl pc hrun t hold
    · refine ⟨free', fun u hu => ?_⟩
      -- the reset's thread is in the critical section, so no `Connect` is
      rcases connecting_step hs hu with h1 | ⟨h1, -⟩
      · have e := h.inv.owned.unique h1.holds (u := t) (by rw [frame]; rfl)
        subst e
        simp [Connecting, frame] at h1
      · cases h1

theorem Safe.portSafe {c : Config} (h : Safe c) : PortSafe c := by
  intro hacq
  have hrun := h.held hacq
  refine ⟨hrun, fun t => ?_⟩
  cases hact : (c.firmware.pc t).active with
  | none => rfl
  | some op =>
    rw [(h.inv.firmware.phase.of_active hact).2.1] at hrun
    cases hrun

/-- **The port is held only while the firmware runs**, in every run in which no `Connect` reads the
state `Running` while a reset is between its `EnsureNotAcquired` and its check of the state; and in
these runs no transition of the chip is in progress or begins while the port is held. -/
theorem port_safe {port : Text} {ls : List Label} {c : Config}
    (h : Lts.run step (Config.init port) ls = some c)
    (hl : Lts.Along step NoOvertaking (Config.init port) ls) :
    PortSafe c ∧ ∀ l, Begins c l → c.acquired = false := by
  have hsafe : Safe c :=
    Lts.run_invariant_along (safe_init port) (fun _ _ _ hi hp hs => safe_step hi hp hs) h hl
  refine ⟨hsafe.portSafe, fun l ⟨t, op, hlab, pc, ok⟩ => ?_⟩
  by_contra hacq
  simp only [Bool.not_eq_false] at hacq
  have hrun := hsafe.held hacq
  -- the accepted check leaves `Running`
  have hs : step c l = some { c with firmware := { c.firmware.goto t (.unlock op true) with
      toFirmwareFSM := c.firmware.claim op.routine } } := by
    simp [hlab, step, internal, FirmwareFSM.step, FirmwareFSM.Config.next, pc, ok]
  rcases leaves_running hsafe.inv hs hrun with h1 | ⟨u, hu⟩
  · cases h1
  · rw [(hsafe.pending u hu).1] at hacq; cases hacq

theorem port_safe_connected :
    ∃ c, Lts.run step (Config.init []) (startRun ++ connectRun 1) = some c ∧
      c.acquired = true ∧ PortSafe c := by
  have hl : Lts.Along step NoOvertaking (Config.init []) (startRun ++ connectRun 1) := by
    iterate 29 refine Lts.Along.cons rfl ?_ ?_
    · exact Lts.Along.nil
    all_goals
      intro t e pc hrun u hu
      cases e <;> cases pc <;> cases hrun
    -- thread 1 reads `Running`; nobody has asked for a reset
    by_cases h1 : u = 1 <;> by_cases h0 : u = 0 <;>
      simp_all [ResetPending, Config.goto, Config.init]
  exact ⟨_, rfl, rfl, (@port_safe [] _ _ rfl hl).1⟩

/-- Thread 1's `Reset` passes `EnsureNotAcquired`, thread 2 connects, and then thread 1 goes on to
its check of the state. -/
def overtaken : List Label :=
  startRun ++ [.request 1 .reset, .step 1, .step 1, .step 1] ++ connectRun 2 ++
    [.step 1, .firmware (.step 1), .firmware (.step 1)]

/-- **The port is held by a client while the chip is reset.** -/
theorem port_unsafe :
    ∃ c, Lts.run step (Config.init []) overtaken = some c ∧ c.acquired = true ∧
      c.firmware.state = .transition :=
  ⟨_, rfl, rfl, rfl⟩

end HandlerImpl

end MbDaemon
