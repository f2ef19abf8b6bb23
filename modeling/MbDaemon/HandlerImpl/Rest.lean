import MbDaemon.HandlerImpl.Progress

/-!
# Coming to rest

A request takes at most 15 steps, the end of its script included, and every step of the handler that
is not the arrival of a request is one of these: `left` counts what a thread has before it. So without
new requests the handler comes to rest, whatever the scripts do and whoever is scheduled
(`comes_to_rest`). At rest a single client can bring the chip to where it wants it, whatever the others
have left behind (`recovers`), if the scripts it has run succeed: what can be reached is said here, not
that a script ends (`FirmwareFSM.waits_for_child`).
-/

namespace MbDaemon

open HwUtils

namespace FirmwareFSM

/-- The steps before a thread in a call, at most. -/
def Pc.left : Pc → Nat
  | .lock _ => 9
  | .check _ => 8
  | .unlock _ _ => 7
  | .act _ => 6
  -- here the script's end comes first, which is counted with the children
  | .wait _ _ => 4
  | .setLock _ _ | .getLock _ => 3
  | .setWork _ _ | .getWork _ => 2
  | .reject _ | .setUnlock _ _ | .getUnlock _ => 1
  | .idle | .done _ => 0

def Config.running (c : Config) : Nat := c.children.countP fun ch => ch.status.isNone

variable {c c' : Config} {l : Label}

theorem running_exit (hp : Phase c) {pid : Pid} {status : WaitStatus} (alive : ⟨pid, none⟩ ∈ c.children) :
    (setStatus c.children pid status).countP (fun ch => ch.status.isNone) < c.running := by
  unfold Config.running
  have hle := hp.children_le_one
  match hchildren : c.children, alive with
  | [ch], alive =>
    obtain rfl := List.mem_singleton.1 alive
    simp [setStatus]
  | _ :: _ :: _, _ => rw [hchildren] at hle; simp at hle

/-- A thread inside a call goes on, or a child ends. -/
theorem left_step (hi : Inv c) (hs : step c l = some c') (inner : HandlerImpl.internal l = true) :
    (∃ t, l.thread = some t ∧ (c'.pc t).left + c'.running < (c.pc t).left + c.running) ∨
      (l.thread = none ∧ c'.pc = c.pc ∧ c'.running < c.running) := by
  cases step_cases hs with
  | call => cases inner
  | ret => cases inner
  | exit alive => exact .inr ⟨rfl, rfl, running_exit hi.phase alive⟩
  | @unlock t op ok pc =>
    refine .inl ⟨t, rfl, ?_⟩
    cases ok <;> simp [Config.goto, pc, Pc.left, Config.running]
  | @wait t op own pid status pc ended =>
    refine .inl ⟨t, rfl, ?_⟩
    have hle : (c.children.filter fun ch => decide (ch.pid ≠ pid)).countP
        (fun ch => ch.status.isNone) ≤ c.running := List.Sublist.countP_le List.filter_sublist
    simp only [Config.goto, Function.update_self, pc, Pc.left, Config.running] at hle ⊢
    omega
  | @fork t op pid pc =>
    refine .inl ⟨t, rfl, ?_⟩
    simp only [Config.goto, Function.update_self, pc, Pc.left, Config.running, List.countP_cons]
    simp
    omega
  | @lock t op pc | @accept t op pc | @refuse t op pc | @reject t op pc | @forkFail t op _ pc
  | @waitFail t op _ _ pc | @setLock t op _ pc | @setWork t op _ pc | @setUnlock t op _ pc
  | @getLock t _ pc | @getWork t _ pc | @getUnlock t _ pc =>
    refine .inl ⟨t, rfl, ?_⟩
    simp [Config.goto, pc, Pc.left, Config.running]

theorem left_getter {g : Getter} {p : Pc} (h : Serves (.getter g) p) : p.left ≤ 3 := by
  rcases h with rfl | rfl | ⟨v, -, rfl | rfl⟩ <;> simp [Pc.left]

theorem left_le (p : Pc) : p.left ≤ 9 := by
  cases p <;> simp [Pc.left]

theorem waits_of_running (hp : Phase c) (h : 0 < c.running) : ∃ t op pid, c.pc t = .wait op pid := by
  cases hp with
  | quiet _ _ _ children => simp [Config.running, children] at h
  | busy t op _ _ _ _ children =>
    cases pc : c.pc t with
    | wait op pid => exact ⟨t, op, pid, pc⟩
    | _ =>
      rw [pc] at children
      simp [Config.running, show c.children = [] from children] at h

theorem running_le_one (hp : Phase c) : c.running ≤ 1 :=
  (List.countP_le_length).trans hp.children_le_one

end FirmwareFSM

namespace HandlerImpl

/-- The steps before a thread, at most; `p` is where it is in the firmware object. -/
def Frame.left (p : FirmwareFSM.Pc) : Frame → Nat
  | .idle => 0
  | .lock _ => 15
  | .held _ => 14
  | .describing => 4 + p.left
  | .fill _ => 3
  | .stateCheck _ _ => 10 + p.left
  | .getPort _ _ => 9
  | .portRead _ _ => 5 + p.left
  | .clearPort _ _ _ => 4
  | .store _ _ _ => 3
  | .unlock (.reply _) => 2
  | .unlock (.firmware _) => 13
  | .enter _ => 12
  | .firmware _ => 2 + p.left
  | .reply _ => 1

def Label.asks : Label → Bool
  | .request _ _ => true
  | _ => false

def Config.left (c : Config) (t : Tid) : Nat := (c.frame t).left (c.firmware.pc t)

variable {c c' : Config} {l : Label} {t : Tid}

theorem left_le (h : Placed (c.frame t) (c.firmware.pc t)) : c.left t ≤ 15 := by
  unfold Config.left Placed at *
  cases hframe : c.frame t with
  | describing | stateCheck _ _ | portRead _ _ =>
    rw [hframe] at h
    have := FirmwareFSM.left_getter h
    simp only [Frame.left]
    omega
  | firmware op =>
    have := FirmwareFSM.left_le (c.firmware.pc t)
    simp only [Frame.left]
    omega
  | unlock n => cases n <;> simp [Frame.left]
  | _ => simp [Frame.left]

theorem Calls.left {f f' : Frame} {k : FirmwareFSM.Call} (h : Calls c f k f')
    (p : FirmwareFSM.Pc) : f'.left k.entry < f.left p := by
  cases h <;> simp [Frame.left, FirmwareFSM.Call.entry, FirmwareFSM.Pc.left]

theorem Returns.left {f f' : Frame} {v : FirmwareFSM.Result} (h : Returns f v f') :
    f'.left .idle < f.left (.done v) := by
  cases h <;> simp [Frame.left, FirmwareFSM.Pc.left]

theorem left_own (hi : Inv c) (hs : step c l = some c') (hl : l.asks = false)
    (ht : l.thread = some t) :
    c'.left t + c'.firmware.running < c.left t + c.firmware.running := by
  unfold Config.left
  cases step_cases hs with
  | request => cases hl
  | @call u f k f' fw frame calls firmware =>
    cases ht
    cases FirmwareFSM.step_cases firmware with
    | call pc =>
      simp only [Config.goto, FirmwareFSM.Config.goto, Function.update_self, frame]
      have hlt := calls.left (c.firmware.pc t)
      simp only [FirmwareFSM.Config.running]
      omega
  | @ret u f v f' fw frame pc returns firmware =>
    cases ht
    cases FirmwareFSM.step_cases firmware with
    | ret pc' =>
      simp only [Config.goto, FirmwareFSM.Config.goto, Function.update_self, frame]
      have hlt := returns.left
      rw [← pc] at hlt
      simp only [FirmwareFSM.Config.running]
      omega
  | @firmware m fw inner firmware =>
    simp only
    rcases FirmwareFSM.left_step hi.firmware firmware inner with ⟨u, hu, hlt⟩ | ⟨hnone, -⟩
    · obtain rfl : u = t := Option.some.inj (hu.symm.trans ht)
      have hplaced := hi.placed u
      unfold Placed at hplaced
      cases hframe : c.frame u with
      | describing | stateCheck _ _ | portRead _ _ | firmware _ =>
        simp only [Frame.left]
        omega
      | _ =>
        rw [hframe] at hplaced
        obtain ⟨k, rfl⟩ := FirmwareFSM.call_of_idle firmware hu hplaced
        cases inner
    · rw [show m.thread = some t from ht] at hnone
      cases hnone
  | @unlock u n frame =>
    cases ht
    cases n <;> simp [Config.goto, frame, Next.frame, Frame.left]
  | @lock u r frame | @refuse u r _ frame | @pass u r _ frame | @disconnect u frame
  | @notAcquired u frame | @fill u _ frame | @cleared u _ _ _ frame | @clearFail u _ _ _ _ _ frame
  | @store u _ _ _ frame | @reply u _ frame =>
    cases ht
    simp [Config.goto, frame, Frame.left]

/-! ## All threads -/

def Config.busy (c : Config) : Set Tid := {t | c.frame t ≠ .idle}

/-- A thread that takes a step is inside a request, or begins one. -/
theorem busy_of_step (hi : Inv c) (hs : step c l = some c') (hl : l.asks = false)
    (ht : l.thread = some t) : t ∈ c.busy := by
  intro hidle
  cases step_cases hs with
  | request => cases hl
  | @firmware m fw inner firmware =>
    have hplaced := hi.placed t
    rw [hidle] at hplaced
    obtain ⟨k, rfl⟩ := FirmwareFSM.call_of_idle firmware ht hplaced
    cases inner
  | @call u f k f' fw frame calls =>
    cases ht
    rw [hidle] at frame
    subst frame
    cases calls
  | @ret u f v f' fw frame pc returns =>
    cases ht
    rw [hidle] at frame
    subst frame
    cases returns
  | lock frame | refuse frame | pass frame | disconnect frame | notAcquired frame | fill frame
  | cleared frame | clearFail frame | store frame | unlock frame | reply frame =>
    cases ht
    rw [hidle] at frame
    cases frame

theorem busy_step (hi : Inv c) (hs : step c l = some c') (hl : l.asks = false) :
    c'.busy ⊆ c.busy := by
  intro u hu
  by_cases ht : l.thread = some u
  · exact busy_of_step hi hs hl ht
  · intro hidle
    exact hu ((of_other hs ht).1.trans hidle)

theorem Reachable.finite_busy {port : Text} (h : Reachable port c) : c.busy.Finite := by
  obtain ⟨ls, hls⟩ := h
  refine Lts.run_invariant (P := fun c => c.busy.Finite) ?_ (fun c l c' hfinite hs => ?_) hls
  · exact Set.finite_empty.subset fun t ht => ht rfl
  · cases ht : l.thread with
    | none =>
      refine hfinite.subset fun u hu hidle => hu ?_
      rw [(of_other hs (t := u) (by rw [ht]; simp)).1, hidle]
    | some t =>
      refine (hfinite.insert t).subset fun u hu => ?_
      by_cases e : u = t
      · exact .inl e
      · refine .inr fun hidle => hu ?_
        rw [(of_other hs (t := u) (by rw [ht]; simpa using Ne.symm e)).1, hidle]

/-- The steps before the threads of a set, and before the children. -/
def Config.potential (c : Config) (T : Finset Tid) : Nat := ∑ t ∈ T, c.left t + c.firmware.running

theorem potential_step (hi : Inv c) {T : Finset Tid} (hT : c.busy ⊆ T) (hs : step c l = some c')
    (hl : l.asks = false) : c'.potential T < c.potential T := by
  unfold Config.potential
  cases ht : l.thread with
  | some t =>
    have hmem : t ∈ T := hT (busy_of_step hi hs hl ht)
    have hlt := left_own hi hs hl ht
    have hother : ∑ u ∈ T.erase t, c'.left u = ∑ u ∈ T.erase t, c.left u := by
      refine Finset.sum_congr rfl fun u hu => ?_
      have hu' : l.thread ≠ some u := by
        rw [ht]
        exact fun e => (Finset.mem_erase.1 hu).1 (Option.some.inj e).symm
      obtain ⟨hframe, hpc⟩ := of_other hs hu'
      unfold Config.left
      rw [hframe, hpc]
    rw [← Finset.add_sum_erase T c'.left hmem, ← Finset.add_sum_erase T c.left hmem, hother]
    omega
  | none =>
    -- a script ends
    have hsame : ∀ u, c'.left u = c.left u := by
      intro u
      obtain ⟨hframe, hpc⟩ := of_other hs (t := u) (by rw [ht]; simp)
      unfold Config.left
      rw [hframe, hpc]
    simp only [hsame]
    cases step_cases hs with
    | firmware inner firmware =>
      rcases FirmwareFSM.left_step hi.firmware firmware inner with ⟨u, hu, -⟩ | ⟨-, -, hlt⟩
      · rw [show FirmwareFSM.Label.thread _ = none from ht] at hu
        cases hu
      · exact Nat.add_lt_add_left hlt _
    | _ => cases ht

theorem potential_run {ls : List Label} (hi : Inv c) {T : Finset Tid} (hT : c.busy ⊆ T)
    (h : Lts.run step c ls = some c') (hls : ∀ l ∈ ls, l.asks = false) :
    Inv c' ∧ c'.busy ⊆ T ∧ c'.potential T + ls.length ≤ c.potential T := by
  refine Lts.run_induction (P := fun ls c' => (∀ l ∈ ls, l.asks = false) →
    Inv c' ∧ c'.busy ⊆ T ∧ c'.potential T + ls.length ≤ c.potential T)
    (fun _ => ⟨hi, hT, Nat.le_refl _⟩) (fun ls m l c' _ ih hs hls => ?_) h hls
  obtain ⟨him, hTm, hle⟩ := ih fun l hl => hls l (List.mem_append_left _ hl)
  have hl := hls l (by simp)
  have hlt := potential_step him hTm hs hl
  refine ⟨inv_step him hs, (busy_step him hs hl).trans hTm, ?_⟩
  rw [List.length_append, List.length_singleton]
  omega

/-- A thread that waits for a script has few steps before it. -/
theorem left_of_wait {op : FirmwareFSM.Op} {pid : Pid} (hi : Inv c)
    (pc : c.firmware.pc t = .wait op pid) : c.left t = 6 := by
  have hplaced := hi.placed t
  unfold Config.left
  rw [pc] at hplaced ⊢
  cases hframe : c.frame t with
  | firmware op => rfl
  | describing | stateCheck _ _ | portRead _ _ =>
    rw [hframe] at hplaced
    rcases hplaced with h | h | ⟨v, -, h | h⟩ <;> cases h
  | _ =>
    rw [hframe] at hplaced
    cases hplaced

theorem potential_le (hi : Inv c) {T : Finset Tid} (hT : c.busy ⊆ T) :
    c.potential T ≤ 15 * T.card := by
  unfold Config.potential
  have hsum : ∀ U : Finset Tid, ∑ t ∈ U, c.left t ≤ 15 * U.card := by
    intro U
    have := Finset.sum_le_card_nsmul U c.left 15 fun t _ => left_le (hi.placed t)
    simpa [Nat.mul_comm] using this
  rcases Nat.eq_zero_or_pos c.firmware.running with hzero | hpos
  · rw [hzero]
    exact hsum T
  · obtain ⟨t, op, pid, pc⟩ := FirmwareFSM.waits_of_running hi.firmware.phase hpos
    have hleft := left_of_wait hi pc
    have hmem : t ∈ T := hT fun hidle => by
      unfold Config.left at hleft
      rw [hidle] at hleft
      cases hleft
    have hone := FirmwareFSM.running_le_one hi.firmware.phase
    have hrest := hsum (T.erase t)
    have hcard := Finset.card_erase_add_one hmem
    rw [← Finset.add_sum_erase T c.left hmem, hleft]
    omega

/-! ## Rest -/

/-- No thread is in the handler, both mutexes are free, no child is left and no action is in progress. -/
structure AtRest (c : Config) : Prop where
  idle : ∀ t, c.frame t = .idle
  outside : ∀ t, c.firmware.pc t = .idle
  mutex : c.mutex = none
  firmwareMutex : c.firmware.mutex = none
  state : c.firmware.state ≠ .transition
  children : c.firmware.children = []

theorem atRest_of_idle (hi : Inv c) (hidle : ∀ t, c.frame t = .idle) : AtRest c := by
  have houtside : ∀ t, c.firmware.pc t = .idle := by
    intro t
    have hplaced := hi.placed t
    rw [hidle t] at hplaced
    exact hplaced
  have hphase : c.firmware.state ≠ .transition ∧ c.firmware.children = [] := by
    cases hi.firmware.phase with
    | quiet _ state _ children => exact ⟨state, children⟩
    | busy t op active =>
      rw [houtside t] at active
      cases active
  refine ⟨hidle, houtside, ?_, ?_, hphase.1, hphase.2⟩
  · cases hm : c.mutex with
    | none => rfl
    | some t =>
      have hholds := (hi.owned t).2 hm
      rw [hidle t] at hholds
      cases hholds
  · cases hm : c.firmware.mutex with
    | none => rfl
    | some t =>
      have hholds := (hi.firmware.owned t).2 hm
      rw [houtside t] at hholds
      cases hholds

theorem CanStep.enabled (h : CanStep c t) : ∃ l c', l.asks = false ∧ step c l = some c' := by
  obtain ⟨l, c', ht, hl, hs⟩ := h
  refine ⟨l, c', ?_, hs⟩
  cases l with
  | request u r =>
    cases ht
    exact absurd rfl (hl r)
  | _ => rfl

/-- Short of rest some step can be taken that is no arrival. -/
theorem enabled_of_busy (hi : Inv c) (hn : NoStart c) (h : t ∈ c.busy) :
    ∃ l c', l.asks = false ∧ step c l = some c' := by
  rcases progress hi hn h with hstep | hlock | hfirmware | ⟨op, own, -, hchildren⟩
  · exact hstep.enabled
  · obtain ⟨u, hu, -⟩ := handler_progress hi hn hlock
    exact hu.enabled
  · obtain ⟨u, hu, -⟩ := firmware_progress hi hfirmware
    exact hu.enabled
  · -- the script ends
    refine ⟨.firmware (.exit own (.exited 0)), { c with firmware := { c.firmware with
      children := FirmwareFSM.setStatus c.firmware.children own (.exited 0) } }, rfl, ?_⟩
    simp [step, internal, FirmwareFSM.step, hchildren]

/-- **The handler comes to rest.** From every reachable configuration, whoever is scheduled and however
forks, scripts and ports behave, a run in which no new request arrives has at most 15 steps for each
thread inside a request, and wherever it stops the handler is at rest or can go on. -/
theorem comes_to_rest {port : Text} (h : Reachable port c) :
    c.busy.Finite ∧ ∀ ls c', Lts.run step c ls = some c' → (∀ l ∈ ls, l.asks = false) →
      ls.length ≤ 15 * c.busy.ncard ∧
        (AtRest c' ∨ ∃ l c'', l.asks = false ∧ step c' l = some c'') := by
  have hfinite := h.finite_busy
  refine ⟨hfinite, fun ls c' hrun hls => ?_⟩
  have hT : c.busy ⊆ hfinite.toFinset := by simp
  obtain ⟨hi', -, hle⟩ := potential_run h.inv hT hrun hls
  have hbound := potential_le h.inv hT
  refine ⟨?_, ?_⟩
  · rw [Set.ncard_eq_toFinset_card _ hfinite]
    omega
  · by_cases hidle : ∀ t, c'.frame t = .idle
    · exact .inl (atRest_of_idle hi' hidle)
    · obtain ⟨t, ht⟩ := not_forall.1 hidle
      obtain ⟨pre, hpre⟩ := h
      have hn : NoStart c' := Reachable.noStart ⟨pre ++ ls, by rw [Lts.run_append hpre, hrun]⟩
      exact .inr (enabled_of_busy hi' hn ht)

/-- `GetStatus`, `Start` and `Reset` contend for the two mutexes. -/
theorem comes_to_rest_contended :
    ∃ c, Lts.run step (Config.init []) contendedRun = some c ∧ c.busy.Finite ∧
      ∀ ls c', Lts.run step c ls = some c' → (∀ l ∈ ls, l.asks = false) →
        ls.length ≤ 15 * c.busy.ncard ∧
          (AtRest c' ∨ ∃ l c'', l.asks = false ∧ step c' l = some c'') :=
  ⟨_, rfl, @comes_to_rest _ [] ⟨contendedRun, rfl⟩⟩

theorem Reachable.next {port : Text} (h : Reachable port c) (hs : step c l = some c') :
    Reachable port c' := by
  obtain ⟨ls, hls⟩ := h
  exact ⟨ls ++ [l], by rw [Lts.run_snoc hls, hs]⟩

theorem drains {port : Text} (h : Reachable port c) :
    ∃ c', Lts.Leads step (fun l => l.asks = false) c c' ∧ AtRest c' := by
  have hT : c.busy ⊆ h.finite_busy.toFinset := by simp
  have next : ∀ s, (Reachable port s ∧ s.busy ⊆ h.finite_busy.toFinset) → ¬ AtRest s →
      ∃ l s', l.asks = false ∧ step s l = some s' ∧
        (Reachable port s' ∧ s'.busy ⊆ h.finite_busy.toFinset) ∧
        s'.potential h.finite_busy.toFinset < s.potential h.finite_busy.toFinset := by
    rintro s ⟨hreach, hsub⟩ hrest
    have hbusy : ∃ t, t ∈ s.busy := by
      by_contra hnone
      exact hrest (atRest_of_idle hreach.inv fun t => not_not.1 fun ht => hnone ⟨t, ht⟩)
    obtain ⟨t, ht⟩ := hbusy
    obtain ⟨l, s', hl, hs⟩ := enabled_of_busy hreach.inv hreach.noStart ht
    refine ⟨l, s', hl, hs, ⟨hreach.next hs, ?_⟩, potential_step hreach.inv hsub hs hl⟩
    exact (busy_step hreach.inv hs hl).trans hsub
  obtain ⟨c', hleads, -, hrest⟩ :=
    Lts.leads_of_descent (fun s => s.potential h.finite_busy.toFinset) next c ⟨h, hT⟩
  exact ⟨c', hleads, hrest⟩

/-! ## Recovery -/

/-- A step of thread `t`, or the end of a script. -/
def Label.alone (t : Tid) (l : Label) : Prop := ∀ u, l.thread = some u → u = t

/-- A firmware operation of thread `t` from the call on, with a script that ends well. -/
def operate (t : Tid) (pid : Pid) : List Label :=
  [.step t, .firmware (.step t), .firmware (.step t), .firmware (.step t),
    .firmware (.fork t (.ok pid)), .firmware (.exit pid (.exited 0)), .firmware (.wait t pid),
    .firmware (.step t), .firmware (.step t), .firmware (.step t), .step t, .reply t]

def Config.operated (c : Config) (op : FirmwareFSM.Op) : Config :=
  { c with firmware := { c.firmware with
      toFirmwareFSM := (c.firmware.claim op.routine).setState op.routine.finalState } }

theorem AtRest.operated (h : AtRest c) (op : FirmwareFSM.Op) : AtRest (c.operated op) where
  idle := h.idle
  outside := h.outside
  mutex := h.mutex
  firmwareMutex := h.firmwareMutex
  state := by cases op <;> nofun
  children := h.children

theorem AtRest.frame_eq (h : AtRest c) (t : Tid) : Function.update c.frame t .idle = c.frame := by
  rw [← h.idle t, Function.update_eq_self]

/-- At rest a thread in front of a firmware operation the state allows carries it out. -/
theorem AtRest.run_operate {op : FirmwareFSM.Op} (h : AtRest c) (t : Tid)
    (hstate : c.firmware.checkState op.routine.expectedStates = true) :
    Lts.run step (c.goto t (.enter op)) (operate t 0) = some (c.operated op) := by
  have hmutex := h.firmwareMutex
  have hchildren := h.children
  have hidle := h.outside t
  have hframe := h.frame_eq t
  have hpc : Function.update c.firmware.pc t .idle = c.firmware.pc := by
    rw [← hidle, Function.update_eq_self]
  obtain ⟨⟨⟨⟩⟩⟩ := c
  simp_all [operate, Config.operated, Lts.run, step, Config.next, Config.goto, Config.call,
    Config.ret, internal, FirmwareFSM.step, FirmwareFSM.Config.next, FirmwareFSM.Config.goto,
    FirmwareFSM.Call.entry, FirmwareFSM.setStatus, FirmwareFSM.reapable, FirmwareFSM.claim,
    FirmwareFSM.setState, FirmwareFSM.newState, checkStatus, FirmwareFSM.result,
    FirmwareFSM.checkState]

theorem AtRest.run_disconnect (h : AtRest c) (t : Tid) (acquired : c.acquired = true) :
    Lts.run step c [.request t .disconnect, .step t, .step t, .step t, .reply t] =
      some { c with acquired := false } := by
  have hidle := h.idle t
  have hmutex := h.mutex
  have hframe := h.frame_eq t
  cases c
  simp_all [Lts.run, step, Request.entry, Config.next, Config.goto, Config.enterSection, Next.frame]

theorem AtRest.run_reset (h : AtRest c) (t : Tid) (free : c.acquired = false) :
    Lts.run step c [.request t .reset, .step t, .step t, .step t] =
      some (c.goto t (.enter .resetChip)) := by
  have hidle := h.idle t
  have hmutex := h.mutex
  cases c
  simp_all [Lts.run, step, Request.entry, Config.next, Config.goto, Config.enterSection,
    Config.ensureNotAcquired, Next.frame]

/-- `Connect` at rest in `Running`: two getters of the firmware, then the port is cleared. -/
theorem AtRest.run_connect (h : AtRest c) (t : Tid) (name : Text) (pid : Int32)
    (free : c.acquired = false) (running : c.firmware.state = .running) :
    Lts.run step c ([.request t (.connect name pid), .step t, .step t, .firmware (.step t),
        .firmware (.step t), .firmware (.step t), .step t, .step t, .firmware (.step t),
        .firmware (.step t), .firmware (.step t), .step t, .clearPort t (.ok ()), .step t, .step t,
        .reply t]) =
      some { c with acquired := true, userName := name, userPid := pid } := by
  have hidle := h.idle t
  have hmutex := h.mutex
  have hframe := h.frame_eq t
  have hfirmware := h.firmwareMutex
  have houtside := h.outside t
  have hpc : Function.update c.firmware.pc t .idle = c.firmware.pc := by
    rw [← houtside, Function.update_eq_self]
  obtain ⟨⟨⟨⟩⟩⟩ := c
  simp_all [Lts.run, step, Request.entry, Config.next, Config.goto, Config.enterSection,
    Config.ensureNotAcquired, Config.call, Config.ret, internal, FirmwareFSM.step,
    FirmwareFSM.Config.next, FirmwareFSM.Config.goto, FirmwareFSM.Call.entry, FirmwareFSM.get,
    Next.frame]

/-- A client alone at rest takes the port from whoever holds it and resets the chip. -/
theorem AtRest.leads_boot (h : AtRest c) (t : Tid) :
    ∃ c', Lts.Leads step (Label.alone t) c c' ∧ AtRest c' ∧ c'.firmware.state = .boot ∧
      c'.acquired = false := by
  have release : ∃ c', Lts.Leads step (Label.alone t) c c' ∧ AtRest c' ∧ c'.acquired = false := by
    cases acquired : c.acquired with
    | false => exact ⟨c, .refl c, h, acquired⟩
    | true =>
      refine ⟨{ c with acquired := false }, ⟨_, ?_, h.run_disconnect t acquired⟩,
        ⟨h.idle, h.outside, h.mutex, h.firmwareMutex, h.state, h.children⟩, rfl⟩
      simp [Label.alone, Label.thread]
  obtain ⟨c₁, hleads, hrest, free⟩ := release
  have hstate : c₁.firmware.checkState FirmwareFSM.Op.resetChip.routine.expectedStates = true := by
    have := hrest.state
    cases hs : c₁.firmware.state with
    | transition => exact absurd hs this
    | _ => simp [FirmwareFSM.checkState, FirmwareFSM.Op.routine, FirmwareFSM.resetChip, hs]
  refine ⟨c₁.operated .resetChip, hleads.trans (Lts.Leads.trans ⟨_, ?_, hrest.run_reset t free⟩
    ⟨_, ?_, hrest.run_operate t hstate⟩), hrest.operated _, rfl, free⟩
  · simp [Label.alone, Label.thread]
  · simp [operate, Label.alone, Label.thread, FirmwareFSM.Label.thread]

/-- A client alone at rest starts the firmware and takes the port. -/
theorem AtRest.leads_connected (h : AtRest c) (t : Tid) (name : Text) (pid : Int32)
    (boot : c.firmware.state = .boot) (free : c.acquired = false) :
    ∃ c', Lts.Leads step (Label.alone t) c c' ∧ AtRest c' ∧ c'.firmware.state = .running ∧
      c'.acquired = true ∧ c'.userName = name ∧ c'.userPid = pid := by
  have hstate : c.firmware.checkState FirmwareFSM.Op.startFirmware.routine.expectedStates = true := by
    simp [FirmwareFSM.checkState, FirmwareFSM.Op.routine, FirmwareFSM.startFirmware, boot]
  have hask : step c (.request t .start) = some (c.goto t (.enter .startFirmware)) := by
    simp [step, h.idle t, Request.entry]
  have hrest : AtRest (c.operated .startFirmware) := h.operated _
  refine ⟨_, (Lts.Leads.one ?_ hask).trans (Lts.Leads.trans ⟨_, ?_, h.run_operate t hstate⟩
    ⟨_, ?_, hrest.run_connect t name pid free rfl⟩),
    ⟨h.idle, h.outside, h.mutex, h.firmwareMutex, hrest.state, h.children⟩, rfl, rfl, rfl, rfl⟩
  · simp [Label.alone, Label.thread]
  · simp [operate, Label.alone, Label.thread, FirmwareFSM.Label.thread]
  · simp [Label.alone, Label.thread, FirmwareFSM.Label.thread]

/-- **A client can bring the handler back.** From every reachable configuration, whoever holds the port
and whatever is in progress, the handler can come to rest without new requests, as the scripts end and
the ports run dry. And from rest, whoever holds the port and also in `Fault`, any one client alone can
bring it to rest in `Boot` with the port free, and from there to rest in `Running` with the port in
that client's name, by scripts of its own that succeed. -/
theorem recovers {port : Text} (h : Reachable port c) (t : Tid) (name : Text) (pid : Int32) :
    (∃ c₀, Lts.Leads step (fun l => l.asks = false) c c₀ ∧ AtRest c₀) ∧
    ∀ c₀, AtRest c₀ → ∃ c₁ c₂, Lts.Leads step (Label.alone t) c₀ c₁ ∧ AtRest c₁ ∧
      c₁.firmware.state = .boot ∧ c₁.acquired = false ∧ Lts.Leads step (Label.alone t) c₁ c₂ ∧
      AtRest c₂ ∧ c₂.firmware.state = .running ∧ c₂.acquired = true ∧ c₂.userName = name ∧
      c₂.userPid = pid := by
  refine ⟨drains h, fun c₀ hrest₀ => ?_⟩
  obtain ⟨c₁, hboot, hrest₁, boot, free⟩ := hrest₀.leads_boot t
  obtain ⟨c₂, hconnected, hrest₂, state, acquired, hname, hpid⟩ :=
    hrest₁.leads_connected t name pid boot free
  exact ⟨c₁, c₂, hboot, hrest₁, boot, free, hconnected, hrest₂, state, acquired, hname, hpid⟩

/-- `GetStatus`, `Start` and `Reset` of others contend for the mutexes; then thread 3 recovers. -/
theorem recovers_contended :
    ∃ c, Lts.run step (Config.init []) contendedRun = some c ∧
      (∃ c₀, Lts.Leads step (fun l => l.asks = false) c c₀ ∧ AtRest c₀) ∧
      ∀ c₀, AtRest c₀ → ∃ c₁ c₂, Lts.Leads step (Label.alone 3) c₀ c₁ ∧ AtRest c₁ ∧
        c₁.firmware.state = .boot ∧ c₁.acquired = false ∧ Lts.Leads step (Label.alone 3) c₁ c₂ ∧
        AtRest c₂ ∧ c₂.firmware.state = .running ∧ c₂.acquired = true ∧
        c₂.userName = ascii "cli" ∧ c₂.userPid = 7 :=
  ⟨_, rfl, @recovers _ [] ⟨contendedRun, rfl⟩ 3 (ascii "cli") 7⟩

end HandlerImpl

end MbDaemon
