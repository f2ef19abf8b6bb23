import MbDaemon.FirmwareFSM.Exclusion

/-!
# The firmware lifecycle

What an observer of the state machine sees are actions that begin, actions that finish, calls that
are turned away and descriptions that are read. While nothing is in progress the state is the
outcome of the last finished action; the constructor's reset counts as the first one.
-/

namespace MbDaemon

open HwUtils

namespace FirmwareFSM

inductive Event where
  | began (t : Tid) (op : Op)
  | rejected (t : Tid) (op : Op)
  | finished (t : Tid) (op : Op) (thrown : Option ExecError)
  | described (t : Tid) (d : String)
  deriving DecidableEq

/-- What a step shows: the decision of the check, the final `SetState`, a description read. -/
def observe (c : Config) : Label → List Event
  | .step t =>
    match c.pc t with
    | .check op =>
      if c.checkState op.routine.expectedStates then [.began t op] else [.rejected t op]
    | .setWork op e => [.finished t op e]
    | .getWork .getStateDescription => [.described t c.getStateDescription]
    | _ => []
  | _ => []

/-- The last finished action and what it threw; to begin with, the constructor's reset. -/
def lastFinished (h : List Event) : Op × Option ExecError :=
  h.foldl (fun last e => match e with
    | .finished _ op thrown => (op, thrown)
    | _ => last) (.resetChip, none)

/-- The state a finished action leaves the chip in. -/
def outcome : Op × Option ExecError → FWState
  | (_, some _) => .fault
  | (.startFirmware, none) => .running
  | (.resetChip, none) => .boot
  | (.flashBootlader _, none) => .boot

theorem newState_eq_outcome (op : Op) (e : Option ExecError) : newState op e = outcome (op, e) := by
  cases e with
  | some _ => rfl
  | none => cases op <;> rfl

theorem lastFinished_append (h : List Event) (es : List Event)
    (hes : ∀ t op e, Event.finished t op e ∉ es) : lastFinished (h ++ es) = lastFinished h := by
  induction es using List.reverseRecOn with
  | nil => simp
  | append_singleton es e ih =>
    have ih := ih fun t op e' hm => hes t op e' (List.mem_append_left _ hm)
    unfold lastFinished at ih ⊢
    rw [← List.append_assoc, List.foldl_append, ih]
    cases e with
    | finished t op e' =>
      exact absurd (List.mem_append_right _ (List.mem_singleton_self _)) (hes t op e')
    | began | rejected | described => rfl

theorem lastFinished_finished (h : List Event) (t : Tid) (op : Op) (e : Option ExecError) :
    lastFinished (h ++ [.finished t op e]) = (op, e) := by
  simp [lastFinished]

/-! ## The state between actions -/

def Quiet (c : Config) : Prop := ∀ t, (c.pc t).active = none

/-- A step that leaves the object quiet is the end of an action, or finds it quiet with the same
state and finishes nothing. -/
theorem quiet_step {c c' : Config} {l : Label} (hs : step c l = some c')
    (hq : Quiet c') :
    (∃ t op e, observe c l = [.finished t op e] ∧ c'.state = newState op e) ∨
    (Quiet c ∧ c'.state = c.state ∧ ∀ t op e, Event.finished t op e ∉ observe c l) := by
  have hstep := step_cases hs
  by_cases hfin : ∃ t op e, l = .step t ∧ c.pc t = .setWork op e
  · obtain ⟨t, op, e, rfl, pc⟩ := hfin
    left
    refine ⟨t, op, e, by simp [observe, pc], ?_⟩
    simp only [step, Config.next, pc, Option.some.injEq] at hs
    subst hs
    rfl
  right
  -- apart from the final `SetState`, an active thread stays active
  have hback : ∀ u op, (c.pc u).active = some op → ∃ op', (c'.pc u).active = some op' := by
    intro u op hu
    cases hstep with
    | exit => exact ⟨op, hu⟩
    | @setWork t op e pc => exact absurd ⟨t, op, e, rfl, pc⟩ hfin
    | @unlock t op ok pc =>
      by_cases e : u = t
      · subst e; rw [pc] at hu
        cases ok with
        | true => exact ⟨op, by simp [Config.goto, Pc.active]⟩
        | false => cases hu
      · exact ⟨_, by simpa [Config.goto, e] using hu⟩
    | @call t | @lock t | @accept t | @refuse t | @reject t | @forkFail t | @fork t | @wait t
    | @waitFail t | @setLock t | @setUnlock t | @getLock t | @getWork t | @getUnlock t | @ret t =>
      rename_i pc
      by_cases e : u = t
      · subst e
        simp_all [Config.goto, Pc.active]
      · exact ⟨_, by simpa [Config.goto, e] using hu⟩
  have hqc : Quiet c := by
    intro u
    cases hu : (c.pc u).active with
    | none => rfl
    | some op =>
      obtain ⟨op', hop'⟩ := hback u op hu
      rw [hq u] at hop'
      cases hop'
  refine ⟨hqc, ?_, ?_⟩
  · cases hstep with
    | @accept t op => exact absurd (hq t) (by simp [Config.goto, Pc.active])
    | @setWork t op e pc => exact absurd ⟨t, op, e, rfl, pc⟩ hfin
    | _ => rfl
  · intro t op e hm
    cases l with
    | step u =>
      simp only [observe] at hm
      split at hm
      · split at hm <;> simp at hm
      · exact hfin ⟨u, _, _, rfl, ‹_›⟩
      · simp at hm
      · simp at hm
    | _ => simp [observe] at hm

theorem lifecycle_state {port : Text} {ls : List Label} {c : Config}
    (h : Lts.run step (Config.init port) ls = some c) (hq : Quiet c) :
    c.state = outcome (lastFinished (Lts.history step observe (Config.init port) ls)) := by
  refine Lts.run_induction
    (P := fun ls c => Quiet c →
      c.state = outcome (lastFinished (Lts.history step observe (Config.init port) ls)))
    (fun _ => rfl) (fun ls c l c' hr ih hs hq => ?_) h hq
  rw [Lts.history_snoc hr]
  rcases quiet_step hs hq with ⟨t, op, e, hobs, hstate⟩ | ⟨hqc, hstate, hnone⟩
  · rw [hobs, lastFinished_finished, hstate, newState_eq_outcome]
  · rw [lastFinished_append _ _ hnone, hstate, ih hqc]

theorem began_cases {c : Config} {l : Label} {t : Tid} {op : Op} (h : .began t op ∈ observe c l) :
    c.pc t = .check op ∧ c.state ∈ op.routine.expectedStates := by
  cases l with
  | step u =>
    simp only [observe] at h
    split at h
    · rename_i op' pc
      split at h
      · rename_i ok
        simp only [List.mem_singleton, Event.began.injEq] at h
        obtain ⟨rfl, rfl⟩ := h
        exact ⟨pc, checkState_eq_true.1 ok⟩
      · simp at h
    all_goals simp at h
  | _ => simp [observe] at h

theorem quiet_of_began {c : Config} (h : Inv c) {l : Label} {t : Tid} {op : Op}
    (hb : .began t op ∈ observe c l) : Quiet c := by
  obtain ⟨-, hmem⟩ := began_cases hb
  cases h.phase with
  | quiet none_active => exact none_active
  | busy _ _ _ _ state => rw [state] at hmem; exact absurd hmem (transition_not_expected op)

/-- Only a successful reset or flash leaves the chip in `Boot`. -/
theorem outcome_eq_boot {last : Op × Option ExecError} (h : outcome last = .boot) :
    last = (.resetChip, none) ∨ ∃ firmware, last = (.flashBootlader firmware, none) := by
  obtain ⟨op, e⟩ := last
  cases e with
  | some _ => cases h
  | none =>
    cases op with
    | resetChip => exact .inl rfl
    | flashBootlader firmware => exact .inr ⟨firmware, rfl⟩
    | startFirmware => cases h

theorem expected_boot {op : Op} (hop : op ≠ .resetChip) {s : FWState}
    (h : s ∈ op.routine.expectedStates) : s = .boot := by
  cases op with
  | resetChip => exact absurd rfl hop
  | flashBootlader _ | startFirmware =>
    simpa [Op.routine, flashBootlader, startFirmware] using h

/-! ## Calls that are turned away -/

/-- The points of a transition call whose check has not been passed. -/
def Pc.turnedAway : Pc → Bool
  | .lock _ | .check _ | .unlock _ false | .reject _ | .done (.threw (.fsm _ _ _)) => true
  | _ => false

/-- The points of a transition call after its accepted check. -/
def Pc.accepted : Pc → Bool
  | .unlock _ true | .act _ | .wait _ _ | .setLock _ _ | .setWork _ _ | .setUnlock _ _ => true
  | .done .returned | .done (.threw (.execute _)) => true
  | _ => false

/-- The step, if it is `t`'s, runs no action and changes neither the state nor the name. -/
def Harmless (t : Tid) (c : Config) (l : Label) : Prop :=
  l.thread = some t → ∀ c', step c l = some c' →
    c'.state = c.state ∧ c'.routineName = c.routineName ∧ (c'.pc t).inAction = false

theorem accepted_step {c c' : Config} {l : Label} (hs : step c l = some c') {t : Tid}
    (hl : l ≠ .ret t) (h : (c.pc t).accepted = true) : (c'.pc t).accepted = true := by
  by_cases ht : l.thread = some t
  · cases step_cases hs with
    | exit => cases ht
    | @unlock u op ok pc =>
      cases ht
      rw [pc] at h
      cases ok with
      | true => simp [Config.goto, Pc.accepted]
      | false => cases h
    | @setUnlock u op e pc =>
      cases ht
      cases e <;> simp [Config.goto, Pc.accepted, result]
    | ret => cases ht; exact absurd rfl hl
    | _ =>
      rename_i pc
      cases ht
      simp_all [Config.goto, Pc.accepted]
  · rwa [pc_of_other hs ht]

/-- A step before the check is passed is harmless, or it is the accepted check. -/
theorem turnedAway_step {c c' : Config} {l : Label} (hs : step c l = some c') {t : Tid}
    (hl : l ≠ .ret t) (h : (c.pc t).turnedAway = true) :
    ((c'.pc t).turnedAway = true ∧ Harmless t c l) ∨ (c'.pc t).accepted = true := by
  by_cases ht : l.thread = some t
  · cases step_cases hs with
    | exit => cases ht
    | accept pc => cases ht; exact .inr (by simp [Config.goto, Pc.accepted])
    | @unlock u op ok pc =>
      cases ht
      rw [pc] at h
      cases ok with
      | true => cases h
      | false =>
        refine .inl ⟨by simp [Config.goto, Pc.turnedAway], fun _ c'' hs'' => ?_⟩
        rw [hs] at hs''
        cases hs''
        exact ⟨rfl, rfl, by simp [Config.goto, Pc.inAction]⟩
    | lock pc | refuse pc | reject pc =>
      cases ht
      refine .inl ⟨by simp [Config.goto, Pc.turnedAway], fun _ c'' hs'' => ?_⟩
      rw [hs] at hs''
      cases hs''
      exact ⟨rfl, rfl, by simp [Config.goto, Pc.inAction]⟩
    | ret => cases ht; exact absurd rfl hl
    | _ =>
      rename_i pc
      cases ht
      simp_all [Pc.turnedAway]
  · exact .inl ⟨by rwa [pc_of_other hs ht], fun h' => absurd h' ht⟩

/-- Until its call returns, a thread whose check was refused has taken harmless steps only. -/
theorem harmless_of_rejected {c₁ c : Config} {t : Tid} {op : Op} {ls : List Label}
    (hstart : c₁.pc t = .lock op) (hr : Lts.run step c₁ ls = some c) (hret : ∀ l ∈ ls, l ≠ .ret t)
    {o : String} {g : FWState} {e : List FWState} (hc : c.pc t = .done (.threw (.fsm o g e))) :
    Lts.Along step (Harmless t) c₁ ls := by
  have key := @Lts.run_induction _ _ step c₁
    (fun ls c => (∀ l ∈ ls, l ≠ .ret t) →
      ((c.pc t).turnedAway = true ∧ Lts.Along step (Harmless t) c₁ ls) ∨
        (c.pc t).accepted = true)
    (fun _ => .inl ⟨by rw [hstart]; rfl, .nil⟩)
    (fun ls c l c' hr ih hs hret => by
      have hl : l ≠ .ret t := hret l (by simp)
      rcases ih (fun l' hl' => hret l' (List.mem_append_left _ hl')) with ⟨hturned, hal⟩ | hacc
      · rcases turnedAway_step hs hl hturned with ⟨h1, h2⟩ | h1
        · exact .inl ⟨h1, hal.snoc hr h2⟩
        · exact .inr h1
      · exact .inr (accepted_step hs hl hacc)) _ _ hr hret
  rcases key with ⟨-, hal⟩ | hacc
  · exact hal
  · rw [hc] at hacc; cases hacc

/-! ## The lifecycle -/

/-- **The firmware lifecycle.** In every run: while nothing is in progress the state is the outcome
of the last finished action; an action begins only then, a flash or a start only after a successful
reset or flash, and out of `Fault` only a reset; a call that ends in an `FSMException` has run no
action and changed neither the state nor the routine's name; and a description read while an action
is in progress is that action's routine name. -/
theorem lifecycle {port : Text} {ls : List Label} {c : Config}
    (h : Lts.run step (Config.init port) ls = some c) :
    (Quiet c →
      c.state = outcome (lastFinished (Lts.history step observe (Config.init port) ls))) ∧
    (∀ l t op, .began t op ∈ observe c l → Quiet c ∧ (c.state = .fault → op = .resetChip) ∧
      (op ≠ .resetChip →
        lastFinished (Lts.history step observe (Config.init port) ls) = (.resetChip, none) ∨
        ∃ firmware, lastFinished (Lts.history step observe (Config.init port) ls) =
          (.flashBootlader firmware, none))) ∧
    (∀ t op c₁ ms c₂, step c (.call t (.transition op)) = some c₁ →
      Lts.run step c₁ ms = some c₂ → (∀ l ∈ ms, l ≠ .ret t) →
      ∀ o g e, c₂.pc t = .done (.threw (.fsm o g e)) → Lts.Along step (Harmless t) c₁ ms) ∧
    (∀ t u op, (c.pc u).active = some op → c.pc t = .getWork .getStateDescription →
      ∀ c', step c (.step t) = some c' →
        c'.pc t = .getUnlock (.description op.routine.name) ∧ op.routine.name ≠ Routines.empty) := by
  have hreach : Reachable port c := ⟨ls, h⟩
  have hinv := hreach.inv
  refine ⟨lifecycle_state h, fun l t op hb => ?_, fun t op c₁ ms c₂ hs hr hret o g e hc => ?_,
    fun t u op hu pc c' hs => ?_⟩
  · have hq := quiet_of_began hinv hb
    obtain ⟨-, hmem⟩ := began_cases hb
    refine ⟨hq, fun hf => ?_, fun hop => ?_⟩
    · by_contra hop
      rw [hf] at hmem
      cases expected_boot hop hmem
    · exact outcome_eq_boot ((lifecycle_state h hq).symm.trans (expected_boot hop hmem))
  · have hstart : c₁.pc t = .lock op := by
      cases step_cases hs
      simp [Config.goto, Call.entry]
    exact harmless_of_rejected hstart hr hret hc
  · obtain ⟨-, state, name, -⟩ := hinv.phase.of_active hu
    simp only [step, Config.next, pc, Option.some.injEq] at hs
    subst hs
    refine ⟨by simp [Config.goto, get, getStateDescription, state, name], ?_⟩
    cases op with
    | resetChip | startFirmware => decide
    | flashBootlader _ => exact (by decide : Routines.fwFlashing ≠ Routines.empty)

/-- A start whose script dies of a signal. -/
def faultRun : List Label :=
  [.call 0 (.transition .startFirmware), .step 0, .step 0, .step 0, .fork 0 (.ok 41),
    .exit 41 (.signaled 9), .wait 0 41, .step 0, .step 0, .step 0, .ret 0]

theorem lifecycle_fault :
    ∃ c, Lts.run step (Config.init []) faultRun = some c ∧
      (Quiet c → c.state = outcome (.startFirmware, some .abnormal)) :=
  ⟨_, rfl, (@lifecycle [] faultRun _ rfl).1⟩

end FirmwareFSM

end MbDaemon
