import MbDaemon.FirmwareFSM.Exclusion

/-!
# The state in the message

`DoTransition` tests the state inside the mutex and reads it again for the `FSMException` when the
mutex is free. In between a transition of another thread can finish, so that the message names as
the state it got one that it lists as expected. No thread throws such a message, or is about to,
exactly as long as no `SetState` publishes a state that a refused thread expects (`candid_iff`).
-/

namespace MbDaemon

open HwUtils

namespace FirmwareFSM

variable {c c' : Config} {l : Label} {ls : List Label} {t : Tid} {op : Op}

/-- The state that the message names is none of those it lists as expected. -/
def Exn.Truthful : Exn → Prop
  | .fsm _ got expected => stateToStr got ∉ expected.map stateToStr
  | .execute _ => True

instance : (x : Exn) → Decidable x.Truthful
  | .fsm _ got expected => inferInstanceAs (Decidable (stateToStr got ∉ expected.map stateToStr))
  | .execute _ => isTrue trivial

/-- What the calls have thrown is truthful. -/
def Honest (c : Config) : Prop := ∀ t x, c.pc t = .done (.threw x) → x.Truthful

/-- And stays so in the next step of any thread. -/
def Candid (c : Config) : Prop := Honest c ∧ ∀ t c', step c (.step t) = some c' → Honest c'

/-- `SetState` publishes no state that a thread expects which has been refused and has not built its
message yet. -/
def Undisturbed (c : Config) : Label → Prop
  | .step t => ∀ op thrown, c.pc t = .setWork op thrown →
      ∀ u refused, c.pc u = .reject refused →
        newState op thrown ∉ refused.routine.expectedStates
  | _ => True

theorem stateToStr_inj {s s' : FWState} (h : stateToStr s = stateToStr s') : s = s' := by
  cases s <;> cases s' <;> first | rfl | exact absurd h (by decide)

theorem truthful_iff {name : String} {got : FWState} {expected : List FWState} :
    (Exn.fsm name got expected).Truthful ↔ got ∉ expected := by
  refine not_congr ⟨fun h => ?_, fun h => List.mem_map_of_mem h⟩
  obtain ⟨s, hs, he⟩ := List.mem_map.1 h
  rwa [← stateToStr_inj he]

/-! ## Between the check and the message -/

/-- A refused thread that still holds the mutex does not expect the state. -/
def Refusing (c : Config) : Prop :=
  ∀ t op, c.pc t = .unlock op false → c.state ∉ op.routine.expectedStates

theorem Inv.inside_unique (h : Inv c) {u : Tid} (ht : (c.pc t).holds = true)
    (hu : (c.pc u).holds = true) : u = t := h.owned.unique hu ht

theorem refusing_step (hi : Inv c) (h : Refusing c) (hs : step c l = some c') : Refusing c' := by
  intro u op hu
  by_cases hl : l.thread = some u
  · cases step_cases hs with
    | exit => cases hl
    | refuse pc bad =>
      cases hl
      simp only [Config.goto, Function.update_self, Pc.unlock.injEq, and_true] at hu
      subst hu
      intro hmem
      rw [checkState_eq_true.2 (show c.state ∈ _ from hmem)] at bad
      cases bad
    | @call t k pc => cases hl; cases k <;> simp [Config.goto, Call.entry] at hu
    | @unlock t op ok pc => cases hl; cases ok <;> simp [Config.goto] at hu
    | _ => cases hl; simp [Config.goto] at hu
  · rw [pc_of_other hs hl] at hu
    have hheld : (c.pc u).holds = true := by rw [hu]; rfl
    cases step_cases hs with
    | accept pc => exact absurd (congrArg some (hi.inside_unique hheld (by rw [pc]; rfl))) hl
    | setWork pc => exact absurd (congrArg some (hi.inside_unique hheld (by rw [pc]; rfl))) hl
    | _ => exact h u op hu

theorem Reachable.refusing {port : Text} (h : Lts.run step (Config.init port) ls = some c) :
    Refusing c := by
  refine Lts.run_induction (P := fun _ c => Refusing c) (fun t op ht => (by cases ht))
    (fun ls s l s' hrun hr hs => ?_) h
  exact refusing_step (Reachable.inv ⟨ls, hrun⟩) hr hs

/-! ## The messages of a run -/

/-- A refused thread does not expect the state its message is about to name. -/
def Pending (c : Config) : Prop :=
  ∀ t op, c.pc t = .reject op → c.state ∉ op.routine.expectedStates

/-- What a step of a thread leaves in the configuration, when the thread goes to `p`. -/
theorem honest_update {p : Pc} (h : Honest c) (hpc : c'.pc = Function.update c.pc t p)
    (hp : ∀ x, p = .done (.threw x) → x.Truthful) : Honest c' := by
  intro u x hu
  rw [hpc] at hu
  by_cases ht : u = t
  · subst ht
    rw [Function.update_self] at hu
    exact hp x hu
  · rw [Function.update_of_ne ht] at hu
    exact h u x hu

/-- Only the message of a refused thread can be misleading. -/
theorem honest_step (h : Honest c) (hp : Pending c) (hs : step c l = some c') : Honest c' := by
  cases step_cases hs with
  | @call t k pc => exact honest_update h rfl fun x hx => by cases k <;> cases hx
  | @unlock t op ok pc => exact honest_update h rfl fun x hx => by cases ok <;> cases hx
  | @reject t op pc =>
    refine honest_update h rfl fun x hx => ?_
    cases hx
    exact truthful_iff.2 (hp t op pc)
  | @setUnlock t op thrown pc =>
    refine honest_update h rfl fun x hx => ?_
    cases thrown with
    | none => cases hx
    | some e => cases hx; trivial
  | exit => exact h
  | _ => exact honest_update h rfl fun x hx => by cases hx

/-- A thread that builds its message next shows what the message will say. -/
theorem candid_iff_pending : Candid c ↔ Honest c ∧ Pending c := by
  constructor
  · rintro ⟨h, hnext⟩
    refine ⟨h, fun t op pc => ?_⟩
    have hstep : step c (.step t) = some
        (c.goto t (.done (.threw (.fsm op.routine.name c.state op.routine.expectedStates)))) := by
      simp only [step, Config.next, pc]
    exact truthful_iff.1 (hnext t _ hstep t _ (Function.update_self _ _ _))
  · rintro ⟨h, hp⟩
    exact ⟨h, fun t c' hs => honest_step h hp hs⟩

theorem pending_of {p : Pc} (hpc : c'.pc = Function.update c.pc t p) (hp : ∀ op, p ≠ .reject op) :
    Pending c' ↔ ∀ u op, u ≠ t → c.pc u = .reject op → c'.state ∉ op.routine.expectedStates := by
  constructor
  · intro h u op hu hpcu
    refine h u op ?_
    rw [hpc, Function.update_of_ne hu, hpcu]
  · intro h u op hpcu
    rw [hpc] at hpcu
    by_cases hu : u = t
    · subst hu
      rw [Function.update_self] at hpcu
      exact absurd hpcu (hp op)
    · rw [Function.update_of_ne hu] at hpcu
      exact h u op hu hpcu

theorem Pending.keep {p : Pc} (h : Pending c) (hpc : c'.pc = Function.update c.pc t p)
    (hstate : c'.state = c.state) (hp : ∀ op, p ≠ .reject op) : Pending c' :=
  (pending_of hpc hp).2 fun u op _ hu => by rw [hstate]; exact h u op hu

/-- A thread that is not at its `SetState` disturbs nobody. -/
theorem undisturbed_of {p : Pc} (pc : c.pc t = p) (hp : ∀ op thrown, p ≠ .setWork op thrown) :
    Undisturbed c (.step t) :=
  fun op thrown pc' => absurd (pc.symm.trans pc') (hp op thrown)

/-- **A step keeps the pending messages truthful** iff it publishes no state that one of the refused
threads expects. -/
theorem pending_step (hr : Refusing c) (h : Pending c) (hs : step c l = some c') :
    Pending c' ↔ Undisturbed c l := by
  cases step_cases hs with
  | @setWork t op thrown pc =>
    rw [pending_of (t := t) rfl fun op' hop => by cases hop]
    constructor
    · intro hkeep op' thrown' pc' u refused hu
      rw [pc] at pc'
      cases pc'
      refine hkeep u refused ?_ hu
      rintro rfl
      rw [pc] at hu
      cases hu
    · exact fun hund u refused _ hu => hund op thrown pc u refused hu
  | @accept t op pc =>
    refine iff_of_true ?_ (undisturbed_of pc fun _ _ hp => by cases hp)
    rw [pending_of (t := t) rfl fun op' hop => by cases hop]
    exact fun u refused _ _ => transition_not_expected refused
  | @unlock t op ok pc =>
    refine iff_of_true ?_ (undisturbed_of pc fun _ _ hp => by cases hp)
    cases ok with
    | true => exact h.keep rfl rfl fun _ hp => by cases hp
    | false =>
      intro u refused hu
      by_cases ht : u = t
      · subst ht
        simp only [Config.goto, Bool.false_eq_true, if_false, Function.update_self,
          Pc.reject.injEq] at hu
        subst hu
        exact hr u op pc
      · simp only [Config.goto, Function.update_of_ne ht] at hu
        exact h u refused hu
  | @call t k pc => exact iff_of_true (h.keep rfl rfl fun _ hp => by cases k <;> cases hp) trivial
  | exit => exact iff_of_true h trivial
  | fork | forkFail | wait | waitFail | ret =>
    exact iff_of_true (h.keep rfl rfl fun _ hp => by cases hp) trivial
  | lock pc | refuse pc | reject pc | setLock pc | setUnlock pc | getLock pc | getWork pc
  | getUnlock pc =>
    exact iff_of_true (h.keep rfl rfl fun _ hp => by cases hp)
      (undisturbed_of pc fun _ _ hp => by cases hp)

/-- **Messages name the state that turned the call away.** In a run no thread has thrown a
misleading message, or throws one next, iff no `SetState` publishes a state that a thread expects
which stands between its refusal and its message. -/
theorem candid_iff {port : Text} (h : Lts.run step (Config.init port) ls = some c) :
    (∀ pre s, pre <+: ls → Lts.run step (Config.init port) pre = some s → Candid s) ↔
      Lts.Along step Undisturbed (Config.init port) ls := by
  refine Lts.always_iff_along ?_ (fun ls s l s' hrun hc hs => ?_) h
  · exact candid_iff_pending.2 ⟨fun t x hx => (by cases hx), fun t op ht => by cases ht⟩
  · obtain ⟨hhonest, hpending⟩ := candid_iff_pending.1 hc
    rw [candid_iff_pending, and_iff_right (honest_step hhonest hpending hs)]
    exact pending_step (Reachable.refusing hrun) hpending hs

/-- A flash is refused while a reset is in `wait()`, and throws before the reset has finished. -/
def promptRun : List Label :=
  [.call 0 (.transition .resetChip), .step 0, .step 0, .step 0, .fork 0 (.ok 41),
    .call 1 (.transition (.flashBootlader [])), .step 1, .step 1, .step 1, .step 1,
    .exit 41 (.exited 0), .wait 0 41, .step 0, .step 0, .step 0]

/-- The same flash throws after the reset has set the state. -/
def lateRun : List Label :=
  [.call 0 (.transition .resetChip), .step 0, .step 0, .step 0, .fork 0 (.ok 41),
    .call 1 (.transition (.flashBootlader [])), .step 1, .step 1, .step 1,
    .exit 41 (.exited 0), .wait 0 41, .step 0, .step 0, .step 0, .step 1]

theorem candid_iff_prompt :
    (∃ c, Lts.run step (Config.init []) promptRun = some c ∧
      c.pc 1 = .done (.threw (.fsm Routines.fwFlashing .transition [.boot])) ∧ c.state = .boot) ∧
    ((∀ pre s, pre <+: promptRun → Lts.run step (Config.init []) pre = some s → Candid s) ↔
      Lts.Along step Undisturbed (Config.init []) promptRun) :=
  ⟨⟨_, rfl, rfl, rfl⟩, @candid_iff _ promptRun [] rfl⟩

/-- **The message contradicts itself**: the state it got is the one it expected. -/
theorem message_misleads :
    (∃ c, Lts.run step (Config.init []) lateRun = some c ∧
      c.pc 1 = .done (.threw (.fsm Routines.fwFlashing .boot [.boot])) ∧ ¬ Honest c) ∧
    (Exn.fsm Routines.fwFlashing .boot [.boot]).what =
      ascii ("Inappropriate state for operation \"Firmware flashing\": " ++
        "Got Boot, Expected one of: Boot") := by
  refine ⟨⟨_, rfl, rfl, fun h => ?_⟩, by decide⟩
  exact absurd (h 1 _ rfl) (by decide)

end FirmwareFSM

end MbDaemon
