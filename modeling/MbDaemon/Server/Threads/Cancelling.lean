import MbDaemon.Server.Threads.Steps

/-!
# The loop over the handlers

On its way out `Run` walks over `Handlers` and cancels the threads in it, without the mutex under
which the cleanup thread joins the handlers and erases their entries. Cancelling a handler is what
makes it end, so the two run together. The loop keeps to entries that are there and not joined yet
exactly as long as cleanup does not join the handler the loop is at and the loop does not step on an
entry that cleanup has joined and is about to erase (`on_entry_iff`).
-/

namespace MbDaemon

namespace Threads

variable {c c' : Config} {l : Label} {ls : List Label}

def MainPc.cursor : MainPc → Option HandlerId
  | .cancel id | .advance id => some id
  | _ => none

def Config.nextCursor (c : Config) : Option HandlerId :=
  match c.main with
  | .joinDispatch => c.handlers.head?
  | .advance id => after id c.handlers
  | _ => none

/-- The entry the loop is about to cancel or to advance from is in the map and not joined. -/
def OnEntry (c : Config) : Prop :=
  ∀ id ∈ c.main.cursor, id ∈ c.handlers ∧ c.handler id ≠ .joined

/-- The loop does not step on an entry that has been joined, and cleanup does not join the handler
that the loop is at. -/
def LeavesCursor (c : Config) : Label → Prop
  | .main => ∀ id ∈ c.nextCursor, c.handler id ≠ .joined
  | .cleanup => ∀ id ∈ c.main.cursor, c.cleanup ≠ .joining id
  | _ => True

instance (c : Config) : Decidable (OnEntry c) :=
  inferInstanceAs (Decidable (∀ id ∈ c.main.cursor, id ∈ c.handlers ∧ c.handler id ≠ .joined))

instance (c : Config) : (l : Label) → Decidable (LeavesCursor c l)
  | .main => inferInstanceAs (Decidable (∀ id ∈ c.nextCursor, c.handler id ≠ .joined))
  | .cleanup => inferInstanceAs (Decidable (∀ id ∈ c.main.cursor, c.cleanup ≠ .joining id))
  | .signal | .dispatch | .insert _ | .dispatchThrow | .dispatchCancel | .dispatchWake | .handler _
  | .handlerEnd _ | .cleanupWake => isTrue trivial

@[simp] theorem cursor_round (next : Option HandlerId) : (MainPc.round next).cursor = next := by
  cases next <;> rfl

theorem mem_of_after {id next : HandlerId} {handlers : List HandlerId}
    (h : next ∈ after id handlers) : next ∈ handlers := by
  have htail : next ∈ (handlers.dropWhile (· ≠ id)).tail := List.mem_of_head? h
  exact (List.dropWhile_sublist _).subset (List.mem_of_mem_tail htail)

/-- What neither moves the loop nor takes an entry or joins a handler keeps the loop on an entry. -/
theorem OnEntry.keep (h : OnEntry c) (main : c'.main = c.main)
    (handlers : ∀ id ∈ c.handlers, id ∈ c'.handlers)
    (unjoined : ∀ id, c.handler id ≠ .joined → c'.handler id ≠ .joined) : OnEntry c' := by
  intro id hid
  rw [main] at hid
  obtain ⟨hmem, hjoined⟩ := h id hid
  exact ⟨handlers id hmem, unjoined id hjoined⟩

theorem unjoined_update {f : HandlerId → HandlerPc} {owner : HandlerId} {pc : HandlerPc}
    (hpc : pc ≠ .joined) (id : HandlerId) (h : f id ≠ .joined) :
    Function.update f owner pc id ≠ .joined := by
  by_cases hid : id = owner
  · subst hid; rwa [Function.update_self]
  · rwa [Function.update_of_ne hid]

/-- The loop comes to an entry that it finds in the map. -/
theorem onEntry_round {next : Option HandlerId} (hmem : ∀ id ∈ next, id ∈ c.handlers) :
    OnEntry { c with main := .round next } ↔ ∀ id ∈ next, c.handler id ≠ .joined := by
  simp only [OnEntry, cursor_round]
  exact forall_congr' fun id => imp_congr_right fun hid => and_iff_right (hmem id hid)

/-- A step of `Run` leads to an entry iff the next one has not been joined. -/
theorem onEntry_main (he : OnEntry c) (hs : MainStep c c') :
    OnEntry c' ↔ LeavesCursor c .main := by
  cases hs with
  | joinDispatch pc ended =>
    simp only [LeavesCursor, Config.nextCursor, pc]
    exact onEntry_round fun id => List.mem_of_head?
  | advance pc here =>
    simp only [LeavesCursor, Config.nextCursor, pc]
    exact onEntry_round fun id => mem_of_after
  | @cancel id pc here =>
    have hstay : OnEntry { c with
        main := .advance id, handlerCancelled := Function.update c.handlerCancelled id true } := by
      intro i hi
      exact he i (by rw [pc]; exact hi)
    exact iff_of_true hstay (by simp [LeavesCursor, Config.nextCursor, pc])
  | cancelGone pc gone => exact absurd (he _ (by rw [pc]; rfl)) gone
  | advanceGone pc gone => exact absurd (he _ (by rw [pc]; rfl)).1 gone
  | pause pc | cancelDispatch pc | notify pc | joinCleanup pc =>
    exact iff_of_true (fun id hid => by cases hid) (by simp [LeavesCursor, Config.nextCursor, pc])

theorem onEntry_dispatch (he : OnEntry c) (hs : DispatchStep c l c') :
    OnEntry c' := by
  cases hs with
  | create pc => exact he.keep rfl (fun _ h => h) (unjoined_update HandlerPc.noConfusion)
  | @insert id slot pc =>
    refine he.keep rfl (fun i hmem => ?_) fun _ h => h
    rw [← List.take_append_drop slot c.handlers] at hmem
    simp only [List.mem_append, List.mem_cons] at hmem ⊢
    tauto
  | _ => exact he.keep rfl (fun _ h => h) fun _ h => h

theorem onEntry_handler {id : HandlerId} (he : OnEntry c) (hs : HandlerStep c id l c') :
    OnEntry c' := by
  cases hs <;> exact he.keep rfl (fun _ h => h) (unjoined_update HandlerPc.noConfusion)

/-- Cleanup takes the entry from under the loop iff it joins the handler the loop is at. -/
theorem onEntry_cleanup (hi : Inv c) (he : OnEntry c) (hs : CleanupStep c l c') :
    OnEntry c' ↔ LeavesCursor c l := by
  cases hs with
  | @join id pc ended =>
    simp only [LeavesCursor, pc, ne_eq, CleanupPc.joining.injEq]
    constructor
    · rintro h i hi' rfl
      exact (h id hi').2 (Function.update_self _ _ _)
    · intro h i hi'
      obtain ⟨hmem, hjoined⟩ := he i hi'
      refine ⟨hmem, ?_⟩
      show Function.update c.handler id .joined i ≠ .joined
      rwa [Function.update_of_ne fun e => h i hi' e.symm]
  | @erase id pc =>
    have hjoined : (c.handler id).stage = .joined :=
      (hi.books.joined id (by simp [Config.roster, pc, CleanupPc.taking])).2
    refine iff_of_true (fun i hi' => ?_) (by simp [LeavesCursor, pc])
    obtain ⟨hmem, hunjoined⟩ := he i hi'
    -- the loop is not at the entry that goes
    have hne : i ≠ id := by
      rintro rfl
      cases hpc : c.handler i <;> simp_all [HandlerPc.stage]
    exact ⟨(List.mem_erase_of_ne hne).2 hmem, hunjoined⟩
  | wake pc => exact iff_of_true (he.keep rfl (fun _ h => h) fun _ h => h) trivial
  | lock pc free =>
    refine iff_of_true (he.keep rfl (fun _ h => h) fun _ h => h) fun i _ e => ?_
    rcases pc with pc | pc <;> rw [pc] at e <;> cases e
  | _ =>
    rename_i pc
    exact iff_of_true (he.keep rfl (fun _ h => h) fun _ h => h) fun i _ e => by simp_all

/-- **The loop stays on an entry iff it is left on it.** -/
theorem onEntry_step (hi : Inv c) (he : OnEntry c) (hs : Step c l c') :
    OnEntry c' ↔ LeavesCursor c l := by
  cases hs with
  | signal => exact iff_of_true (he.keep rfl (fun _ h => h) fun _ h => h) trivial
  | main h => exact onEntry_main he h
  | dispatch h => exact iff_of_true (onEntry_dispatch he h) (by cases h <;> exact trivial)
  | handler h => exact iff_of_true (onEntry_handler he h) (by cases h <;> exact trivial)
  | cleanup h => exact onEntry_cleanup hi he h

/-- **The loop finds its entries.** In a run the entry that the loop over `Handlers` is about to
cancel, or to advance from, is always in the map and not joined, iff cleanup never joins the handler
the loop is at and the loop never steps on an entry that cleanup has joined and not erased yet. -/
theorem on_entry_iff (h : Lts.run step Config.init ls = some c) :
    (∀ pre s, pre <+: ls → Lts.run step Config.init pre = some s → OnEntry s) ↔
      Lts.Along step LeavesCursor Config.init ls := by
  refine Lts.always_iff_along (fun id hid => by cases hid) (fun ls s l s' hrun he hs => ?_) h
  exact onEntry_step (inv_run hrun) he (step_cases hs)

/-- One handler is serving when the signal comes; the loop cancels it and has left the map before
cleanup joins it. -/
def orderlyRun : List Label :=
  [.dispatch, .dispatch, .dispatch, .dispatch, .dispatch, .insert 0, .dispatch, .handler 0,
    .handler 0, .dispatch, .dispatch, .signal, .main, .dispatch, .main, .main, .main, .main]

theorem on_entry_orderly :
    (∃ c, Lts.run step Config.init orderlyRun = some c ∧ c.main = .notify) ∧
      ∀ pre s, pre <+: orderlyRun → Lts.run step Config.init pre = some s → OnEntry s := by
  have ha : Lts.Along step LeavesCursor Config.init orderlyRun := Lts.Along.of_permitted (by decide)
  obtain ⟨c, hrun, hleft⟩ : ∃ c, Lts.run step Config.init orderlyRun = some c ∧ c.main = .notify :=
    Lts.run_reaches (by decide)
  exact ⟨⟨c, hrun, hleft⟩, (on_entry_iff hrun).2 ha⟩

/-- The handler ends on its own while the loop is about to cancel it, and cleanup joins it. -/
def joinedRun : List Label :=
  [.dispatch, .dispatch, .dispatch, .dispatch, .dispatch, .insert 0, .dispatch, .handler 0,
    .handler 0, .dispatch, .dispatch, .handlerEnd 0, .handler 0, .handler 0, .handler 0, .handler 0,
    .signal, .main, .dispatch, .main, .main, .cleanup, .cleanup, .cleanup, .cleanup, .cleanup,
    .cleanup]

/-- The loop calls `pthread_cancel` on a thread that has been joined. -/
theorem cancels_joined :
    ∃ c, Lts.run step Config.init joinedRun = some c ∧ c.main = .cancel 0 ∧
      c.handler 0 = .joined ∧ ¬ OnEntry c ∧ (step c .main).map (·.main) = some .stray :=
  Lts.run_reaches (by decide)

end Threads

end MbDaemon
