import MbDaemon.Server.Threads.Steps

/-!
# Joining the handlers

`Handlers.at` finds the id that the cleanup thread takes from `Joinables` as long as no handler ends
ahead of its own entry: dispatch makes the thread first and enters it later, so a handler that ends
at once can queue an id that is not in the map yet (`found_at_lookup`). Whether `Run` leaves no
thread behind hangs on the other end of the same gap: cleanup may leave on an empty map while
dispatch has a handler still to enter (`all_joined_at_return`). What one handler shows in a run is
its `lifeline`.
-/

namespace MbDaemon

namespace Threads

/-! ## Lifelines -/

def Event.id : Event → HandlerId
  | .created id | .pushed id | .joined id => id

variable {c c' : Config} {l : Label} {ls : List Label} {id : HandlerId}

/-- What a handler has shown when it has come this far. -/
def lifeline (id : HandlerId) : Stage → List Event
  | .absent => []
  | .running => [.created id]
  | .pushed => [.created id, .pushed id]
  | .joined => [.created id, .pushed id, .joined id]

/-- What the threads have shown in a run. -/
def history (ls : List Label) : List Event := Lts.history step shows Config.init ls

def ownEvents (id : HandlerId) (events : List Event) : List Event :=
  events.filter fun e => e.id = id

@[simp] theorem ownEvents_nil : ownEvents id [] = [] := rfl

@[simp] theorem ownEvents_append (es fs : List Event) :
    ownEvents id (es ++ fs) = ownEvents id es ++ ownEvents id fs :=
  List.filter_append es fs

theorem ownEvents_self {e : Event} (h : e.id = id) : ownEvents id [e] = [e] := by
  simp [ownEvents, h]

theorem ownEvents_other {e : Event} (h : e.id ≠ id) : ownEvents id [e] = [] := by
  simp [ownEvents, h]

theorem lifeline_update {f : HandlerId → HandlerPc} {owner : HandlerId} {pc : HandlerPc} {e : Event}
    (he : e.id = owner) (h : lifeline owner pc.stage = lifeline owner (f owner).stage ++ [e])
    (id : HandlerId) : lifeline id (Function.update f owner pc id).stage =
      lifeline id (f id).stage ++ ownEvents id [e] := by
  by_cases hid : id = owner
  · subst hid
    rw [Function.update_self, ownEvents_self he, h]
  · rw [Function.update_of_ne hid, ownEvents_other (by rw [he]; exact Ne.symm hid),
      List.append_nil]

theorem lifeline_silent (hst : (c'.handler id).stage = (c.handler id).stage)
    (hq : shows c l = []) : lifeline id (c'.handler id).stage =
      lifeline id (c.handler id).stage ++ ownEvents id (shows c l) := by
  rw [hst, hq, ownEvents_nil, List.append_nil]

/-- **A handler shows a step of its life when it takes it.** -/
theorem lifeline_step (hi : Inv c) (hs : Step c l c') (id : HandlerId) :
    lifeline id (c'.handler id).stage =
      lifeline id (c.handler id).stage ++ ownEvents id (shows c l) := by
  cases hs with
  | signal => exact lifeline_silent rfl rfl
  | main h => cases h <;> exact lifeline_silent rfl rfl
  | dispatch h =>
    cases h with
    | @create owner pc =>
      have habsent : (c.handler owner).stage = .absent :=
        (hi.books.taken owner (by simp [Config.roster, pc, DispatchPc.taken])).2
      rw [show shows c .dispatch = [.created owner] by simp [shows, pc]]
      have hlife : lifeline owner HandlerPc.setReady.stage =
          lifeline owner (c.handler owner).stage ++ [.created owner] := by rw [habsent]; rfl
      exact lifeline_update (e := .created owner) rfl hlife id
    | insert | throw | cancel | wake => exact lifeline_silent rfl rfl
    | _ => exact lifeline_silent rfl (by simp_all [shows])
  | @handler owner _ _ h =>
    cases h with
    | push pc =>
      rw [show shows c (.handler owner) = [.pushed owner] by simp [shows, pc]]
      have hlife : lifeline owner HandlerPc.notifyJoin.stage =
          lifeline owner (c.handler owner).stage ++ [.pushed owner] := by rw [pc]; rfl
      exact lifeline_update (e := .pushed owner) rfl hlife id
    | leave pc =>
      refine lifeline_silent (stage_move ?_ id) rfl
      rcases pc with pc | pc <;> rw [pc] <;> rfl
    | lock pc free => exact lifeline_silent (stage_move (by rw [pc]; rfl) id) (by simp [shows, pc])
    | _ =>
      rename_i pc
      exact lifeline_silent (stage_move (by rw [pc]; rfl) id) (by simp [shows, pc])
  | cleanup h =>
    cases h with
    | @join owner pc ended =>
      rw [show shows c .cleanup = [.joined owner] by simp [shows, pc]]
      have hlife : lifeline owner HandlerPc.joined.stage =
          lifeline owner (c.handler owner).stage ++ [.joined owner] := by rw [ended]; rfl
      exact lifeline_update (e := .joined owner) rfl hlife id
    | wake => exact lifeline_silent rfl rfl
    | lock pc free => exact lifeline_silent rfl (by rcases pc with pc | pc <;> simp [shows, pc])
    | _ => exact lifeline_silent rfl (by simp_all [shows])

/-- What a handler has shown in a run says how far it has come. -/
theorem ownEvents_history (h : Lts.run step Config.init ls = some c) (id : HandlerId) :
    ownEvents id (history ls) = lifeline id (c.handler id).stage := by
  refine Lts.run_induction
    (P := fun ls c => ownEvents id (history ls) = lifeline id (c.handler id).stage) rfl ?_ h
  intro ls s l s' hrun ih hs
  rw [history, Lts.history_snoc hrun, ownEvents_append,
    lifeline_step (inv_run hrun) (step_cases hs), ← ih, history]

theorem count_joined (id : HandlerId) (es : List Event) :
    es.count (.joined id) = (ownEvents id es).count (.joined id) := by
  rw [ownEvents, List.count_filter]
  simp [Event.id]

theorem mem_ownEvents {e : Event} {es : List Event} (he : e ∈ es) : e ∈ ownEvents e.id es :=
  List.mem_filter.2 ⟨he, by simp⟩

/-- **A handler is joined at most once, and not before it has queued its id.** -/
theorem joined_after_pushed (h : Lts.run step Config.init ls = some c) (id : HandlerId) :
    (history ls).count (.joined id) ≤ 1 ∧
      (.joined id ∈ history ls → [.pushed id, .joined id].Sublist (history ls)) := by
  have hown := ownEvents_history h id
  constructor
  · rw [count_joined, hown]
    cases (c.handler id).stage <;> simp [lifeline]
  · intro hm
    have hmem : Event.joined id ∈ lifeline id (c.handler id).stage := hown ▸ mem_ownEvents hm
    have hstage : (c.handler id).stage = .joined := by
      cases hst : (c.handler id).stage <;> rw [hst] at hmem <;> simp_all [lifeline]
    have hsub : (ownEvents id (history ls)).Sublist (history ls) := List.filter_sublist
    rw [hown, hstage] at hsub
    exact (List.sublist_cons_self _ _).trans hsub

/-! ## The lookup -/

/-- Between the test of the exit condition and the end of the queue. -/
def CleanupPc.drains : CleanupPc → Bool
  | .drain | .lookup _ | .joining _ | .erase _ => true
  | _ => false

@[simp] theorem drains_notified (pc : CleanupPc) : pc.notified.drains = pc.drains := by
  cases pc <;> rfl

/-- Dispatch has made a handler that has queued its id before being entered. -/
def Overtaken (c : Config) : Prop := ∃ id ∈ c.joinables, c.dispatch.created = some id

instance (c : Config) : Decidable (Overtaken c) :=
  inferInstanceAs (Decidable (∃ id ∈ c.joinables, c.dispatch.created = some id))

/-- Cleanup does not start on a queue that holds the id of a handler not yet entered. -/
def EntersFirst (c : Config) : Label → Prop
  | .cleanup => c.cleanup = .exitTest → c.doShutdown = true ∧ c.handlers = [] ∨ ¬ Overtaken c
  | _ => True

instance (c : Config) : (l : Label) → Decidable (EntersFirst c l)
  | .cleanup => inferInstanceAs (Decidable
      (c.cleanup = .exitTest → c.doShutdown = true ∧ c.handlers = [] ∨ ¬ Overtaken c))
  | .signal | .main | .dispatch | .insert _ | .dispatchThrow | .dispatchCancel | .dispatchWake
  | .handler _ | .handlerEnd _ | .cleanupWake => isTrue trivial

/-- While cleanup works through the queue, every id in it has been entered. -/
def Settled (c : Config) : Prop := c.cleanup.drains = true → ¬ Overtaken c

theorem overtaken_dispatch (hi : Inv c) (hs : DispatchStep c l c') (h : Overtaken c') :
    Overtaken c := by
  obtain ⟨id, hmem, hcreated⟩ := h
  cases hs with
  | @create owner pc =>
    -- a handler just made has queued nothing
    have habsent := (hi.books.taken owner (by simp [Config.roster, pc, DispatchPc.taken])).2
    cases hcreated
    exact absurd hmem (hi.books.not_mem_of_absent habsent).2
  | lockInsert pc free => exact ⟨id, hmem, by rw [pc]; exact hcreated⟩
  | accept pc => cases hcreated
  | insert pc => cases hcreated
  | _ => cases hcreated

theorem settled_step (hi : Inv c) (hp : EntersFirst c l) (hset : Settled c) (hs : Step c l c') :
    Settled c' := by
  cases hs with
  | signal => exact hset
  | main h =>
    cases h with
    | notify => intro hd; exact hset (by simpa using hd)
    | _ => exact hset
  | dispatch h =>
    intro hd hov
    have hsame : c'.cleanup = c.cleanup := by cases h <;> rfl
    exact hset (hsame ▸ hd) (overtaken_dispatch hi h hov)
  | handler h =>
    cases h with
    | push pc =>
      -- the handler is inside the mutex, so cleanup is not
      intro hd
      have hout := hi.owned.cleanup_outside (show (c.handler _).holds = true by rw [pc]; rfl)
      cases hcl : c.cleanup <;> simp_all [CleanupPc.drains, CleanupPc.holds]
    | notifyReady pc =>
      intro hd hov
      obtain ⟨id, hmem, hcreated⟩ := hov
      exact hset hd ⟨id, hmem, by simpa using hcreated⟩
    | notifyJoin pc => intro hd; exact hset (by simpa using hd)
    | _ => exact hset
  | cleanup h =>
    cases h with
    | stay pc more => exact fun _ => (hp pc).resolve_left more
    | front pc head => exact fun _ => hset (by rw [pc]; rfl)
    | find pc known => exact fun _ => hset (by rw [pc]; rfl)
    | join pc ended => exact fun _ => hset (by rw [pc]; rfl)
    | erase pc =>
      intro _ hov
      obtain ⟨id, hmem, hcreated⟩ := hov
      exact hset (by rw [pc]; rfl) ⟨id, List.mem_of_mem_tail hmem, hcreated⟩
    | _ => intro hd; cases hd

/-- In such a state the id at the front of the queue is a key. -/
theorem known_of_settled (hi : Inv c) (hset : Settled c) (pc : c.cleanup = .lookup id) :
    id ∈ c.handlers := by
  have htaking : c.roster.taking = .front id := by simp [Config.roster, pc, CleanupPc.taking]
  have hpushed := hi.books.pushed_of_front (.inl htaking)
  have hmem : id ∈ c.joinables := (hi.books.queue id).2 (.inl hpushed)
  rcases hi.books.known id (.inr hpushed) with hk | hc
  · exact hk
  · exact absurd ⟨id, hmem, hc⟩ (hset (by rw [pc]; rfl))

theorem settled_run (h : Lts.run step Config.init ls = some c)
    (ha : Lts.Along step EntersFirst Config.init ls) :
    Inv c ∧ Settled c ∧ c.cleanup ≠ .crashed := by
  refine Lts.run_invariant_along (P := fun c => Inv c ∧ Settled c ∧ c.cleanup ≠ .crashed)
    ⟨inv_init, fun hd => absurd hd (by decide), by decide⟩ ?_ h ha
  rintro s l s' ⟨hi, hset, hup⟩ hp hs
  have hstep := step_cases hs
  refine ⟨inv_step hi hstep, settled_step hi hp hset hstep, fun e => ?_⟩
  cases hstep with
  | signal => exact hup e
  | main h =>
    cases h with
    | notify => cases hc : s.cleanup <;> simp_all [CleanupPc.notified]
    | _ => exact hup e
  | dispatch h => cases h <;> exact hup e
  | handler h =>
    cases h with
    | notifyJoin => cases hc : s.cleanup <;> simp_all [CleanupPc.notified]
    | _ => exact hup e
  | cleanup h =>
    cases h with
    | miss pc gone => exact gone (known_of_settled hi hset pc)
    | _ => cases e

/-- **The ids in the queue are found.** In a run in which cleanup never starts on a queue with the
id of a handler that dispatch has yet to enter, `Handlers.at` finds every id that is taken from
`Joinables`; each handler is joined at most once, and only after it has pushed its id. -/
theorem found_at_lookup (h : Lts.run step Config.init ls = some c)
    (ha : Lts.Along step EntersFirst Config.init ls) :
    c.cleanup ≠ .crashed ∧ (∀ id, c.cleanup = .lookup id → id ∈ c.handlers) ∧
      ∀ id, (history ls).count (.joined id) ≤ 1 ∧
        (.joined id ∈ history ls → [.pushed id, .joined id].Sublist (history ls)) := by
  obtain ⟨hi, hset, hup⟩ := settled_run h ha
  exact ⟨hup, fun id pc => known_of_settled hi hset pc, joined_after_pushed h⟩

/-- A connection is served to its end, and cleanup comes to its handler. -/
def servedRun : List Label :=
  [.dispatch, .dispatch, .dispatch, .dispatch, .dispatch, .insert 0, .dispatch, .handler 0,
    .handler 0, .handlerEnd 0, .handler 0, .handler 0, .handler 0, .handler 0, .cleanup, .cleanup,
    .cleanup, .cleanup]

theorem found_at_lookup_served :
    ∃ c, Lts.run step Config.init servedRun = some c ∧ c.cleanup = .lookup 0 ∧ 0 ∈ c.handlers := by
  have ha : Lts.Along step EntersFirst Config.init servedRun := Lts.Along.of_permitted (by decide)
  obtain ⟨c, hrun, pc⟩ : ∃ c, Lts.run step Config.init servedRun = some c ∧
      c.cleanup = .lookup 0 := Lts.run_reaches (by decide)
  exact ⟨c, hrun, pc, (found_at_lookup hrun ha).2.1 0 pc⟩

/-- The handler's `Accept()` fails before dispatch has entered it. -/
def earlyRun : List Label :=
  [.dispatch, .dispatch, .dispatch, .dispatch, .handler 0, .handler 0, .handlerEnd 0, .handler 0,
    .handler 0, .handler 0, .handler 0, .cleanup, .cleanup, .cleanup, .cleanup]

/-- Cleanup takes the id of a handler that is not in the map, and `Handlers.at` throws. -/
theorem early_end_not_found :
    ∃ c, Lts.run step Config.init earlyRun = some c ∧ c.cleanup = .lookup 0 ∧ 0 ∉ c.handlers ∧
      (step c .cleanup).map (·.cleanup) = some .crashed :=
  Lts.run_reaches (by decide)

/-! ## The return of `Run` -/

def MainPc.pastDispatch : MainPc → Bool
  | .pause | .cancelDispatch | .joinDispatch => false
  | _ => true

/-- Cleanup has decided to leave. -/
def CleanupPc.leaves : CleanupPc → Bool
  | .exitUnlock | .done => true
  | _ => false

@[simp] theorem leaves_notified (pc : CleanupPc) : pc.notified.leaves = pc.leaves := by
  cases pc <;> rfl

theorem round_ne_returned (next : Option HandlerId) : MainPc.round next ≠ .returned := by
  cases next with
  | none => exact MainPc.noConfusion
  | some id => exact MainPc.noConfusion

/-- What `Run` has waited for has ended. -/
structure Waited (c : Config) : Prop where
  dispatch : c.main.pastDispatch = true → c.dispatch = .done
  cleanup : c.main = .returned → c.cleanup = .done

theorem dispatch_of_done (hs : DispatchStep c l c') : c.dispatch ≠ .done := by
  intro e
  cases hs with
  | throw pc => rw [e] at pc; cases pc
  | cancel pc => rw [e] at pc; cases pc
  | _ => simp_all

theorem cleanup_of_done (hs : CleanupStep c l c') : c.cleanup ≠ .done := by
  intro e
  cases hs with
  | lock pc => rcases pc with pc | pc <;> rw [e] at pc <;> cases pc
  | _ => simp_all

theorem waited_step (hw : Waited c) (hs : Step c l c') : Waited c' := by
  obtain ⟨hd, hc⟩ := hw
  cases hs with
  | signal => exact ⟨hd, hc⟩
  | main h =>
    cases h with
    | pause pc => exact ⟨fun e => (by cases e), fun e => (by cases e)⟩
    | cancelDispatch pc => exact ⟨fun e => (by cases e), fun e => (by cases e)⟩
    | joinDispatch pc ended => exact ⟨fun _ => ended, fun e => absurd e (round_ne_returned _)⟩
    | advance pc => exact ⟨fun _ => hd (by rw [pc]; rfl), fun e => absurd e (round_ne_returned _)⟩
    | joinCleanup pc ended => exact ⟨fun _ => hd (by rw [pc]; rfl), fun _ => ended⟩
    | cancel pc | cancelGone pc | advanceGone pc | notify pc =>
      exact ⟨fun _ => hd (by rw [pc]; rfl), fun e => (by cases e)⟩
  | dispatch h =>
    have hmain : c'.main = c.main ∧ c'.cleanup = c.cleanup := by cases h <;> exact ⟨rfl, rfl⟩
    rw [← hmain.1] at hd hc
    exact ⟨fun e => absurd (hd e) (dispatch_of_done h), fun e => by rw [hmain.2]; exact hc e⟩
  | handler h =>
    cases h with
    | notifyReady => exact ⟨fun e => by simp [hd e, DispatchPc.notified], hc⟩
    | notifyJoin => exact ⟨hd, fun e => by simp [hc e, CleanupPc.notified]⟩
    | _ => exact ⟨hd, hc⟩
  | cleanup h =>
    have hmain : c'.main = c.main ∧ c'.dispatch = c.dispatch := by cases h <;> exact ⟨rfl, rfl⟩
    rw [← hmain.1] at hd hc
    exact ⟨fun e => by rw [hmain.2]; exact hd e, fun e => absurd (hc e) (cleanup_of_done h)⟩

/-- Dispatch enters no handler when cleanup is gone. -/
def EntersInTime (c : Config) : Label → Prop
  | .insert _ => c.cleanup ≠ .done
  | _ => True

instance (c : Config) : (l : Label) → Decidable (EntersInTime c l)
  | .insert _ => inferInstanceAs (Decidable (c.cleanup ≠ .done))
  | .signal | .main | .dispatch | .dispatchThrow | .dispatchCancel | .dispatchWake | .handler _
  | .handlerEnd _ | .cleanup | .cleanupWake => isTrue trivial

/-- When cleanup leaves, no handler is left to join. -/
def LeavesNone (c : Config) : Prop := c.cleanup.leaves = true → c.handlers = []

theorem leavesNone_step (hi : Inv c) (hp : EntersInTime c l) (hn : LeavesNone c)
    (hs : Step c l c') : LeavesNone c' := by
  cases hs with
  | signal => exact hn
  | main h =>
    cases h with
    | notify => intro hl; exact hn (by simpa using hl)
    | _ => exact hn
  | dispatch h =>
    cases h with
    | @insert id slot pc =>
      intro hl
      have hdone : c.cleanup ≠ .done := hp
      have hout : c.holds .cleanup = false :=
        hi.owned.excludes (t := .dispatch) (by simp [Config.holds, pc, DispatchPc.holds])
          Thread.noConfusion
      cases hcl : c.cleanup <;> simp_all [Config.holds, CleanupPc.holds, CleanupPc.leaves]
    | _ => exact hn
  | handler h =>
    cases h with
    | notifyJoin => intro hl; exact hn (by simpa using hl)
    | _ => exact hn
  | cleanup h =>
    cases h with
    | exit pc shut empty => exact fun _ => empty
    | exitUnlock pc => exact fun _ => hn (by rw [pc]; rfl)
    | _ => intro hl; cases hl

theorem waited_run (h : Lts.run step Config.init ls = some c) : Waited c :=
  Lts.run_invariant ⟨fun e => absurd e (by decide), fun e => absurd e (by decide)⟩
    (fun _ _ _ hw hs => waited_step hw (step_cases hs)) h

theorem leavesNone_run (h : Lts.run step Config.init ls = some c)
    (ha : Lts.Along step EntersInTime Config.init ls) : LeavesNone c := by
  refine (Lts.run_invariant_along (P := fun c => Inv c ∧ LeavesNone c)
    ⟨inv_init, fun e => absurd e (by decide)⟩ ?_ h ha).2
  rintro s l s' ⟨hi, hn⟩ hp hs
  exact ⟨inv_step hi (step_cases hs), leavesNone_step hi hp hn (step_cases hs)⟩

/-- **No thread is left behind.** In a run in which dispatch enters no handler after cleanup has
left, when `Run` returns `Handlers` is empty and every handler ever created has been joined, once.
-/
theorem all_joined_at_return (h : Lts.run step Config.init ls = some c)
    (ha : Lts.Along step EntersInTime Config.init ls) (returned : c.main = .returned) :
    c.handlers = [] ∧
      ∀ id, .created id ∈ history ls → (history ls).count (.joined id) = 1 := by
  obtain ⟨hdispatch, hcleanup⟩ := waited_run h
  have hbooks := (inv_run h).books
  have hempty : c.handlers = [] := leavesNone_run h ha (by rw [hcleanup returned]; rfl)
  refine ⟨hempty, fun id hm => ?_⟩
  have hown := ownEvents_history h id
  have hmem : Event.created id ∈ lifeline id (c.handler id).stage := hown ▸ mem_ownEvents hm
  have hdone : c.dispatch = .done := hdispatch (by rw [returned]; rfl)
  have hunknown : ¬(id ∈ c.roster.handlers ∨ c.roster.created = some id) := by
    simp [Config.roster, hempty, hdone, DispatchPc.created]
  have hstage : (c.handler id).stage = .joined := by
    cases hst : (c.handler id).stage with
    | absent => rw [hst] at hmem; cases hmem
    | running => exact absurd (hbooks.known id (.inl hst)) hunknown
    | pushed => exact absurd (hbooks.known id (.inr hst)) hunknown
    | joined => rfl
  rw [count_joined, hown, hstage]
  simp [lifeline]

/-- A connection is served, its handler joined, and the server shut down. -/
def shutdownRun : List Label :=
  [.dispatch, .dispatch, .dispatch, .dispatch, .dispatch, .insert 0, .dispatch, .handler 0,
    .handler 0, .handlerEnd 0, .handler 0, .handler 0, .handler 0, .handler 0, .dispatch, .signal,
    .dispatch, .dispatch, .cleanup, .cleanup, .cleanup, .cleanup, .cleanup, .cleanup, .cleanup,
    .cleanup, .cleanup, .cleanup, .cleanup, .cleanup, .cleanup, .main, .main, .main, .main, .main]

theorem all_joined_at_return_served :
    ∃ c, Lts.run step Config.init shutdownRun = some c ∧ c.main = .returned ∧
      c.handlers = [] ∧ (history shutdownRun).count (.joined 0) = 1 := by
  have ha : Lts.Along step EntersInTime Config.init shutdownRun :=
    Lts.Along.of_permitted (by decide)
  obtain ⟨c, hrun, returned⟩ : ∃ c, Lts.run step Config.init shutdownRun = some c ∧
      c.main = .returned := Lts.run_reaches (by decide)
  obtain ⟨hempty, hjoined⟩ := all_joined_at_return hrun ha returned
  exact ⟨c, hrun, returned, hempty, hjoined 0 (by decide)⟩

/-- The signal comes while dispatch is between making a handler and entering it. -/
def lateRun : List Label :=
  [.dispatch, .dispatch, .dispatch, .dispatch, .signal, .cleanup, .cleanup, .cleanup, .cleanup,
    .dispatch, .insert 0, .dispatch, .dispatch, .main, .main, .dispatchCancel, .main, .main, .main,
    .main, .main]

/-- `Run` returns with a handler in the map that nobody joins. -/
theorem late_entry_not_joined :
    ∃ c, Lts.run step Config.init lateRun = some c ∧ c.main = .returned ∧ c.handlers = [0] ∧
      .created 0 ∈ history lateRun ∧ (history lateRun).count (.joined 0) = 0 :=
  Lts.run_reaches (by decide)

end Threads

end MbDaemon
