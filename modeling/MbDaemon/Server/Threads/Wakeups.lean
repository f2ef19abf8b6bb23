import MbDaemon.Server.Threads.Steps

/-!
# Wakeups

A thread waits on a condition variable in three steps: it tests the predicate, goes to sleep, and
tests again when it is woken. On `ReadyToJoin` the handlers notify with the mutex held, so a pushed
id never goes unnoticed; `ready` and `DoShutdown` are set without the waiter's mutex, and their
notification can fall between the test and the sleep. Nor does dispatch wait for a handler that has
set `ready` to be done with the `readyCond` on dispatch's stack. `no_wakeup_lost` says under which
order of the steps neither happens.
-/

namespace MbDaemon

namespace Threads

variable {c c' : Config} {l : Label} {ls : List Label}

/-- The iteration whose `ready` and `readyCond` exist, by its handler. -/
def DispatchPc.iteration : DispatchPc → Option HandlerId
  | .lockInsert id | .insert id | .unlockInsert id | .readyTest id => some id
  | .readySleep id | .readyAsleep id | .hello id => some id
  | _ => none

/-- The handler has yet to set `ready` or to notify `readyCond`. -/
def HandlerPc.usesReady : HandlerPc → Bool
  | .setReady | .notifyReady => true
  | _ => false

def HandlerPc.owesJoin : HandlerPc → Bool
  | .setReady | .notifyReady | .serving | .lock | .push | .notifyJoin => true
  | _ => false

def MainPc.pastNotify : MainPc → Bool
  | .joinCleanup | .returned => true
  | _ => false

/-- Dispatch sleeps on a `readyCond` whose `ready` is set, and its handler has notified. -/
def LostReady (c : Config) : Prop :=
  ∃ id, c.dispatch = .readyAsleep id ∧ c.ready id = true ∧ (c.handler id).usesReady = false

/-- Cleanup sleeps though an id is queued and no handler is between its push and its notification,
or though `DoShutdown` is set, `Run` has notified, and no handler is left to do so. -/
def LostJoin (c : Config) : Prop :=
  c.cleanup = .asleep ∧
    ((c.joinables ≠ [] ∧ ∀ id, c.handler id ≠ .notifyJoin) ∨
      (c.doShutdown = true ∧ c.main.pastNotify = true ∧ ∀ id, (c.handler id).owesJoin = false))

/-- A handler that has yet to use `ready` or `readyCond` finds the iteration that owns them on. -/
def ReadyInScope (c : Config) : Prop :=
  ∀ id, (c.handler id).usesReady = true → c.dispatch.iteration = some id

/-! ## The handshake -/

def DispatchPc.greets : DispatchPc → Bool
  | .hello _ => true
  | _ => false

/-- The handler of the iteration, if one is on, is done with `ready` and `readyCond`. -/
def Unused (c : Config) : Prop := ∀ id ∈ c.dispatch.iteration, (c.handler id).usesReady = false

instance (c : Config) : Decidable (Unused c) :=
  inferInstanceAs (Decidable (∀ id ∈ c.dispatch.iteration, (c.handler id).usesReady = false))

/-- A handler does not notify between dispatch's test of `ready` and its going to sleep, and
dispatch does not end an iteration with its handler still to notify. -/
def Handshakes (c : Config) : Label → Prop
  | .handler id => c.handler id = .notifyReady → c.dispatch ≠ .readySleep id
  | .dispatch => c.dispatch.greets = true → Unused c
  | .dispatchThrow | .dispatchCancel => Unused c
  | _ => True

instance (c : Config) : (l : Label) → Decidable (Handshakes c l)
  | .handler id => inferInstanceAs (Decidable (c.handler id = .notifyReady →
      c.dispatch ≠ .readySleep id))
  | .dispatch => inferInstanceAs (Decidable (c.dispatch.greets = true → Unused c))
  | .dispatchThrow | .dispatchCancel => inferInstanceAs (Decidable (Unused c))
  | .signal | .main | .insert _ | .dispatchWake | .handlerEnd _ | .cleanup | .cleanupWake =>
    isTrue trivial

/-- Dispatch waits, with `ready` set, only for a notification still to come. -/
structure ReadyInv (c : Config) : Prop where
  waiting : ∀ id, c.dispatch = .readySleep id ∨ c.dispatch = .readyAsleep id → c.ready id = true →
    c.handler id = .notifyReady
  scope : ReadyInScope c

/-- Outside an iteration no handler has a flag to use. -/
theorem ReadyInv.over (hr : ReadyInv c) (handler : c'.handler = c.handler)
    (off : c'.dispatch.iteration = none)
    (unused : Unused c) : ReadyInv c' where
  waiting := fun id hw => by rcases hw with hw | hw <;> rw [hw] at off <;> cases off
  scope := fun id hu => by
    rw [handler] at hu
    rw [unused id (hr.scope id hu)] at hu
    cases hu

theorem ReadyInv.stay (hr : ReadyInv c) (handler : c'.handler = c.handler)
    (same : c'.dispatch.iteration = c.dispatch.iteration)
    (waiting : ∀ id, c'.dispatch = .readySleep id ∨ c'.dispatch = .readyAsleep id →
      c'.ready id = true → c.handler id = .notifyReady) : ReadyInv c' where
  waiting := by rw [handler]; exact waiting
  scope := fun id hu => by rw [same]; exact hr.scope id (handler ▸ hu)

theorem readyInv_dispatch (hp : Handshakes c l) (hr : ReadyInv c) (hs : DispatchStep c l c') :
    ReadyInv c' := by
  cases hs with
  | leave pc | stay pc | accept pc | socket pc =>
    exact hr.over rfl rfl fun id e => by rw [pc] at e; cases e
  | hello pc => exact hr.over rfl rfl (hp (by rw [pc]; rfl))
  | throw pc => exact hr.over rfl rfl hp
  | cancel pc => exact hr.over rfl rfl hp
  | @create owner pc =>
    constructor
    · rintro id (hw | hw) <;> cases hw
    · intro id hu
      by_cases hid : id = owner
      · rw [hid]; rfl
      · -- the other handlers' iterations are over
        simp only [Function.update_of_ne hid] at hu
        have hon := hr.scope id hu
        rw [pc] at hon
        cases hon
  | notReady pc unready =>
    refine hr.stay rfl (by rw [pc]; rfl) ?_
    rintro id (hw | hw) ready
    · cases hw
      rw [unready] at ready
      cases ready
    · cases hw
  | readySleep pc =>
    refine hr.stay rfl (by rw [pc]; rfl) ?_
    rintro id (hw | hw) ready
    · cases hw
    · cases hw
      exact hr.waiting _ (.inl pc) ready
  | lockInsert pc | insert pc | unlockInsert pc | isReady pc | wake pc =>
    refine hr.stay rfl (by rw [pc]; rfl) ?_
    rintro id (hw | hw) ready <;> cases hw

@[simp] theorem iteration_notified (id : HandlerId) (pc : DispatchPc) :
    (pc.notified id).iteration = pc.iteration := by
  unfold DispatchPc.notified
  split
  · rename_i e; subst e; rfl
  · rfl

/-- A handler's move that uses nothing of the iteration later on. -/
theorem usesReady_update {f : HandlerId → HandlerPc} {owner : HandlerId} {pc : HandlerPc}
    (h : pc.usesReady = true → (f owner).usesReady = true) {id : HandlerId}
    (hu : (Function.update f owner pc id).usesReady = true) : (f id).usesReady = true := by
  by_cases hid : id = owner
  · subst hid
    rw [Function.update_self] at hu
    exact h hu
  · rwa [Function.update_of_ne hid] at hu

theorem ReadyInv.move {owner : HandlerId} {pc : HandlerPc} (hr : ReadyInv c)
    (handler : c'.handler = Function.update c.handler owner pc) (ready : c'.ready = c.ready)
    (dispatch : c'.dispatch = c.dispatch) (away : c.handler owner ≠ .notifyReady)
    (uses : pc.usesReady = true → (c.handler owner).usesReady = true) : ReadyInv c' where
  waiting := fun id hw hready => by
    rw [dispatch] at hw
    rw [ready] at hready
    have hat := hr.waiting id hw hready
    have hid : id ≠ owner := fun e => away (e ▸ hat)
    rw [handler, Function.update_of_ne hid, hat]
  scope := fun id hu => by
    rw [handler] at hu
    rw [dispatch]
    exact hr.scope id (usesReady_update uses hu)

theorem readyInv_handler {id : HandlerId} (hp : Handshakes c l) (hr : ReadyInv c)
    (hs : HandlerStep c id l c') : ReadyInv c' := by
  cases hs with
  | setReady pc =>
    constructor
    · intro i hw ready
      by_cases hi : i = id
      · subst hi; exact Function.update_self ..
      · simp only [Function.update_of_ne hi] at ready ⊢
        exact hr.waiting i hw ready
    · exact fun i hu => hr.scope i (usesReady_update (fun _ => by rw [pc]; rfl) hu)
  | notifyReady pc =>
    constructor
    · -- dispatch sleeps already and is woken, or it has not tested yet
      intro i hw ready
      have hwait : i ≠ id ∧ (c.dispatch = .readySleep i ∨ c.dispatch = .readyAsleep i) := by
        by_cases hd : c.dispatch = .readyAsleep id
        · simp [hd, DispatchPc.notified] at hw
        · simp only [DispatchPc.notified, if_neg hd] at hw
          refine ⟨?_, hw⟩
          rintro rfl
          exact hw.elim (hp pc) hd
      simpa [hwait.1] using hr.waiting i hwait.2 ready
    · intro i hu
      rw [iteration_notified]
      exact hr.scope i (usesReady_update (fun e => by cases e) hu)
  | leave pc =>
    refine hr.move rfl rfl rfl (fun e => ?_) (fun e => by cases e)
    rcases pc with pc | pc <;> rw [e] at pc <;> cases pc
  | lock pc free => exact hr.move rfl rfl rfl (by simp [pc]) (fun e => by cases e)
  | _ =>
    rename_i pc
    exact hr.move rfl rfl rfl (by simp [pc]) (fun e => by cases e)

theorem readyInv_step (hp : Handshakes c l) (hr : ReadyInv c) (hs : Step c l c') :
    ReadyInv c' := by
  cases hs with
  | signal => exact ⟨hr.waiting, hr.scope⟩
  | main h => cases h <;> exact ⟨hr.waiting, hr.scope⟩
  | dispatch h => exact readyInv_dispatch hp hr h
  | handler h => exact readyInv_handler hp hr h
  | cleanup h =>
    cases h with
    | join pc ended => exact hr.move rfl rfl rfl (by simp [ended]) (fun e => by cases e)
    | _ => exact ⟨hr.waiting, hr.scope⟩

/-! ## The queue -/

/-- `Run` does not notify between cleanup's test and its going to sleep, unless a handler has still
to end. -/
def Announces (c : Config) : Label → Prop
  | .main => c.main = .notify → c.cleanup = .waitSleep →
      ∃ id ∈ c.handlers, (c.handler id).owesJoin = true
  | _ => True

instance (c : Config) : (l : Label) → Decidable (Announces c l)
  | .main => inferInstanceAs (Decidable (c.main = .notify → c.cleanup = .waitSleep →
      ∃ id ∈ c.handlers, (c.handler id).owesJoin = true))
  | .signal | .dispatch | .insert _ | .dispatchThrow | .dispatchCancel | .dispatchWake
  | .handler _ | .handlerEnd _ | .cleanup | .cleanupWake => isTrue trivial

/-- Cleanup waits, with its predicate true, only for a notification still to come. -/
structure JoinInv (c : Config) : Prop where
  shut : c.main ≠ .pause → c.doShutdown = true
  empty : c.cleanup = .waitSleep → c.joinables = []
  queued : c.cleanup = .asleep → c.joinables ≠ [] → ∃ id, c.handler id = .notifyJoin
  notified : c.cleanup = .waitSleep ∨ c.cleanup = .asleep → c.main.pastNotify = true →
    ∃ id, (c.handler id).owesJoin = true

/-- A handler that does not end its duty to notify leaves a notification to come. -/
theorem owes_update {f : HandlerId → HandlerPc} {owner : HandlerId} {pc : HandlerPc}
    (h : (f owner).owesJoin = true → pc.owesJoin = true) (ho : ∃ id, (f id).owesJoin = true) :
    ∃ id, (Function.update f owner pc id).owesJoin = true := by
  obtain ⟨id, hid⟩ := ho
  refine ⟨id, ?_⟩
  by_cases e : id = owner
  · subst e; rw [Function.update_self]; exact h hid
  · rwa [Function.update_of_ne e]

/-- A handler that is not between its push and its notification moves. -/
theorem JoinInv.move {owner : HandlerId} {pc : HandlerPc} (hj : JoinInv c)
    (handler : c'.handler = Function.update c.handler owner pc)
    (same : c'.main = c.main ∧ c'.doShutdown = c.doShutdown ∧ c'.cleanup = c.cleanup ∧
      c'.joinables = c.joinables) (away : c.handler owner ≠ .notifyJoin)
    (owes : (c.handler owner).owesJoin = true → pc.owesJoin = true) : JoinInv c' := by
  obtain ⟨hmain, hshut, hcleanup, hjoinables⟩ := same
  constructor
  · rw [hmain, hshut]; exact hj.shut
  · rw [hcleanup, hjoinables]; exact hj.empty
  · rw [hcleanup, hjoinables, handler]
    intro hsleep hne
    obtain ⟨id, hid⟩ := hj.queued hsleep hne
    have hother : id ≠ owner := fun e => away (e ▸ hid)
    exact ⟨id, by rw [Function.update_of_ne hother, hid]⟩
  · rw [hcleanup, hmain, handler]
    exact fun hwait hpast => owes_update owes (hj.notified hwait hpast)

theorem JoinInv.awake (hj : JoinInv c) (hmain : c'.main = c.main)
    (hshut : c'.doShutdown = c.doShutdown) (hsleep : c'.cleanup ≠ .waitSleep)
    (hasleep : c'.cleanup ≠ .asleep) : JoinInv c' where
  shut := by rw [hmain, hshut]; exact hj.shut
  empty := fun e => absurd e hsleep
  queued := fun e => absurd e hasleep
  notified := fun e => absurd e (not_or.2 ⟨hsleep, hasleep⟩)

theorem notified_ne_asleep (pc : CleanupPc) : pc.notified ≠ .asleep := by
  cases pc <;> exact CleanupPc.noConfusion

theorem of_notified_waitSleep {pc : CleanupPc} (h : pc.notified = .waitSleep) :
    pc = .waitSleep := by
  cases pc <;> first | rfl | cases h

theorem pastNotify_round (next : Option HandlerId) : (MainPc.round next).pastNotify = false := by
  cases next <;> rfl

theorem joinInv_main (hp : Announces c .main) (hj : JoinInv c) (hs : MainStep c c') :
    JoinInv c' := by
  cases hs with
  | notify pc =>
    constructor
    · exact fun _ => hj.shut (by rw [pc]; exact MainPc.noConfusion)
    · exact fun e => hj.empty (of_notified_waitSleep e)
    · exact fun e => absurd e (notified_ne_asleep _)
    · rintro (e | e) -
      · obtain ⟨id, -, howes⟩ := hp pc (of_notified_waitSleep e)
        exact ⟨id, howes⟩
      · exact absurd e (notified_ne_asleep _)
  | pause pc shut => exact ⟨fun _ => shut, hj.empty, hj.queued, fun _ e => (by cases e)⟩
  | joinCleanup pc ended =>
    have hshut := hj.shut (by rw [pc]; exact MainPc.noConfusion)
    have hdone : ¬(c.cleanup = .waitSleep ∨ c.cleanup = .asleep) := by simp [ended]
    exact ⟨fun _ => hshut, hj.empty, hj.queued, fun e => absurd e hdone⟩
  | joinDispatch pc | advance pc =>
    refine ⟨fun _ => hj.shut (by rw [pc]; exact MainPc.noConfusion), hj.empty, hj.queued, ?_⟩
    intro _ hpast
    exact absurd hpast (by simp [pastNotify_round])
  | cancelDispatch pc | cancel pc | cancelGone pc | advanceGone pc =>
    exact ⟨fun _ => hj.shut (by rw [pc]; exact MainPc.noConfusion), hj.empty, hj.queued,
      fun _ e => (by cases e)⟩

theorem joinInv_dispatch (hi : Inv c) (hj : JoinInv c) (hs : DispatchStep c l c') :
    JoinInv c' := by
  cases hs with
  | @create owner pc =>
    have habsent : (c.handler owner).stage = .absent :=
      (hi.books.taken owner (by simp [Config.roster, pc, DispatchPc.taken])).2
    refine hj.move rfl ⟨rfl, rfl, rfl, rfl⟩ (fun e => ?_) (fun _ => rfl)
    rw [e] at habsent
    cases habsent
  | _ => exact ⟨hj.shut, hj.empty, hj.queued, hj.notified⟩

theorem not_waitSleep (hi : Inv c) {id : HandlerId} (hid : (c.handler id).holds = true) :
    c.cleanup ≠ .waitSleep := by
  intro e
  have hout := hi.owned.cleanup_outside hid
  rw [e] at hout
  cases hout

theorem joinInv_handler {id : HandlerId} (hi : Inv c) (hj : JoinInv c)
    (hs : HandlerStep c id l c') : JoinInv c' := by
  cases hs with
  | push pc =>
    have hout := @not_waitSleep c hi id (by rw [pc]; rfl)
    refine ⟨hj.shut, fun e => absurd e hout, fun _ _ => ⟨id, Function.update_self ..⟩, ?_⟩
    exact fun hwait hpast => owes_update (fun _ => rfl) (hj.notified hwait hpast)
  | notifyJoin pc =>
    have hout := @not_waitSleep c hi id (by rw [pc]; rfl)
    exact hj.awake rfl rfl (fun e => hout (of_notified_waitSleep e)) (notified_ne_asleep _)
  | leave pc =>
    refine hj.move rfl ⟨rfl, rfl, rfl, rfl⟩ (fun e => ?_) (fun _ => rfl)
    rcases pc with pc | pc <;> rw [e] at pc <;> cases pc
  | lock pc free => exact hj.move rfl ⟨rfl, rfl, rfl, rfl⟩ (by simp [pc]) (fun _ => rfl)
  | unlock pc =>
    refine hj.move rfl ⟨rfl, rfl, rfl, rfl⟩ (by simp [pc]) (fun e => ?_)
    rw [pc] at e
    cases e
  | _ =>
    rename_i pc
    exact hj.move rfl ⟨rfl, rfl, rfl, rfl⟩ (by simp [pc]) (fun _ => rfl)

theorem joinInv_cleanup (hj : JoinInv c) (hs : CleanupStep c l c') : JoinInv c' := by
  cases hs with
  | wait pc empty up =>
    -- `DoShutdown` is not set, so `Run` is still in its `pause()`
    have hpause : c.main = .pause := by
      by_contra hne
      rw [hj.shut hne] at up
      cases up
    refine ⟨hj.shut, fun _ => empty, fun e => (by cases e), fun _ hpast => ?_⟩
    have hearly : c.main.pastNotify = false := by rw [hpause]; rfl
    exact absurd hpast (by simp [hearly])
  | sleep pc =>
    refine ⟨hj.shut, fun e => (by cases e), fun _ hne => absurd (hj.empty pc) hne, ?_⟩
    exact fun _ hpast => hj.notified (.inl pc) hpast
  | _ =>
    exact hj.awake rfl rfl CleanupPc.noConfusion CleanupPc.noConfusion

theorem joinInv_step (hi : Inv c) (hp : Announces c l) (hj : JoinInv c) (hs : Step c l c') :
    JoinInv c' := by
  cases hs with
  | signal => exact ⟨fun _ => rfl, hj.empty, hj.queued, hj.notified⟩
  | main h => exact joinInv_main hp hj h
  | dispatch h => exact joinInv_dispatch hi hj h
  | handler h => exact joinInv_handler hi hj h
  | cleanup h => exact joinInv_cleanup hj h

/-! ## No wakeup is lost -/

/-- The notifications and the ends of the iterations come in time. -/
def Heeds (c : Config) (l : Label) : Prop := Handshakes c l ∧ Announces c l

instance (c : Config) (l : Label) : Decidable (Heeds c l) :=
  inferInstanceAs (Decidable (Handshakes c l ∧ Announces c l))

theorem readyInv_init : ReadyInv Config.init where
  waiting := fun id hw => (by rcases hw with hw | hw <;> simp [Config.init] at hw)
  scope := fun id hu => (by cases hu)

theorem joinInv_init : JoinInv Config.init where
  shut := fun e => absurd rfl e
  empty := fun e => (by cases e)
  queued := fun e => (by cases e)
  notified := fun _ e => (by cases e)

theorem readyInv_run (h : Lts.run step Config.init ls = some c)
    (ha : Lts.Along step Heeds Config.init ls) : ReadyInv c :=
  Lts.run_invariant_along readyInv_init
    (fun _ _ _ hr hp hs => readyInv_step hp.1 hr (step_cases hs)) h ha

theorem joinInv_run (h : Lts.run step Config.init ls = some c)
    (ha : Lts.Along step Heeds Config.init ls) : JoinInv c := by
  refine (Lts.run_invariant_along (P := fun c => Inv c ∧ JoinInv c) ⟨inv_init, joinInv_init⟩ ?_ h
    ha).2
  rintro s l s' ⟨hi, hj⟩ hp hs
  exact ⟨inv_step hi (step_cases hs), joinInv_step hi hp.2 hj (step_cases hs)⟩

theorem ReadyInv.not_lost (hr : ReadyInv c) : ¬ LostReady c := by
  rintro ⟨id, hasleep, ready, hdone⟩
  rw [hr.waiting id (.inr hasleep) ready] at hdone
  cases hdone

theorem JoinInv.not_lost (hj : JoinInv c) : ¬ LostJoin c := by
  rintro ⟨hasleep, ⟨hne, hnone⟩ | ⟨-, hpast, hnone⟩⟩
  · obtain ⟨id, hid⟩ := hj.queued hasleep hne
    exact hnone id hid
  · obtain ⟨id, hid⟩ := hj.notified (.inr hasleep) hpast
    rw [hnone id] at hid
    cases hid

/-- **No wakeup is lost.** In a run in which no handler notifies `readyCond`, and `Run` does not
notify `ReadyToJoin` as the last to do so, between the waiter's test and its going to sleep, and in
which no iteration of dispatch ends before its handler has notified, neither waiter sleeps with its
predicate true and everyone who would wake it done, and no handler uses a `readyCond` that is gone.
-/
theorem no_wakeup_lost (h : Lts.run step Config.init ls = some c)
    (ha : Lts.Along step Heeds Config.init ls) :
    ¬ LostReady c ∧ ¬ LostJoin c ∧ ReadyInScope c :=
  ⟨(readyInv_run h ha).not_lost, (joinInv_run h ha).not_lost, (readyInv_run h ha).scope⟩

/-- Cleanup goes to sleep, dispatch does and is woken by its handler, and `Run` wakes cleanup. -/
def heededRun : List Label :=
  [.cleanup, .cleanup, .cleanup, .dispatch, .dispatch, .dispatch, .dispatch, .dispatch, .insert 0,
    .dispatch, .dispatch, .dispatch, .handler 0, .handler 0, .dispatch, .dispatch, .signal,
    .dispatch, .main, .main, .main, .main, .main, .main]

theorem no_wakeup_lost_heeded :
    ∃ c, Lts.run step Config.init heededRun = some c ∧ c.cleanup = .reacquire ∧
      ¬ LostReady c ∧ ¬ LostJoin c ∧ ReadyInScope c := by
  have ha : Lts.Along step Heeds Config.init heededRun := Lts.Along.of_permitted (by decide)
  obtain ⟨c, hrun, pc⟩ : ∃ c, Lts.run step Config.init heededRun = some c ∧
      c.cleanup = .reacquire := Lts.run_reaches (by decide)
  exact ⟨c, hrun, pc, no_wakeup_lost hrun ha⟩

/-- The handler sets `ready` and notifies between dispatch's test and its going to sleep. -/
def deafRun : List Label :=
  [.dispatch, .dispatch, .dispatch, .dispatch, .dispatch, .insert 0, .dispatch, .dispatch,
    .handler 0, .handler 0, .dispatch]

/-- The signal comes, and `Run` notifies, between cleanup's test and its going to sleep. -/
def unheardRun : List Label :=
  [.cleanup, .cleanup, .signal, .dispatch, .main, .main, .main, .main, .cleanup]

/-- Dispatch finds `ready` set and greets its client before the handler has notified. -/
def hastyRun : List Label :=
  [.dispatch, .dispatch, .dispatch, .dispatch, .dispatch, .insert 0, .dispatch, .handler 0,
    .dispatch, .dispatch]

/-- Dispatch and cleanup each sleep for good, and a handler notifies a `readyCond` that is gone. -/
theorem wakeups_lost :
    (∃ c, Lts.run step Config.init deafRun = some c ∧ LostReady c) ∧
      (∃ c, Lts.run step Config.init unheardRun = some c ∧ LostJoin c) ∧
      ∃ c, Lts.run step Config.init hastyRun = some c ∧ c.handler 0 = .notifyReady ∧
        c.dispatch.iteration = none ∧ (step c (.handler 0)).isSome = true := by
  refine ⟨?_, ⟨_, rfl, rfl, .inr ⟨rfl, rfl, fun _ => rfl⟩⟩, Lts.run_reaches (by decide)⟩
  obtain ⟨c, hrun, hlost⟩ : ∃ c, Lts.run step Config.init deafRun = some c ∧
      c.dispatch = .readyAsleep 0 ∧ c.ready 0 = true ∧ (c.handler 0).usesReady = false :=
    Lts.run_reaches (by decide)
  exact ⟨c, hrun, 0, hlost⟩

end Threads

end MbDaemon
