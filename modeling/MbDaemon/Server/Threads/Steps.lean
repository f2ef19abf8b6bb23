import MbDaemon.Server.Threads
import MbDaemon.Server.Threads.Roster

/-!
# What the server's threads can do

`Step` lists the steps of each thread. `Config.roster` reads the books off a configuration, and
every step is a step of the books or leaves them alone (`roster_step`), so what `Roster.Ok` says
holds of every run; with the lock discipline of `JoinablesMutex` this is `Inv`.
-/

namespace MbDaemon

namespace Threads

inductive MainStep (c : Config) : Config → Prop where
  | pause (pc : c.main = .pause) (shut : c.doShutdown = true) :
      MainStep c { c with main := .cancelDispatch }
  | cancelDispatch (pc : c.main = .cancelDispatch) :
      MainStep c { c with main := .joinDispatch, dispatchCancelled := true }
  | joinDispatch (pc : c.main = .joinDispatch) (ended : c.dispatch = .done) :
      MainStep c { c with main := .round c.handlers.head? }
  | cancel {id} (pc : c.main = .cancel id) (here : id ∈ c.handlers ∧ c.handler id ≠ .joined) :
      MainStep c { c with
        main := .advance id, handlerCancelled := Function.update c.handlerCancelled id true }
  | cancelGone {id} (pc : c.main = .cancel id)
      (gone : ¬(id ∈ c.handlers ∧ c.handler id ≠ .joined)) : MainStep c { c with main := .stray }
  | advance {id} (pc : c.main = .advance id) (here : id ∈ c.handlers) :
      MainStep c { c with main := .round (after id c.handlers) }
  | advanceGone {id} (pc : c.main = .advance id) (gone : id ∉ c.handlers) :
      MainStep c { c with main := .stray }
  | notify (pc : c.main = .notify) :
      MainStep c { c with main := .joinCleanup, cleanup := c.cleanup.notified }
  | joinCleanup (pc : c.main = .joinCleanup) (ended : c.cleanup = .done) :
      MainStep c { c with main := .returned }

inductive DispatchStep (c : Config) : Label → Config → Prop where
  | leave (pc : c.dispatch = .test) (shut : c.doShutdown = true) :
      DispatchStep c .dispatch { c with dispatch := .done }
  | stay (pc : c.dispatch = .test) (up : c.doShutdown = false) :
      DispatchStep c .dispatch { c with dispatch := .accept }
  | accept (pc : c.dispatch = .accept) (go : c.dispatchCancelled = false) :
      DispatchStep c .dispatch
        { c with dispatch := .socket c.currentId, currentId := c.currentId + 1 }
  | socket {id} (pc : c.dispatch = .socket id) :
      DispatchStep c .dispatch { c with dispatch := .create id }
  | create {id} (pc : c.dispatch = .create id) :
      DispatchStep c .dispatch { c with
        dispatch := .lockInsert id
        ready := Function.update c.ready id false
        handler := Function.update c.handler id .setReady }
  | lockInsert {id} (pc : c.dispatch = .lockInsert id) (free : c.joinablesMutex = none) :
      DispatchStep c .dispatch { c with dispatch := .insert id, joinablesMutex := some .dispatch }
  | insert {id slot} (pc : c.dispatch = .insert id) :
      DispatchStep c (.insert slot) { c with
        dispatch := .unlockInsert id
        handlers := c.handlers.take slot ++ id :: c.handlers.drop slot }
  | unlockInsert {id} (pc : c.dispatch = .unlockInsert id) :
      DispatchStep c .dispatch { c with dispatch := .readyTest id, joinablesMutex := none }
  | isReady {id} (pc : c.dispatch = .readyTest id) (ready : c.ready id = true) :
      DispatchStep c .dispatch { c with dispatch := .hello id }
  | notReady {id} (pc : c.dispatch = .readyTest id) (unready : c.ready id = false) :
      DispatchStep c .dispatch { c with dispatch := .readySleep id }
  | readySleep {id} (pc : c.dispatch = .readySleep id) (go : c.dispatchCancelled = false) :
      DispatchStep c .dispatch { c with dispatch := .readyAsleep id }
  | hello {id} (pc : c.dispatch = .hello id) (go : c.dispatchCancelled = false) :
      DispatchStep c .dispatch { c with dispatch := .test }
  | throw (pc : c.dispatch.throws = true) :
      DispatchStep c .dispatchThrow { c with dispatch := .done }
  | cancel (pc : c.dispatch.cancels = true) (cancelled : c.dispatchCancelled = true) :
      DispatchStep c .dispatchCancel { c with dispatch := .done }
  | wake {id} (pc : c.dispatch = .readyAsleep id) :
      DispatchStep c .dispatchWake { c with dispatch := .readyTest id }

inductive HandlerStep (c : Config) (id : HandlerId) : Label → Config → Prop where
  | setReady (pc : c.handler id = .setReady) :
      HandlerStep c id (.handler id) { c with
        ready := Function.update c.ready id true
        handler := Function.update c.handler id .notifyReady }
  | notifyReady (pc : c.handler id = .notifyReady) :
      HandlerStep c id (.handler id) { c with
        dispatch := c.dispatch.notified id
        handler := Function.update c.handler id .serving }
  | leave (pc : c.handler id = .serving ∨ c.handler id = .setReady) :
      HandlerStep c id (.handlerEnd id)
        { c with handler := Function.update c.handler id .lock }
  | lock (pc : c.handler id = .lock) (free : c.joinablesMutex = none) :
      HandlerStep c id (.handler id) { c with
        joinablesMutex := some (.handler id)
        handler := Function.update c.handler id .push }
  | push (pc : c.handler id = .push) :
      HandlerStep c id (.handler id) { c with
        joinables := c.joinables ++ [id]
        handler := Function.update c.handler id .notifyJoin }
  | notifyJoin (pc : c.handler id = .notifyJoin) :
      HandlerStep c id (.handler id) { c with
        cleanup := c.cleanup.notified
        handler := Function.update c.handler id .unlock }
  | unlock (pc : c.handler id = .unlock) :
      HandlerStep c id (.handler id) { c with
        joinablesMutex := none
        handler := Function.update c.handler id .finished }

inductive CleanupStep (c : Config) : Label → Config → Prop where
  | lock (pc : c.cleanup = .lock ∨ c.cleanup = .reacquire) (free : c.joinablesMutex = none) :
      CleanupStep c .cleanup { c with cleanup := .waitTest, joinablesMutex := some .cleanup }
  | go (pc : c.cleanup = .waitTest) (ready : c.joinables ≠ [] ∨ c.doShutdown = true) :
      CleanupStep c .cleanup { c with cleanup := .exitTest }
  | wait (pc : c.cleanup = .waitTest) (empty : c.joinables = []) (up : c.doShutdown = false) :
      CleanupStep c .cleanup { c with cleanup := .waitSleep }
  | sleep (pc : c.cleanup = .waitSleep) :
      CleanupStep c .cleanup { c with cleanup := .asleep, joinablesMutex := none }
  | exit (pc : c.cleanup = .exitTest) (shut : c.doShutdown = true) (empty : c.handlers = []) :
      CleanupStep c .cleanup { c with cleanup := .exitUnlock }
  | stay (pc : c.cleanup = .exitTest) (more : ¬(c.doShutdown = true ∧ c.handlers = [])) :
      CleanupStep c .cleanup { c with cleanup := .drain }
  | drained (pc : c.cleanup = .drain) (empty : c.joinables = []) :
      CleanupStep c .cleanup { c with cleanup := .unlock }
  | front {id} (pc : c.cleanup = .drain) (head : c.joinables.head? = some id) :
      CleanupStep c .cleanup { c with cleanup := .lookup id }
  | find {id} (pc : c.cleanup = .lookup id) (known : id ∈ c.handlers) :
      CleanupStep c .cleanup { c with cleanup := .joining id }
  | miss {id} (pc : c.cleanup = .lookup id) (gone : id ∉ c.handlers) :
      CleanupStep c .cleanup { c with cleanup := .crashed }
  | join {id} (pc : c.cleanup = .joining id) (ended : c.handler id = .finished) :
      CleanupStep c .cleanup
        { c with cleanup := .erase id, handler := Function.update c.handler id .joined }
  | erase {id} (pc : c.cleanup = .erase id) :
      CleanupStep c .cleanup { c with
        cleanup := .drain, handlers := c.handlers.erase id, joinables := c.joinables.tail }
  | unlock (pc : c.cleanup = .unlock) :
      CleanupStep c .cleanup { c with cleanup := .lock, joinablesMutex := none }
  | exitUnlock (pc : c.cleanup = .exitUnlock) :
      CleanupStep c .cleanup { c with cleanup := .done, joinablesMutex := none }
  | wake (pc : c.cleanup = .asleep) :
      CleanupStep c .cleanupWake { c with cleanup := .reacquire }

inductive Step (c : Config) : Label → Config → Prop where
  | signal : Step c .signal { c with doShutdown := true }
  | main {c'} (h : MainStep c c') : Step c .main c'
  | dispatch {l c'} (h : DispatchStep c l c') : Step c l c'
  | handler {id l c'} (h : HandlerStep c id l c') : Step c l c'
  | cleanup {l c'} (h : CleanupStep c l c') : Step c l c'

variable {c c' : Config} {l : Label}

theorem nextMain_cases (h : c.nextMain = some c') : MainStep c c' := by
  unfold Config.nextMain at h
  cases pc : c.main with
  | pause =>
    simp only [pc] at h
    split at h
    · cases h; exact .pause pc ‹_›
    · cases h
  | cancelDispatch => simp only [pc] at h; cases h; exact .cancelDispatch pc
  | joinDispatch =>
    simp only [pc] at h
    split at h
    · cases h; exact .joinDispatch pc ‹_›
    · cases h
  | cancel id =>
    simp only [pc] at h
    split at h
    · cases h; exact .cancel pc ‹_›
    · cases h; exact .cancelGone pc ‹_›
  | advance id =>
    simp only [pc] at h
    split at h
    · cases h; exact .advance pc ‹_›
    · cases h; exact .advanceGone pc ‹_›
  | notify => simp only [pc] at h; cases h; exact .notify pc
  | joinCleanup =>
    simp only [pc] at h
    split at h
    · cases h; exact .joinCleanup pc ‹_›
    · cases h
  | stray => simp only [pc] at h; cases h
  | returned => simp only [pc] at h; cases h

theorem nextDispatch_cases (h : c.nextDispatch = some c') : DispatchStep c .dispatch c' := by
  unfold Config.nextDispatch at h
  cases pc : c.dispatch with
  | test =>
    simp only [pc] at h
    split at h
    · cases h; exact .leave pc ‹_›
    · rename_i up; cases h; exact .stay pc (by simpa using up)
  | accept =>
    simp only [pc] at h
    split at h
    · cases h
    · rename_i go; cases h; exact .accept pc (by simpa using go)
  | socket id => simp only [pc] at h; cases h; exact .socket pc
  | create id => simp only [pc] at h; cases h; exact .create pc
  | lockInsert id =>
    simp only [pc] at h
    split at h
    · cases h; exact .lockInsert pc ‹_›
    · cases h
  | unlockInsert id => simp only [pc] at h; cases h; exact .unlockInsert pc
  | readyTest id =>
    simp only [pc] at h
    split at h
    · cases h; exact .isReady pc ‹_›
    · rename_i unready; cases h; exact .notReady pc (by simpa using unready)
  | readySleep id =>
    simp only [pc] at h
    split at h
    · cases h
    · rename_i go; cases h; exact .readySleep pc (by simpa using go)
  | hello id =>
    simp only [pc] at h
    split at h
    · cases h
    · rename_i go; cases h; exact .hello pc (by simpa using go)
  | _ => simp only [pc] at h; cases h

theorem nextHandler_cases {id : HandlerId} (h : c.nextHandler id = some c') :
    HandlerStep c id (.handler id) c' := by
  unfold Config.nextHandler at h
  cases pc : c.handler id with
  | setReady => simp only [pc] at h; cases h; exact .setReady pc
  | notifyReady => simp only [pc] at h; cases h; exact .notifyReady pc
  | lock =>
    simp only [pc] at h
    split at h
    · cases h; exact .lock pc ‹_›
    · cases h
  | push => simp only [pc] at h; cases h; exact .push pc
  | notifyJoin => simp only [pc] at h; cases h; exact .notifyJoin pc
  | unlock => simp only [pc] at h; cases h; exact .unlock pc
  | _ => simp only [pc] at h; cases h

theorem nextEnd_cases {id : HandlerId} (h : c.nextEnd id = some c') :
    HandlerStep c id (.handlerEnd id) c' := by
  unfold Config.nextEnd at h
  cases pc : c.handler id with
  | serving => simp only [pc] at h; cases h; exact .leave (.inl pc)
  | setReady =>
    simp only [pc] at h
    split at h
    · cases h; exact .leave (.inr pc)
    · cases h
  | _ => simp only [pc] at h; cases h

theorem nextCleanup_cases (h : c.nextCleanup = some c') : CleanupStep c .cleanup c' := by
  unfold Config.nextCleanup at h
  cases pc : c.cleanup with
  | lock =>
    simp only [pc] at h
    split at h
    · cases h; exact .lock (.inl pc) ‹_›
    · cases h
  | reacquire =>
    simp only [pc] at h
    split at h
    · cases h; exact .lock (.inr pc) ‹_›
    · cases h
  | waitTest =>
    simp only [pc] at h
    split at h
    · cases h; exact .go pc ‹_›
    · rename_i hn
      obtain ⟨empty, up⟩ := not_or.1 hn
      cases h
      exact .wait pc (not_not.1 empty) (by simpa using up)
  | waitSleep => simp only [pc] at h; cases h; exact .sleep pc
  | exitTest =>
    simp only [pc] at h
    split at h
    · rename_i he; cases h; exact .exit pc he.1 he.2
    · cases h; exact .stay pc ‹_›
  | drain =>
    simp only [pc] at h
    split at h
    · cases h; exact .drained pc ‹_›
    · rename_i hj; cases h; exact .front pc (by rw [hj]; rfl)
  | lookup id =>
    simp only [pc] at h
    split at h
    · cases h; exact .find pc ‹_›
    · cases h; exact .miss pc ‹_›
  | joining id =>
    simp only [pc] at h
    split at h
    · cases h; exact .join pc ‹_›
    · cases h
  | erase id => simp only [pc] at h; cases h; exact .erase pc
  | unlock => simp only [pc] at h; cases h; exact .unlock pc
  | exitUnlock => simp only [pc] at h; cases h; exact .exitUnlock pc
  | _ => simp only [pc] at h; cases h

theorem step_cases (h : step c l = some c') : Step c l c' := by
  unfold step at h
  split at h
  · cases h
  cases l with
  | signal => cases h; exact .signal
  | main => exact .main (nextMain_cases h)
  | dispatch => exact .dispatch (nextDispatch_cases h)
  | insert slot =>
    simp only [Config.nextInsert] at h
    split at h
    · cases h; exact .dispatch (.insert ‹_›)
    · cases h
  | dispatchThrow =>
    simp only at h
    split at h
    · cases h; exact .dispatch (.throw ‹_›)
    · cases h
  | dispatchCancel =>
    simp only at h
    split at h
    · rename_i hc; cases h; exact .dispatch (.cancel hc.2 hc.1)
    · cases h
  | dispatchWake =>
    simp only at h
    split at h
    · cases h; exact .dispatch (.wake ‹_›)
    · cases h
  | handler id => exact .handler (nextHandler_cases h)
  | handlerEnd id => exact .handler (nextEnd_cases h)
  | cleanup => exact .cleanup (nextCleanup_cases h)
  | cleanupWake =>
    simp only at h
    split at h
    · cases h; exact .cleanup (.wake ‹_›)
    · cases h

/-! ## The books -/

def HandlerPc.stage : HandlerPc → Stage
  | .absent => .absent
  | .setReady | .notifyReady | .serving | .lock | .push => .running
  | .notifyJoin | .unlock | .finished => .pushed
  | .joined => .joined

/-- The id dispatch has taken for a handler it has not made yet. -/
def DispatchPc.taken : DispatchPc → Option HandlerId
  | .socket id | .create id => some id
  | _ => none

/-- The handler dispatch has made and not entered yet. -/
def DispatchPc.created : DispatchPc → Option HandlerId
  | .lockInsert id | .insert id => some id
  | _ => none

def CleanupPc.taking : CleanupPc → Taking
  | .lookup id => .front id
  | .joining id => .found id
  | .erase id => .joined id
  | _ => .idle

def Config.roster (c : Config) : Roster where
  handlers := c.handlers
  joinables := c.joinables
  currentId := c.currentId
  stage := fun id => (c.handler id).stage
  taken := c.dispatch.taken
  created := c.dispatch.created
  taking := c.cleanup.taking

@[simp] theorem taken_notified (id : HandlerId) (pc : DispatchPc) :
    (pc.notified id).taken = pc.taken := by
  unfold DispatchPc.notified
  split
  · rename_i e; subst e; rfl
  · rfl

@[simp] theorem created_notified (id : HandlerId) (pc : DispatchPc) :
    (pc.notified id).created = pc.created := by
  unfold DispatchPc.notified
  split
  · rename_i e; subst e; rfl
  · rfl

@[simp] theorem taking_notified (pc : CleanupPc) : pc.notified.taking = pc.taking := by
  cases pc <;> rfl

theorem stage_update (f : HandlerId → HandlerPc) (id : HandlerId) (pc : HandlerPc) :
    (fun i => (Function.update f id pc i).stage) =
      Function.update (fun i => (f i).stage) id pc.stage := by
  funext i
  by_cases hi : i = id
  · subst hi; simp
  · simp [hi]

theorem stage_move {f : HandlerId → HandlerPc} {id : HandlerId} {pc : HandlerPc}
    (h : pc.stage = (f id).stage) (i : HandlerId) :
    (Function.update f id pc i).stage = (f i).stage := by
  by_cases hi : i = id
  · subst hi; rw [Function.update_self, h]
  · rw [Function.update_of_ne hi]

theorem roster_congr (handlers : c'.handlers = c.handlers) (joinables : c'.joinables = c.joinables)
    (currentId : c'.currentId = c.currentId)
    (stage : ∀ i, (c'.handler i).stage = (c.handler i).stage)
    (taken : c'.dispatch.taken = c.dispatch.taken)
    (created : c'.dispatch.created = c.dispatch.created)
    (taking : c'.cleanup.taking = c.cleanup.taking) : c'.roster = c.roster := by
  simp only [Config.roster, handlers, joinables, currentId, stage, taken, created, taking]

theorem roster_main (hs : MainStep c c') : c'.roster = c.roster := by
  cases hs with
  | notify => exact roster_congr rfl rfl rfl (fun _ => rfl) rfl rfl (taking_notified _)
  | _ => rfl

/-- An exception or a cancellation does not catch dispatch with a handler still to enter. -/
theorem created_of_throws {pc : DispatchPc} (h : pc.throws = true) : pc.created = none := by
  cases pc <;> first | rfl | cases h

theorem created_of_cancels {pc : DispatchPc} (h : pc.cancels = true) : pc.created = none := by
  cases pc <;> first | rfl | cases h

theorem roster_dispatch (hs : DispatchStep c l c') :
    c'.roster = c.roster ∨ Roster.Step c.roster c'.roster := by
  cases hs with
  | accept pc =>
    right
    simp only [Config.roster, pc, DispatchPc.taken, DispatchPc.created]
    exact .take rfl
  | @create id pc =>
    right
    simp only [Config.roster, pc, DispatchPc.taken, DispatchPc.created, stage_update]
    exact .create rfl rfl
  | @insert id slot pc =>
    right
    have hperm : (c.handlers.take slot ++ id :: c.handlers.drop slot).Perm (id :: c.handlers) := by
      simpa using @List.perm_middle _ id (c.handlers.take slot) (c.handlers.drop slot)
    simp only [Config.roster, pc, DispatchPc.taken, DispatchPc.created]
    exact .insert rfl hperm
  | throw pc =>
    right
    have hcreated : c.dispatch.created = none := created_of_throws pc
    simp only [Config.roster, hcreated]
    exact .drop
  | cancel pc =>
    right
    have hcreated : c.dispatch.created = none := created_of_cancels pc
    simp only [Config.roster, hcreated]
    exact .drop
  | _ =>
    left
    simp_all [Config.roster, DispatchPc.taken, DispatchPc.created]

theorem roster_handler {id : HandlerId} (hs : HandlerStep c id l c') :
    c'.roster = c.roster ∨ Roster.Step c.roster c'.roster := by
  cases hs with
  | push pc =>
    right
    simp only [Config.roster, stage_update]
    exact .push (by simp [pc, HandlerPc.stage])
  | leave pc =>
    have hstage : HandlerPc.lock.stage = (c.handler id).stage := by
      rcases pc with pc | pc <;> rw [pc] <;> rfl
    exact .inl (roster_congr rfl rfl rfl (stage_move hstage) rfl rfl rfl)
  | lock pc free =>
    exact .inl (roster_congr rfl rfl rfl (stage_move (by rw [pc]; rfl)) rfl rfl rfl)
  | _ =>
    rename_i pc
    exact .inl
      (roster_congr rfl rfl rfl (stage_move (by rw [pc]; rfl)) (by simp) (by simp) (by simp))

theorem roster_cleanup (hs : CleanupStep c l c') :
    c'.roster = c.roster ∨ Roster.Step c.roster c'.roster := by
  cases hs with
  | front pc head =>
    right
    simp only [Config.roster, pc, CleanupPc.taking]
    exact .look rfl head
  | find pc known =>
    right
    simp only [Config.roster, pc, CleanupPc.taking]
    exact .find rfl known
  | miss pc gone =>
    right
    simp only [Config.roster, pc, CleanupPc.taking]
    exact .miss rfl gone
  | join pc ended =>
    right
    simp only [Config.roster, pc, CleanupPc.taking, stage_update]
    exact .join rfl
  | erase pc =>
    right
    simp only [Config.roster, pc, CleanupPc.taking]
    exact .erase rfl
  | lock pc free =>
    left
    rcases pc with pc | pc <;> simp [Config.roster, pc, CleanupPc.taking]
  | _ =>
    left
    simp_all [Config.roster, CleanupPc.taking]

/-- **A step of the threads is a step of the books**, or leaves them alone. -/
theorem roster_step (hs : Step c l c') : c'.roster = c.roster ∨ Roster.Step c.roster c'.roster := by
  cases hs with
  | signal => exact .inl rfl
  | main h => exact .inl (roster_main h)
  | dispatch h => exact roster_dispatch h
  | handler h => exact roster_handler h
  | cleanup h => exact roster_cleanup h

/-! ## The mutex -/

def DispatchPc.holds : DispatchPc → Bool
  | .insert _ | .unlockInsert _ => true
  | _ => false

def HandlerPc.holds : HandlerPc → Bool
  | .push | .notifyJoin | .unlock => true
  | _ => false

def CleanupPc.holds : CleanupPc → Bool
  | .lock | .asleep | .reacquire | .done => false
  | _ => true

/-- Who is inside `JoinablesMutex`, by where the threads are. -/
def Config.holds (c : Config) : Thread → Bool
  | .dispatch => c.dispatch.holds
  | .handler id => (c.handler id).holds
  | .cleanup => c.cleanup.holds

def Config.Owned (c : Config) : Prop := Mutex.Owned (fun b : Bool => b) c.holds c.joinablesMutex

theorem holds_eq_update {t : Thread} (h : ∀ u, u ≠ t → c'.holds u = c.holds u) :
    c'.holds = Function.update c.holds t (c'.holds t) := by
  funext u
  by_cases hu : u = t
  · subst hu; simp
  · rw [Function.update_of_ne hu, h u hu]

theorem Config.Owned.acquire (ho : c.Owned) {t : Thread} (free : c.joinablesMutex = none)
    (taken : c'.joinablesMutex = some t) (inside : c'.holds t = true)
    (others : ∀ u, u ≠ t → c'.holds u = c.holds u) : c'.Owned := by
  unfold Config.Owned at ho ⊢
  rw [taken, holds_eq_update others]
  exact Mutex.Owned.acquire (free ▸ ho) t inside

theorem Config.Owned.release (ho : c.Owned) {t : Thread} (inside : c.holds t = true)
    (free : c'.joinablesMutex = none) (outside : c'.holds t = false)
    (others : ∀ u, u ≠ t → c'.holds u = c.holds u) : c'.Owned := by
  unfold Config.Owned at ho ⊢
  rw [free, holds_eq_update others]
  exact Mutex.Owned.release ho inside outside

theorem Config.Owned.keep (ho : c.Owned) (same : c'.joinablesMutex = c.joinablesMutex)
    (others : ∀ u, c'.holds u = c.holds u) : c'.Owned := by
  unfold Config.Owned at ho ⊢
  rw [same, show c'.holds = c.holds from funext others]
  exact ho

@[simp] theorem holds_dispatch_notified (id : HandlerId) (pc : DispatchPc) :
    (pc.notified id).holds = pc.holds := by
  unfold DispatchPc.notified
  split
  · rename_i e; subst e; rfl
  · rfl

@[simp] theorem holds_cleanup_notified (pc : CleanupPc) : pc.notified.holds = pc.holds := by
  cases pc <;> rfl

theorem others_dispatch (handler : ∀ i, (c'.handler i).holds = (c.handler i).holds)
    (cleanup : c'.cleanup.holds = c.cleanup.holds) :
    ∀ u, u ≠ Thread.dispatch → c'.holds u = c.holds u := by
  intro u hu
  cases u with
  | dispatch => exact absurd rfl hu
  | handler i => exact handler i
  | cleanup => exact cleanup

theorem others_handler {id : HandlerId} (dispatch : c'.dispatch.holds = c.dispatch.holds)
    (handler : ∀ i, i ≠ id → c'.handler i = c.handler i)
    (cleanup : c'.cleanup.holds = c.cleanup.holds) :
    ∀ u, u ≠ Thread.handler id → c'.holds u = c.holds u := by
  intro u hu
  cases u with
  | dispatch => exact dispatch
  | handler i =>
    show (c'.handler i).holds = (c.handler i).holds
    rw [handler i (fun e => hu (by rw [e]))]
  | cleanup => exact cleanup

theorem others_cleanup (dispatch : c'.dispatch.holds = c.dispatch.holds)
    (handler : ∀ i, (c'.handler i).holds = (c.handler i).holds) :
    ∀ u, u ≠ Thread.cleanup → c'.holds u = c.holds u := by
  intro u hu
  cases u with
  | dispatch => exact dispatch
  | handler i => exact handler i
  | cleanup => exact absurd rfl hu

theorem holds_move {f : HandlerId → HandlerPc} {id : HandlerId} {pc : HandlerPc}
    (h : pc.holds = (f id).holds) (i : HandlerId) :
    (Function.update f id pc i).holds = (f i).holds := by
  by_cases hi : i = id
  · subst hi; rw [Function.update_self, h]
  · rw [Function.update_of_ne hi]

theorem owned_main (ho : c.Owned) (hs : MainStep c c') : c'.Owned := by
  cases hs with
  | notify =>
    refine ho.keep rfl fun u => ?_
    cases u with
    | cleanup => exact holds_cleanup_notified _
    | _ => rfl
  | _ => exact ho

theorem owned_dispatch (hb : Roster.Ok c.roster) (ho : c.Owned) (hs : DispatchStep c l c') :
    c'.Owned := by
  cases hs with
  | lockInsert pc free =>
    exact ho.acquire free rfl rfl (others_dispatch (fun _ => rfl) rfl)
  | unlockInsert pc =>
    have inside : c.holds .dispatch = true := by simp [Config.holds, pc, DispatchPc.holds]
    exact ho.release inside rfl rfl (others_dispatch (fun _ => rfl) rfl)
  | @create id pc =>
    -- the new handler's place is that of no thread yet
    have habsent : (c.handler id).stage = .absent :=
      (hb.taken id (by simp [Config.roster, pc, DispatchPc.taken])).2
    have hplace : HandlerPc.setReady.holds = (c.handler id).holds := by
      cases h : c.handler id <;> simp_all [HandlerPc.stage, HandlerPc.holds]
    refine ho.keep rfl fun u => ?_
    cases u with
    | dispatch => simp [Config.holds, pc, DispatchPc.holds]
    | handler i => exact holds_move hplace i
    | cleanup => rfl
  | throw pc =>
    refine ho.keep rfl fun u => ?_
    cases u with
    | dispatch =>
      cases h : c.dispatch <;> simp_all [Config.holds, DispatchPc.throws, DispatchPc.holds]
    | _ => rfl
  | cancel pc =>
    refine ho.keep rfl fun u => ?_
    cases u with
    | dispatch =>
      cases h : c.dispatch <;> simp_all [Config.holds, DispatchPc.cancels, DispatchPc.holds]
    | _ => rfl
  | _ =>
    refine ho.keep rfl fun u => ?_
    cases u with
    | dispatch => simp_all [Config.holds, DispatchPc.holds]
    | _ => rfl

theorem owned_handler {id : HandlerId} (ho : c.Owned) (hs : HandlerStep c id l c') :
    c'.Owned := by
  cases hs with
  | lock pc free =>
    refine ho.acquire free rfl ?_
      (others_handler rfl (fun i hi => Function.update_of_ne hi _ _) rfl)
    simp [Config.holds, HandlerPc.holds]
  | unlock pc =>
    have inside : c.holds (.handler id) = true := by simp [Config.holds, pc, HandlerPc.holds]
    refine ho.release inside rfl ?_
      (others_handler rfl (fun i hi => Function.update_of_ne hi _ _) rfl)
    simp [Config.holds, HandlerPc.holds]
  | leave pc =>
    have hplace : HandlerPc.lock.holds = (c.handler id).holds := by
      rcases pc with pc | pc <;> rw [pc] <;> rfl
    refine ho.keep rfl fun u => ?_
    cases u with
    | handler i => exact holds_move hplace i
    | _ => rfl
  | _ =>
    rename_i pc
    refine ho.keep rfl fun u => ?_
    cases u with
    | handler i => exact holds_move (by rw [pc]; rfl) i
    | dispatch => simp [Config.holds]
    | cleanup => simp [Config.holds]

theorem owned_cleanup (ho : c.Owned) (hs : CleanupStep c l c') : c'.Owned := by
  cases hs with
  | lock pc free => exact ho.acquire free rfl rfl (others_cleanup rfl fun _ => rfl)
  | sleep pc | unlock pc | exitUnlock pc =>
    have inside : c.holds .cleanup = true := by simp [Config.holds, pc, CleanupPc.holds]
    exact ho.release inside rfl rfl (others_cleanup rfl fun _ => rfl)
  | @join id pc ended =>
    refine ho.keep rfl fun u => ?_
    cases u with
    | dispatch => rfl
    | handler i => exact holds_move (by rw [ended]; rfl) i
    | cleanup => simp [Config.holds, pc, CleanupPc.holds]
  | _ =>
    refine ho.keep rfl fun u => ?_
    cases u with
    | cleanup => simp_all [Config.holds, CleanupPc.holds]
    | _ => rfl

theorem owned_step (hb : Roster.Ok c.roster) (ho : c.Owned) (hs : Step c l c') : c'.Owned := by
  cases hs with
  | signal => exact ho
  | main h => exact owned_main ho h
  | dispatch h => exact owned_dispatch hb ho h
  | handler h => exact owned_handler ho h
  | cleanup h => exact owned_cleanup ho h

theorem Config.Owned.excludes (ho : c.Owned) {t u : Thread} (ht : c.holds t = true) (hne : t ≠ u) :
    c.holds u = false := by
  cases hu : c.holds u with
  | false => rfl
  | true => exact absurd (Mutex.Owned.unique ho ht hu) hne

theorem Config.Owned.cleanup_outside (ho : c.Owned) {id : HandlerId}
    (hid : (c.handler id).holds = true) : c.cleanup.holds = false :=
  ho.excludes (t := .handler id) (u := .cleanup) hid Thread.noConfusion

/-! ## What holds of every run -/

/-- The books are in order, and the mutex agrees with where the threads are. -/
structure Inv (c : Config) : Prop where
  books : Roster.Ok c.roster
  owned : c.Owned

theorem inv_init : Inv Config.init where
  books := by
    constructor <;>
      simp [Config.roster, Config.init, HandlerPc.stage, DispatchPc.taken, DispatchPc.created,
        CleanupPc.taking, Taking.id]
  owned := fun t => by
    cases t <;> simp [Config.init, Config.holds, DispatchPc.holds, HandlerPc.holds, CleanupPc.holds]

theorem inv_step (hi : Inv c) (hs : Step c l c') : Inv c' where
  books := by
    rcases roster_step hs with e | h
    · rw [e]; exact hi.books
    · exact Roster.ok_step hi.books h
  owned := owned_step hi.books hi.owned hs

theorem inv_run {ls : List Label} (h : Lts.run step Config.init ls = some c) : Inv c :=
  Lts.run_invariant inv_init (fun _ _ _ hi hs => inv_step hi (step_cases hs)) h

end Threads

end MbDaemon
