import MbDaemon.Lib.Lts
import MbDaemon.Lib.Mutex

/-!
# The server's threads

`Server::Run` starts a dispatch thread and a cleanup thread, waits for a signal and shuts both down.
The dispatch thread makes a handler thread for each connection and enters it into `Handlers` under
`JoinablesMutex`, waiting on the `readyCond` of the iteration until the handler is up. A handler
that ends pushes its id to `Joinables` under the mutex and notifies `ReadyToJoin`, on which the
cleanup thread waits to join and erase it.

`Config` holds what the threads share and where each of them is; `step` plays one step of one
thread, with locking, each access to shared data, notifying, the test of a wait's predicate and
going to sleep as separate steps. The `Logger` and the served connections are left out. `DoShutdown`
and `ready` are plain `bool`s that threads read without a lock; they are taken to be read and
written in some order.
-/

namespace MbDaemon

namespace Threads

abbrev HandlerId := Nat

/-- Inside `Run`, from the loop around `pause()` on. `cancel` and `advance` are the two halves of a
round of the loop over `Handlers`; `stray` is that loop after it used an entry that was gone. -/
inductive MainPc where
  | pause
  | cancelDispatch
  | joinDispatch
  | cancel (id : HandlerId)
  | advance (id : HandlerId)
  | stray
  | notify
  | joinCleanup
  | returned
  deriving DecidableEq, Repr

/-- Inside `DispatchRoutine`. `readySleep` is in front of the wait on `readyCond`, after a test of
`ready` that failed, and `readyAsleep` in it; `hello` sends the port and ends the iteration. -/
inductive DispatchPc where
  | test
  | accept
  | socket (id : HandlerId)
  | create (id : HandlerId)
  | lockInsert (id : HandlerId)
  | insert (id : HandlerId)
  | unlockInsert (id : HandlerId)
  | readyTest (id : HandlerId)
  | readySleep (id : HandlerId)
  | readyAsleep (id : HandlerId)
  | hello (id : HandlerId)
  | done
  deriving DecidableEq, Repr

/-- Inside `HandlerRoutine`. `absent` is a handler not yet created, `serving` reaches from
`Accept()` to the end of the session, and `lock` to `unlock` are the `Defer`. -/
inductive HandlerPc where
  | absent
  | setReady
  | notifyReady
  | serving
  | lock
  | push
  | notifyJoin
  | unlock
  | finished
  | joined
  deriving DecidableEq, Repr

/-- Inside `CleanupRoutine`. `waitTest` tests the predicate of the wait, `waitSleep` is after a test
that failed, and `reacquire` takes the mutex again after a wakeup. -/
inductive CleanupPc where
  | lock
  | waitTest
  | waitSleep
  | asleep
  | reacquire
  | exitTest
  | drain
  | lookup (id : HandlerId)
  | joining (id : HandlerId)
  | erase (id : HandlerId)
  | unlock
  | exitUnlock
  | done
  | crashed
  deriving DecidableEq, Repr

inductive Thread where
  | dispatch
  | handler (id : HandlerId)
  | cleanup
  deriving DecidableEq, Repr

/-- What the threads share, and where they are. `handlers` are the keys of `Handlers` in the order
in which its iterators pass them; `ready id` is the flag of the iteration that made handler `id`. -/
structure Config where
  handlers : List HandlerId
  joinables : List HandlerId
  joinablesMutex : Option Thread
  doShutdown : Bool
  currentId : HandlerId
  ready : HandlerId → Bool
  dispatchCancelled : Bool
  handlerCancelled : HandlerId → Bool
  main : MainPc
  dispatch : DispatchPc
  handler : HandlerId → HandlerPc
  cleanup : CleanupPc

/-- `Run` has started the two threads. -/
def Config.init : Config where
  handlers := []
  joinables := []
  joinablesMutex := none
  doShutdown := false
  currentId := 0
  ready := fun _ => false
  dispatchCancelled := false
  handlerCancelled := fun _ => false
  main := .pause
  dispatch := .test
  handler := fun _ => .absent
  cleanup := .lock

/-- `signal` is the signal handler. `insert` carries where the table puts the new key in its order.
`dispatchThrow` and `handlerEnd` are the ways out that the environment decides on, `dispatchCancel`
acts on `pthread_cancel`, and the wakes are spurious. -/
inductive Label where
  | signal
  | main
  | dispatch
  | insert (slot : Nat)
  | dispatchThrow
  | dispatchCancel
  | dispatchWake
  | handler (id : HandlerId)
  | handlerEnd (id : HandlerId)
  | cleanup
  | cleanupWake
  deriving DecidableEq, Repr

/-- The cleanup thread after `ReadyToJoin.notify_all()`. -/
def CleanupPc.notified : CleanupPc → CleanupPc
  | .asleep => .reacquire
  | pc => pc

/-- The dispatch thread after `notify_all()` on the `readyCond` of handler `id`. -/
def DispatchPc.notified (id : HandlerId) (pc : DispatchPc) : DispatchPc :=
  if pc = .readyAsleep id then .readyTest id else pc

/-- The entry behind `id` in the order of the table. -/
def after (id : HandlerId) (handlers : List HandlerId) : Option HandlerId :=
  (handlers.dropWhile (· ≠ id)).tail.head?

/-- The head of the loop over `Handlers`. -/
def MainPc.round : Option HandlerId → MainPc
  | some id => .cancel id
  | none => .notify

def Config.nextMain (c : Config) : Option Config :=
  match c.main with
  | .pause => if c.doShutdown then some { c with main := .cancelDispatch } else none
  | .cancelDispatch => some { c with main := .joinDispatch, dispatchCancelled := true }
  | .joinDispatch =>
    if c.dispatch = .done then some { c with main := .round c.handlers.head? } else none
  | .cancel id =>
    if id ∈ c.handlers ∧ c.handler id ≠ .joined then
      some { c with
        main := .advance id, handlerCancelled := Function.update c.handlerCancelled id true }
    else some { c with main := .stray }
  | .advance id =>
    if id ∈ c.handlers then some { c with main := .round (after id c.handlers) }
    else some { c with main := .stray }
  | .notify => some { c with main := .joinCleanup, cleanup := c.cleanup.notified }
  | .joinCleanup => if c.cleanup = .done then some { c with main := .returned } else none
  | .stray | .returned => none

def Config.nextDispatch (c : Config) : Option Config :=
  match c.dispatch with
  | .test => some { c with dispatch := if c.doShutdown then .done else .accept }
  | .accept =>
    if c.dispatchCancelled then none
    else some { c with dispatch := .socket c.currentId, currentId := c.currentId + 1 }
  | .socket id => some { c with dispatch := .create id }
  | .create id =>
    some { c with
      dispatch := .lockInsert id
      ready := Function.update c.ready id false
      handler := Function.update c.handler id .setReady }
  | .lockInsert id =>
    if c.joinablesMutex = none then
      some { c with dispatch := .insert id, joinablesMutex := some .dispatch }
    else none
  | .unlockInsert id => some { c with dispatch := .readyTest id, joinablesMutex := none }
  | .readyTest id => some { c with dispatch := if c.ready id then .hello id else .readySleep id }
  | .readySleep id =>
    if c.dispatchCancelled then none else some { c with dispatch := .readyAsleep id }
  | .hello _ => if c.dispatchCancelled then none else some { c with dispatch := .test }
  | .insert _ | .readyAsleep _ | .done => none

/-- `Handlers.insert`. -/
def Config.nextInsert (c : Config) (slot : Nat) : Option Config :=
  match c.dispatch with
  | .insert id =>
    some { c with
      dispatch := .unlockInsert id
      handlers := c.handlers.take slot ++ id :: c.handlers.drop slot }
  | _ => none

/-- Where a `std::exception` can reach the `catch` of the loop: from `Accept()`, from the
constructor of the `std::thread` and from `Send`. -/
def DispatchPc.throws : DispatchPc → Bool
  | .accept | .create _ | .hello _ => true
  | _ => false

/-- The cancellation points. -/
def DispatchPc.cancels : DispatchPc → Bool
  | .accept | .socket _ | .readySleep _ | .readyAsleep _ | .hello _ => true
  | _ => false

def Config.nextHandler (c : Config) (id : HandlerId) : Option Config :=
  match c.handler id with
  | .setReady =>
    some { c with
      ready := Function.update c.ready id true
      handler := Function.update c.handler id .notifyReady }
  | .notifyReady =>
    some { c with
      dispatch := c.dispatch.notified id
      handler := Function.update c.handler id .serving }
  | .lock =>
    if c.joinablesMutex = none then
      some { c with
        joinablesMutex := some (.handler id)
        handler := Function.update c.handler id .push }
    else none
  | .push =>
    some { c with
      joinables := c.joinables ++ [id]
      handler := Function.update c.handler id .notifyJoin }
  | .notifyJoin =>
    some { c with
      cleanup := c.cleanup.notified
      handler := Function.update c.handler id .unlock }
  | .unlock =>
    some { c with
      joinablesMutex := none
      handler := Function.update c.handler id .finished }
  | .absent | .serving | .finished | .joined => none

/-- The routine runs into its `Defer`: from anywhere between `Accept()` and the end of the session,
or from the lines in front of `ready = true` when it is cancelled there. -/
def Config.nextEnd (c : Config) (id : HandlerId) : Option Config :=
  match c.handler id with
  | .serving => some { c with handler := Function.update c.handler id .lock }
  | .setReady =>
    if c.handlerCancelled id then some { c with handler := Function.update c.handler id .lock }
    else none
  | _ => none

def Config.nextCleanup (c : Config) : Option Config :=
  match c.cleanup with
  | .lock | .reacquire =>
    if c.joinablesMutex = none then
      some { c with cleanup := .waitTest, joinablesMutex := some .cleanup }
    else none
  | .waitTest =>
    some { c with
      cleanup := if c.joinables ≠ [] ∨ c.doShutdown = true then .exitTest else .waitSleep }
  | .waitSleep => some { c with cleanup := .asleep, joinablesMutex := none }
  | .exitTest =>
    some { c with
      cleanup := if c.doShutdown = true ∧ c.handlers = [] then .exitUnlock else .drain }
  | .drain =>
    match c.joinables with
    | [] => some { c with cleanup := .unlock }
    | id :: _ => some { c with cleanup := .lookup id }
  | .lookup id =>
    -- `Handlers.at` throws out of the thread when there is no such key
    some { c with cleanup := if id ∈ c.handlers then .joining id else .crashed }
  | .joining id =>
    if c.handler id = .finished then
      some { c with cleanup := .erase id, handler := Function.update c.handler id .joined }
    else none
  | .erase id =>
    some { c with
      cleanup := .drain, handlers := c.handlers.erase id, joinables := c.joinables.tail }
  | .unlock => some { c with cleanup := .lock, joinablesMutex := none }
  | .exitUnlock => some { c with cleanup := .done, joinablesMutex := none }
  | .asleep | .done | .crashed => none

/-- A step of the process; an exception out of the cleanup thread has ended it. -/
def step (c : Config) (l : Label) : Option Config :=
  if c.cleanup = .crashed then none
  else
    match l with
    | .signal => some { c with doShutdown := true }
    | .main => c.nextMain
    | .dispatch => c.nextDispatch
    | .insert slot => c.nextInsert slot
    | .dispatchThrow => if c.dispatch.throws then some { c with dispatch := .done } else none
    | .dispatchCancel =>
      if c.dispatchCancelled ∧ c.dispatch.cancels then some { c with dispatch := .done } else none
    | .dispatchWake =>
      match c.dispatch with
      | .readyAsleep id => some { c with dispatch := .readyTest id }
      | _ => none
    | .handler id => c.nextHandler id
    | .handlerEnd id => c.nextEnd id
    | .cleanup => c.nextCleanup
    | .cleanupWake => if c.cleanup = .asleep then some { c with cleanup := .reacquire } else none

/-- What the life of a handler thread shows. -/
inductive Event where
  | created (id : HandlerId)
  | pushed (id : HandlerId)
  | joined (id : HandlerId)
  deriving DecidableEq, Repr

def shows (c : Config) : Label → List Event
  | .dispatch =>
    match c.dispatch with
    | .create id => [.created id]
    | _ => []
  | .handler id => if c.handler id = .push then [.pushed id] else []
  | .cleanup =>
    match c.cleanup with
    | .joining id => [.joined id]
    | _ => []
  | _ => []

end Threads

end MbDaemon
