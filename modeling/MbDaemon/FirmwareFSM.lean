import MbDaemon.HwUtils
import MbDaemon.Lib.Lts
import MbDaemon.Lib.Mutex

/-!
# The firmware state machine

`FirmwareFSM` guards the firmware state and the running routine's name by a mutex, but runs the
hardware action of a transition with the mutex free: `DoTransition` checks and claims the state in
one critical section, runs the action, and a `Defer` sets the final state in a second critical
section, on the normal path and during unwinding alike.

`Config` is the object together with the threads inside its member functions and the daemon's
process table; `step` plays one step of one thread, with locking, the work of a critical section and
unlocking as separate steps. `Step` lists what a step can do, one constructor for each kind.
-/

namespace MbDaemon

abbrev Tid := Nat

open HwUtils

inductive FWState where
  | boot
  | running
  | transition
  | fault
  deriving DecidableEq, Repr

namespace FirmwareFSM

def stateToStr : FWState → String
  | .boot => "Boot"
  | .running => "Running"
  | .fault => "Fault"
  | .transition => "Transition"

namespace Routines

def empty : String := "Nothing"
def chipReset : String := "Chip reset"
def fwFlashing : String := "Firmware flashing"
def fwStarting : String := "Firmware starting"

end Routines

structure TransitionRoutine where
  name : String
  action : Action
  expectedStates : List FWState
  finalState : FWState

inductive Op where
  | resetChip
  | flashBootlader (firmware : Text)
  | startFirmware
  deriving DecidableEq, Repr

def resetChip : TransitionRoutine where
  name := Routines.chipReset
  action := .chipReset
  expectedStates := [.boot, .running, .fault]
  finalState := .boot

def flashBootlader (firmware : Text) : TransitionRoutine where
  name := Routines.fwFlashing
  action := .bootloaderFlash firmware
  expectedStates := [.boot]
  finalState := .boot

def startFirmware : TransitionRoutine where
  name := Routines.fwStarting
  action := .bootloaderStart
  expectedStates := [.boot]
  finalState := .running

def Op.routine : Op → TransitionRoutine
  | .resetChip => FirmwareFSM.resetChip
  | .flashBootlader firmware => FirmwareFSM.flashBootlader firmware
  | .startFirmware => FirmwareFSM.startFirmware

/-- What a call throws: `FSMException`, or the exception of the action. -/
inductive Exn where
  | fsm (operation : String) (got : FWState) (expected : List FWState)
  | execute (e : ExecError)
  deriving DecidableEq, Repr

def composeMsg (operation : String) (got : FWState) (expected : List FWState) : Text :=
  ascii "Inappropriate state for operation \"" ++ ascii operation ++ ascii "\": " ++
    ascii "Got " ++ ascii (stateToStr got) ++ ascii "," ++ ascii " Expected one of: " ++
    ((expected.map fun s => ascii (stateToStr s)).intersperse (ascii ", ")).flatten

def Exn.what : Exn → Text
  | fsm operation got expected => composeMsg operation got expected
  | execute e => e.what

end FirmwareFSM

/-- The object. `mutex` is the thread that holds it. -/
structure FirmwareFSM where
  state : FWState
  mutex : Option Tid
  routineName : String
  mbPort : Text

namespace FirmwareFSM

def checkState (f : FirmwareFSM) (expected : List FWState) : Bool :=
  expected.foldl (fun passed required => if passed then true else f.state == required) false

/-- The accepting branch of `DoTransition`'s critical section. -/
def claim (f : FirmwareFSM) (r : TransitionRoutine) : FirmwareFSM :=
  { f with state := .transition, routineName := r.name }

def setState (f : FirmwareFSM) (state : FWState) : FirmwareFSM :=
  { f with state := state, routineName := Routines.empty }

def getStateDescription (f : FirmwareFSM) : String :=
  if f.state = .transition then f.routineName else stateToStr f.state

/-- The constructor, when the reset it runs succeeds and `BootloaderFind` returns `port`; when one
of them throws there is no object. -/
def constructed (port : Text) : FirmwareFSM :=
  let fresh : FirmwareFSM :=
    { state := .boot, mutex := none, routineName := Routines.empty, mbPort := [] }
  { (fresh.claim resetChip).setState resetChip.finalState with mbPort := port }

/-- The state the `Defer` of `DoTransition` sets: `newState` starts as `Fault` and becomes the final
state only after the action has returned. -/
def newState (op : Op) : Option ExecError → FWState
  | none => op.routine.finalState
  | some _ => .fault

inductive Getter where
  | getState
  | getPort
  | getStateDescription
  deriving DecidableEq, Repr

inductive Value where
  | state (s : FWState)
  | port (p : Text)
  | description (d : String)
  deriving DecidableEq, Repr

def get (f : FirmwareFSM) : Getter → Value
  | .getState => .state f.state
  | .getPort => .port f.mbPort
  | .getStateDescription => .description f.getStateDescription

inductive Call where
  | transition (op : Op)
  | getter (g : Getter)
  deriving DecidableEq, Repr

inductive Result where
  | returned
  | threw (e : Exn)
  | value (v : Value)
  deriving DecidableEq, Repr

/-- Where a thread is. `act` is in front of `Execute`'s `fork`, `wait` in its `wait()` with the
child it forked; the `set` points are the `Defer`'s `SetState`, with what the action threw. -/
inductive Pc where
  | idle
  | lock (op : Op)
  | check (op : Op)
  | unlock (op : Op) (stateOk : Bool)
  | reject (op : Op)
  | act (op : Op)
  | wait (op : Op) (child : Pid)
  | setLock (op : Op) (thrown : Option ExecError)
  | setWork (op : Op) (thrown : Option ExecError)
  | setUnlock (op : Op) (thrown : Option ExecError)
  | getLock (g : Getter)
  | getWork (g : Getter)
  | getUnlock (v : Value)
  | done (r : Result)
  deriving DecidableEq, Repr

def Call.entry : Call → Pc
  | .transition op => .lock op
  | .getter g => .getLock g

/-- What the caller of a transition sees after the `Defer`. -/
def result : Option ExecError → Result
  | none => .returned
  | some e => .threw (.execute e)

/-- The object, the threads inside its member functions, and the daemon's process table. -/
structure Config extends FirmwareFSM where
  children : List Child
  pc : Tid → Pc

def Config.goto (c : Config) (t : Tid) (p : Pc) : Config :=
  { c with pc := Function.update c.pc t p }

def Config.init (port : Text) : Config :=
  { constructed port with children := [], pc := fun _ => .idle }

/-- `fork` and `wait` carry what the system answers; `exit` is a child ending. -/
inductive Label where
  | call (t : Tid) (k : Call)
  | step (t : Tid)
  | fork (t : Tid) (answer : Except Errno Pid)
  | exit (pid : Pid) (status : WaitStatus)
  | wait (t : Tid) (pid : Pid)
  | waitFail (t : Tid) (e : Errno)
  | ret (t : Tid)
  deriving DecidableEq

/-- The next step of a thread that needs no answer from the system. -/
def Config.next (c : Config) (t : Tid) : Option Config :=
  match c.pc t with
  | .lock op => if c.mutex = none then some { c.goto t (.check op) with mutex := some t } else none
  | .check op =>
    if c.checkState op.routine.expectedStates then
      some { c.goto t (.unlock op true) with toFirmwareFSM := c.claim op.routine }
    else some (c.goto t (.unlock op false))
  | .unlock op stateOk =>
    some { c.goto t (if stateOk then .act op else .reject op) with mutex := none }
  | .reject op =>
    -- `State` is read again here, with the mutex free
    some (c.goto t (.done (.threw (.fsm op.routine.name c.state op.routine.expectedStates))))
  | .setLock op e =>
    if c.mutex = none then some { c.goto t (.setWork op e) with mutex := some t } else none
  | .setWork op e =>
    some { c.goto t (.setUnlock op e) with toFirmwareFSM := c.setState (newState op e) }
  | .setUnlock _ e => some { c.goto t (.done (result e)) with mutex := none }
  | .getLock g => if c.mutex = none then some { c.goto t (.getWork g) with mutex := some t } else none
  | .getWork g => some (c.goto t (.getUnlock (c.get g)))
  | .getUnlock v => some { c.goto t (.done (.value v)) with mutex := none }
  | _ => none

/-- The table entry of a child that `wait()` can reap. -/
def reapable (children : List Child) (pid : Pid) : Option WaitStatus :=
  (children.find? fun ch => ch.pid == pid && ch.status.isSome).bind (·.status)

def setStatus (children : List Child) (pid : Pid) (status : WaitStatus) : List Child :=
  children.map fun ch => if ch = ⟨pid, none⟩ then ⟨pid, some status⟩ else ch

def step (c : Config) : Label → Option Config
  | .call t k => if c.pc t = .idle then some (c.goto t k.entry) else none
  | .step t => c.next t
  | .fork t answer =>
    match c.pc t, answer with
    | .act op, .error e => some (c.goto t (.setLock op (some (.fork e))))
    | .act op, .ok pid =>
      if pid ∈ c.children.map (·.pid) then none
      else some { c.goto t (.wait op pid) with children := ⟨pid, none⟩ :: c.children }
    | _, _ => none
  | .exit pid status =>
    if ⟨pid, none⟩ ∈ c.children then
      some { c with children := setStatus c.children pid status }
    else none
  | .wait t pid =>
    match c.pc t, reapable c.children pid with
    | .wait op _, some status =>
      some { c.goto t (.setLock op (checkStatus status)) with
              children := c.children.filter (·.pid ≠ pid) }
    | _, _ => none
  | .waitFail t e =>
    match c.pc t with
    | .wait op _ =>
      if c.children = [] then some (c.goto t (.setLock op (some (.wait e)))) else none
    | _ => none
  | .ret t =>
    match c.pc t with
    | .done _ => some (c.goto t .idle)
    | _ => none

end FirmwareFSM

end MbDaemon
