import MbDaemon.FirmwareFSM.Exclusion

/-!
# The request handler

`HandlerImpl` serves the six procedures for all sessions at once. The acquisition flag and the
holder's name and PID are guarded by the handler's own mutex, the firmware by the mutex inside
`FirmwareFSM`; `GetStatus` and `Connect` call into the firmware with the handler's mutex held,
`Flash`, `Start` and `Reset` with it free.

`Config` is the handler with the threads inside it, each with its place in the handler (`Frame`) and
its place in the firmware object (`Pc`). A step of a thread is a step of one of the two.
-/

namespace MbDaemon

namespace HandlerImpl

/-- The requests of the six procedures, with the strings their handlers take out of them. -/
inductive Request where
  | getStatus
  | flash (path : Text)
  | start
  | reset
  | connect (name : Text) (pid : Int32)
  | disconnect
  deriving DecidableEq

inductive Exn where
  | acquired (procName : String) (userName : Text) (userPid : Int32)
  | notStarted
  | notAcquired
  | clearPort (func : String) (e : Errno)
  | firmware (e : FirmwareFSM.Exn)
  deriving DecidableEq

/-- The text an exception is built with. -/
def Exn.message : Exn → Text
  | acquired procName userName userPid =>
    ascii "Can't do " ++ ascii procName ++ ascii ": Port is acquired by " ++ userName ++
      ascii " at PID " ++ ascii (toString userPid.toInt)
  | notStarted => ascii "Can't connect: firmware is not started"
  | notAcquired => ascii "Port is not acquired"
  | clearPort func e => errnoWhat (ascii func) e
  | firmware e => e.what

/-- `what()`: a NUL in the user's name ends the text for whoever reads it. -/
def Exn.what (e : Exn) : Text := cStr e.message

inductive Reply where
  | status (description : String) (acquired : Bool) (name : Text) (pid : Int32)
  | empty
  | port (path : Text)
  | threw (e : Exn)
  deriving DecidableEq

/-- What follows a critical section: the answer, or the firmware operation it guarded. -/
inductive Next where
  | reply (r : Reply)
  | firmware (op : FirmwareFSM.Op)
  deriving DecidableEq

/-- Where a thread is in the handler. `lock` is in front of the handler's mutex, `held` at the first
statement of the critical section; `describing`, `stateCheck`, `portRead` and `firmware` are inside
a call of the firmware object. -/
inductive Frame where
  | idle
  | lock (r : Request)
  | held (r : Request)
  | describing
  | fill (description : String)
  | stateCheck (name : Text) (pid : Int32)
  | getPort (name : Text) (pid : Int32)
  | portRead (name : Text) (pid : Int32)
  | clearPort (name : Text) (pid : Int32) (path : Text)
  | store (name : Text) (pid : Int32) (path : Text)
  | unlock (n : Next)
  | enter (op : FirmwareFSM.Op)
  | firmware (op : FirmwareFSM.Op)
  | reply (r : Reply)
  deriving DecidableEq

def Next.frame : Next → Frame
  | .reply r => .reply r
  | .firmware op => .enter op

/-- `Start` goes to the firmware at once, the others take the handler's mutex first. -/
def Request.entry : Request → Frame
  | .start => .enter .startFirmware
  | r => .lock r

/-- The handler and the threads inside it. `mutex` is the thread that holds the handler's mutex. -/
structure Config where
  firmware : FirmwareFSM.Config
  mutex : Option Tid
  acquired : Bool
  userName : Text
  userPid : Int32
  frame : Tid → Frame

def Config.init (port : Text) : Config where
  firmware := .init port
  mutex := none
  acquired := false
  userName := []
  userPid := -1
  frame := fun _ => .idle

def Config.goto (c : Config) (t : Tid) (f : Frame) : Config :=
  { c with frame := Function.update c.frame t f }

/-- `EnsureNotAcquired_NoLock`: what it throws. -/
def Config.ensureNotAcquired (c : Config) (procName : String) : Option Exn :=
  if c.acquired then some (.acquired procName c.userName c.userPid) else none

/-- `ClearPort` carries what the system answers: a failing `open()` or `read()` throws. -/
inductive Label where
  | request (t : Tid) (r : Request)
  | step (t : Tid)
  | clearPort (t : Tid) (answer : Except (String × Errno) Unit)
  | firmware (l : FirmwareFSM.Label)
  | reply (t : Tid)

/-- Calls and returns of the firmware's member functions are steps of the handler; the rest of a
call is the firmware's own. -/
def internal : FirmwareFSM.Label → Bool
  | .call _ _ | .ret _ => false
  | _ => true

def Config.call (c : Config) (t : Tid) (k : FirmwareFSM.Call) (f : Frame) : Option Config :=
  match FirmwareFSM.step c.firmware (.call t k) with
  | some fw => some { c.goto t f with firmware := fw }
  | none => none

def Config.ret (c : Config) (t : Tid) (f : Frame) : Option Config :=
  match FirmwareFSM.step c.firmware (.ret t) with
  | some fw => some { c.goto t f with firmware := fw }
  | none => none

def Config.enterSection (c : Config) (t : Tid) : Request → Option Config
  | .getStatus => c.call t (.getter .getStateDescription) .describing
  | .flash path =>
    match c.ensureNotAcquired "Flash" with
    | some e => some (c.goto t (.unlock (.reply (.threw e))))
    | none => some (c.goto t (.unlock (.firmware (.flashBootlader path))))
  | .start => none
  | .reset =>
    match c.ensureNotAcquired "Reset" with
    | some e => some (c.goto t (.unlock (.reply (.threw e))))
    | none => some (c.goto t (.unlock (.firmware .resetChip)))
  | .connect name pid =>
    match c.ensureNotAcquired "Connect" with
    | some e => some (c.goto t (.unlock (.reply (.threw e))))
    | none => c.call t (.getter .getState) (.stateCheck name pid)
  | .disconnect =>
    if c.acquired then
      some { c.goto t (.unlock (.reply .empty)) with acquired := false }
    else some (c.goto t (.unlock (.reply (.threw .notAcquired))))

def Config.next (c : Config) (t : Tid) : Option Config :=
  match c.frame t with
  | .lock r => if c.mutex = none then some { c.goto t (.held r) with mutex := some t } else none
  | .held r => c.enterSection t r
  | .describing =>
    match c.firmware.pc t with
    | .done (.value (.description d)) => c.ret t (.fill d)
    | _ => none
  | .fill d => some (c.goto t (.unlock (.reply (.status d c.acquired c.userName c.userPid))))
  | .stateCheck name pid =>
    match c.firmware.pc t with
    | .done (.value (.state s)) =>
      if s ≠ .running then c.ret t (.unlock (.reply (.threw .notStarted)))
      else c.ret t (.getPort name pid)
    | _ => none
  | .getPort name pid => c.call t (.getter .getPort) (.portRead name pid)
  | .portRead name pid =>
    match c.firmware.pc t with
    | .done (.value (.port path)) => c.ret t (.clearPort name pid path)
    | _ => none
  | .store name pid path =>
    some { c.goto t (.unlock (.reply (.port path))) with
            userName := name, userPid := pid, acquired := true }
  | .unlock n => some { c.goto t n.frame with mutex := none }
  | .enter op => c.call t (.transition op) (.firmware op)
  | .firmware _ =>
    match c.firmware.pc t with
    | .done .returned => c.ret t (.reply .empty)
    | .done (.threw e) => c.ret t (.reply (.threw (.firmware e)))
    | _ => none
  | _ => none

def step (c : Config) : Label → Option Config
  | .request t r => if c.frame t = .idle then some (c.goto t r.entry) else none
  | .step t => c.next t
  | .clearPort t answer =>
    match c.frame t, answer with
    | .clearPort name pid path, .ok () => some (c.goto t (.store name pid path))
    | .clearPort _ _ _, .error (func, e) =>
      some (c.goto t (.unlock (.reply (.threw (.clearPort func e)))))
    | _, _ => none
  | .firmware l =>
    if internal l then
      match FirmwareFSM.step c.firmware l with
      | some fw => some { c with firmware := fw }
      | none => none
    else none
  | .reply t =>
    match c.frame t with
    | .reply _ => some (c.goto t .idle)
    | _ => none

def Reachable (port : Text) (c : Config) : Prop :=
  ∃ ls, Lts.run step (Config.init port) ls = some c

end HandlerImpl

end MbDaemon
