import MbDaemon.Server
import MbDaemon.Lib.Interaction

/-!
# A session and its calls

`Server::HandlerRoutine` from the accepted connection on once more, and `RPCProvider` under it, with
every `recv()`, every `send()`, every call of a handler and every look at `DoShutdown` a question to
the environment. Where `Server.handlerRoutine` plays a session against a given connection, here any
call can come back with anything that it may come back with: `send()` takes part of what it is given
or fails and later takes more, and a cancellation arrives in any call.
-/

namespace MbDaemon

open RPCDefs Interaction

namespace Calls

/-- A call to the outside. `handle` is `HandlerImpl<Proc>` with the request behind `data`. -/
inductive Call where
  | recv (size : Nat)
  | send (bytes : List Byte)
  | handle (p : Proc) (data : Nat → Byte)
  | doShutdown

/-- How `send()` fails. -/
inductive SendEnd where
  | failed (e : Errno)
  | cancelled
  deriving DecidableEq

def Call.Answer : Call → Type
  | .recv size => Except RecvEnd { bs : List Byte // 0 < bs.length ∧ bs.length ≤ size }
  | .send bytes => Except SendEnd { ret : Nat // ret ≤ bytes.length }
  | .handle p _ => Server.Outcome p.Responce
  | .doShutdown => Bool

/-- The buffer of the session's `RPCProvider`, its `ErrCode`, and the flag of `HandlerRoutine`. -/
structure Session where
  buffer : Nat → Byte
  errCode : Byte
  connOk : Bool

abbrev SessionM := Routine Call Call.Answer Stop Session

def recv (size : Nat) :
    SessionM (Except RecvEnd { bs : List Byte // 0 < bs.length ∧ bs.length ≤ size }) :=
  Routine.ask (Call.recv size)

def send (bytes : List Byte) : SessionM (Except SendEnd { ret : Nat // ret ≤ bytes.length }) :=
  Routine.ask (Call.send bytes)

def handlerImpl (p : Proc) (data : Nat → Byte) : SessionM (Server.Outcome p.Responce) :=
  Routine.ask (Call.handle p data)

def doShutdown : SessionM Bool := Routine.ask Call.doShutdown

def throwStd {α : Type} (what : Text) : SessionM α := throw (.thrown (.std what))

/-- A write into the buffer, or the end of the program. -/
def write (x : (Nat → Byte) → Except Fault (Nat → Byte)) : SessionM Unit := do
  let s ← get
  match x s.buffer with
  | .ok buffer => set { s with buffer := buffer }
  | .error f => throw (.fault f)

/-- The bytes behind `Buffer.data()`; `ErrCode` follows the array in the object. -/
def Session.object (s : Session) : Nat → Byte :=
  fun i => if i < bufSize then s.buffer i else s.errCode

/-- The loop of `RecvToBuffer`. -/
def recvLoop (size : Nat) : Nat → Nat → SessionM Unit
  | 0, _ => throw .outOfFuel
  | fuel + 1, total => do
    if total < size then
      match ← recv (size - total) with
      | .ok bs =>
        let s ← get
        set { s with buffer := Memory.store s.buffer total bs.val }
        recvLoop size fuel (total + bs.val.length)
      | .error (.failed e) =>
        throwStd (fexcept "RecvToBuffer" (errnoWhat (ascii "Failed to recv()") e))
      | .error .closed => throwStd (fexcept "RecvToBuffer" (ascii "Connection closed"))
      | .error .cancelled => throw (.thrown .forcedUnwind)
    else pure ()

def recvToBuffer (size : Nat) : SessionM Unit := recvLoop size (size + 1) 0

/-- The loop of `SendFromBuffer`. -/
def sendLoop (size : Nat) : Nat → Nat → SessionM Unit
  | 0, _ => throw .outOfFuel
  | fuel + 1, total => do
    if total < size then
      let s ← get
      match ← send (Memory.load s.object total (size - total)) with
      | .ok ret =>
        if ret.val = 0 then throw (.fault .assertion)
        else sendLoop size fuel (total + ret.val)
      | .error (.failed e) =>
        throwStd (fexcept "SendFromBuffer" (errnoWhat (ascii "Failed to send()") e))
      | .error .cancelled => throw (.thrown .forcedUnwind)
    else pure ()

def sendFromBuffer (size : Nat) : SessionM Unit := sendLoop size (size + 1) 0

def packMsg (procId : Byte) (k : Kind) (msg : Outgoing k) : SessionM Unit := do
  let msgSz := getPackedSize k msg
  write (poke · 0 [procId, msgSz])
  write (serialize k msg · 2)

def packError (msg : Text) : SessionM Unit := do
  if 255 < msg.length then
    throwStd (fexcept "PackError" (ascii "Message to big to fit inside package"))
  let s ← get
  write (poke · 0 [s.errCode, UInt8.ofNat msg.length])
  write (poke · 2 msg)
  sendFromBuffer (msg.length + 2)

def recvPackage : SessionM MsgHeader := do
  recvToBuffer 2
  let s ← get
  let procId := s.buffer 0
  let ok := s.buffer 0 != s.errCode
  let size := s.buffer 1
  recvToBuffer size.toNat
  let s ← get
  let msg := if ok then ascii "OK" else Memory.load s.buffer 0 size.toNat
  pure { Ok := ok, Msg := msg, ProcId := procId, Size := size }

def sendPackage : SessionM Unit := do
  let s ← get
  sendFromBuffer ((s.buffer 1).toNat + 2)

/-- A `Defer` with `flagSetter`, cancelled when `x` returns. -/
def guarded {α : Type} (x : SessionM α) : SessionM α :=
  tryCatch x fun e => do
    let s ← get
    set { s with connOk := false }
    throw e

/-- `try` with the three catch clauses. -/
def catching (body : SessionM Bool) (clause : Thrown → SessionM Bool) : SessionM Bool :=
  tryCatch body fun e =>
    match e with
    | .thrown x => clause x
    | e => throw e

def genericHandler (p : Proc) : SessionM Unit := do
  let s ← get
  match ← handlerImpl p s.buffer with
  | .ok responce => packMsg p.ID p.Responce responce
  | .error x => throw (.thrown x)

/-- The switch of `DispatchPackage`; an id without a case leaves the buffer as it is. -/
def dispatchPackage (header : MsgHeader) : SessionM Unit :=
  match Proc.ofId header.ProcId with
  | some p => genericHandler p
  | none => pure ()

/-- The `try` block; `false` leaves the loop. -/
def turn : SessionM Bool := do
  let header ← guarded recvPackage
  if header.Ok then
    dispatchPackage header
    guarded sendPackage
    pure true
  else pure false

/-- Packs and sends the text. `PackError` sends on its own, so the frame goes out twice. -/
def replyError (what : Text) : SessionM Unit := do
  packError what
  sendPackage

def clause : Thrown → SessionM Bool
  | .std what => do
    let s ← get
    if s.connOk then
      replyError what
      pure true
    else pure false
  | .forcedUnwind => do
    let s ← get
    if s.connOk then replyError (ascii "Server closed")
    throw (.thrown .forcedUnwind)
  | .other => do
    let s ← get
    if s.connOk then replyError (ascii "Unknown exception")
    throw (.thrown .other)

def iteration : SessionM Bool := catching turn clause

/-- `while (!server.DoShutdown)`, for as many turns as there is fuel. -/
def loop : Nat → SessionM Unit
  | 0 => throw .outOfFuel
  | fuel + 1 => do
    if ← doShutdown then pure ()
    else
      let again ← iteration
      if again then loop fuel else pure ()

/-- `HandlerRoutine` after `Accept()`, on a new buffer of which nothing is known. -/
def handlerRoutine (fuel : Nat) (buffer : Nat → Byte) :
    Prog Call Call.Answer (EStateM.Result Stop Session Unit) :=
  loop fuel { buffer := buffer, errCode := Server.errCode, connOk := true }

end Calls

end MbDaemon
