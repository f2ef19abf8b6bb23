import MbDaemon.RPC.Transfer

/-!
# A session

The thread that serves one client (`Server::HandlerRoutine`), from the accepted connection on: it
receives a frame, dispatches it and sends what lies in the buffer, and turns exceptions of a turn
into error replies. The guards are `Defer`s that mark the connection as broken when they are not
cancelled. The handler's answers and `DoShutdown` come from the environment; `dispatched` records
what `DispatchPackage` was called with.
-/

namespace MbDaemon

open RPCDefs

namespace Server

def errCode : Byte := ProcIDs.error

/-- What a handler does: it returns a response, or throws. The null responses of type `Empty` count
as the empty message. -/
abbrev Outcome (k : Kind) := Except Thrown (Outgoing k)

/-- What a session depends on. `handler n` is what `Handler` does at the `n`-th dispatch with the
request it is given; `doShutdown n` is the flag as the loop reads it after `n` dispatches. -/
structure Env where
  handler : Nat → (p : Proc) → Outcome p.Responce
  doShutdown : Nat → Bool

/-- `HandlerImpl<Proc>`: the server's own procedures, and the ones of the `IHandler`. -/
def Env.handlerImpl (env : Env) (n : Nat) : (p : Proc) → Outcome p.Responce
  | .shutdown => .ok ()
  | .ping => .ok ()
  | .debugBlock => .ok ()
  | .debugThrow => .error (.std (ascii "Debug exception"))
  | .getStatus => env.handler n .getStatus
  | .flash => env.handler n .flash
  | .start => env.handler n .start
  | .reset => env.handler n .reset
  | .connect => env.handler n .connect
  | .disconnect => env.handler n .disconnect

/-- A session: its provider, the flag `connOk`, and the calls of `DispatchPackage` so far. -/
structure Session where
  rpc : RPCProvider
  connOk : Bool
  dispatched : List Frame

abbrev SessionM := EStateM Stop Session

def lift {α : Type} (x : RPC α) : SessionM α := fun s =>
  match x s.rpc with
  | .ok a rpc => .ok a { s with rpc := rpc }
  | .error e rpc => .error e { s with rpc := rpc }

/-- A `Defer` with `flagSetter`, cancelled when `x` returns. -/
def guarded {α : Type} (x : SessionM α) : SessionM α := fun s =>
  match x s with
  | .ok a s' => .ok a s'
  | .error e s' => .error e { s' with connOk := false }

/-- `try` with the three catch clauses. -/
def catching (body : SessionM Bool) (clause : Thrown → SessionM Bool) : SessionM Bool := fun s =>
  match body s with
  | .ok again s' => .ok again s'
  | .error (.thrown x) s' => clause x s'
  | .error e s' => .error e s'

def genericHandler (env : Env) (n : Nat) (p : Proc) : SessionM Unit :=
  match env.handlerImpl n p with
  | .ok responce => lift (RPCProvider.packMsg p.ID p.Responce responce)
  | .error x => throw (.thrown x)

/-- The frame `DispatchPackage` is given: the id of the header and the bytes behind its `Data`. -/
def Session.frame (s : Session) (header : MsgHeader) : Frame where
  procId := header.ProcId
  payload := Memory.load s.rpc.buffer 0 header.Size.toNat
  fits := by
    have := header.Size.toNat_lt
    rw [Memory.length_load]
    omega

/-- The switch of `DispatchPackage`; an id without a case leaves the buffer as it is. -/
def switch (env : Env) (n : Nat) (procId : Byte) : SessionM Unit :=
  match Proc.ofId procId with
  | some p => genericHandler env n p
  | none => pure ()

def dispatchPackage (env : Env) (header : MsgHeader) : SessionM Unit := do
  let s ← get
  set { s with dispatched := s.dispatched ++ [s.frame header] }
  switch env s.dispatched.length header.ProcId

/-- The `try` block; `false` leaves the loop. -/
def turn (env : Env) : SessionM Bool := do
  let header ← guarded (lift RPCProvider.recvPackage)
  if header.Ok then
    dispatchPackage env header
    guarded (lift RPCProvider.sendPackage)
    pure true
  else pure false

/-- Packs and sends the text, if the connection is not broken. `PackError` sends on its own, so the
frame goes out twice. -/
def replyError (what : Text) : SessionM Unit := do
  lift (RPCProvider.packError what)
  lift RPCProvider.sendPackage

def clause : Thrown → SessionM Bool
  | .std what => do
    let s ← get
    if s.connOk then
      replyError what
      pure true
    else pure false
  | .forcedUnwind => do
    let s ← get
    if s.connOk then replyError (ascii "Server closed")
    throw (.thrown .forcedUnwind)
  | .other => do
    let s ← get
    if s.connOk then replyError (ascii "Unknown exception")
    throw (.thrown .other)

def iteration (env : Env) : SessionM Bool := catching (turn env) clause

/-- `while (!server.DoShutdown)`. -/
def loop (env : Env) : Nat → SessionM Unit
  | 0 => throw .outOfFuel
  | fuel + 1 => do
    let s ← get
    if env.doShutdown s.dispatched.length then pure ()
    else
      let again ← iteration env
      if again then loop env fuel else pure ()

/-- The session's start: nothing is known about the bytes in the new buffer. -/
def Session.start (conn : Conn) (buffer : Nat → Byte) : Session where
  rpc := { conn := conn, buffer := buffer, errCode := errCode }
  connOk := true
  dispatched := []

/-- `HandlerRoutine` after `Accept()`. Each turn but the last takes a frame off the stream. -/
def handlerRoutine (env : Env) (conn : Conn) (buffer : Nat → Byte) :
    EStateM.Result Stop Session Unit :=
  loop env (conn.inbound.length + 1) (Session.start conn buffer)

end Server

end MbDaemon
