import MbDaemon.RPCDefs

/-!
# The RPC provider

One end of a connection (`RPC.hpp`, `RPC.cpp`): a buffer that header, payload and reply share, and
the loops around `recv()` and `send()`. `Conn` is the socket: what the peer has sent and will still
be read, what has been sent to it, when either direction fails, and how the system splits the
transfers. An operation is a program over the provider that returns, throws, or ends outside the
program's semantics (`Stop`).
-/

namespace MbDaemon

open RPCDefs

/-- What C++ throws: a `std::exception` with its text, the unwinding of a cancelled thread, or
anything else. -/
inductive Thrown where
  | std (what : Text)
  | forcedUnwind
  | other
  deriving DecidableEq

/-- How an operation ends when it does not return. -/
inductive Stop where
  | thrown (x : Thrown)
  | fault (f : Fault)
  | outOfFuel
  deriving DecidableEq

/-- What `recv()` answers after the last byte the peer sent. -/
inductive RecvEnd where
  | closed
  | failed (e : Errno)
  | cancelled
  deriving DecidableEq

/-- A connected socket. `inbound` has not been read yet, `outbound` is all that has been sent. A
`send()` fails with `sendErrno` once `sendLimit` bytes are out. `recvSplit` and `sendSplit` choose
how much a call transfers, by what is left to read and what has been sent. -/
structure Conn where
  inbound : List Byte
  recvEnd : RecvEnd
  recvSplit : Nat → Nat
  outbound : List Byte
  sendLimit : Option Nat
  sendErrno : Errno
  sendSplit : Nat → Nat

namespace Conn

/-- `recv()` of at most `n` bytes: at least one of those there are, or what follows the last. -/
def recv (c : Conn) (n : Nat) : Except RecvEnd (List Byte) × Conn :=
  if c.inbound = [] then (.error c.recvEnd, c)
  else
    let ret := 1 + c.recvSplit c.inbound.length % min n c.inbound.length
    (.ok (c.inbound.take ret), { c with inbound := c.inbound.drop ret })

/-- How many of `n` bytes the connection still takes. -/
def room (c : Conn) (n : Nat) : Nat :=
  match c.sendLimit with
  | none => n
  | some limit => min n (limit - c.outbound.length)

/-- `send()`: at least one of the bytes that there is room for. -/
def send (c : Conn) (bs : List Byte) : Except Errno Nat × Conn :=
  if c.room bs.length = 0 then (.error c.sendErrno, c)
  else
    let ret := 1 + c.sendSplit c.outbound.length % c.room bs.length
    (.ok ret, { c with outbound := c.outbound ++ bs.take ret })

end Conn

/-- `RPCProvider`. `buffer` is an array of `bufSize` bytes. -/
structure RPCProvider where
  conn : Conn
  buffer : Nat → Byte
  errCode : Byte

abbrev RPC := EStateM Stop RPCProvider

/-- `RPCProvider::MsgHeader`; `Data` always points to the start of the buffer. -/
structure MsgHeader where
  Ok : Bool
  Msg : Text
  ProcId : Byte
  Size : Byte
  deriving DecidableEq

namespace RPCProvider

def throwStd {α : Type} (what : Text) : RPC α := throw (.thrown (.std what))

/-- A write into the buffer, or the end of the program. -/
def write (x : (Nat → Byte) → Except Fault (Nat → Byte)) : RPC Unit := fun s =>
  match x s.buffer with
  | .ok buffer => .ok () { s with buffer := buffer }
  | .error f => .error (.fault f) s

/-- The bytes behind `Buffer.data()`; `ErrCode` follows the array in the object. -/
def object (s : RPCProvider) : Nat → Byte := fun i => if i < bufSize then s.buffer i else s.errCode

/-- The loop of `RecvToBuffer`. -/
def recvLoop (size : Nat) : Nat → Nat → RPC Unit
  | 0, _ => throw .outOfFuel
  | fuel + 1, total => do
    if total < size then
      let s ← get
      match s.conn.recv (size - total) with
      | (.ok bs, conn) =>
        set { s with conn := conn, buffer := Memory.store s.buffer total bs }
        recvLoop size fuel (total + bs.length)
      | (.error (.failed e), _) =>
        throwStd (fexcept "RecvToBuffer" (errnoWhat (ascii "Failed to recv()") e))
      | (.error .closed, _) => throwStd (fexcept "RecvToBuffer" (ascii "Connection closed"))
      | (.error .cancelled, _) => throw (.thrown .forcedUnwind)
    else pure ()

def recvToBuffer (size : Nat) : RPC Unit := recvLoop size (size + 1) 0

/-- The loop of `SendFromBuffer`. -/
def sendLoop (size : Nat) : Nat → Nat → RPC Unit
  | 0, _ => throw .outOfFuel
  | fuel + 1, total => do
    if total < size then
      let s ← get
      match s.conn.send (Memory.load s.object total (size - total)) with
      | (.ok ret, conn) =>
        set { s with conn := conn }
        sendLoop size fuel (total + ret)
      | (.error e, _) =>
        throwStd (fexcept "SendFromBuffer" (errnoWhat (ascii "Failed to send()") e))
    else pure ()

def sendFromBuffer (size : Nat) : RPC Unit := sendLoop size (size + 1) 0

def packMsg (procId : Byte) (k : Kind) (msg : Outgoing k) : RPC Unit := do
  let msgSz := getPackedSize k msg
  write (poke · 0 [procId, msgSz])
  write (serialize k msg · 2)

def packError (msg : Text) : RPC Unit := do
  if 255 < msg.length then
    throwStd (fexcept "PackError" (ascii "Message to big to fit inside package"))
  let s ← get
  write (poke · 0 [s.errCode, UInt8.ofNat msg.length])
  write (poke · 2 msg)
  sendFromBuffer (msg.length + 2)

def recvPackage : RPC MsgHeader := do
  recvToBuffer 2
  let s ← get
  let procId := s.buffer 0
  let ok := s.buffer 0 != s.errCode
  let size := s.buffer 1
  recvToBuffer size.toNat
  let s ← get
  let msg := if ok then ascii "OK" else Memory.load s.buffer 0 size.toNat
  pure { Ok := ok, Msg := msg, ProcId := procId, Size := size }

def sendPackage : RPC Unit := do
  let s ← get
  sendFromBuffer ((s.buffer 1).toNat + 2)

end RPCProvider

end MbDaemon
