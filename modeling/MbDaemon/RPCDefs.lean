import MbDaemon.Helpers
import MbDaemon.Lib.Memory

/-!
# Procedures and messages

The procedure ids, the message types and their wire formats (`RPCDefs.hpp`, `RPCDefs.cpp`). `Byte`
is `char`, which is unsigned on the daemon's ARM target; `String`'s `assert(Size < 255)` and
`PackError`'s check against 255 are written for that. `Serialize` writes through a pointer into the
frame buffer, so a write past its end has no meaning (`Fault`); `Deserialize` reads through a
pointer without knowing where the payload ends, so it is a program over the cells behind that
pointer.
-/

namespace MbDaemon

/-- The size of `RPCProvider`'s buffer, which every message is written into. -/
def bufSize : Nat := 256

/-- What ends the program outside its semantics: a failing `assert`, or a write outside the
buffer. -/
inductive Fault where
  | assertion
  | outOfBounds
  deriving DecidableEq, Repr

/-- `memcpy` and the reinterpreting stores: writes at `ptr`, an offset into the buffer. -/
def poke (m : Nat → Byte) (ptr : Nat) (bs : List Byte) : Except Fault (Nat → Byte) :=
  if ptr + bs.length ≤ bufSize then .ok (Memory.store m ptr bs) else .error .outOfBounds

namespace RPCDefs

/-! ## Messages -/

namespace Messages

/-- `String`. `P` is what `Data` points to: to the sender the bytes behind the pointer, in a
deserialized message an offset into the frame buffer. -/
structure String (P : Type) where
  Data : P
  Size : Byte

structure UserData (S : Type) where
  Name : S
  PID : Int32
  deriving DecidableEq

structure ChipStatus (S : Type) where
  Description : S
  Acquired : Bool
  User : UserData S
  deriving DecidableEq

end Messages

inductive Kind where
  | empty
  | string
  | userData
  | chipStatus
  deriving DecidableEq, Repr

/-- A message, with its strings given as `S`. -/
@[reducible]
def Msg (S : Type) : Kind → Type
  | .empty => Unit
  | .string => S
  | .userData => Messages.UserData S
  | .chipStatus => Messages.ChipStatus S

/-- What a sender's `Data` points to. -/
abbrev View := Nat → Byte

abbrev Outgoing := Msg (Messages.String View)

abbrev Incoming := Msg (Messages.String Nat)

abbrev Value := Msg Text

/-- The bytes of a `pid_t` in the byte order of the daemon. -/
def pidBytes (pid : Int32) : List Byte :=
  let n := pid.toUInt32.toNat
  [.ofNat n, .ofNat (n / 2 ^ 8), .ofNat (n / 2 ^ 16), .ofNat (n / 2 ^ 24)]

def readPid (ptr : Nat) : Load Byte Int32 := do
  let b0 ← Load.cell ptr
  let b1 ← Load.cell (ptr + 1)
  let b2 ← Load.cell (ptr + 2)
  let b3 ← Load.cell (ptr + 3)
  pure (UInt32.ofNat (b0.toNat + b1.toNat * 2 ^ 8 + b2.toNat * 2 ^ 16 + b3.toNat * 2 ^ 24)).toInt32

namespace Messages

def String.getPackedSize {P : Type} (s : String P) : Byte := s.Size + 1

def String.serialize (s : String View) (m : Nat → Byte) (ptr : Nat) : Except Fault (Nat → Byte) := do
  if s.Size < 255 then
    let m ← poke m ptr [s.Size]
    poke m (ptr + 1) (Memory.load s.Data 0 s.Size.toNat)
  else throw .assertion

def String.deserialize (ptr : Nat) : Load Byte (String Nat) := do
  let size ← Load.cell ptr
  pure { Size := size, Data := ptr + 1 }

/-- `String::ToCxxStr` of a deserialized string, whose `Data` is never null. -/
def String.toCxxStr (s : String Nat) : Load Byte Text := Load.cells s.Data s.Size.toNat

/-- A sender's string over a C++ string: `Data` is its `c_str()`, and `Size` takes its length down
to a byte. -/
def String.ofCxxStr (s : Text) : String View where
  Data := fun i => s.getD i 0
  Size := UInt8.ofNat s.length

/-- What `ToCxxStr` makes of a sender's string. -/
def String.text (s : String View) : Text := Memory.load s.Data 0 s.Size.toNat

/-- `UserData::GetPackedSize`, with its truncation to `Byte`. -/
def UserData.getPackedSize {P : Type} (u : UserData (String P)) : Byte := u.Name.getPackedSize + 4

def UserData.serialize (u : UserData (String View)) (m : Nat → Byte) (ptr : Nat) :
    Except Fault (Nat → Byte) := do
  let m ← u.Name.serialize m ptr
  let ptr := ptr + u.Name.getPackedSize.toNat
  poke m ptr (pidBytes u.PID)

def UserData.deserialize (ptr : Nat) : Load Byte (UserData (String Nat)) := do
  let name ← String.deserialize ptr
  let ptr := ptr + name.getPackedSize.toNat
  let pid ← readPid ptr
  pure { Name := name, PID := pid }

/-- `ChipStatus::GetPackedSize`, with its truncation to `Byte`. -/
def ChipStatus.getPackedSize {P : Type} (c : ChipStatus (String P)) : Byte :=
  c.Description.getPackedSize + 1 + c.User.getPackedSize

def ChipStatus.serialize (c : ChipStatus (String View)) (m : Nat → Byte) (ptr : Nat) :
    Except Fault (Nat → Byte) := do
  let m ← c.Description.serialize m ptr
  let ptr := ptr + c.Description.getPackedSize.toNat
  let m ← poke m ptr [if c.Acquired then 1 else 0]
  let ptr := ptr + 1
  c.User.serialize m ptr

def ChipStatus.deserialize (ptr : Nat) : Load Byte (ChipStatus (String Nat)) := do
  let description ← String.deserialize ptr
  let ptr := ptr + description.getPackedSize.toNat
  let acquired ← Load.cell ptr
  let ptr := ptr + 1
  let user ← UserData.deserialize ptr
  pure { Description := description, Acquired := acquired ≠ 0, User := user }

end Messages

def getPackedSize {P : Type} : (k : Kind) → Msg (Messages.String P) k → Byte
  | .empty, _ => 0
  | .string, s => s.getPackedSize
  | .userData, u => u.getPackedSize
  | .chipStatus, c => c.getPackedSize

def serialize : (k : Kind) → Outgoing k → (Nat → Byte) → Nat → Except Fault (Nat → Byte)
  | .empty, _, m, _ => pure m
  | .string, s, m, ptr => s.serialize m ptr
  | .userData, u, m, ptr => u.serialize m ptr
  | .chipStatus, c, m, ptr => c.serialize m ptr

def deserialize : (k : Kind) → Nat → Load Byte (Incoming k)
  | .empty, _ => pure ()
  | .string, ptr => Messages.String.deserialize ptr
  | .userData, ptr => Messages.UserData.deserialize ptr
  | .chipStatus, ptr => Messages.ChipStatus.deserialize ptr

/-- Reads the strings of a deserialized message. -/
def resolve : (k : Kind) → Incoming k → Load Byte (Value k)
  | .empty, _ => pure ()
  | .string, s => s.toCxxStr
  | .userData, u => do
    let name ← u.Name.toCxxStr
    pure { Name := name, PID := u.PID }
  | .chipStatus, c => do
    let description ← c.Description.toCxxStr
    let name ← c.User.Name.toCxxStr
    pure { Description := description, Acquired := c.Acquired,
           User := { Name := name, PID := c.User.PID } }

/-- `Deserialize`, and the strings read. -/
def decode (k : Kind) (ptr : Nat) : Load Byte (Value k) := deserialize k ptr >>= resolve k

/-- The message a sender means. -/
def value : (k : Kind) → Outgoing k → Value k
  | .empty, _ => ()
  | .string, s => s.text
  | .userData, u => { Name := u.Name.text, PID := u.PID }
  | .chipStatus, c =>
    { Description := c.Description.text, Acquired := c.Acquired,
      User := { Name := c.User.Name.text, PID := c.User.PID } }

/-! ## Procedures -/

namespace ProcIDs

def error : Byte := 0
def flash : Byte := 1
def start : Byte := 2
def connect : Byte := 3
def disconnect : Byte := 4
def reset : Byte := 5
def getStatus : Byte := 8
def shutdown : Byte := 9
def ping : Byte := 10
def debugThrow : Byte := 11
def debugBlock : Byte := 12

end ProcIDs

inductive Proc where
  | getStatus
  | flash
  | start
  | reset
  | connect
  | disconnect
  | shutdown
  | ping
  | debugBlock
  | debugThrow
  deriving DecidableEq, Repr

namespace Proc

def ID : Proc → Byte
  | getStatus => ProcIDs.getStatus
  | flash => ProcIDs.flash
  | start => ProcIDs.start
  | reset => ProcIDs.reset
  | connect => ProcIDs.connect
  | disconnect => ProcIDs.disconnect
  | shutdown => ProcIDs.shutdown
  | ping => ProcIDs.ping
  | debugBlock => ProcIDs.debugBlock
  | debugThrow => ProcIDs.debugThrow

/-- `ProcIDs::ToStr` of the procedure's id. -/
def toStr : Proc → String
  | getStatus => "GetStatus"
  | flash => "Flash"
  | start => "Start"
  | reset => "Reset"
  | connect => "Connect"
  | disconnect => "Disconnect"
  | shutdown => "Shutdown"
  | ping => "Ping"
  | debugBlock => "DebugBlock"
  | debugThrow => "DebugThrow"

def Request : Proc → Kind
  | flash => .string
  | connect => .userData
  | _ => .empty

def Responce : Proc → Kind
  | getStatus => .chipStatus
  | connect => .string
  | _ => .empty

/-- The case of `DispatchPackage`'s switch. -/
def ofId (id : Byte) : Option Proc :=
  [getStatus, flash, start, reset, connect, disconnect, shutdown, ping, debugBlock, debugThrow].find?
    (·.ID == id)

@[simp] theorem ofId_ID (p : Proc) : ofId p.ID = some p := by cases p <;> rfl

theorem ID_ne_error (p : Proc) : p.ID ≠ ProcIDs.error := by cases p <;> decide

end Proc

end RPCDefs

end MbDaemon
