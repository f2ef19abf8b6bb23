import MbDaemon.RPC.Codec

/-!
# The signedness of `char`

`RPCDefs::Byte` is `char`, which is unsigned on the daemon's ARM target and signed on an x86-64
client. Here the codec and the provider are written over what a build's `char` is: a size that has
passed through a `Byte` is promoted to `int` before it is added to a pointer, compared, or converted
to `size_t`. With an unsigned `char` this is the model that the other modules use
(`packMsg_unsigned`, `sendPackage_unsigned`, `recvPackage_unsigned`). `agree_iff` says for which
messages the other build does the same.
-/

namespace MbDaemon

open RPCDefs

/-- The `char` of a build. -/
inductive CharType where
  | unsigned
  | signed
  deriving DecidableEq, Repr

def toSize (n : Int) : Nat := (n % 2 ^ 64).toNat

def toChar (n : Int) : Byte := UInt8.ofNat (n % 256).toNat

/-- A store through a pointer, which may have left the buffer at its front. -/
def storeAt (m : Nat → Byte) (ptr : Int) (bs : List Byte) : Except Fault (Nat → Byte) :=
  if 0 ≤ ptr then poke m ptr.toNat bs else .error .outOfBounds

def memcpy (m : Nat → Byte) (dst : Int) (src : View) (n : Nat) : Except Fault (Nat → Byte) :=
  if 0 ≤ dst ∧ dst + n ≤ bufSize then .ok (Memory.store m dst.toNat (Memory.load src 0 n))
  else .error .outOfBounds

/-- How reading a message ends when it does not return: a read outside the buffer, or
`std::length_error`. -/
inductive ReadError where
  | outOfBounds
  | length
  deriving DecidableEq, Repr

abbrev Read := ReaderT (Nat → Byte) (Except ReadError)

/-- Reads behind a pointer into the buffer. -/
def readAt {α : Type} (ptr : Int) (n : Nat) (x : Nat → Load Byte α) : Read α := fun m =>
  if 0 ≤ ptr ∧ ptr + n ≤ bufSize then .ok ((x ptr.toNat).run m) else .error .outOfBounds

/-- `std::string::max_size()`. -/
def stringMaxSize : Nat := 2 ^ 63 - 1

namespace CharType

variable (c : CharType)

/-- The promotion of a `char` to `int`. -/
def toInt : CharType → Byte → Int
  | .unsigned, b => b.toNat
  | .signed, b => if b.toNat < 128 then b.toNat else b.toNat - 256

/-! ## The codec -/

namespace String

def getPackedSize {P : Type} (s : Messages.String P) : Byte := toChar (c.toInt s.Size + 1)

def serialize (s : Messages.String View) (m : Nat → Byte) (ptr : Int) :
    Except Fault (Nat → Byte) := do
  if c.toInt s.Size < 255 then
    let m ← storeAt m ptr [s.Size]
    memcpy m (ptr + 1) s.Data (toSize (c.toInt s.Size))
  else throw .assertion

def deserialize (ptr : Int) : Read (Messages.String Int) := do
  let size ← readAt ptr 1 Load.cell
  pure { Size := size, Data := ptr + 1 }

def toCxxStr (s : Messages.String Int) : Read Text := do
  let n := toSize (c.toInt s.Size)
  if stringMaxSize < n then throw .length
  readAt s.Data n fun ptr => Load.cells ptr n

end String

namespace UserData

def getPackedSize {P : Type} (u : Messages.UserData (Messages.String P)) : Byte :=
  toChar (toSize (c.toInt (String.getPackedSize c u.Name)) + 4)

def serialize (u : Messages.UserData (Messages.String View)) (m : Nat → Byte) (ptr : Int) :
    Except Fault (Nat → Byte) := do
  let m ← String.serialize c u.Name m ptr
  let ptr := ptr + c.toInt (String.getPackedSize c u.Name)
  storeAt m ptr (pidBytes u.PID)

def deserialize (ptr : Int) : Read (Messages.UserData (Messages.String Int)) := do
  let name ← String.deserialize ptr
  let ptr := ptr + c.toInt (String.getPackedSize c name)
  let pid ← readAt ptr 4 readPid
  pure { Name := name, PID := pid }

end UserData

namespace ChipStatus

def getPackedSize {P : Type} (s : Messages.ChipStatus (Messages.String P)) : Byte :=
  toChar (toSize (c.toInt (String.getPackedSize c s.Description)) + 1 +
    toSize (c.toInt (UserData.getPackedSize c s.User)))

def serialize (s : Messages.ChipStatus (Messages.String View)) (m : Nat → Byte) (ptr : Int) :
    Except Fault (Nat → Byte) := do
  let m ← String.serialize c s.Description m ptr
  let ptr := ptr + c.toInt (String.getPackedSize c s.Description)
  let m ← storeAt m ptr [if s.Acquired then 1 else 0]
  let ptr := ptr + 1
  UserData.serialize c s.User m ptr

def deserialize (ptr : Int) : Read (Messages.ChipStatus (Messages.String Int)) := do
  let description ← String.deserialize ptr
  let ptr := ptr + c.toInt (String.getPackedSize c description)
  let acquired ← readAt ptr 1 Load.cell
  let ptr := ptr + 1
  let user ← UserData.deserialize c ptr
  pure { Description := description, Acquired := acquired ≠ 0, User := user }

end ChipStatus

def getPackedSize {P : Type} : (k : Kind) → Msg (Messages.String P) k → Byte
  | .empty, _ => 0
  | .string, s => String.getPackedSize c s
  | .userData, u => UserData.getPackedSize c u
  | .chipStatus, s => ChipStatus.getPackedSize c s

def serialize : (k : Kind) → Outgoing k → (Nat → Byte) → Int → Except Fault (Nat → Byte)
  | .empty, _, m, _ => pure m
  | .string, s, m, ptr => String.serialize c s m ptr
  | .userData, u, m, ptr => UserData.serialize c u m ptr
  | .chipStatus, s, m, ptr => ChipStatus.serialize c s m ptr

/-- `Deserialize`, and the strings read. -/
def decode : (k : Kind) → Int → Read (Value k)
  | .empty, _ => pure ()
  | .string, ptr => do
    let s ← String.deserialize ptr
    String.toCxxStr c s
  | .userData, ptr => do
    let u ← UserData.deserialize c ptr
    let name ← String.toCxxStr c u.Name
    pure { Name := name, PID := u.PID }
  | .chipStatus, ptr => do
    let s ← ChipStatus.deserialize c ptr
    let description ← String.toCxxStr c s.Description
    let name ← String.toCxxStr c s.User.Name
    pure { Description := description, Acquired := s.Acquired,
           User := { Name := name, PID := s.User.PID } }

/-! ## The provider -/

def packMsg (procId : Byte) (k : Kind) (msg : Outgoing k) : RPC Unit := do
  let msgSz := toSize (c.toInt (c.getPackedSize k msg))
  RPCProvider.write (poke · 0 [procId, toChar msgSz])
  RPCProvider.write (c.serialize k msg · 2)

/-- `SendFromBuffer`; what is asked for may lie behind the object. -/
def sendFromBuffer (size : Nat) : RPC Unit :=
  if size ≤ bufSize + 1 then RPCProvider.sendFromBuffer size else throw (.fault .outOfBounds)

def sendPackage : RPC Unit := do
  let s ← get
  sendFromBuffer (toSize (c.toInt (s.buffer 1) + 2))

/-- `RecvPackage`. The header's `ProcId` and `Size` are `uint8_t`; the byte compared with `ErrCode`
is a `char`. -/
def recvPackage : RPC MsgHeader := do
  let header ← RPCProvider.recvPackage
  let s ← get
  let ok := c.toInt header.ProcId != s.errCode.toNat
  let msg := if ok then ascii "OK" else Memory.load s.buffer 0 header.Size.toNat
  pure { header with Ok := ok, Msg := msg }

def put (procId : Byte) (k : Kind) (msg : Outgoing k) : RPC Unit := do
  c.packMsg procId k msg
  c.sendPackage

/-- Receives a frame and reads the message that its payload holds. -/
def receive (k : Kind) : RPC (Except ReadError (Value k)) := do
  let _ ← c.recvPackage
  let s ← get
  pure (c.decode k 0 s.buffer)

/-! ## Bytes as integers -/

def limit : CharType → Nat
  | .unsigned => 255
  | .signed => 127

theorem limit_signed : limit .signed = 127 := rfl

theorem le_limit_unsigned (b : Byte) : b.toNat ≤ limit .unsigned := Nat.le_of_lt_succ b.toNat_lt

variable {c}

theorem toInt_of_le {b : Byte} (h : b.toNat ≤ c.limit) : c.toInt b = b.toNat := by
  cases c with
  | unsigned => rfl
  | signed =>
    rw [limit_signed] at h
    exact if_pos (by omega)

theorem toInt_signed {b : Byte} (h : 127 < b.toNat) : toInt .signed b = b.toNat - 256 :=
  if_neg (by omega)

theorem toInt_emod (c : CharType) (b : Byte) : c.toInt b % 256 = b.toNat := by
  have hlt := b.toNat_lt
  cases c with
  | unsigned => simp only [toInt]; omega
  | signed => simp only [toInt]; split <;> omega

theorem toSize_emod (n : Int) : (toSize n : Int) % 256 = n % 256 := by
  unfold toSize
  omega

theorem toSize_natCast {n : Nat} (h : n < 2 ^ 64) : toSize n = n := by
  unfold toSize
  omega

theorem toSize_toInt {b : Byte} (h : b.toNat ≤ c.limit) : toSize (c.toInt b) = b.toNat := by
  have := b.toNat_lt
  rw [toInt_of_le h, toSize_natCast (by omega)]

/-- A negative `char` becomes a size that no object has. -/
theorem toSize_signed {b : Byte} (h : 127 < b.toNat) :
    stringMaxSize < toSize (toInt .signed b) := by
  have := b.toNat_lt
  rw [toInt_signed h]
  unfold toSize stringMaxSize
  omega

theorem toChar_eq {n : Int} {b : Byte} (h : n % 256 = b.toNat) : toChar n = b := by
  unfold toChar
  rw [h, Int.toNat_natCast, UInt8.ofNat_toNat]

/-! The sizes that go through `char` are the same bytes in every build. -/

section

variable {P : Type}

theorem string_packedSize (c : CharType) (s : Messages.String P) :
    String.getPackedSize c s = s.getPackedSize := by
  have hsize := c.toInt_emod s.Size
  have hone := toNat_one
  refine toChar_eq ?_
  rw [Messages.String.getPackedSize, UInt8.toNat_add]
  omega

theorem userData_packedSize (c : CharType) (u : Messages.UserData (Messages.String P)) :
    UserData.getPackedSize c u = u.getPackedSize := by
  have hname := c.toInt_emod u.Name.getPackedSize
  have hsize := toSize_emod (c.toInt u.Name.getPackedSize)
  have hfour := toNat_four
  refine toChar_eq ?_
  rw [string_packedSize, Messages.UserData.getPackedSize, UInt8.toNat_add]
  omega

theorem chipStatus_packedSize (c : CharType) (s : Messages.ChipStatus (Messages.String P)) :
    ChipStatus.getPackedSize c s = s.getPackedSize := by
  have hdesc := c.toInt_emod s.Description.getPackedSize
  have hdesc' := toSize_emod (c.toInt s.Description.getPackedSize)
  have huser := c.toInt_emod s.User.getPackedSize
  have huser' := toSize_emod (c.toInt s.User.getPackedSize)
  have hone := toNat_one
  refine toChar_eq ?_
  rw [string_packedSize, userData_packedSize, Messages.ChipStatus.getPackedSize,
    UInt8.toNat_add, UInt8.toNat_add]
  omega

theorem packedSize_byte (c : CharType) {k : Kind} (msg : Msg (Messages.String P) k) :
    c.getPackedSize k msg = RPCDefs.getPackedSize k msg := by
  cases k with
  | empty => rfl
  | string => exact string_packedSize c msg
  | userData => exact userData_packedSize c msg
  | chipStatus => exact chipStatus_packedSize c msg

end

/-! ## Sizes that a `char` holds -/

/-- Neither the size of this string nor its packed size is negative. -/
def HoldsSize (c : CharType) (size : Byte) : Prop :=
  size.toNat ≤ c.limit ∧ (size + 1).toNat ≤ c.limit

/-- The sizes that the codec computes with for this message are not negative. -/
def Holds {P : Type} (c : CharType) : (k : Kind) → Msg (Messages.String P) k → Prop
  | .empty, _ => True
  | .string, s => s.Size.toNat ≤ c.limit
  | .userData, u => c.HoldsSize u.Name.Size
  | .chipStatus, s => c.HoldsSize s.Description.Size ∧ c.HoldsSize s.User.Name.Size

theorem holds_unsigned {P : Type} {k : Kind} (msg : Msg (Messages.String P) k) :
    Holds .unsigned k msg := by
  cases k with
  | empty => trivial
  | string => exact le_limit_unsigned _
  | userData => exact ⟨le_limit_unsigned _, le_limit_unsigned _⟩
  | chipStatus =>
    exact ⟨⟨le_limit_unsigned _, le_limit_unsigned _⟩, le_limit_unsigned _, le_limit_unsigned _⟩

/-! ## Writing -/

theorem storeAt_natCast (m : Nat → Byte) (ptr : Nat) (bs : List Byte) :
    storeAt m ptr bs = poke m ptr bs := if_pos (by omega)

theorem storeAt_negative {m : Nat → Byte} {ptr : Int} {bs : List Byte} (h : ptr < 0) :
    storeAt m ptr bs = .error .outOfBounds := if_neg (by omega)

theorem memcpy_natCast (m : Nat → Byte) (dst : Nat) (src : View) (n : Nat) :
    memcpy m dst src n = poke m dst (Memory.load src 0 n) := by
  unfold memcpy poke
  rw [Memory.length_load, Int.toNat_natCast]
  exact if_congr (by omega) rfl rfl

theorem memcpy_huge {m : Nat → Byte} {dst : Int} {src : View} {n : Nat} (h : stringMaxSize < n) :
    memcpy m dst src n = .error .outOfBounds :=
  if_neg (by unfold stringMaxSize at h; unfold bufSize; omega)

theorem string_serialize_eq {s : Messages.String View} (h : s.Size.toNat ≤ c.limit)
    (m : Nat → Byte) (ptr : Nat) : String.serialize c s m ptr = s.serialize m ptr := by
  have hassert : c.toInt s.Size < 255 ↔ s.Size < 255 := by
    rw [toInt_of_le h, UInt8.lt_iff_toNat_lt]
    exact Int.ofNat_lt (n := s.Size.toNat) (m := 255)
  unfold String.serialize Messages.String.serialize
  rw [toSize_toInt h, storeAt_natCast]
  refine if_congr hassert (bind_congr fun m' => ?_) rfl
  exact memcpy_natCast m' (ptr + 1) s.Data s.Size.toNat

theorem advance_eq {P : Type} {s : Messages.String P} (h : s.getPackedSize.toNat ≤ c.limit)
    (ptr : Nat) :
    (ptr : Int) + c.toInt (String.getPackedSize c s) =
      ((ptr + s.getPackedSize.toNat : Nat) : Int) := by
  rw [string_packedSize, toInt_of_le h]
  rfl

theorem userData_serialize_eq {u : Messages.UserData (Messages.String View)}
    (h : c.HoldsSize u.Name.Size) (m : Nat → Byte) (ptr : Nat) :
    UserData.serialize c u m ptr = u.serialize m ptr := by
  unfold UserData.serialize Messages.UserData.serialize
  simp only [string_serialize_eq h.1, advance_eq h.2, storeAt_natCast]

theorem chipStatus_serialize_eq {s : Messages.ChipStatus (Messages.String View)}
    (hdesc : c.HoldsSize s.Description.Size) (hname : c.HoldsSize s.User.Name.Size) (m : Nat → Byte)
    (ptr : Nat) : ChipStatus.serialize c s m ptr = s.serialize m ptr := by
  unfold ChipStatus.serialize Messages.ChipStatus.serialize
  simp only [string_serialize_eq hdesc.1, advance_eq hdesc.2, storeAt_natCast]
  refine bind_congr fun m₁ => bind_congr fun m₂ => ?_
  exact userData_serialize_eq hname m₂ (ptr + s.Description.getPackedSize.toNat + 1)

theorem serialize_eq {k : Kind} {msg : Outgoing k} (h : c.Holds k msg) (m : Nat → Byte)
    (ptr : Nat) : c.serialize k msg m ptr = RPCDefs.serialize k msg m ptr := by
  cases k with
  | empty => rfl
  | string => exact string_serialize_eq h m ptr
  | userData => exact userData_serialize_eq h m ptr
  | chipStatus => exact chipStatus_serialize_eq h.1 h.2 m ptr

theorem bind_error {α β ε : Type} {x : Except ε α} {f : α → Except ε β}
    (h : ∀ a, x = .ok a → ∃ e, f a = .error e) : ∃ e, (x >>= f) = .error e := by
  cases x with
  | ok a => exact h a rfl
  | error e => exact ⟨e, rfl⟩

/-- A string whose size is negative is copied beyond all bounds. -/
theorem string_serialize_negative {s : Messages.String View} (h : 127 < s.Size.toNat)
    (m : Nat → Byte) (ptr : Int) : ∃ f, String.serialize .signed s m ptr = .error f := by
  have hlt := s.Size.toNat_lt
  have hassert : toInt .signed s.Size < 255 := by
    rw [toInt_signed h]
    omega
  unfold String.serialize
  rw [if_pos hassert]
  exact bind_error fun m' _ => ⟨.outOfBounds, memcpy_huge (toSize_signed h)⟩

theorem holdsSize_signed_iff {size : Byte} : HoldsSize .signed size ↔ size.toNat ≤ 126 := by
  have hlt := size.toNat_lt
  unfold HoldsSize
  rw [limit_signed]
  constructor
  · rintro ⟨hle, hpacked⟩
    rw [toNat_succ (by omega)] at hpacked
    omega
  · intro hle
    rw [toNat_succ (by omega)]
    omega

/-- A size that is not held is negative, or the pointer behind the string goes backwards. -/
theorem negative_or_back {size : Byte} (h : ¬ HoldsSize .signed size) :
    127 < size.toNat ∨ toInt .signed (size + 1) = -128 := by
  rw [holdsSize_signed_iff] at h
  by_cases hs : 127 < size.toNat
  · exact .inl hs
  right
  have hlast : (size + 1).toNat = 128 := by
    rw [toNat_succ (by omega)]
    omega
  rw [toInt_signed (by omega), hlast]
  rfl

theorem userData_serialize_negative {u : Messages.UserData (Messages.String View)}
    (h : ¬ HoldsSize .signed u.Name.Size) (m : Nat → Byte) {ptr : Int} (hptr : ptr < 128) :
    ∃ f, UserData.serialize .signed u m ptr = .error f := by
  unfold UserData.serialize
  refine bind_error fun m' hm => ?_
  rcases negative_or_back h with hs | hback
  · obtain ⟨f, hf⟩ := string_serialize_negative hs m ptr
    cases hf.symm.trans hm
  · refine ⟨.outOfBounds, storeAt_negative ?_⟩
    rw [string_packedSize, Messages.String.getPackedSize, hback]
    omega

theorem chipStatus_serialize_negative {s : Messages.ChipStatus (Messages.String View)}
    (hlen : encodedLength .chipStatus s ≤ 254)
    (h : ¬ (HoldsSize .signed s.Description.Size ∧ HoldsSize .signed s.User.Name.Size))
    (m : Nat → Byte) : ∃ f, ChipStatus.serialize .signed s m 2 = .error f := by
  unfold ChipStatus.serialize
  rw [string_packedSize, Messages.String.getPackedSize]
  refine bind_error fun m' hm => ?_
  by_cases hdesc : HoldsSize .signed s.Description.Size
  · have hname : ¬ HoldsSize .signed s.User.Name.Size := fun hname => h ⟨hdesc, hname⟩
    refine bind_error fun m'' _ => userData_serialize_negative hname m'' ?_
    -- the two strings share 247 bytes, and the name takes 127 of them at least
    have hsum : s.Description.Size.toNat + s.User.Name.Size.toNat + 7 ≤ 254 := hlen
    rw [holdsSize_signed_iff] at hname
    rw [toInt_of_le hdesc.2, toNat_succ (by omega)]
    omega
  · rcases negative_or_back hdesc with hs | hback
    · obtain ⟨f, hf⟩ := string_serialize_negative hs m 2
      cases hf.symm.trans hm
    · refine bind_error fun m'' hm'' => ?_
      rw [storeAt_negative (by omega)] at hm''
      cases hm''

/-- With a signed `char`, a message with a size that it does not hold is not serialized. -/
theorem serialize_negative {k : Kind} {msg : Outgoing k} (hlen : encodedLength k msg ≤ 254)
    (h : ¬ Holds .signed k msg) (m : Nat → Byte) : ∃ f, serialize .signed k msg m 2 = .error f := by
  cases k with
  | empty => exact absurd trivial h
  | string => exact string_serialize_negative (Nat.not_le.mp h) m 2
  | userData => exact userData_serialize_negative h m (by decide)
  | chipStatus => exact chipStatus_serialize_negative hlen h m

/-! ## Sending -/

theorem packMsg_eq {k : Kind} {msg : Outgoing k} (h : c.Holds k msg) (procId : Byte)
    (s : RPCProvider) : c.packMsg procId k msg s = RPCProvider.packMsg procId k msg s := by
  have hsize : toChar (toSize (c.toInt (c.getPackedSize k msg))) =
      RPCDefs.getPackedSize k msg := by
    rw [packedSize_byte]
    refine toChar_eq ?_
    rw [toSize_emod, toInt_emod]
  have hbody : (c.serialize k msg · 2) = (RPCDefs.serialize k msg · 2) :=
    funext fun m => serialize_eq h m 2
  unfold packMsg RPCProvider.packMsg
  rw [hsize, hbody]

theorem packMsg_negative {k : Kind} {msg : Outgoing k} (hlen : encodedLength k msg ≤ 254)
    (h : ¬ Holds .signed k msg) (procId : Byte) (s : RPCProvider) :
    ∃ f s', packMsg .signed procId k msg s = .error (.fault f) s' := by
  unfold packMsg
  simp only [bind, EStateM.bind]
  rw [RPCProvider.write_header]
  obtain ⟨f, hf⟩ := serialize_negative hlen h (Memory.store s.buffer 0
    [procId, toChar (toSize (toInt .signed (getPackedSize .signed k msg)))])
  exact ⟨f, _, RPCProvider.write_error hf⟩

theorem sendPackage_eq {s : RPCProvider} (h : (s.buffer 1).toNat ≤ c.limit) :
    c.sendPackage s = RPCProvider.sendPackage s := by
  have hlt := (s.buffer 1).toNat_lt
  have hsize : toSize (c.toInt (s.buffer 1) + 2) = (s.buffer 1).toNat + 2 := by
    rw [toInt_of_le h]
    exact toSize_natCast (n := (s.buffer 1).toNat + 2) (by omega)
  unfold sendPackage RPCProvider.sendPackage sendFromBuffer
  simp only [bind, EStateM.bind, get, getThe, MonadStateOf.get, EStateM.get, hsize]
  rw [if_pos (by unfold bufSize; omega)]

theorem packMsg_unsigned (procId : Byte) (k : Kind) (msg : Outgoing k) :
    packMsg .unsigned procId k msg = RPCProvider.packMsg procId k msg :=
  funext (packMsg_eq (holds_unsigned msg) procId)

theorem sendPackage_unsigned : sendPackage .unsigned = RPCProvider.sendPackage :=
  funext fun _ => sendPackage_eq (le_limit_unsigned _)

/-- With a signed `char`, the size of a long frame is zero or beyond all bounds. -/
theorem sendPackage_negative {s : RPCProvider} (h : 127 < (s.buffer 1).toNat)
    (hle : (s.buffer 1).toNat ≤ 254) :
    sendPackage .signed s = .ok () s ∨
      sendPackage .signed s = .error (.fault .outOfBounds) s := by
  unfold sendPackage sendFromBuffer
  simp only [bind, EStateM.bind, get, getThe, MonadStateOf.get, EStateM.get, toInt_signed h]
  by_cases hlast : (s.buffer 1).toNat = 254
  · left
    rw [hlast]
    rfl
  · right
    have hhuge : bufSize + 1 < toSize ((s.buffer 1).toNat - 256 + 2) := by
      unfold toSize bufSize
      omega
    rw [if_neg (by omega)]
    rfl

/-! ## Reading -/

theorem readAt_natCast {α : Type} {ptr n : Nat} (h : ptr + n ≤ bufSize) (x : Nat → Load Byte α)
    (m : Nat → Byte) : readAt ptr n x m = .ok ((x ptr).run m) := if_pos (by omega)

theorem readAt_negative {α : Type} {ptr : Int} (h : ptr < 0) (n : Nat) (x : Nat → Load Byte α)
    (m : Nat → Byte) : readAt ptr n x m = .error .outOfBounds := if_neg (by omega)

theorem read_bind {α β : Type} {x : Read α} {m : Nat → Byte} {a : α} (h : x m = .ok a)
    (f : α → Read β) : (x >>= f) m = f a m := by
  show (x m >>= fun a => f a m) = _
  rw [h]
  rfl

theorem read_bind_error {α β : Type} {x : Read α} {m : Nat → Byte} {e : ReadError}
    (h : x m = .error e) (f : α → Read β) : (x >>= f) m = .error e := by
  show (x m >>= fun a => f a m) = _
  rw [h]
  rfl

section

variable {m : Nat → Byte} {p : Nat}

theorem string_deserialize_eq (h : p + 1 ≤ bufSize) :
    String.deserialize p m = .ok { Data := (p : Int) + 1, Size := m p } :=
  read_bind (readAt_natCast h Load.cell m) _

theorem advance_read (hs : (m p + 1).toNat ≤ c.limit) :
    (p : Int) + c.toInt (String.getPackedSize c
      ({ Data := (p : Int) + 1, Size := m p } : Messages.String Int)) =
        ((p + (m p + 1).toNat : Nat) : Int) :=
  advance_eq (s := ({ Data := (p : Int) + 1, Size := m p } : Messages.String Int)) hs p

/-- The pointer behind a string whose packed size is negative: it has left the buffer. -/
theorem retreat_read (hback : p + toInt .signed (m p + 1) < 0) :
    (p : Int) + toInt .signed (String.getPackedSize .signed
      ({ Data := (p : Int) + 1, Size := m p } : Messages.String Int)) < 0 := by
  rw [string_packedSize]
  exact hback

theorem toCxxStr_eq {size : Byte} (hs : size.toNat ≤ c.limit) (h : p + size.toNat ≤ bufSize) :
    String.toCxxStr c { Data := (p : Int), Size := size } m =
      .ok (Memory.load m p size.toNat) := by
  have hlt := size.toNat_lt
  unfold String.toCxxStr
  rw [toSize_toInt hs, if_neg (by unfold stringMaxSize; omega)]
  show readAt (p : Int) size.toNat (fun p => Load.cells p size.toNat) m = _
  rw [readAt_natCast h, Load.run_cells]

theorem toCxxStr_negative {data : Int} {size : Byte} (h : 127 < size.toNat) :
    String.toCxxStr .signed { Data := data, Size := size } m = .error .length := by
  unfold String.toCxxStr
  rw [if_pos (toSize_signed h)]
  exact read_bind_error rfl _

theorem userData_deserialize_eq (hs : (m p + 1).toNat ≤ c.limit)
    (h : p + (m p + 1).toNat + 4 ≤ bufSize) (h1 : p + 1 ≤ bufSize) :
    UserData.deserialize c p m =
      .ok { Name := { Data := (p : Int) + 1, Size := m p },
            PID := (readPid (p + (m p + 1).toNat)).run m } := by
  unfold UserData.deserialize
  rw [read_bind (string_deserialize_eq h1), advance_read hs]
  exact read_bind (readAt_natCast h readPid m) _

/-- Behind a q that is not held, the process id would be read in front of the buffer. -/
theorem userData_deserialize_negative (h1 : p + 1 ≤ bufSize)
    (hback : p + toInt .signed (m p + 1) < 0) :
    UserData.deserialize .signed p m = .error .outOfBounds := by
  unfold UserData.deserialize
  rw [read_bind (string_deserialize_eq h1)]
  exact read_bind_error (readAt_negative (retreat_read hback) 4 readPid m) _

theorem chipStatus_deserialize_eq (hs : (m p + 1).toNat ≤ c.limit)
    (h : p + (m p + 1).toNat + 1 ≤ bufSize) (h1 : p + 1 ≤ bufSize) {user}
    (huser : UserData.deserialize c ((p + (m p + 1).toNat + 1 : Nat) : Int) m = .ok user) :
    ChipStatus.deserialize c p m =
      .ok { Description := { Data := (p : Int) + 1, Size := m p },
            Acquired := m (p + (m p + 1).toNat) ≠ 0, User := user } := by
  unfold ChipStatus.deserialize
  rw [read_bind (string_deserialize_eq h1), advance_read hs]
  refine (read_bind (readAt_natCast h Load.cell m) _).trans ?_
  exact read_bind huser _

theorem chipStatus_deserialize_user {q : Nat} (hq : q = p + (m p + 1).toNat + 1)
    (hs : (m p + 1).toNat ≤ c.limit) (h : p + (m p + 1).toNat + 1 ≤ bufSize)
    (h1 : p + 1 ≤ bufSize) {e : ReadError} (huser : UserData.deserialize c q m = .error e) :
    ChipStatus.deserialize c p m = .error e := by
  rw [hq] at huser
  unfold ChipStatus.deserialize
  rw [read_bind (string_deserialize_eq h1), advance_read hs]
  refine (read_bind (readAt_natCast h Load.cell m) _).trans ?_
  exact read_bind_error huser _

theorem chipStatus_deserialize_negative (h1 : p + 1 ≤ bufSize)
    (hback : p + toInt .signed (m p + 1) < 0) :
    ChipStatus.deserialize .signed p m = .error .outOfBounds := by
  unfold ChipStatus.deserialize
  rw [read_bind (string_deserialize_eq h1)]
  exact read_bind_error (readAt_negative (retreat_read hback) 1 Load.cell m) _

theorem decode_string_eq (hs : (m p).toNat ≤ c.limit)
    (hb : p + 1 + (m p).toNat ≤ bufSize) :
    c.decode .string p m = .ok ((RPCDefs.decode .string p).run m) := by
  have hrun : (RPCDefs.decode .string p).run m = Memory.load m (p + 1) (m p).toNat := by
    simp [RPCDefs.decode, RPCDefs.deserialize, resolve]
  rw [hrun]
  refine (read_bind (string_deserialize_eq (by omega)) _).trans ?_
  exact toCxxStr_eq (p := p + 1) hs hb

theorem decode_userData_eq (hs : c.HoldsSize (m p)) (hb : p + 1 + (m p).toNat ≤ bufSize)
    (hpid : p + (m p + 1).toNat + 4 ≤ bufSize) :
    c.decode .userData p m = .ok ((RPCDefs.decode .userData p).run m) := by
  have hrun : (RPCDefs.decode .userData p).run m =
      ({ Name := Memory.load m (p + 1) (m p).toNat,
         PID := (readPid (p + (m p + 1).toNat)).run m } : Messages.UserData Text) := by
    simp [RPCDefs.decode, RPCDefs.deserialize, resolve]
  rw [hrun]
  refine (read_bind (userData_deserialize_eq hs.2 hpid (by omega)) _).trans ?_
  exact read_bind (toCxxStr_eq (p := p + 1) hs.1 hb) _

/-- The description of a status begins at `p`, and the q at `q`. -/
theorem decode_chipStatus_eq (hs : c.HoldsSize (m p)) (hb : p + 1 + (m p).toNat ≤ bufSize)
    {q : Nat} (hname : q = p + (m p + 1).toNat + 1) (hs' : c.HoldsSize (m q))
    (hb' : q + 1 + (m q).toNat ≤ bufSize) (hpid : q + (m q + 1).toNat + 4 ≤ bufSize) :
    c.decode .chipStatus p m = .ok ((RPCDefs.decode .chipStatus p).run m) := by
  have hrun : (RPCDefs.decode .chipStatus p).run m =
      ({ Description := Memory.load m (p + 1) (m p).toNat,
         Acquired := m (p + (m p + 1).toNat) ≠ 0,
         User := { Name := Memory.load m (q + 1) (m q).toNat,
                   PID := (readPid (q + (m q + 1).toNat)).run m } } :
        Messages.ChipStatus Text) := by
    simp [RPCDefs.decode, RPCDefs.deserialize, resolve, hname]
  have huser := userData_deserialize_eq hs'.2 hpid (by omega)
  rw [hname] at huser
  rw [hrun]
  refine (read_bind (chipStatus_deserialize_eq hs.2 (by omega) (by omega) huser) _).trans ?_
  refine (read_bind (toCxxStr_eq (p := p + 1) hs.1 hb) _).trans ?_
  subst hname
  exact read_bind (toCxxStr_eq (p := p + (m p + 1).toNat + 1 + 1) hs'.1 hb') _

end

/-! The sizes in a payload that holds a message. -/

theorem cell_string {m : Nat → Byte} {s : Messages.String View}
    (h : Memory.load m 0 (encodedLength .string s) = RPCDefs.encode .string s) : m 0 = s.Size := by
  rw [← RPCDefs.length_encode] at h
  exact (load_string h).1

theorem cell_userData {m : Nat → Byte} {u : Messages.UserData (Messages.String View)}
    (h : Memory.load m 0 (encodedLength .userData u) = RPCDefs.encode .userData u) :
    m 0 = u.Name.Size := by
  rw [← RPCDefs.length_encode] at h
  have happ : Memory.load m 0 (u.Name.encode.length + (pidBytes u.PID).length) =
      u.Name.encode ++ pidBytes u.PID := by
    simpa only [RPCDefs.encode, List.length_append] using h
  exact (load_string (load_append happ).1).1

theorem cell_chipStatus {m : Nat → Byte} {s : Messages.ChipStatus (Messages.String View)}
    (h : Memory.load m 0 (encodedLength .chipStatus s) = RPCDefs.encode .chipStatus s) :
    m 0 = s.Description.Size ∧ m (s.Description.Size.toNat + 2) = s.User.Name.Size := by
  rw [← RPCDefs.length_encode, RPCDefs.encode, List.length_append] at h
  obtain ⟨hdesc, hrest⟩ := load_append h
  refine ⟨(load_string hdesc).1, ?_⟩
  rw [List.length_cons, Memory.load_succ] at hrest
  have huser := (List.cons.inj hrest).2
  rw [List.length_append] at huser
  have hname := (load_string (load_append huser).1).1
  rw [length_string_encode, Nat.zero_add] at hname
  exact hname

/-- A payload is read as the message it holds, if the `char` holds the message's sizes. -/
theorem decode_ok {k : Kind} {msg : Outgoing k} (hlen : encodedLength k msg ≤ 254)
    (h : c.Holds k msg) {m : Nat → Byte}
    (hm : Memory.load m 0 (encodedLength k msg) = RPCDefs.encode k msg) :
    c.decode k 0 m = .ok (value k msg) := by
  rw [← run_decode (by omega) hm]
  cases k with
  | empty => rfl
  | string =>
    have hsum : 1 + msg.Size.toNat ≤ 254 := hlen
    have hsize := cell_string hm
    refine decode_string_eq (p := 0) (hsize ▸ h) ?_
    rw [hsize]
    unfold bufSize
    omega
  | userData =>
    have hsum : msg.Name.Size.toNat + 5 ≤ 254 := hlen
    have hsize := cell_userData hm
    refine decode_userData_eq (p := 0) (hsize ▸ h) ?_ ?_
    · rw [hsize]
      unfold bufSize
      omega
    · rw [hsize, toNat_succ (by omega)]
      unfold bufSize
      omega
  | chipStatus =>
    have hsum : msg.Description.Size.toNat + msg.User.Name.Size.toNat + 7 ≤ 254 := hlen
    obtain ⟨hdesc, hname⟩ := cell_chipStatus hm
    refine decode_chipStatus_eq (p := 0) (hdesc ▸ h.1) ?_
      (q := msg.Description.Size.toNat + 2) ?_ (hname ▸ h.2) ?_ ?_
    · rw [hdesc]
      unfold bufSize
      omega
    · rw [hdesc, toNat_succ (by omega)]
      omega
    · rw [hname]
      unfold bufSize
      omega
    · rw [hname, toNat_succ (by omega)]
      unfold bufSize
      omega

theorem decode_string_negative {m : Nat → Byte} (h : 127 < (m 0).toNat) :
    decode .signed .string 0 m = .error .length := by
  have hread := string_deserialize_eq (m := m) (p := 0) (by decide)
  exact (read_bind hread _).trans (toCxxStr_negative h)

theorem decode_userData_negative {m : Nat → Byte} (hlt : (m 0).toNat < 255)
    (h : ¬ HoldsSize .signed (m 0)) : decode .signed .userData 0 m = .error .outOfBounds := by
  rw [holdsSize_signed_iff] at h
  have hback : ((0 : Nat) : Int) + toInt .signed (m 0 + 1) < 0 := by
    rw [toInt_signed (by rw [toNat_succ hlt]; omega), toNat_succ hlt]
    omega
  exact read_bind_error (userData_deserialize_negative (by decide) hback) _

/-- The pointer goes back behind the description, or behind the name. -/
theorem decode_chipStatus_negative {m : Nat → Byte} {q : Nat} (hq : q = (m 0).toNat + 2)
    (hsum : (m 0).toNat + (m q).toNat + 7 ≤ 254)
    (h : ¬ (HoldsSize .signed (m 0) ∧ HoldsSize .signed (m q))) :
    decode .signed .chipStatus 0 m = .error .outOfBounds := by
  refine read_bind_error ?_ _
  rw [holdsSize_signed_iff, holdsSize_signed_iff] at h
  by_cases hdesc : (m 0).toNat ≤ 126
  · have hheld : HoldsSize .signed (m 0) := holdsSize_signed_iff.2 hdesc
    have hpacked : (m 0 + 1).toNat = (m 0).toNat + 1 := toNat_succ (by omega)
    have hback : (q : Int) + toInt .signed (m q + 1) < 0 := by
      have hsucc : (m q + 1).toNat = (m q).toNat + 1 := toNat_succ (by omega)
      rw [toInt_signed (by omega), hsucc]
      omega
    have huser := userData_deserialize_negative (m := m) (p := q) (by unfold bufSize; omega) hback
    exact chipStatus_deserialize_user (by omega) hheld.2 (by unfold bufSize; omega) (by decide)
      huser
  · have hback : ((0 : Nat) : Int) + toInt .signed (m 0 + 1) < 0 := by
      rw [toInt_signed (by rw [toNat_succ (by omega)]; omega), toNat_succ (by omega)]
      omega
    exact chipStatus_deserialize_negative (by decide) hback

/-- With a signed `char`, a message with a size that it does not hold is not read back. -/
theorem decode_negative {k : Kind} {msg : Outgoing k} (hlen : encodedLength k msg ≤ 254)
    (h : ¬ Holds .signed k msg) {m : Nat → Byte}
    (hm : Memory.load m 0 (encodedLength k msg) = RPCDefs.encode k msg) :
    ∃ e, decode .signed k 0 m = .error e := by
  cases k with
  | empty => exact absurd trivial h
  | string =>
    refine ⟨_, decode_string_negative ?_⟩
    rw [cell_string hm]
    exact Nat.not_le.mp h
  | userData =>
    have hsum : msg.Name.Size.toNat + 5 ≤ 254 := hlen
    have hsize := cell_userData hm
    exact ⟨_, decode_userData_negative (by rw [hsize]; omega) (by rw [hsize]; exact h)⟩
  | chipStatus =>
    have hsum : msg.Description.Size.toNat + msg.User.Name.Size.toNat + 7 ≤ 254 := hlen
    obtain ⟨hdesc, hname⟩ := cell_chipStatus hm
    have hq : msg.Description.Size.toNat + 2 = (m 0).toNat + 2 := by rw [hdesc]
    refine ⟨_, decode_chipStatus_negative hq ?_ ?_⟩
    · rw [hdesc, hname]
      exact hsum
    · rw [hdesc, hname]
      exact h

theorem receive_frame {k : Kind} {s : RPCProvider} {f : Frame} {rest : List Byte}
    (h : s.conn.inbound = f.wire ++ rest) :
    c.receive k s = .ok (c.decode k 0 (s.taken f rest).buffer) (s.taken f rest) := by
  unfold receive recvPackage
  simp only [bind, EStateM.bind, RPCProvider.recvPackage_frame h]
  rfl

theorem unsigned_bne (b e : Byte) : (toInt .unsigned b != e.toNat) = (b != e) := by
  rw [Bool.eq_iff_iff, bne_iff_ne, bne_iff_ne]
  exact not_congr (Int.ofNat_inj.trans UInt8.toNat_inj)

theorem recvPackage_unsigned : recvPackage .unsigned = RPCProvider.recvPackage := by
  funext s
  unfold recvPackage
  simp only [bind, EStateM.bind]
  cases h : Frame.parse s.conn.inbound with
  | none =>
    obtain ⟨buffer, hshort⟩ := RPCProvider.recvPackage_short h
    rw [hshort]
  | some fr =>
    have hload := RPCProvider.load_taken s fr.1 fr.2
    rw [RPCProvider.recvPackage_frame (Frame.parse_some h)]
    simp only [get, getThe, MonadStateOf.get, EStateM.get, pure, EStateM.pure, unsigned_bne,
      RPCProvider.header, Frame.toNat_size, hload]
    rfl

/-! ## The two builds -/

/-- Both builds do the same when they pack this message and send it: the same bytes go out, over
whatever connection. -/
def SendsSame (k : Kind) (msg : Outgoing k) : Prop :=
  ∀ procId s, put .signed procId k msg s = put .unsigned procId k msg s

/-- Both builds read the same from the frame of this message, whatever they have received before. -/
def ReadsSame (k : Kind) (msg : Outgoing k) (h : encodedLength k msg ≤ 254) : Prop :=
  ∀ procId s rest, s.conn.inbound = (RPCProvider.msgFrame procId k msg h).wire ++ rest →
    receive .signed k s = receive .unsigned k s

theorem holds_of_length {k : Kind} {msg : Outgoing k} (h : encodedLength k msg ≤ 127) :
    Holds .signed k msg := by
  cases k with
  | empty => trivial
  | string =>
    have hsum : 1 + msg.Size.toNat ≤ 127 := h
    show msg.Size.toNat ≤ 127
    omega
  | userData =>
    have hsum : msg.Name.Size.toNat + 5 ≤ 127 := h
    exact holdsSize_signed_iff.2 (by omega)
  | chipStatus =>
    have hsum : msg.Description.Size.toNat + msg.User.Name.Size.toNat + 7 ≤ 127 := h
    exact ⟨holdsSize_signed_iff.2 (by omega), holdsSize_signed_iff.2 (by omega)⟩

theorem toNat_buffer_packed {k : Kind} {msg : Outgoing k} (h : encodedLength k msg ≤ 254)
    (procId : Byte) (s : RPCProvider) :
    ((s.packed (RPCProvider.msgFrame procId k msg h)).buffer 1).toNat = encodedLength k msg :=
  (Frame.toNat_size _).trans (length_encode k msg)

theorem put_eq {k : Kind} {msg : Outgoing k} (h : encodedLength k msg ≤ 254)
    (hholds : c.Holds k msg) (procId : Byte) (s : RPCProvider) :
    c.put procId k msg s =
      c.sendPackage (s.packed (RPCProvider.msgFrame procId k msg h)) := by
  unfold put
  simp only [bind, EStateM.bind]
  rw [packMsg_eq hholds]
  rcases RPCProvider.packMsg_cases procId k msg s with ⟨_, hpack⟩ | ⟨hlong, -⟩
  · rw [hpack]
  · omega

theorem put_unsigned {k : Kind} {msg : Outgoing k} (h : encodedLength k msg ≤ 254)
    (procId : Byte) (s : RPCProvider) :
    put .unsigned procId k msg s =
      RPCProvider.sendPackage (s.packed (RPCProvider.msgFrame procId k msg h)) :=
  (put_eq h (holds_unsigned msg) procId s).trans (sendPackage_eq (le_limit_unsigned _))

theorem sends_same_iff {k : Kind} {msg : Outgoing k} (h : encodedLength k msg ≤ 254) :
    SendsSame k msg ↔ encodedLength k msg ≤ 127 := by
  constructor
  · intro hsame
    by_contra hlong
    have hbuffer := toNat_buffer_packed h ProcIDs.flash RPCProvider.quiet
    have hput := hsame ProcIDs.flash RPCProvider.quiet
    have hframe : (RPCProvider.msgFrame ProcIDs.flash k msg h).payload.length ≤ 254 := by
      rw [RPCProvider.msgFrame, length_encode]
      exact h
    rw [put_unsigned h, RPCProvider.sendPackage_ok hframe
      (RPCProvider.accepts_unlimited rfl _)] at hput
    by_cases hholds : Holds .signed k msg
    · rw [put_eq h hholds] at hput
      rcases sendPackage_negative (s := RPCProvider.quiet.packed _)
        (show 127 < _ by rw [hbuffer]; omega) (by rw [hbuffer]; exact h) with hsend | hsend
      · -- nothing is sent, and the other build sends the frame
        rw [hsend] at hput
        have hout := congrArg (fun r => (RPCProvider.after r).conn.outbound) hput
        exact absurd hout (by simp [RPCProvider.after, RPCProvider.posted, RPCProvider.packed,
          RPCProvider.quiet, Frame.wire])
      · rw [hsend] at hput
        cases hput
    · obtain ⟨f, s', hfault⟩ := packMsg_negative h hholds ProcIDs.flash RPCProvider.quiet
      unfold put at hput
      simp only [bind, EStateM.bind, hfault] at hput
      cases hput
  · intro hshort procId s
    have hbuffer := toNat_buffer_packed h procId s
    rw [put_unsigned h, put_eq h (holds_of_length hshort)]
    exact sendPackage_eq (by rw [hbuffer, limit_signed]; exact hshort)

theorem reads_same_iff {k : Kind} {msg : Outgoing k} (h : encodedLength k msg ≤ 254) :
    ReadsSame k msg h ↔ Holds .signed k msg := by
  have hload : ∀ procId (s : RPCProvider) rest,
      Memory.load (s.taken (RPCProvider.msgFrame procId k msg h) rest).buffer 0
        (encodedLength k msg) = RPCDefs.encode k msg := by
    intro procId s rest
    have hpayload := RPCProvider.load_taken s (RPCProvider.msgFrame procId k msg h) rest
    rwa [RPCProvider.msgFrame, length_encode] at hpayload
  constructor
  · intro hsame
    by_contra hbad
    have hin : (RPCProvider.fresh 0 (RPCProvider.msgFrame ProcIDs.flash k msg h).wire).conn.inbound =
        (RPCProvider.msgFrame ProcIDs.flash k msg h).wire ++ [] := (List.append_nil _).symm
    have hreceive := hsame _ _ _ hin
    obtain ⟨e, herror⟩ := decode_negative h hbad (hload ProcIDs.flash
      (RPCProvider.fresh 0 (RPCProvider.msgFrame ProcIDs.flash k msg h).wire) [])
    rw [receive_frame hin, receive_frame hin, herror,
      decode_ok h (holds_unsigned msg) (hload ..)] at hreceive
    cases hreceive
  · intro hholds procId s rest hin
    rw [receive_frame hin, receive_frame hin, decode_ok h hholds (hload ..),
      decode_ok h (holds_unsigned msg) (hload ..)]

/-- **The two builds agree on a message** of at most 254 bytes, in what they send and in what they
read, iff it has at most 127. -/
theorem agree_iff {k : Kind} {msg : Outgoing k} (h : encodedLength k msg ≤ 254) :
    (SendsSame k msg ∧ ReadsSame k msg h) ↔ encodedLength k msg ≤ 127 := by
  rw [sends_same_iff h, reads_same_iff h]
  exact and_iff_left_of_imp holds_of_length

/-- The path of a flash request, of 200 bytes. -/
def longPath : Outgoing .string := { Data := fun _ => 97, Size := 200 }

theorem agree_iff_longPath :
    (SendsSame .string longPath ∧ ReadsSame .string longPath (by decide)) ↔
      encodedLength .string longPath ≤ 127 :=
  agree_iff (by decide)

/-- A client with a signed `char` copies the path of a flash request beyond all bounds, and does not
read a string of that length either. -/
theorem longPath_differs :
    ¬ SendsSame .string longPath ∧ ¬ ReadsSame .string longPath (by decide) ∧
      ∃ f s', put .signed ProcIDs.flash .string longPath RPCProvider.quiet =
        .error (.fault f) s' := by
  have hlen : encodedLength .string longPath ≤ 254 := by decide
  have hbad : ¬ Holds .signed .string longPath := by
    show ¬ longPath.Size.toNat ≤ limit .signed
    decide
  refine ⟨?_, ?_, ?_⟩
  · rw [sends_same_iff hlen]
    decide
  · rw [reads_same_iff hlen]
    exact hbad
  · obtain ⟨f, s', hfault⟩ := packMsg_negative hlen hbad ProcIDs.flash RPCProvider.quiet
    refine ⟨f, s', ?_⟩
    unfold put
    simp only [bind, EStateM.bind, hfault]

end CharType

end MbDaemon
