import MbDaemon.RPCDefs

/-!
# Wire formats

`encode` is the list of bytes a message stands for on the wire and `encodedLength` its length, not
cut to eight bits as `GetPackedSize` is. `serialize_cases` says when `Serialize` stays inside the
buffer; `run_decode` reads a message back from its bytes. `fits` says that the string lengths inside
a payload fit the payload: such a payload is read within its bounds (`reads_decode`), any other past
its end (`reads_past`).
-/

namespace MbDaemon

namespace RPCDefs

open Messages

/-! ## The bytes of a message -/

def Messages.String.encode (s : Messages.String View) : List Byte := s.Size :: s.text

def encodedLength {P : Type} : (k : Kind) → Msg (Messages.String P) k → Nat
  | .empty, _ => 0
  | .string, s => 1 + s.Size.toNat
  | .userData, u => u.Name.Size.toNat + 5
  | .chipStatus, c => c.Description.Size.toNat + c.User.Name.Size.toNat + 7

def encode : (k : Kind) → Outgoing k → List Byte
  | .empty, _ => []
  | .string, s => s.encode
  | .userData, u => u.Name.encode ++ pidBytes u.PID
  | .chipStatus, c =>
    c.Description.encode ++ ((if c.Acquired then 1 else 0) ::
      (c.User.Name.encode ++ pidBytes c.User.PID))

@[simp] theorem length_text (s : Messages.String View) : s.text.length = s.Size.toNat := by
  simp [Messages.String.text]

@[simp] theorem size_ofCxxStr (s : Text) :
    (Messages.String.ofCxxStr s).Size.toNat = s.length % 256 := by
  simp [Messages.String.ofCxxStr]

/-- A string longer than its length byte says is cut. -/
theorem text_ofCxxStr (s : Text) :
    (Messages.String.ofCxxStr s).text = s.take (s.length % 256) := by
  have hle : s.length % 256 ≤ s.length := Nat.mod_le _ _
  unfold Messages.String.text
  rw [size_ofCxxStr]
  refine List.ext_getElem? fun i => ?_
  by_cases hi : i < s.length % 256
  · rw [Memory.getElem?_load _ _ hi, List.getElem?_take_of_lt hi, Nat.zero_add]
    simp only [Messages.String.ofCxxStr, List.getD_eq_getElem?_getD]
    rw [List.getElem?_eq_getElem (by omega)]
    rfl
  · rw [List.getElem?_eq_none (by simpa using hi), List.getElem?_eq_none (by simp; omega)]

theorem text_ofCxxStr_of_le {s : Text} (h : s.length ≤ 255) :
    (Messages.String.ofCxxStr s).text = s := by
  rw [text_ofCxxStr, Nat.mod_eq_of_lt (by omega), List.take_length]

@[simp] theorem length_pidBytes (pid : Int32) : (pidBytes pid).length = 4 := rfl

@[simp] theorem length_string_encode (s : Messages.String View) :
    s.encode.length = s.Size.toNat + 1 := by
  simp [Messages.String.encode]

theorem length_userData_encode (u : UserData (Messages.String View)) :
    (encode .userData u).length = u.Name.Size.toNat + 5 := by
  simp [encode]

theorem length_chipStatus_encode (c : ChipStatus (Messages.String View)) :
    (encode .chipStatus c).length = c.Description.Size.toNat + c.User.Name.Size.toNat + 7 := by
  simp only [encode, List.length_append, List.length_cons, length_string_encode, length_pidBytes]
  omega

theorem length_encode (k : Kind) (msg : Outgoing k) :
    (encode k msg).length = encodedLength k msg := by
  cases k with
  | empty => rfl
  | string => exact (length_string_encode msg).trans (Nat.add_comm _ _)
  | userData => exact length_userData_encode msg
  | chipStatus => exact length_chipStatus_encode msg

theorem toNat_one : (1 : Byte).toNat = 1 := rfl

theorem toNat_four : (4 : Byte).toNat = 4 := rfl

/-- Without a wrap the packed size of a string is its length and one. -/
theorem packedSize_string {P : Type} {s : Messages.String P} (h : s.Size.toNat < 255) :
    s.getPackedSize.toNat = s.Size.toNat + 1 := by
  have := toNat_one
  unfold Messages.String.getPackedSize
  rw [UInt8.toNat_add]
  omega

theorem packedSize_userData {P : Type} {u : UserData (Messages.String P)}
    (h : u.Name.Size.toNat + 5 ≤ 255) : u.getPackedSize.toNat = u.Name.Size.toNat + 5 := by
  have := toNat_four
  unfold UserData.getPackedSize
  rw [UInt8.toNat_add, packedSize_string (by omega)]
  omega

theorem packedSize_chipStatus {P : Type} {c : ChipStatus (Messages.String P)}
    (h : c.Description.Size.toNat + c.User.Name.Size.toNat + 7 ≤ 255) :
    c.getPackedSize.toNat = c.Description.Size.toNat + c.User.Name.Size.toNat + 7 := by
  have := toNat_one
  unfold ChipStatus.getPackedSize
  rw [UInt8.toNat_add, UInt8.toNat_add, packedSize_string (by omega),
    packedSize_userData (by omega)]
  omega

/-- `GetPackedSize` is the length of the message when that fits a byte. -/
theorem packedSize_eq {P : Type} {k : Kind} {msg : Msg (Messages.String P) k}
    (h : encodedLength k msg ≤ 255) : (getPackedSize k msg).toNat = encodedLength k msg := by
  cases k with
  | empty => rfl
  | string =>
    have hs : msg.Size.toNat < 255 := by
      have : 1 + msg.Size.toNat ≤ 255 := h
      omega
    exact (packedSize_string hs).trans (Nat.add_comm _ _)
  | userData => exact packedSize_userData h
  | chipStatus => exact packedSize_chipStatus h

/-! ## Writing -/

theorem poke_ok {m : Nat → Byte} {ptr : Nat} {bs : List Byte} (h : ptr + bs.length ≤ bufSize) :
    poke m ptr bs = .ok (Memory.store m ptr bs) := if_pos h

theorem poke_error {m : Nat → Byte} {ptr : Nat} {bs : List Byte} (h : bufSize < ptr + bs.length) :
    poke m ptr bs = .error .outOfBounds := if_neg (by omega)

theorem poke_append {m : Nat → Byte} {ptr : Nat} {bs cs : List Byte}
    (h : ptr + (bs ++ cs).length ≤ bufSize) :
    poke (Memory.store m ptr bs) (ptr + bs.length) cs = .ok (Memory.store m ptr (bs ++ cs)) := by
  rw [List.length_append] at h
  rw [poke_ok (by omega), Memory.store_append]

theorem string_serialize_ok {s : Messages.String View} {m : Nat → Byte} {ptr : Nat}
    (hs : s.Size.toNat < 255) (h : ptr + 1 + s.Size.toNat ≤ bufSize) :
    s.serialize m ptr = .ok (Memory.store m ptr s.encode) := by
  have hlt : s.Size < 255 := UInt8.lt_iff_toNat_lt.2 hs
  unfold Messages.String.serialize
  rw [if_pos hlt, poke_ok (by simp; omega)]
  have htext : poke (Memory.store m ptr [s.Size]) (ptr + 1) s.text =
      .ok (Memory.store m ptr ([s.Size] ++ s.text)) := poke_append (by simp; omega)
  exact htext

theorem string_serialize_error {s : Messages.String View} {m : Nat → Byte} {ptr : Nat}
    (h : bufSize < ptr + 1 + s.Size.toNat) : ∃ f, s.serialize m ptr = .error f := by
  unfold Messages.String.serialize
  split
  · by_cases hp : ptr + 1 ≤ bufSize
    · rw [poke_ok (by simpa using hp)]
      exact ⟨_, poke_error (by simpa using h)⟩
    · exact ⟨.outOfBounds, by rw [poke_error (by simpa using hp)]; rfl⟩
  · exact ⟨.assertion, rfl⟩

/-- A string is written, or its length is out of range one way or the other. -/
theorem string_serialize_cases (s : Messages.String View) (m : Nat → Byte) {ptr : Nat}
    (hptr : 2 ≤ ptr) :
    (s.Size.toNat < 255 ∧ ptr + 1 + s.Size.toNat ≤ bufSize ∧
      s.serialize m ptr = .ok (Memory.store m ptr s.encode)) ∨
    (bufSize < ptr + 1 + s.Size.toNat ∧ ∃ f, s.serialize m ptr = .error f) := by
  by_cases h : ptr + 1 + s.Size.toNat ≤ bufSize
  · have hs : s.Size.toNat < 255 := by unfold bufSize at h; omega
    exact .inl ⟨hs, h, string_serialize_ok hs h⟩
  · exact .inr ⟨by omega, string_serialize_error (by omega)⟩

theorem userData_serialize_cases (u : UserData (Messages.String View)) (m : Nat → Byte) {ptr : Nat}
    (hptr : 2 ≤ ptr) :
    (ptr + (u.Name.Size.toNat + 5) ≤ bufSize ∧
      u.serialize m ptr = .ok (Memory.store m ptr (u.Name.encode ++ pidBytes u.PID))) ∨
    (bufSize < ptr + (u.Name.Size.toNat + 5) ∧ ∃ f, u.serialize m ptr = .error f) := by
  rcases string_serialize_cases u.Name m hptr with ⟨hs, hb, hok⟩ | ⟨hb, f, herr⟩
  · have hlen := length_string_encode u.Name
    have hstep : u.serialize m ptr =
        poke (Memory.store m ptr u.Name.encode) (ptr + u.Name.encode.length) (pidBytes u.PID) := by
      unfold UserData.serialize
      rw [hok, packedSize_string hs, hlen]
      rfl
    by_cases h : ptr + (u.Name.Size.toNat + 5) ≤ bufSize
    · exact .inl ⟨h, hstep.trans (poke_append (by simp [hlen]; omega))⟩
    · exact .inr ⟨by omega, _, hstep.trans (poke_error (by simp [hlen]; omega))⟩
  · refine .inr ⟨by omega, f, ?_⟩
    unfold UserData.serialize
    rw [herr]
    rfl

theorem chipStatus_serialize_cases (c : ChipStatus (Messages.String View)) (m : Nat → Byte)
    {ptr : Nat} (hptr : 2 ≤ ptr) :
    (ptr + encodedLength .chipStatus c ≤ bufSize ∧
      c.serialize m ptr = .ok (Memory.store m ptr (encode .chipStatus c))) ∨
    (bufSize < ptr + encodedLength .chipStatus c ∧ ∃ f, c.serialize m ptr = .error f) := by
  simp only [encodedLength]
  rcases string_serialize_cases c.Description m hptr with ⟨hs, hb, hok⟩ | ⟨hb, f, herr⟩
  · have hlen := length_string_encode c.Description
    have hstep : c.serialize m ptr =
        (poke (Memory.store m ptr c.Description.encode) (ptr + c.Description.encode.length)
          [if c.Acquired then 1 else 0] >>= fun m =>
            c.User.serialize m (ptr + c.Description.encode.length + 1)) := by
      unfold ChipStatus.serialize
      rw [hok, packedSize_string hs, hlen]
      rfl
    by_cases ha : ptr + (c.Description.Size.toNat + 2) ≤ bufSize
    · rw [poke_append (by simp [hlen]; omega)] at hstep
      have hstep' : c.serialize m ptr = c.User.serialize
          (Memory.store m ptr (c.Description.encode ++ [if c.Acquired then 1 else 0]))
          (ptr + c.Description.encode.length + 1) := hstep
      rcases userData_serialize_cases c.User (Memory.store m ptr (c.Description.encode ++
        [if c.Acquired then 1 else 0])) 
        (show 2 ≤ ptr + c.Description.encode.length + 1 by omega) with
        ⟨hb', hok'⟩ | ⟨hb', f, herr'⟩
      · refine .inl ⟨by omega, ?_⟩
        rw [hstep', hok']
        simp only [encode]
        have happ := Memory.store_append m ptr
          (c.Description.encode ++ [if c.Acquired then 1 else 0])
          (c.User.Name.encode ++ pidBytes c.User.PID)
        simp only [List.append_assoc, List.singleton_append, List.length_append, List.length_cons,
          List.length_nil, Nat.zero_add, ← Nat.add_assoc] at happ
        rw [happ]
      · exact .inr ⟨by omega, f, by rw [hstep', herr']⟩
    · refine .inr ⟨by omega, .outOfBounds, ?_⟩
      rw [hstep, poke_error (by simp [hlen]; omega)]
      rfl
  · refine .inr ⟨by omega, f, ?_⟩
    unfold ChipStatus.serialize
    rw [herr]
    rfl

/-- **`Serialize` writes the bytes of the message, or leaves the buffer.** -/
theorem serialize_cases (k : Kind) (msg : Outgoing k) (m : Nat → Byte) {ptr : Nat}
    (hptr : 2 ≤ ptr) (hb : ptr ≤ bufSize) :
    (ptr + encodedLength k msg ≤ bufSize ∧
      serialize k msg m ptr = .ok (Memory.store m ptr (encode k msg))) ∨
    (bufSize < ptr + encodedLength k msg ∧ ∃ f, serialize k msg m ptr = .error f) := by
  cases k with
  | empty => exact .inl ⟨hb, by simp [serialize, encode]; rfl⟩
  | string =>
    rcases string_serialize_cases msg m hptr with ⟨-, h, hok⟩ | ⟨h, herr⟩
    · exact .inl ⟨(Nat.add_assoc _ _ _).symm.trans_le h, hok⟩
    · exact .inr ⟨h.trans_eq (Nat.add_assoc _ _ _), herr⟩
  | userData => exact userData_serialize_cases msg m hptr
  | chipStatus => exact chipStatus_serialize_cases msg m hptr

/-! ## Reading -/

theorem load_four (m : Nat → Byte) (ptr : Nat) :
    Memory.load m ptr 4 = [m ptr, m (ptr + 1), m (ptr + 2), m (ptr + 3)] := rfl

theorem run_readPid {m : Nat → Byte} {ptr : Nat} {pid : Int32}
    (h : Memory.load m ptr 4 = pidBytes pid) : (readPid ptr).run m = pid := by
  rw [load_four] at h
  simp only [pidBytes, List.cons.injEq, and_true] at h
  obtain ⟨h0, h1, h2, h3⟩ := h
  have hsum : (m ptr).toNat + (m (ptr + 1)).toNat * 2 ^ 8 + (m (ptr + 2)).toNat * 2 ^ 16 +
      (m (ptr + 3)).toNat * 2 ^ 24 = pid.toUInt32.toNat := by
    have hlt := pid.toUInt32.toNat_lt
    rw [h0, h1, h2, h3]
    simp only [UInt8.toNat_ofNat']
    omega
  have hrun : (readPid ptr).run m = (UInt32.ofNat ((m ptr).toNat + (m (ptr + 1)).toNat * 2 ^ 8 +
      (m (ptr + 2)).toNat * 2 ^ 16 + (m (ptr + 3)).toNat * 2 ^ 24)).toInt32 := rfl
  rw [hrun, hsum, UInt32.ofNat_toNat]
  rfl

theorem load_append {m : Nat → Byte} {ptr : Nat} {bs cs : List Byte}
    (h : Memory.load m ptr (bs.length + cs.length) = bs ++ cs) :
    Memory.load m ptr bs.length = bs ∧ Memory.load m (ptr + bs.length) cs.length = cs := by
  rw [Memory.load_add] at h
  exact List.append_inj h (by simp)

theorem load_string {m : Nat → Byte} {ptr : Nat} {s : Messages.String View}
    (h : Memory.load m ptr s.encode.length = s.encode) :
    m ptr = s.Size ∧ Memory.load m (ptr + 1) s.Size.toNat = s.text := by
  rw [length_string_encode, Memory.load_succ] at h
  exact List.cons.inj h

/-! What each `Deserialize` returns and reads. -/

section

variable (m : Nat → Byte) (ptr : Nat)

@[simp] theorem run_string_deserialize :
    (Messages.String.deserialize ptr).run m = { Data := ptr + 1, Size := m ptr } := rfl

@[simp] theorem reads_string_deserialize : (Messages.String.deserialize ptr).reads m = [ptr] := rfl

@[simp] theorem run_toCxxStr (s : Messages.String Nat) :
    s.toCxxStr.run m = Memory.load m s.Data s.Size.toNat := Load.run_cells m _ _

@[simp] theorem reads_toCxxStr (s : Messages.String Nat) :
    s.toCxxStr.reads m = (List.range s.Size.toNat).map (s.Data + ·) := Load.reads_cells m _ _

@[simp] theorem reads_readPid : (readPid ptr).reads m = [ptr, ptr + 1, ptr + 2, ptr + 3] := rfl

@[simp] theorem run_userData_deserialize :
    (UserData.deserialize ptr).run m =
      { Name := { Data := ptr + 1, Size := m ptr },
        PID := (readPid (ptr + (m ptr + 1).toNat)).run m } := rfl

@[simp] theorem reads_userData_deserialize :
    (UserData.deserialize ptr).reads m =
      ptr :: (readPid (ptr + (m ptr + 1).toNat)).reads m := rfl

@[simp] theorem run_chipStatus_deserialize :
    (ChipStatus.deserialize ptr).run m =
      { Description := { Data := ptr + 1, Size := m ptr },
        Acquired := m (ptr + (m ptr + 1).toNat) ≠ 0,
        User := (UserData.deserialize (ptr + (m ptr + 1).toNat + 1)).run m } := rfl

@[simp] theorem reads_chipStatus_deserialize :
    (ChipStatus.deserialize ptr).reads m =
      ptr :: (ptr + (m ptr + 1).toNat) ::
        (UserData.deserialize (ptr + (m ptr + 1).toNat + 1)).reads m := by
  simp [ChipStatus.deserialize, Messages.String.getPackedSize]

end

theorem run_string {m : Nat → Byte} {ptr : Nat} {s : Messages.String View}
    (h : Memory.load m ptr s.encode.length = s.encode) :
    (decode .string ptr).run m = value .string s := by
  obtain ⟨hsize, htext⟩ := load_string h
  have hrun : (decode .string ptr).run m = Memory.load m (ptr + 1) (m ptr).toNat := by
    simp [decode, deserialize, resolve]
  rw [hrun, hsize, htext]
  rfl

theorem run_userData {m : Nat → Byte} {ptr : Nat} {u : UserData (Messages.String View)}
    (hs : u.Name.Size.toNat < 255)
    (h : Memory.load m ptr (encode .userData u).length = encode .userData u) :
    (decode .userData ptr).run m = value .userData u := by
  obtain ⟨hname, hpid⟩ := load_append (by simpa only [encode, List.length_append] using h)
  obtain ⟨hsize, htext⟩ := load_string hname
  have hptr : (m ptr + 1).toNat = u.Name.encode.length := by
    rw [hsize, length_string_encode]
    exact packedSize_string hs
  have hrun : (decode .userData ptr).run m =
      ({ Name := Memory.load m (ptr + 1) (m ptr).toNat,
         PID := (readPid (ptr + (m ptr + 1).toNat)).run m } : UserData Text) := by
    simp [decode, deserialize, resolve]
  rw [hrun, hptr, run_readPid hpid, hsize, htext]
  rfl

theorem run_chipStatus {m : Nat → Byte} {ptr : Nat} {c : ChipStatus (Messages.String View)}
    (hd : c.Description.Size.toNat < 255) (hn : c.User.Name.Size.toNat < 255)
    (h : Memory.load m ptr (encode .chipStatus c).length = encode .chipStatus c) :
    (decode .chipStatus ptr).run m = value .chipStatus c := by
  obtain ⟨hdesc, hrest⟩ := load_append (by simpa only [encode, List.length_append] using h)
  obtain ⟨hsize, htext⟩ := load_string hdesc
  have hptr : (m ptr + 1).toNat = c.Description.encode.length := by
    rw [hsize, length_string_encode]
    exact packedSize_string hd
  rw [List.length_cons, Memory.load_succ] at hrest
  obtain ⟨hacq, huser⟩ := List.cons.inj hrest
  have hrun : (decode .chipStatus ptr).run m =
      ({ Description := Memory.load m (ptr + 1) (m ptr).toNat,
         Acquired := m (ptr + (m ptr + 1).toNat) ≠ 0,
         User := (decode .userData (ptr + (m ptr + 1).toNat + 1)).run m } : ChipStatus Text) := by
    simp [decode, deserialize, resolve]
  rw [hrun, hptr, hacq, run_userData hn huser, hsize, htext]
  cases ha : c.Acquired <;> simp [value, ha]

/-- **A message is read back from its bytes.** -/
theorem run_decode {k : Kind} {msg : Outgoing k} {m : Nat → Byte} {ptr : Nat}
    (hl : encodedLength k msg ≤ 255)
    (h : Memory.load m ptr (encodedLength k msg) = encode k msg) :
    (decode k ptr).run m = value k msg := by
  rw [← length_encode] at h
  cases k with
  | empty => rfl
  | string => exact run_string h
  | userData =>
    have hl' : msg.Name.Size.toNat + 5 ≤ 255 := hl
    exact run_userData (by omega) h
  | chipStatus =>
    have hl' : msg.Description.Size.toNat + msg.User.Name.Size.toNat + 7 ≤ 255 := hl
    exact run_chipStatus (by omega) (by omega) h

/-! ## Payloads that fit -/

/-- What follows the string at the start of a payload, if the string's length fits. -/
def afterString : List Byte → Option (List Byte)
  | [] => none
  | size :: rest => if size.toNat ≤ rest.length then some (rest.drop size.toNat) else none

def userDataFits (payload : List Byte) : Bool :=
  match afterString payload with
  | some rest => 4 ≤ rest.length
  | none => false

/-- The string lengths inside the payload fit the payload. -/
def fits : Kind → List Byte → Bool
  | .empty, _ => true
  | .string, payload => (afterString payload).isSome
  | .userData, payload => userDataFits payload
  | .chipStatus, payload =>
    match afterString payload with
    | some (_ :: rest) => userDataFits rest
    | _ => false

theorem afterString_some {m : Nat → Byte} {ptr : Nat} {p rest : List Byte}
    (hp : Memory.load m ptr p.length = p) (h : afterString p = some rest) :
    (m ptr).toNat + 1 + rest.length = p.length ∧
      Memory.load m (ptr + ((m ptr).toNat + 1)) rest.length = rest := by
  cases p with
  | nil => cases h
  | cons size tail =>
    rw [List.length_cons, Memory.load_succ] at hp
    obtain ⟨hsize, htail⟩ := List.cons.inj hp
    simp only [afterString] at h
    split at h
    · rename_i hle
      cases h
      rw [← hsize] at hle ⊢
      have hlen : (tail.drop (m ptr).toNat).length = tail.length - (m ptr).toNat :=
        List.length_drop
      refine ⟨by rw [List.length_cons]; omega, ?_⟩
      have hsplit : Memory.load m (ptr + 1) ((m ptr).toNat + (tail.length - (m ptr).toNat)) =
          tail.take (m ptr).toNat ++ tail.drop (m ptr).toNat := by
        rw [List.take_append_drop, Nat.add_sub_cancel' hle]
        exact htail
      rw [Memory.load_add] at hsplit
      have hright := (List.append_inj hsplit (by simp; omega)).2
      rw [hlen]
      rw [← hright, show ptr + ((m ptr).toNat + 1) = ptr + 1 + (m ptr).toNat by omega]
    · cases h

theorem toNat_succ {b : Byte} (h : b.toNat < 255) : (b + 1).toNat = b.toNat + 1 := by
  have := toNat_one
  rw [UInt8.toNat_add]
  omega

theorem reads_userData {m : Nat → Byte} {ptr : Nat} {p : List Byte} (hl : p.length ≤ 255)
    (hp : Memory.load m ptr p.length = p) (h : userDataFits p = true) :
    ∀ a ∈ (decode .userData ptr).reads m, ptr ≤ a ∧ a < ptr + p.length := by
  unfold userDataFits at h
  split at h
  · rename_i rest hrest
    simp only [decide_eq_true_eq] at h
    obtain ⟨hlen, -⟩ := afterString_some hp hrest
    have hwrap : (m ptr + 1).toNat = (m ptr).toNat + 1 := toNat_succ (by omega)
    intro a ha
    simp only [decode, deserialize, resolve, Load.reads_bind, run_userData_deserialize,
      reads_userData_deserialize, reads_readPid, reads_toCxxStr, Load.reads_pure, hwrap,
      List.mem_append, List.mem_cons, List.mem_map, List.mem_range, List.not_mem_nil, or_false] at ha
    rcases ha with (ha | ha | ha | ha | ha) | ⟨i, hi, ha⟩ <;> omega
  · cases h

/-- **A fitting payload is read within its bounds.** -/
theorem reads_decode {k : Kind} {m : Nat → Byte} {ptr : Nat} {p : List Byte} (hl : p.length ≤ 255)
    (hp : Memory.load m ptr p.length = p) (h : fits k p = true) :
    ∀ a ∈ (decode k ptr).reads m, ptr ≤ a ∧ a < ptr + p.length := by
  cases k with
  | empty => intro a ha; cases ha
  | string =>
    obtain ⟨rest, hrest⟩ := Option.isSome_iff_exists.1 h
    obtain ⟨hlen, -⟩ := afterString_some hp hrest
    intro a ha
    simp only [decode, deserialize, resolve, Load.reads_bind, run_string_deserialize,
      reads_string_deserialize, reads_toCxxStr, List.mem_append, List.mem_singleton, List.mem_map,
      List.mem_range] at ha
    rcases ha with ha | ⟨i, hi, ha⟩ <;> omega
  | userData => exact reads_userData hl hp h
  | chipStatus =>
    simp only [fits] at h
    split at h
    · rename_i b rest hrest
      obtain ⟨hlen, hload⟩ := afterString_some hp hrest
      rw [List.length_cons] at hlen hload
      rw [Memory.load_succ] at hload
      have hwrap : (m ptr + 1).toNat = (m ptr).toNat + 1 := toNat_succ (by omega)
      have huser := reads_userData (by omega) (List.cons.inj hload).2 h
      simp only [decode, deserialize, resolve, Load.reads_bind, run_userData_deserialize,
        reads_toCxxStr, Load.reads_pure, List.append_nil, List.mem_append] at huser
      intro a ha
      simp only [decode, deserialize, resolve, Load.reads_bind, run_chipStatus_deserialize,
        reads_chipStatus_deserialize, run_userData_deserialize, reads_toCxxStr, Load.reads_pure,
        hwrap, List.append_nil, List.mem_append, List.mem_cons] at ha
      rcases ha with (ha | ha | ha) | ha | ha
      · omega
      · omega
      · have := huser a (.inl ha); omega
      · simp only [List.mem_map, List.mem_range] at ha
        obtain ⟨i, hi, ha⟩ := ha
        omega
      · have := huser a (.inr ha); omega
    · cases h

/-- A string that does not fit is read past the payload: at its size when there is nothing else, or
in its characters. -/
theorem reads_past_string {m : Nat → Byte} {ptr : Nat} {p : List Byte}
    (hp : Memory.load m ptr p.length = p) (h : afterString p = none) :
    ∃ a, (a = ptr ∨ a ∈ (List.range (m ptr).toNat).map (ptr + 1 + ·)) ∧ ptr + p.length ≤ a := by
  cases p with
  | nil => exact ⟨ptr, .inl rfl, Nat.le_refl _⟩
  | cons size tail =>
    rw [List.length_cons, Memory.load_succ] at hp
    have hsize := (List.cons.inj hp).1
    have hlt : tail.length < size.toNat := by
      by_contra hle
      simp only [afterString, if_pos (Nat.le_of_not_lt hle)] at h
      cases h
    refine ⟨ptr + 1 + tail.length, .inr (List.mem_map.2 ⟨tail.length, ?_, rfl⟩), ?_⟩
    · rw [hsize]
      exact List.mem_range.2 hlt
    · rw [List.length_cons]
      omega

theorem reads_past_userData {m : Nat → Byte} {ptr : Nat} {p : List Byte} (hl : p.length ≤ 255)
    (hp : Memory.load m ptr p.length = p) (h : userDataFits p = false) :
    ∃ a ∈ (decode .userData ptr).reads m, ptr + p.length ≤ a := by
  simp only [decode, deserialize, resolve, Load.reads_bind, run_userData_deserialize,
    reads_userData_deserialize, reads_readPid, reads_toCxxStr, Load.reads_pure,
    List.append_nil]
  unfold userDataFits at h
  split at h
  · rename_i rest hrest
    simp only [decide_eq_false_iff_not] at h
    obtain ⟨hlen, -⟩ := afterString_some hp hrest
    have hwrap : (m ptr + 1).toNat = (m ptr).toNat + 1 := toNat_succ (by omega)
    -- the last byte of the pid
    refine ⟨ptr + (m ptr + 1).toNat + 3, by simp, ?_⟩
    rw [hwrap]
    omega
  · rename_i hnone
    obtain ⟨a, ha, hle⟩ := reads_past_string hp hnone
    refine ⟨a, ?_, hle⟩
    rcases ha with rfl | ha
    · simp
    · exact List.mem_append_right _ ha

/-- **A payload that does not fit is read past its end.** -/
theorem reads_past {k : Kind} {m : Nat → Byte} {ptr : Nat} {p : List Byte} (hl : p.length ≤ 255)
    (hp : Memory.load m ptr p.length = p) (h : fits k p = false) :
    ∃ a ∈ (decode k ptr).reads m, ptr + p.length ≤ a := by
  cases k with
  | empty => cases h
  | string =>
    have hnone : afterString p = none := by simpa [fits] using h
    simp only [decode, deserialize, resolve, Load.reads_bind, run_string_deserialize,
      reads_string_deserialize, reads_toCxxStr]
    obtain ⟨a, ha, hle⟩ := reads_past_string hp hnone
    refine ⟨a, ?_, hle⟩
    rcases ha with rfl | ha
    · simp
    · exact List.mem_append_right _ ha
  | userData => exact reads_past_userData hl hp h
  | chipStatus =>
    simp only [decode, deserialize, resolve, Load.reads_bind, run_chipStatus_deserialize,
        reads_chipStatus_deserialize, run_userData_deserialize, reads_toCxxStr, Load.reads_pure,
        List.append_nil]
    simp only [fits] at h
    split at h
    · rename_i b rest hrest
      obtain ⟨hlen, hload⟩ := afterString_some hp hrest
      rw [List.length_cons] at hlen hload
      rw [Memory.load_succ] at hload
      have hwrap : (m ptr + 1).toNat = (m ptr).toNat + 1 := toNat_succ (by omega)
      obtain ⟨a, ha, hle⟩ := reads_past_userData (by omega) (List.cons.inj hload).2 h
      simp only [decode, deserialize, resolve, Load.reads_bind, run_userData_deserialize,
        reads_toCxxStr, Load.reads_pure, List.append_nil, List.mem_append] at ha
      refine ⟨a, ?_, by omega⟩
      rw [hwrap]
      rcases ha with ha | ha
      · exact List.mem_append_left _ (List.mem_cons_of_mem _ (List.mem_cons_of_mem _ ha))
      · exact List.mem_append_right _ (List.mem_append_right _ ha)
    · rename_i hcases
      cases hs : afterString p with
      | none =>
        obtain ⟨a, ha, hle⟩ := reads_past_string hp hs
        refine ⟨a, ?_, hle⟩
        rcases ha with rfl | ha
        · simp
        · exact List.mem_append_right _ (List.mem_append_left _ ha)
      | some rest =>
        cases rest with
        | cons b rest => exact absurd hs (hcases b rest)
        | nil =>
          obtain ⟨hlen, -⟩ := afterString_some hp hs
          rw [List.length_nil] at hlen
          have hwrap : (m ptr + 1).toNat = (m ptr).toNat + 1 := toNat_succ (by omega)
          refine ⟨ptr + (m ptr + 1).toNat, by simp, ?_⟩
          omega
end RPCDefs

end MbDaemon
