import MbDaemon.RPC.Codec

/-!
# The bounds of the buffer

Four limits meet in `RPCProvider`'s buffer: `Serialize` asserts that a string is shorter than 255
bytes, `PackError` accepts texts of up to 255, packed sizes are taken to eight bits, and of the 256
bytes of the buffer the header takes two. A message is packed and sent inside the buffer iff its
bytes leave room for the header, and an error text unless it has exactly 255 bytes
(`inside_iff`).
-/

namespace MbDaemon

open RPCDefs

namespace RPCProvider

/-- `s'` is `s` with a frame written at the start of its buffer. The length byte counts the payload,
and neither the bytes written nor the `size` bytes that are handed to `send()` leave the buffer. -/
structure PackedInside (s s' : RPCProvider) (procId : Byte) (payload : List Byte) (size : Nat) :
    Prop where
  frame : s' = { s with buffer := Memory.store s.buffer 0 (procId :: s'.buffer 1 :: payload) }
  counted : (s'.buffer 1).toNat = payload.length
  written : ∀ i < payload.length + 2, i < bufSize
  handed : ∀ i < size, i < bufSize

/-- The message is packed and sent inside the buffer, or refused with the buffer as it was. -/
def MessageInside (procId : Byte) (k : Kind) (msg : Outgoing k) : Prop :=
  ∀ s,
    (∃ s' size, packMsg procId k msg s = .ok () s' ∧ sendPackage s' = sendFromBuffer size s' ∧
      PackedInside s s' procId (encode k msg) size) ∨
    ∃ x, packMsg procId k msg s = .error (.thrown x) s

/-- The error text is packed and sent inside the buffer, or refused with the buffer as it was. -/
def ErrorInside (what : Text) : Prop :=
  ∀ s,
    (∃ s' size, packError what s = sendFromBuffer size s' ∧
      PackedInside s s' s.errCode what size) ∨
    ∃ x, packError what s = .error (.thrown x) s

/-- A frame with room for its header is packed inside the buffer. -/
theorem packedInside_packed (s : RPCProvider) {f : Frame} (h : f.payload.length ≤ 254) :
    PackedInside s (s.packed f) f.procId f.payload (f.payload.length + 2) where
  frame := rfl
  counted := f.toNat_size
  written i hi := by unfold bufSize; omega
  handed i hi := by unfold bufSize; omega

/-- What is written inside the buffer leaves room for the header. -/
theorem PackedInside.short {s s' : RPCProvider} {procId : Byte} {payload : List Byte} {size : Nat}
    (h : PackedInside s s' procId payload size) : payload.length ≤ 254 := by
  have hlast := h.written (payload.length + 1) (by omega)
  unfold bufSize at hlast
  omega

theorem messageInside_of_short {procId : Byte} {k : Kind} {msg : Outgoing k}
    (h : encodedLength k msg ≤ 254) : MessageInside procId k msg := by
  intro s
  rcases packMsg_cases procId k msg s with ⟨_, hpack⟩ | ⟨hlong, -⟩
  · have hshort : (msgFrame procId k msg h).payload.length ≤ 254 := by
      rw [msgFrame, length_encode]
      exact h
    exact .inl ⟨_, _, hpack, sendPackage_packed s _, packedInside_packed s hshort⟩
  · omega

/-- A message that does not leave room for the header is not refused: its bytes run over the end. -/
theorem MessageInside.short {procId : Byte} {k : Kind} {msg : Outgoing k}
    (h : MessageInside procId k msg) : encodedLength k msg ≤ 254 := by
  rcases h quiet with ⟨s', size, -, -, hinside⟩ | ⟨x, hrefused⟩
  · rw [← length_encode]
    exact hinside.short
  · rcases packMsg_cases procId k msg quiet with ⟨hlen, -⟩ | ⟨-, f, s', hfault⟩
    · exact hlen
    · rw [hfault] at hrefused
      cases hrefused

theorem errorInside_of_ne {what : Text} (h : what.length ≠ 255) : ErrorInside what := by
  intro s
  by_cases hlong : 255 < what.length
  · exact .inr (packError_refused hlong s)
  · have hshort : what.length ≤ 254 := by omega
    exact .inl ⟨_, _, packError_eq hshort,
      packedInside_packed s (f := s.errorFrame what hshort) hshort⟩

theorem ErrorInside.ne {what : Text} (h : ErrorInside what) : what.length ≠ 255 := by
  intro hlen
  rcases h quiet with ⟨s', size, -, hinside⟩ | ⟨x, hrefused⟩
  · have := hinside.short
    omega
  · obtain ⟨s', hfault, -⟩ := @packError_fault quiet what hlen
    rw [hfault] at hrefused
    cases hrefused

/-- **What is packed and sent stays inside the buffer** iff a message leaves room for the header of
two bytes, and an error text is not the one length that `PackError` accepts and the buffer does not
hold. -/
theorem inside_iff (procId : Byte) {k : Kind} (msg : Outgoing k) (what : Text) :
    (MessageInside procId k msg ↔ encodedLength k msg ≤ 254) ∧
      (ErrorInside what ↔ what.length ≠ 255) :=
  ⟨⟨MessageInside.short, messageInside_of_short⟩, ErrorInside.ne, errorInside_of_ne⟩

/-- A string that `Serialize` accepts and the buffer does not hold. -/
def longest : Messages.String View := { Data := fun _ => 97, Size := 254 }

/-- The last byte of the longest string, and that of the longest error text, lie behind the
buffer. -/
theorem boundary_overrun :
    longest.Size < 255 ∧ ¬ MessageInside ProcIDs.flash .string longest ∧
      ¬ ErrorInside (List.replicate 255 97) := by
  refine ⟨by decide, fun h => ?_, fun h => h.ne List.length_replicate⟩
  have hlen : encodedLength .string longest ≤ 254 := h.short
  exact absurd hlen (by decide)

end RPCProvider

end MbDaemon
