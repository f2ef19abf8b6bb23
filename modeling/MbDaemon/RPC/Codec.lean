import MbDaemon.RPC.Transfer

/-!
# Messages over a connection

A message that fits a frame crosses the connection unchanged (`message_round_trip`). The other way
round, `Deserialize` is not told how long the payload is: it reads within the payload, and the same
value from the same frame, exactly when the string lengths inside it fit (`decodes_safely_iff`).
-/

namespace MbDaemon

open RPCDefs

namespace RPCProvider

/-- **A message crosses the connection unchanged**, however the transfers are split: the receiver
sees the sender's procedure id and message, and takes the bytes of that frame off the stream and no
others. -/
theorem message_round_trip {k : Kind} {msg : Outgoing k} (hlen : encodedLength k msg ≤ 254)
    {procId : Byte} (hid : procId ≠ ProcIDs.error) {s : RPCProvider}
    (hacc : accepts s.conn (encodedLength k msg + 2)) :
    ∃ s' wire,
      (do packMsg procId k msg; sendPackage : RPC Unit) s = .ok () s' ∧
      s'.conn.outbound = s.conn.outbound ++ wire ∧
      ∀ (r : RPCProvider) (rest : List Byte), r.errCode = ProcIDs.error →
        r.conn.inbound = wire ++ rest →
        ∃ header r', recvPackage r = .ok header r' ∧
          header.ProcId = procId ∧ header.Ok = true ∧
          header.Size.toNat = encodedLength k msg ∧
          r'.conn.inbound = rest ∧
          (decode k 0).run r'.buffer = value k msg := by
  have hframe : (msgFrame procId k msg hlen).payload.length = encodedLength k msg :=
    length_encode k msg
  have hpack : packMsg procId k msg s = .ok () (s.packed (msgFrame procId k msg hlen)) := by
    rcases packMsg_cases procId k msg s with ⟨_, h⟩ | ⟨h, -⟩
    · exact h
    · omega
  have hsend := sendPackage_ok (s := s) (f := msgFrame procId k msg hlen) (by omega)
    (by rw [hframe]; exact hacc)
  refine ⟨(s.packed (msgFrame procId k msg hlen)).posted (msgFrame procId k msg hlen),
    (msgFrame procId k msg hlen).wire, ?_, rfl, fun r rest herr hin => ?_⟩
  · simp only [bind, EStateM.bind, hpack]
    exact hsend
  · refine ⟨_, _, recvPackage_frame hin, rfl, ?_, ?_, rfl, ?_⟩
    · simp only [header, herr, msgFrame, bne_iff_ne]
      exact hid
    · rw [← hframe]
      exact Frame.toNat_size _
    · apply run_decode (by omega)
      rw [← hframe]
      exact load_taken r (msgFrame procId k msg hlen) rest

/-- The `String` of a flash request, and a sender and a receiver with nothing in their buffers. -/
def flashMsg : Outgoing .string := { Data := fun i => UInt8.ofNat (i + 97), Size := 3 }

def quiet : RPCProvider where
  conn :=
    { inbound := [], recvEnd := .closed, recvSplit := fun _ => 0, outbound := [], sendLimit := none,
      sendErrno := ⟨32, []⟩, sendSplit := fun _ => 0 }
  buffer := fun _ => 0
  errCode := ProcIDs.error

theorem message_round_trip_flash :
    ∃ s' wire,
      (do packMsg ProcIDs.flash .string flashMsg; sendPackage : RPC Unit) quiet = .ok () s' ∧
      s'.conn.outbound = wire ∧
      ∀ (r : RPCProvider) (rest : List Byte), r.errCode = ProcIDs.error →
        r.conn.inbound = wire ++ rest →
        ∃ header r', recvPackage r = .ok header r' ∧ header.ProcId = 1 ∧ header.Ok = true ∧
          header.Size.toNat = 4 ∧ r'.conn.inbound = rest ∧
          (decode .string 0).run r'.buffer = [97, 98, 99] :=
  @message_round_trip .string flashMsg (by decide) ProcIDs.flash (by decide) quiet
    (fun _ h => by cases h)

/-! ## Payloads of a peer -/

/-- A provider that has received nothing yet, with `b` in every cell of its buffer. -/
def fresh (b : Byte) (inbound : List Byte) : RPCProvider :=
  { quiet with conn := { quiet.conn with inbound := inbound }, buffer := fun _ => b }

/-- Receives a frame and deserializes its payload, as both ends do it unless the frame is an error
frame. -/
def receive (k : Kind) : RPC (Value k) := do
  let _ ← recvPackage
  let s ← get
  pure ((decode k 0).run s.buffer)

/-- Nothing behind the header's size is read, whatever the session has received before. -/
def ReadsWithin (k : Kind) (f : Frame) : Prop :=
  ∀ s rest, s.conn.inbound = f.wire ++ rest → ∀ header s',
    recvPackage s = .ok header s' → ∀ a ∈ (decode k 0).reads s'.buffer, a < header.Size.toNat

/-- The payload of the frame is deserialized from its own bytes: nothing behind the header's size is
read, strings that do not fit are rejected, and what a session received before makes no
difference. -/
structure DecodesSafely (k : Kind) (f : Frame) : Prop where
  within : ReadsWithin k f
  rejects : fits k f.payload = false →
    ∀ s rest, s.conn.inbound = f.wire ++ rest → ∃ e s', receive k s = .error e s'
  same : ∀ s₁ rest₁ s₂ rest₂, s₁.conn.inbound = f.wire ++ rest₁ →
    s₂.conn.inbound = f.wire ++ rest₂ → ∀ v₁ s₁' v₂ s₂',
      receive k s₁ = .ok v₁ s₁' → receive k s₂ = .ok v₂ s₂' → v₁ = v₂

theorem receive_frame {k : Kind} {s : RPCProvider} {f : Frame} {rest : List Byte}
    (h : s.conn.inbound = f.wire ++ rest) :
    receive k s = .ok ((decode k 0).run (s.taken f rest).buffer) (s.taken f rest) := by
  unfold receive
  simp only [bind, EStateM.bind, recvPackage_frame h]
  rfl

/-- A message's frame is deserialized to the message, whatever came before it. -/
theorem receive_msgFrame {k : Kind} {msg : Outgoing k} (hlen : encodedLength k msg ≤ 254)
    {procId : Byte} {s : RPCProvider} {rest : List Byte}
    (h : s.conn.inbound = (msgFrame procId k msg hlen).wire ++ rest) :
    receive k s = .ok (value k msg) (s.taken (msgFrame procId k msg hlen) rest) := by
  have hload := load_taken s (msgFrame procId k msg hlen) rest
  have hpayload : (msgFrame procId k msg hlen).payload.length = encodedLength k msg :=
    length_encode k msg
  rw [hpayload] at hload
  rw [receive_frame h, run_decode (by omega) hload]

theorem reads_taken {k : Kind} {f : Frame} (h : fits k f.payload = true) (s : RPCProvider)
    (rest : List Byte) :
    ∀ a ∈ (decode k 0).reads (s.taken f rest).buffer, a < f.payload.length := by
  intro a ha
  have := reads_decode f.fits (load_taken s f rest) h a ha
  omega

/-- A payload whose inner lengths do not fit is read past the header's size. -/
theorem reads_within_iff (k : Kind) (f : Frame) : ReadsWithin k f ↔ fits k f.payload = true := by
  constructor
  · intro h
    by_contra hfits
    have hin : (fresh 0 f.wire).conn.inbound = f.wire ++ [] := by simp [fresh]
    obtain ⟨a, ha, hle⟩ :=
      reads_past f.fits (load_taken (fresh 0 f.wire) f []) (by simpa using hfits)
    have hlt : a < f.size.toNat := h _ [] hin _ _ (recvPackage_frame hin) a ha
    rw [f.toNat_size] at hlt
    omega
  · intro hfits s rest hin header s' hrecv a ha
    rw [recvPackage_frame hin] at hrecv
    cases hrecv
    have := reads_taken hfits s rest a ha
    exact this.trans_eq f.toNat_size.symm

/-- **A peer's frame is decoded from its own payload iff its inner lengths fit**: no `Deserialize`
looks at the size in the header. -/
theorem decodes_safely_iff (k : Kind) (f : Frame) :
    DecodesSafely k f ↔ fits k f.payload = true := by
  constructor
  · exact fun h => (reads_within_iff k f).1 h.within
  · intro hfits
    refine ⟨(reads_within_iff k f).2 hfits, fun h => ?_, ?_⟩
    · rw [hfits] at h
      cases h
    · intro s₁ rest₁ s₂ rest₂ h₁ h₂ v₁ s₁' v₂ s₂' hv₁ hv₂
      rw [receive_frame h₁] at hv₁
      rw [receive_frame h₂] at hv₂
      cases hv₁
      cases hv₂
      refine (Load.run_congr _ fun a ha => ?_).symm
      -- both buffers hold the payload where the program reads
      have hlt := reads_taken hfits s₁ rest₁ a ha
      have hload := (load_taken s₁ f rest₁).trans (load_taken s₂ f rest₂).symm
      have := Memory.load_inj hload hlt
      rwa [Nat.zero_add] at this

/-- A flash request whose string claims two characters and brings none. -/
def overlong : Frame := ⟨ProcIDs.flash, [2], by decide⟩

/-- **Two sessions read different paths from one frame.** -/
theorem stale_bytes :
    ∃ s₁ s₂, receive .string (fresh 97 overlong.wire) = .ok [1, 97] s₁ ∧
      receive .string (fresh 98 overlong.wire) = .ok [1, 98] s₂ :=
  ⟨_, _, rfl, rfl⟩

end RPCProvider

end MbDaemon
