import MbDaemon.RPC
import MbDaemon.RPCDefs.Wire

/-!
# Transfers

However the system splits them, `RecvToBuffer` and `SendFromBuffer` move the bytes they are asked
for, or end where the connection does. With that `RecvPackage` takes one frame off the stream
(`recvPackage_frame`) and `PackMsg` and `SendPackage` put one on (`packMsg_ok`, `sendPackage_ok`).
-/

namespace MbDaemon

open RPCDefs

/-- A frame: the procedure id, and a payload whose length fits the header. -/
structure Frame where
  procId : Byte
  payload : List Byte
  fits : payload.length ≤ 255
  deriving DecidableEq

namespace Frame

def size (f : Frame) : Byte := UInt8.ofNat f.payload.length

def wire (f : Frame) : List Byte := f.procId :: f.size :: f.payload

@[simp] theorem toNat_size (f : Frame) : f.size.toNat = f.payload.length := by
  have := f.fits
  simp only [size, UInt8.toNat_ofNat']
  omega

@[simp] theorem length_wire (f : Frame) : f.wire.length = f.payload.length + 2 := rfl

theorem fits_of_short {payload : List Byte} (h : payload.length ≤ 254) : payload.length ≤ 255 := by
  omega

/-- The complete frame at the start of a stream, and what follows it. -/
def parse : List Byte → Option (Frame × List Byte)
  | procId :: size :: rest =>
    if h : size.toNat ≤ rest.length then
      some (⟨procId, rest.take size.toNat, by have := size.toNat_lt; simp; omega⟩,
        rest.drop size.toNat)
    else none
  | _ => none

theorem parse_wire (f : Frame) (rest : List Byte) : parse (f.wire ++ rest) = some (f, rest) := by
  have h := f.toNat_size
  simp only [wire, List.cons_append, parse]
  rw [dif_pos (by rw [h, List.length_append]; omega)]
  simp only [h, List.take_left, List.drop_left]

/-- A stream begins with one frame at most. -/
theorem wire_prefix_inj {stream : List Byte} {f g : Frame} (hf : f.wire <+: stream)
    (hg : g.wire <+: stream) : f = g := by
  obtain ⟨rest, hrest⟩ := hf
  obtain ⟨rest', hrest'⟩ := hg
  have hparse := parse_wire f rest
  rw [hrest, ← hrest', parse_wire] at hparse
  cases hparse
  rfl

theorem parse_some {stream rest : List Byte} {f : Frame} (h : parse stream = some (f, rest)) :
    stream = f.wire ++ rest := by
  unfold parse at h
  split at h
  · rename_i procId size tail
    split at h
    · rename_i hle
      simp only [Option.some.injEq, Prod.mk.injEq] at h
      obtain ⟨rfl, rfl⟩ := h
      simp [wire, Frame.size, Nat.min_eq_left hle]
    · cases h
  · cases h

theorem parse_none {stream : List Byte} (h : parse stream = none) :
    stream.length < 2 ∨
      ∃ procId size tail, stream = procId :: size :: tail ∧ tail.length < size.toNat := by
  unfold parse at h
  split at h
  · rename_i procId size tail
    split at h
    · cases h
    · exact .inr ⟨procId, size, tail, rfl, by omega⟩
  · rename_i hshort
    left
    match stream, hshort with
    | [], _ => decide
    | [_], _ => simp
    | a :: b :: tail, hshort => exact absurd rfl (hshort a b tail)

end Frame

/-- How a transfer ends that finds nothing more to read. -/
def RecvEnd.stop : RecvEnd → Stop
  | .failed e => .thrown (.std (fexcept "RecvToBuffer" (errnoWhat (ascii "Failed to recv()") e)))
  | .closed => .thrown (.std (fexcept "RecvToBuffer" (ascii "Connection closed")))
  | .cancelled => .thrown .forcedUnwind

namespace RPCProvider

/-! ## Receiving -/

/-- The provider after `n` bytes have come in behind the `total` there were. -/
def received (s : RPCProvider) (total n : Nat) : RPCProvider :=
  { s with conn := { s.conn with inbound := s.conn.inbound.drop n },
           buffer := Memory.store s.buffer total (s.conn.inbound.take n) }

theorem received_zero (s : RPCProvider) (total : Nat) : s.received total 0 = s := by
  simp [received]

theorem received_received (s : RPCProvider) {total n k : Nat} (hn : n ≤ s.conn.inbound.length) :
    (s.received total n).received (total + n) k = s.received total (n + k) := by
  simp only [received, List.drop_drop, Memory.store_take_add _ _ hn]

theorem recv_some {c : Conn} {n : Nat} (hn : 0 < n) (hc : c.inbound ≠ []) :
    ∃ ret, 0 < ret ∧ ret ≤ n ∧ ret ≤ c.inbound.length ∧
      c.recv n = (.ok (c.inbound.take ret), { c with inbound := c.inbound.drop ret }) := by
  have hpos : 0 < c.inbound.length := List.length_pos_iff.2 hc
  have hlt := Nat.mod_lt (c.recvSplit c.inbound.length) (y := min n c.inbound.length) (by omega)
  exact ⟨_, by omega, by omega, by omega, if_neg hc⟩

theorem recvLoop_step {size total fuel : Nat} {s : RPCProvider} (hlt : total < size)
    (hin : s.conn.inbound ≠ []) :
    ∃ ret, 0 < ret ∧ ret ≤ size - total ∧ ret ≤ s.conn.inbound.length ∧
      recvLoop size (fuel + 1) total s = recvLoop size fuel (total + ret) (s.received total ret) := by
  obtain ⟨ret, hpos, hle, hlen, hrecv⟩ := recv_some (n := size - total) (by omega) hin
  have htake : (s.conn.inbound.take ret).length = ret := by simp [hlen]
  refine ⟨ret, hpos, hle, hlen, ?_⟩
  simp only [recvLoop, if_pos hlt, bind, EStateM.bind, get, getThe, MonadStateOf.get, EStateM.get,
    hrecv, set, EStateM.set, htake]
  rfl

theorem recvLoop_empty {size total fuel : Nat} {s : RPCProvider} (hlt : total < size)
    (hin : s.conn.inbound = []) :
    recvLoop size (fuel + 1) total s = .error s.conn.recvEnd.stop s := by
  have hrecv : s.conn.recv (size - total) = (.error s.conn.recvEnd, s.conn) := if_pos hin
  simp only [recvLoop, if_pos hlt, bind, EStateM.bind, get, getThe, MonadStateOf.get, EStateM.get,
    hrecv]
  cases s.conn.recvEnd <;> rfl

/-- **The receive loop, whatever the splits**: with enough bytes it takes what is missing, else it
takes all there is and ends as the connection does. -/
theorem recvLoop_eq (size fuel : Nat) : ∀ (total : Nat) (s : RPCProvider),
    total ≤ size → size - total < fuel →
    recvLoop size fuel total s =
      if size - total ≤ s.conn.inbound.length then .ok () (s.received total (size - total))
      else .error s.conn.recvEnd.stop (s.received total s.conn.inbound.length) := by
  induction fuel with
  | zero => intro total s _ hf; omega
  | succ fuel ih =>
    intro total s ht hf
    by_cases hlt : total < size
    · by_cases hin : s.conn.inbound = []
      · rw [if_neg (by rw [hin, List.length_nil]; omega), hin, List.length_nil, received_zero,
          recvLoop_empty hlt hin]
      · obtain ⟨ret, hpos, hle, hlen, hstep⟩ := @recvLoop_step size total fuel s hlt hin
        have hrest : (s.received total ret).conn.inbound.length = s.conn.inbound.length - ret := by
          simp [received]
        have hend : (s.received total ret).conn.recvEnd = s.conn.recvEnd := rfl
        rw [hstep, ih _ _ (by omega) (by omega), hrest, hend, received_received s hlen,
          received_received s hlen]
        have e1 : ret + (size - (total + ret)) = size - total := by omega
        have e2 : ret + (s.conn.inbound.length - ret) = s.conn.inbound.length := by omega
        rw [e1, e2]
        by_cases henough : size - total ≤ s.conn.inbound.length
        · rw [if_pos henough, if_pos (by omega)]
        · rw [if_neg henough, if_neg (by omega)]
    · have hzero : size - total = 0 := by omega
      rw [hzero, if_pos (Nat.zero_le _), received_zero]
      simp only [recvLoop, if_neg hlt]
      rfl

theorem recvToBuffer_ok {n : Nat} {s : RPCProvider} (h : n ≤ s.conn.inbound.length) :
    recvToBuffer n s = .ok () (s.received 0 n) := by
  unfold recvToBuffer
  rw [recvLoop_eq n (n + 1) 0 s (Nat.zero_le _) (by omega), Nat.sub_zero, if_pos h]

theorem recvToBuffer_short {n : Nat} {s : RPCProvider} (h : s.conn.inbound.length < n) :
    recvToBuffer n s = .error s.conn.recvEnd.stop (s.received 0 s.conn.inbound.length) := by
  unfold recvToBuffer
  rw [recvLoop_eq n (n + 1) 0 s (Nat.zero_le _) (by omega), Nat.sub_zero, if_neg (by omega)]

/-- The header of a frame, as the receiver makes it. -/
def header (s : RPCProvider) (f : Frame) : MsgHeader where
  Ok := f.procId != s.errCode
  Msg := if f.procId != s.errCode then ascii "OK" else f.payload
  ProcId := f.procId
  Size := f.size

/-- The provider after it has taken a frame off its stream: the payload lies over the header. -/
def taken (s : RPCProvider) (f : Frame) (rest : List Byte) : RPCProvider :=
  { s with conn := { s.conn with inbound := rest },
           buffer := Memory.store (Memory.store s.buffer 0 [f.procId, f.size]) 0 f.payload }

theorem load_taken (s : RPCProvider) (f : Frame) (rest : List Byte) :
    Memory.load (s.taken f rest).buffer 0 f.payload.length = f.payload := by
  exact Memory.load_store (Memory.store s.buffer 0 [f.procId, f.size]) 0 f.payload

/-- **`RecvPackage` takes one frame.** -/
theorem recvPackage_frame {s : RPCProvider} {f : Frame} {rest : List Byte}
    (h : s.conn.inbound = f.wire ++ rest) :
    recvPackage s = .ok (s.header f) (s.taken f rest) := by
  have hlen : s.conn.inbound.length = f.payload.length + 2 + rest.length := by
    rw [h, List.length_append, f.length_wire]
  have hhead : s.received 0 2 =
      { s with conn := { s.conn with inbound := f.payload ++ rest },
               buffer := Memory.store s.buffer 0 [f.procId, f.size] } := by
    simp [received, h, Frame.wire]
  have h0 : (s.received 0 2).buffer 0 = f.procId := by rw [hhead]; rfl
  have h1 : (s.received 0 2).buffer 1 = f.size := by rw [hhead]; rfl
  have hbody : (s.received 0 2).received 0 f.payload.length = s.taken f rest := by
    rw [hhead]
    simp [received, taken]
  unfold recvPackage
  simp only [bind, EStateM.bind, get, getThe, MonadStateOf.get, EStateM.get, pure, EStateM.pure]
  rw [recvToBuffer_ok (by omega)]
  simp only [h0, h1, f.toNat_size]
  rw [recvToBuffer_ok (by rw [hhead]; simp), hbody]
  simp only [load_taken]
  rfl

/-- Without a complete frame `RecvPackage` takes what there is and ends as the connection does. -/
theorem recvPackage_short {s : RPCProvider} (h : Frame.parse s.conn.inbound = none) :
    ∃ buffer, recvPackage s = .error s.conn.recvEnd.stop
      { s with conn := { s.conn with inbound := [] }, buffer := buffer } := by
  unfold recvPackage
  simp only [bind, EStateM.bind, get, getThe, MonadStateOf.get, EStateM.get, pure, EStateM.pure]
  rcases Frame.parse_none h with hshort | ⟨procId, size, tail, hin, hlt⟩
  · rw [recvToBuffer_short hshort]
    exact ⟨(s.received 0 s.conn.inbound.length).buffer, by simp [received]⟩
  · have hhead : s.received 0 2 =
        { s with conn := { s.conn with inbound := tail },
                 buffer := Memory.store s.buffer 0 [procId, size] } := by
      simp [received, hin]
    have h1 : (s.received 0 2).buffer 1 = size := by rw [hhead]; rfl
    rw [recvToBuffer_ok (by rw [hin]; simp)]
    simp only [h1]
    rw [recvToBuffer_short (by rw [hhead]; exact hlt)]
    rw [hhead]
    exact ⟨Memory.store (Memory.store s.buffer 0 [procId, size]) 0 tail, by simp [received]⟩

/-! ## Sending -/

/-- The connection takes `n` more bytes. -/
def accepts (c : Conn) (n : Nat) : Prop := ∀ limit ∈ c.sendLimit, c.outbound.length + n ≤ limit

theorem accepts_unlimited {c : Conn} (h : c.sendLimit = none) (n : Nat) : accepts c n := by
  intro limit hlim
  rw [h] at hlim
  cases hlim

/-- The provider after it has sent `n` bytes of its buffer from `total` on. -/
def sent (s : RPCProvider) (total n : Nat) : RPCProvider :=
  { s with conn := { s.conn with outbound := s.conn.outbound ++ Memory.load s.object total n } }

theorem sent_sent (s : RPCProvider) (total n k : Nat) :
    (s.sent total n).sent (total + n) k = s.sent total (n + k) := by
  have hobj : (s.sent total n).object = s.object := rfl
  unfold sent
  simp only [Memory.load_add, List.append_assoc]
  rfl

theorem room_pos {c : Conn} {n : Nat} (hn : 0 < n) (h : accepts c n) : c.room n = n := by
  unfold Conn.room
  split
  · rfl
  · rename_i limit hlim
    have := h limit hlim
    omega

theorem room_le (c : Conn) (n : Nat) : c.room n ≤ n := by
  unfold Conn.room
  split <;> omega

theorem send_pos {c : Conn} {bs : List Byte} (h : 0 < c.room bs.length) :
    ∃ ret, 0 < ret ∧ ret ≤ c.room bs.length ∧
      c.send bs = (.ok ret, { c with outbound := c.outbound ++ bs.take ret }) := by
  have hlt := Nat.mod_lt (c.sendSplit c.outbound.length) h
  exact ⟨1 + c.sendSplit c.outbound.length % c.room bs.length, by omega, by omega,
    if_neg (by omega)⟩

theorem send_some (s : RPCProvider) (total : Nat) {n : Nat} (hn : 0 < s.conn.room n) :
    ∃ ret, 0 < ret ∧ ret ≤ s.conn.room n ∧
      s.conn.send (Memory.load s.object total n) = (.ok ret, (s.sent total ret).conn) := by
  have hlen : (Memory.load s.object total n).length = n := Memory.length_load _ _ _
  obtain ⟨ret, hpos, hle, hsend⟩ := @send_pos s.conn (Memory.load s.object total n)
    (by rw [hlen]; exact hn)
  rw [hlen] at hle
  have hroom := room_le s.conn n
  rw [Memory.take_load (by omega)] at hsend
  exact ⟨ret, hpos, hle, hsend⟩

theorem sent_zero (s : RPCProvider) (total : Nat) : s.sent total 0 = s := by
  simp [sent]

theorem sendLoop_step {size total fuel : Nat} {s : RPCProvider} (hlt : total < size)
    (hroom : 0 < s.conn.room (size - total)) :
    ∃ ret, 0 < ret ∧ ret ≤ s.conn.room (size - total) ∧
      sendLoop size (fuel + 1) total s = sendLoop size fuel (total + ret) (s.sent total ret) := by
  obtain ⟨ret, hpos, hle, hsend⟩ := send_some s total hroom
  refine ⟨ret, hpos, hle, ?_⟩
  simp only [sendLoop, if_pos hlt, bind, EStateM.bind, get, getThe, MonadStateOf.get, EStateM.get,
    hsend, set, EStateM.set]
  rfl

theorem sendLoop_full {size total fuel : Nat} {s : RPCProvider} (hlt : total < size)
    (hroom : s.conn.room (size - total) = 0) :
    sendLoop size (fuel + 1) total s = .error (.thrown (.std (fexcept "SendFromBuffer"
      (errnoWhat (ascii "Failed to send()") s.conn.sendErrno)))) s := by
  have hsend : s.conn.send (Memory.load s.object total (size - total)) =
      (.error s.conn.sendErrno, s.conn) := by
    unfold Conn.send
    rw [Memory.length_load, if_pos hroom]
  simp only [sendLoop, if_pos hlt, bind, EStateM.bind, get, getThe, MonadStateOf.get, EStateM.get,
    hsend]
  rfl

/-- **The send loop, whatever the splits**, while the connection takes the bytes. -/
theorem sendLoop_ok (size fuel : Nat) : ∀ (total : Nat) (s : RPCProvider),
    total ≤ size → size - total < fuel → accepts s.conn (size - total) →
    sendLoop size fuel total s = .ok () (s.sent total (size - total)) := by
  induction fuel with
  | zero => intro total s _ hf; omega
  | succ fuel ih =>
    intro total s ht hf hacc
    by_cases hlt : total < size
    · have hroom := room_pos (by omega) hacc
      obtain ⟨ret, hpos, hle, hstep⟩ := @sendLoop_step size total fuel s hlt (by omega)
      rw [hroom] at hle
      have hacc' : accepts (s.sent total ret).conn (size - (total + ret)) := by
        intro limit hlim
        have := hacc limit hlim
        simp only [sent, List.length_append, Memory.length_load]
        omega
      rw [hstep, ih _ _ (by omega) (by omega) hacc', sent_sent,
        show ret + (size - (total + ret)) = size - total by omega]
    · have hzero : size - total = 0 := by omega
      rw [hzero, sent_zero]
      simp only [sendLoop, if_neg hlt]
      rfl

/-- **The send loop throws** when the connection does not take all the bytes. -/
theorem sendLoop_error (size fuel : Nat) : ∀ (total : Nat) (s : RPCProvider),
    total < size → size - total < fuel → ¬ accepts s.conn (size - total) →
    ∃ what s', sendLoop size fuel total s = .error (.thrown (.std what)) s' := by
  induction fuel with
  | zero => intro total s _ hf; omega
  | succ fuel ih =>
    intro total s hlt hf hacc
    by_cases hroom : s.conn.room (size - total) = 0
    · exact ⟨_, _, sendLoop_full hlt hroom⟩
    · obtain ⟨ret, hpos, hle, hstep⟩ := @sendLoop_step size total fuel s hlt (by omega)
      -- what is left is not taken either
      obtain ⟨limit, hlim, hover⟩ : ∃ limit, limit ∈ s.conn.sendLimit ∧
          limit < s.conn.outbound.length + (size - total) := by
        simpa [accepts] using hacc
      have hle' : ret ≤ limit - s.conn.outbound.length := by
        have : s.conn.room (size - total) = min (size - total) (limit - s.conn.outbound.length) := by
          unfold Conn.room; rw [hlim]
        omega
      rw [hstep]
      refine ih _ _ (by omega) (by omega) fun hacc' => ?_
      have := hacc' limit hlim
      simp only [sent, List.length_append, Memory.length_load] at this
      omega

def after {α : Type} : EStateM.Result Stop RPCProvider α → RPCProvider
  | .ok _ s => s
  | .error _ s => s

/-- **However the send loop ends**, it has sent a first part of the bytes and nothing else. -/
theorem sendLoop_prefix (size fuel : Nat) : ∀ (total : Nat) (s : RPCProvider),
    total ≤ size → ∃ k ≤ size - total, after (sendLoop size fuel total s) = s.sent total k := by
  induction fuel with
  | zero => intro total s _; exact ⟨0, Nat.zero_le _, (sent_zero s total).symm⟩
  | succ fuel ih =>
    intro total s ht
    by_cases hlt : total < size
    · by_cases hroom : s.conn.room (size - total) = 0
      · exact ⟨0, Nat.zero_le _, by rw [sendLoop_full hlt hroom, sent_zero]; rfl⟩
      · obtain ⟨ret, hpos, hle, hstep⟩ := @sendLoop_step size total fuel s hlt (by omega)
        have hle' := room_le s.conn (size - total)
        obtain ⟨k, hk, hend⟩ := ih (total + ret) (s.sent total ret) (by omega)
        exact ⟨ret + k, by omega, by rw [hstep, hend, sent_sent]⟩
    · refine ⟨0, Nat.zero_le _, ?_⟩
      simp only [sendLoop, if_neg hlt]
      exact (sent_zero s total).symm

theorem sendFromBuffer_ok {n : Nat} {s : RPCProvider} (h : accepts s.conn n) :
    sendFromBuffer n s = .ok () (s.sent 0 n) :=
  sendLoop_ok n (n + 1) 0 s (Nat.zero_le _) (by omega) h

theorem sendFromBuffer_error {n : Nat} {s : RPCProvider} (hn : 0 < n) (h : ¬ accepts s.conn n) :
    ∃ what s', sendFromBuffer n s = .error (.thrown (.std what)) s' :=
  sendLoop_error n (n + 1) 0 s hn (by omega) h

theorem sendFromBuffer_prefix (n : Nat) (s : RPCProvider) :
    ∃ k ≤ n, after (sendFromBuffer n s) = s.sent 0 k :=
  sendLoop_prefix n (n + 1) 0 s (Nat.zero_le _)

theorem recvPackage_outbound (s : RPCProvider) :
    (after (recvPackage s)).conn.outbound = s.conn.outbound ∧
      (after (recvPackage s)).errCode = s.errCode := by
  cases h : Frame.parse s.conn.inbound with
  | none =>
    obtain ⟨buffer, hrecv⟩ := recvPackage_short h
    rw [hrecv]
    exact ⟨rfl, rfl⟩
  | some fr =>
    rw [recvPackage_frame (Frame.parse_some h)]
    exact ⟨rfl, rfl⟩

/-! ## Packing -/

def packed (s : RPCProvider) (f : Frame) : RPCProvider :=
  { s with buffer := Memory.store s.buffer 0 f.wire }

def posted (s : RPCProvider) (f : Frame) : RPCProvider :=
  { s with conn := { s.conn with outbound := s.conn.outbound ++ f.wire } }

def msgFrame (procId : Byte) (k : Kind) (msg : Outgoing k) (h : encodedLength k msg ≤ 254) : Frame :=
  ⟨procId, encode k msg, by rw [length_encode]; omega⟩

def errorFrame (s : RPCProvider) (msg : Text) (h : msg.length ≤ 254) : Frame :=
  ⟨s.errCode, msg, Frame.fits_of_short h⟩

theorem write_ok {x : (Nat → Byte) → Except Fault (Nat → Byte)} {s : RPCProvider}
    {buffer : Nat → Byte} (h : x s.buffer = .ok buffer) :
    write x s = .ok () { s with buffer := buffer } := by
  unfold write
  rw [h]

theorem write_error {x : (Nat → Byte) → Except Fault (Nat → Byte)} {s : RPCProvider} {f : Fault}
    (h : x s.buffer = .error f) : write x s = .error (.fault f) s := by
  unfold write
  rw [h]

theorem write_header (s : RPCProvider) (procId size : Byte) :
    write (poke · 0 [procId, size]) s =
      .ok () { s with buffer := Memory.store s.buffer 0 [procId, size] } :=
  write_ok (poke_ok (by simp [bufSize]))

theorem write_conn (x : (Nat → Byte) → Except Fault (Nat → Byte)) (s : RPCProvider) :
    (after (write x s)).conn = s.conn := by
  unfold write
  cases x s.buffer <;> rfl

theorem packMsg_conn (procId : Byte) (k : Kind) (msg : Outgoing k) (s : RPCProvider) :
    (after (packMsg procId k msg s)).conn = s.conn := by
  unfold packMsg
  simp only [bind, EStateM.bind]
  rw [write_header]
  exact write_conn (serialize k msg · 2) _

/-- `PackMsg` ends where `Serialize` does, with the header written. -/
theorem packMsg_error {procId : Byte} {k : Kind} {msg : Outgoing k} {s : RPCProvider} {f : Fault}
    (h : serialize k msg (Memory.store s.buffer 0 [procId, getPackedSize k msg]) 2 = .error f) :
    packMsg procId k msg s = .error (.fault f)
      { s with buffer := Memory.store s.buffer 0 [procId, getPackedSize k msg] } := by
  unfold packMsg
  simp only [bind, EStateM.bind]
  rw [write_header]
  exact write_error h

/-- **`PackMsg` packs a message of at most 254 bytes**; a longer one leaves the buffer. -/
theorem packMsg_cases (procId : Byte) (k : Kind) (msg : Outgoing k) (s : RPCProvider) :
    (∃ h : encodedLength k msg ≤ 254,
      packMsg procId k msg s = .ok () (s.packed (msgFrame procId k msg h))) ∨
    (254 < encodedLength k msg ∧ ∃ f s', packMsg procId k msg s = .error (.fault f) s') := by
  rcases serialize_cases k msg (Memory.store s.buffer 0 [procId, getPackedSize k msg])
    (Nat.le_refl 2) (by decide) with ⟨hb, hok⟩ | ⟨hb, f, herr⟩
  · unfold bufSize at hb
    have hlen : encodedLength k msg ≤ 254 := by omega
    refine .inl ⟨hlen, ?_⟩
    have hsize : getPackedSize k msg = (msgFrame procId k msg hlen).size := by
      refine UInt8.toNat_inj.1 ?_
      rw [Frame.toNat_size, packedSize_eq (by omega)]
      exact (length_encode k msg).symm
    have happ := Memory.store_append s.buffer 0 [procId, getPackedSize k msg] (encode k msg)
    unfold packMsg
    simp only [bind, EStateM.bind]
    rw [write_header]
    refine (write_ok hok).trans ?_
    unfold packed Frame.wire
    rw [← hsize]
    exact congrArg (fun b => EStateM.Result.ok () { s with buffer := b }) happ.symm
  · unfold bufSize at hb
    exact .inr ⟨by omega, f, _, packMsg_error herr⟩

theorem load_packed (s : RPCProvider) {f : Frame} (h : f.payload.length ≤ 254) :
    Memory.load (s.packed f).object 0 (f.payload.length + 2) = f.wire := by
  have hobj : Memory.load (s.packed f).object 0 (f.payload.length + 2) =
      Memory.load (s.packed f).buffer 0 (f.payload.length + 2) := by
    refine Memory.load_congr fun i hi => ?_
    have : 0 + i < bufSize := by unfold bufSize; omega
    exact if_pos this
  rw [hobj]
  exact Memory.load_store s.buffer 0 f.wire

theorem sent_packed (s : RPCProvider) {f : Frame} (h : f.payload.length ≤ 254) :
    (s.packed f).sent 0 (f.payload.length + 2) = (s.packed f).posted f := by
  unfold sent posted
  rw [load_packed s h]

/-- **`SendPackage` sends the frame in the buffer.** -/
theorem sendPackage_packed (s : RPCProvider) (f : Frame) :
    sendPackage (s.packed f) = sendFromBuffer (f.payload.length + 2) (s.packed f) := by
  have hsize : ((s.packed f).buffer 1).toNat = f.payload.length := f.toNat_size
  unfold sendPackage
  simp only [bind, EStateM.bind, get, getThe, MonadStateOf.get, EStateM.get, hsize]

theorem sendPackage_ok {s : RPCProvider} {f : Frame} (h : f.payload.length ≤ 254)
    (hacc : accepts s.conn (f.payload.length + 2)) :
    sendPackage (s.packed f) = .ok () ((s.packed f).posted f) := by
  rw [sendPackage_packed, sendFromBuffer_ok (s := s.packed f) hacc, sent_packed s h]

/-- However the sending of a packed frame ends, a first part of the frame is sent. -/
theorem sent_packed_prefix (s : RPCProvider) {f : Frame} (h : f.payload.length ≤ 254) {k : Nat}
    (hk : k ≤ f.payload.length + 2) :
    ((s.packed f).sent 0 k).conn.outbound = s.conn.outbound ++ f.wire.take k := by
  rw [← load_packed s h, Memory.take_load hk]
  rfl

theorem sendPackage_prefix (s : RPCProvider) {f : Frame} (h : f.payload.length ≤ 254) :
    ∃ part, part <+: f.wire ∧
      (after (sendPackage (s.packed f))).conn.outbound = s.conn.outbound ++ part := by
  obtain ⟨k, hk, hend⟩ := sendFromBuffer_prefix (f.payload.length + 2) (s.packed f)
  exact ⟨_, List.take_prefix k _, by rw [sendPackage_packed, hend, sent_packed_prefix s h hk]⟩

/-- What `PackError` does with a text that passes its check. -/
theorem packError_passed {s : RPCProvider} {msg : Text} (h : msg.length ≤ 255) :
    packError msg s =
      (do write (poke · 2 msg)
          sendFromBuffer (msg.length + 2) : RPC Unit)
        { s with buffer := Memory.store s.buffer 0 [s.errCode, UInt8.ofNat msg.length] } := by
  unfold packError
  rw [if_neg (by omega)]
  simp only [bind, EStateM.bind, get, getThe, MonadStateOf.get, EStateM.get]
  rw [write_header]

theorem packError_eq {s : RPCProvider} {msg : Text} (h : msg.length ≤ 254) :
    packError msg s = sendFromBuffer (msg.length + 2) (s.packed (s.errorFrame msg h)) := by
  have hbody : poke (Memory.store s.buffer 0 [s.errCode, UInt8.ofNat msg.length]) 2 msg =
      .ok (Memory.store s.buffer 0 ([s.errCode, UInt8.ofNat msg.length] ++ msg)) :=
    poke_append (by simp [bufSize]; omega)
  rw [packError_passed (by omega)]
  simp only [bind, EStateM.bind]
  rw [write_ok hbody]
  rfl

theorem packError_fault {s : RPCProvider} {msg : Text} (h : msg.length = 255) :
    ∃ s', packError msg s = .error (.fault .outOfBounds) s' ∧ s'.conn = s.conn := by
  rw [packError_passed (by omega)]
  simp only [bind, EStateM.bind]
  rw [write_error (poke_error (by unfold bufSize; omega))]
  exact ⟨_, rfl, rfl⟩

theorem packError_refused {what : Text} (h : 255 < what.length) (s : RPCProvider) :
    ∃ x, packError what s = .error (.thrown x) s := by
  unfold packError
  rw [if_pos h]
  exact ⟨_, rfl⟩

theorem packError_ok {s : RPCProvider} {msg : Text} (h : msg.length ≤ 254)
    (hacc : accepts s.conn (msg.length + 2)) :
    packError msg s =
      .ok () ((s.packed (s.errorFrame msg h)).posted (s.errorFrame msg h)) := by
  rw [packError_eq h, sendFromBuffer_ok (s := s.packed (s.errorFrame msg h)) hacc]
  exact congrArg _ (sent_packed s (f := s.errorFrame msg h) h)

theorem packError_long {s : RPCProvider} {msg : Text} (h : 254 < msg.length) :
    ∃ e s', packError msg s = .error e s' ∧ s'.conn = s.conn := by
  by_cases h' : 255 < msg.length
  · obtain ⟨x, hrefused⟩ := packError_refused h' s
    exact ⟨_, s, hrefused, rfl⟩
  · obtain ⟨s', hfault, hconn⟩ := @packError_fault s msg (by omega)
    exact ⟨_, s', hfault, hconn⟩

end RPCProvider

end MbDaemon
