import MbDaemon.RPC.Transfer

/-!
# The report of the daemon

Launching the daemon forks a child that reports through a pipe whether it came up: the byte `ACK`,
or another byte, a length and an error text (`DaemonTools.hpp`, `DaemonTools.cpp`). Both ends move
the bytes through one buffer. `PutError` limits the length that it stores in a byte, but not what it
copies and writes, so that the launcher gets the text back exactly when its length fits a byte
(`reports_iff`). A pipe end is a `Conn`; `read()` returns 0 where `recv()` finds it closed.
-/

namespace MbDaemon

structure DaemonTools where
  fd : Conn
  buffer : Nat → Byte

namespace DaemonTools

def BufferSize : Nat := 256
def BufferExtraSize : Nat := 3

/-- The size of `Buffer`. -/
def capacity : Nat := BufferSize + BufferExtraSize

def ACK : Byte := 121

structure LaunchResult where
  Ok : Bool
  Msg : Text
  deriving DecidableEq

abbrev Tools := EStateM Stop DaemonTools

def throwErrno {α : Type} (func what : String) (e : Errno) : Tools α :=
  throw (.thrown (.std (fexcept func (errnoWhat (ascii what) e))))

def put (ptr : Nat) (bs : List Byte) : Tools Unit := fun s =>
  if ptr + bs.length ≤ capacity then .ok () { s with buffer := Memory.store s.buffer ptr bs }
  else .error (.fault .outOfBounds) s

/-- The loop of `ReadToBuf`. -/
def readLoop (size : Nat) : Nat → Nat → Tools Unit
  | 0, _ => throw .outOfFuel
  | fuel + 1, total => do
    if total < size then
      let s ← get
      match s.fd.recv (size - total) with
      | (.ok bs, fd) =>
        set { s with fd := fd }
        put total bs
        readLoop size fuel (total + bs.length)
      -- `read()` returns 0 at the end of the file
      | (.error .closed, _) => readLoop size fuel total
      | (.error (.failed e), _) => throwErrno "ReadToBuf" "read()" e
      | (.error .cancelled, _) => throw (.thrown .forcedUnwind)
    else pure ()

/-- The loop of `WriteFromBuf`, which hands the rest of the bytes to `write()`. -/
def writeLoop (size : Nat) : Nat → Nat → Tools Unit
  | 0, _ => throw .outOfFuel
  | fuel + 1, total => do
    if total < size then
      let s ← get
      if capacity < size then throw (.fault .outOfBounds)
      match s.fd.send (Memory.load s.buffer total (size - total)) with
      | (.ok ret, fd) =>
        set { s with fd := fd }
        writeLoop size fuel (total + ret)
      | (.error e, _) => throwErrno "WriteFromBuf" "write()" e
    else pure ()

/-- `ReadToBuf` may go round for ever; `fuel` bounds its iterations. -/
def readToBuf (fuel size : Nat) : Tools Unit := readLoop size fuel 0

def writeFromBuf (size : Nat) : Tools Unit := writeLoop size (size + 1) 0

def putError (msg : Text) : Tools Unit := do
  let msgSz := msg.length
  put 0 [~~~ACK]
  put 1 [UInt8.ofNat (if msgSz < BufferSize then msgSz else BufferSize)]
  put 2 msg
  writeFromBuf (msgSz + 2)

def putAck : Tools Unit := do
  put 0 [ACK]
  writeFromBuf 1

/-- The C string at the start of the buffer. -/
def cString (m : Nat → Byte) : Text := (Memory.load m 0 capacity).takeWhile (· ≠ 0)

def readResult (fuel : Nat) : Tools LaunchResult := do
  readToBuf fuel 1
  let s ← get
  if s.buffer 0 ≠ ACK then
    readToBuf fuel 1
    let s ← get
    let msgSz := (s.buffer 0).toNat
    readToBuf fuel msgSz
    put msgSz [0]
    let s ← get
    pure { Ok := false, Msg := cString s.buffer }
  else pure { Ok := true, Msg := [] }

/-! ## The loops -/

theorem put_ok {ptr : Nat} {bs : List Byte} {s : DaemonTools} (h : ptr + bs.length ≤ capacity) :
    put ptr bs s = .ok () { s with buffer := Memory.store s.buffer ptr bs } := if_pos h

theorem put_error {ptr : Nat} {bs : List Byte} {s : DaemonTools} (h : capacity < ptr + bs.length) :
    put ptr bs s = .error (.fault .outOfBounds) s := if_neg (by omega)

/-- The end after `n` bytes have come in behind the `total` there were. -/
def received (s : DaemonTools) (total n : Nat) : DaemonTools :=
  { fd := { s.fd with inbound := s.fd.inbound.drop n },
    buffer := Memory.store s.buffer total (s.fd.inbound.take n) }

theorem received_received (s : DaemonTools) {total n k : Nat} (hn : n ≤ s.fd.inbound.length) :
    (s.received total n).received (total + n) k = s.received total (n + k) := by
  simp only [received, List.drop_drop, Memory.store_take_add _ _ hn]

theorem readLoop_step {size total fuel : Nat} {s : DaemonTools} (hlt : total < size)
    (hsize : size ≤ capacity) (hin : s.fd.inbound ≠ []) :
    ∃ ret, 0 < ret ∧ ret ≤ size - total ∧ ret ≤ s.fd.inbound.length ∧
      readLoop size (fuel + 1) total s = readLoop size fuel (total + ret) (s.received total ret) := by
  obtain ⟨ret, hpos, hle, hlen, hrecv⟩ :=
    RPCProvider.recv_some (n := size - total) (by omega) hin
  have htake : (s.fd.inbound.take ret).length = ret := by simp [hlen]
  refine ⟨ret, hpos, hle, hlen, ?_⟩
  simp only [readLoop, if_pos hlt, bind, EStateM.bind, get, getThe, MonadStateOf.get, EStateM.get,
    hrecv, set, EStateM.set]
  rw [put_ok (by omega)]
  simp only [htake]
  rfl

/-- The read loop takes its bytes, however the reads are split. -/
theorem readLoop_ok (size fuel : Nat) : ∀ (total : Nat) (s : DaemonTools), total ≤ size →
    size ≤ capacity → size - total < fuel → size - total ≤ s.fd.inbound.length →
    readLoop size fuel total s = .ok () (s.received total (size - total)) := by
  induction fuel with
  | zero => intro total s _ _ hf; omega
  | succ fuel ih =>
    intro total s ht hsize hf hin
    by_cases hlt : total < size
    · have hne : s.fd.inbound ≠ [] := fun h => by rw [h, List.length_nil] at hin; omega
      obtain ⟨ret, hpos, hle, hlen, hstep⟩ := @readLoop_step size total fuel s hlt hsize hne
      have hrest : (s.received total ret).fd.inbound.length = s.fd.inbound.length - ret := by
        simp [received]
      rw [hstep, ih _ _ (by omega) hsize (by omega) (by omega), received_received s hlen,
        show ret + (size - (total + ret)) = size - total by omega]
    · have hzero : size - total = 0 := by omega
      rw [hzero]
      simp only [readLoop, if_neg hlt]
      simp [received, pure, EStateM.pure]

theorem readToBuf_ok {fuel n : Nat} {s : DaemonTools} (hf : n < fuel) (hn : n ≤ capacity)
    (h : n ≤ s.fd.inbound.length) : readToBuf fuel n s = .ok () (s.received 0 n) := by
  unfold readToBuf
  rw [readLoop_ok n fuel 0 s (Nat.zero_le _) hn (by omega) (by omega), Nat.sub_zero]

/-- The end after `n` bytes of the buffer have gone out, from `total` on. -/
def sent (s : DaemonTools) (total n : Nat) : DaemonTools :=
  { s with fd := { s.fd with outbound := s.fd.outbound ++ Memory.load s.buffer total n } }

theorem sent_sent (s : DaemonTools) (total n k : Nat) :
    (s.sent total n).sent (total + n) k = s.sent total (n + k) := by
  simp only [sent, Memory.load_add, List.append_assoc]

theorem writeLoop_step {size total fuel : Nat} {s : DaemonTools} (hlt : total < size)
    (hsize : size ≤ capacity) (hlimit : s.fd.sendLimit = none) :
    ∃ ret, 0 < ret ∧ ret ≤ size - total ∧
      writeLoop size (fuel + 1) total s = writeLoop size fuel (total + ret) (s.sent total ret) := by
  have hlen : (Memory.load s.buffer total (size - total)).length = size - total :=
    Memory.length_load _ _ _
  have hroom : s.fd.room (size - total) = size - total := by
    unfold Conn.room
    rw [hlimit]
  obtain ⟨ret, hpos, hle, hsend⟩ :=
    @RPCProvider.send_pos s.fd (Memory.load s.buffer total (size - total))
      (by rw [hlen, hroom]; omega)
  rw [hlen, hroom] at hle
  rw [Memory.take_load (by omega)] at hsend
  refine ⟨ret, hpos, by omega, ?_⟩
  have hfits : ¬ capacity < size := by omega
  simp only [writeLoop, if_pos hlt, if_neg hfits, bind, EStateM.bind, get, getThe,
    MonadStateOf.get, EStateM.get, hsend, set, EStateM.set, pure]
  rfl

/-- The write loop gives its bytes, however the writes are split. -/
theorem writeLoop_ok (size fuel : Nat) : ∀ (total : Nat) (s : DaemonTools), total ≤ size →
    size ≤ capacity → size - total < fuel → s.fd.sendLimit = none →
    writeLoop size fuel total s = .ok () (s.sent total (size - total)) := by
  induction fuel with
  | zero => intro total s _ _ hf; omega
  | succ fuel ih =>
    intro total s ht hsize hf hlimit
    by_cases hlt : total < size
    · obtain ⟨ret, hpos, hle, hstep⟩ := @writeLoop_step size total fuel s hlt hsize hlimit
      rw [hstep, ih (total + ret) (s.sent total ret) (by omega) hsize (by omega) hlimit, sent_sent,
        show ret + (size - (total + ret)) = size - total by omega]
    · have hzero : size - total = 0 := by omega
      rw [hzero]
      simp only [writeLoop, if_neg hlt]
      simp [sent, pure, EStateM.pure]

theorem writeFromBuf_ok {n : Nat} {s : DaemonTools} (hn : n ≤ capacity)
    (hlimit : s.fd.sendLimit = none) : writeFromBuf n s = .ok () (s.sent 0 n) :=
  writeLoop_ok n (n + 1) 0 s (Nat.zero_le _) hn (by omega) hlimit

/-! ## The report -/

/-- What `PutError` stores as the length. -/
def sizeByte (msg : Text) : Byte :=
  UInt8.ofNat (if msg.length < BufferSize then msg.length else BufferSize)

def report (msg : Text) : List Byte := ~~~ACK :: sizeByte msg :: msg

theorem toNat_sizeByte (msg : Text) :
    (sizeByte msg).toNat = if msg.length ≤ 255 then msg.length else 0 := by
  unfold sizeByte BufferSize
  by_cases h : msg.length ≤ 255
  · rw [if_pos (by omega), if_pos h, UInt8.toNat_ofNat']
    omega
  · rw [if_neg (by omega), if_neg h]
    rfl

def reported (s : DaemonTools) (msg : Text) : DaemonTools :=
  { s with buffer := Memory.store s.buffer 0 (report msg) }

/-- A text that fits the buffer behind its header is written whole, with the limited length. -/
theorem putError_ok {msg : Text} {s : DaemonTools} (hlen : msg.length + 2 ≤ capacity)
    (hlimit : s.fd.sendLimit = none) :
    ∃ s', putError msg s = .ok () s' ∧ s'.fd.outbound = s.fd.outbound ++ report msg := by
  have hstore : Memory.store (Memory.store (Memory.store s.buffer 0 [~~~ACK]) 1 [sizeByte msg]) 2
      msg = Memory.store s.buffer 0 (report msg) := by
    have hhead := Memory.store_append s.buffer 0 [~~~ACK] [sizeByte msg]
    have hall := Memory.store_append s.buffer 0 [~~~ACK, sizeByte msg] msg
    simp only [List.cons_append, List.nil_append, List.length_cons, List.length_nil] at hhead hall
    rw [← hhead]
    exact hall.symm
  have hsmall : 2 ≤ capacity := by decide
  have hwrite := @writeFromBuf_ok (msg.length + 2) (s.reported msg) hlen hlimit
  refine ⟨(s.reported msg).sent 0 (msg.length + 2), ?_, ?_⟩
  · unfold putError
    simp only [bind, EStateM.bind]
    rw [put_ok (by simp only [List.length_cons, List.length_nil]; omega)]
    simp only
    rw [put_ok (by simp only [List.length_cons, List.length_nil]; omega)]
    simp only
    rw [put_ok (by omega)]
    simp only
    have hbuffer : Memory.store (Memory.store (Memory.store s.buffer 0 [~~~ACK]) 1
        [UInt8.ofNat (if msg.length < BufferSize then msg.length else BufferSize)]) 2 msg =
        Memory.store s.buffer 0 (report msg) := hstore
    rw [hbuffer]
    exact hwrite
  · have hload : Memory.load (s.reported msg).buffer 0 (msg.length + 2) = report msg :=
      Memory.load_store s.buffer 0 (report msg)
    show s.fd.outbound ++ Memory.load (s.reported msg).buffer 0 (msg.length + 2) = _
    rw [hload]

/-- A longer text runs over the end of the buffer. -/
theorem putError_overrun {msg : Text} (hlen : capacity < msg.length + 2) (s : DaemonTools) :
    ∃ s', putError msg s = .error (.fault .outOfBounds) s' := by
  unfold putError
  simp only [bind, EStateM.bind]
  rw [put_ok (by decide)]
  simp only
  rw [put_ok (by simp [capacity, BufferSize, BufferExtraSize])]
  simp only
  rw [put_error (by omega)]
  exact ⟨_, rfl⟩

theorem cString_store (m : Nat → Byte) {payload : List Byte} (h : payload.length < capacity) :
    cString (Memory.store (Memory.store m 0 payload) payload.length [0]) =
      payload.takeWhile (· ≠ 0) :=
  Memory.takeWhile_terminated m 0 h

/-- **`ReadResult` takes one report**: the length, so many bytes, and of these the text up to a
`NUL`. -/
theorem readResult_report {fuel : Nat} {r : DaemonTools} {b0 b1 : Byte} {payload rest : List Byte}
    (hack : b0 ≠ ACK) (hlen : payload.length = b1.toNat) (hfuel : 256 ≤ fuel)
    (h : r.fd.inbound = b0 :: b1 :: (payload ++ rest)) :
    ∃ r', readResult fuel r = .ok { Ok := false, Msg := payload.takeWhile (· ≠ 0) } r' ∧
      r'.fd.inbound = rest := by
  have hb1 := b1.toNat_lt
  have hcap : capacity = 259 := rfl
  -- the end after each of the three reads
  let first : DaemonTools :=
    { fd := { r.fd with inbound := b1 :: (payload ++ rest) },
      buffer := Memory.store r.buffer 0 [b0] }
  let second : DaemonTools :=
    { fd := { r.fd with inbound := payload ++ rest }, buffer := Memory.store first.buffer 0 [b1] }
  let third : DaemonTools :=
    { fd := { r.fd with inbound := rest }, buffer := Memory.store second.buffer 0 payload }
  have hfirst : readToBuf fuel 1 r = .ok () first := by
    rw [readToBuf_ok (by omega) (by omega) (by simp [h])]
    simp [received, h, first]
  have hsecond : readToBuf fuel 1 first = .ok () second := by
    rw [readToBuf_ok (by omega) (by omega) (by simp [first])]
    simp [received, first, second]
  have hthird : readToBuf fuel b1.toNat second = .ok () third := by
    rw [readToBuf_ok (by omega) (by omega) (by simp [second, hlen])]
    simp [received, second, third, ← hlen]
  have hb0 : first.buffer 0 = b0 := rfl
  have hsize : second.buffer 0 = b1 := rfl
  have hput := @put_ok b1.toNat [0] third (by rw [hcap]; simp only [List.length_singleton]; omega)
  refine ⟨{ third with buffer := Memory.store third.buffer b1.toNat [0] }, ?_, rfl⟩
  unfold readResult
  simp only [bind, EStateM.bind, get, getThe, MonadStateOf.get, EStateM.get, hfirst, hb0, hack,
    ne_eq, not_false_eq_true, if_true, hsecond, hsize, hthird, hput]
  have hmsg := @cString_store second.buffer payload (by omega)
  rw [hlen] at hmsg
  rw [hmsg]
  rfl

/-! ## What comes back -/

/-- The text comes back: `PutError` stays inside the buffer and writes, from any child and in any
pieces, the bytes of one report, which `ReadResult` takes off the pipe in any pieces and turns into
a failure with the text or its first 255 bytes. -/
def Reports (msg : Text) : Prop :=
  ∀ child : DaemonTools, child.fd.sendLimit = none →
    ∃ child' wire, putError msg child = .ok () child' ∧
      child'.fd.outbound = child.fd.outbound ++ wire ∧
      ∀ (launcher : DaemonTools) (rest : List Byte), launcher.fd.inbound = wire ++ rest →
        ∃ n, ∀ fuel, n ≤ fuel → ∃ launcher',
          readResult fuel launcher = .ok { Ok := false, Msg := msg.take 255 } launcher' ∧
            launcher'.fd.inbound = rest

theorem not_ack : (~~~ACK : Byte) ≠ ACK := by decide

theorem takeWhile_text {msg : Text} (h : 0 ∉ msg) : msg.takeWhile (· ≠ 0) = msg := by
  rw [List.takeWhile_eq_self_iff]
  intro b hb
  simp only [decide_eq_true_eq]
  exact fun h0 => h (h0 ▸ hb)

theorem reports_of_short {msg : Text} (hnul : 0 ∉ msg) (h : msg.length ≤ 255) : Reports msg := by
  intro child hlimit
  obtain ⟨child', hrun, hout⟩ := @putError_ok msg child
    (by simp only [capacity, BufferSize, BufferExtraSize]; omega) hlimit
  refine ⟨child', report msg, hrun, hout, fun launcher rest hin => ?_⟩
  have hlen : msg.length = (sizeByte msg).toNat := by rw [toNat_sizeByte, if_pos h]
  refine ⟨256, fun fuel hfuel => ?_⟩
  obtain ⟨launcher', hread, hrest⟩ := readResult_report not_ack hlen hfuel hin
  refine ⟨launcher', ?_, hrest⟩
  rw [hread, takeWhile_text hnul, List.take_of_length_le h]

def fresh : DaemonTools where
  fd :=
    { inbound := [], recvEnd := .closed, recvSplit := fun _ => 0, outbound := [], sendLimit := none,
      sendErrno := ⟨32, []⟩, sendSplit := fun _ => 0 }
  buffer := fun _ => 0

/-- A longer text does not come back: the length byte is 0, or the copy leaves the buffer. -/
theorem Reports.short {msg : Text} (h : Reports msg) : msg.length ≤ 255 := by
  by_contra hlong
  obtain ⟨child', wire, hrun, hout, hread⟩ := h fresh rfl
  by_cases hcap : msg.length + 2 ≤ capacity
  · obtain ⟨child'', hrun', hout'⟩ := @putError_ok msg fresh hcap rfl
    rw [hrun'] at hrun
    cases hrun
    rw [hout'] at hout
    have hwire : wire = report msg := (List.append_cancel_left hout).symm
    subst hwire
    let launcher : DaemonTools := { fresh with fd := { fresh.fd with inbound := report msg } }
    obtain ⟨n, hreturns⟩ := hread launcher [] (List.append_nil _).symm
    obtain ⟨launcher', hresult, -⟩ := hreturns (max n 256) (Nat.le_max_left n 256)
    have hzero : ([] : Text).length = (sizeByte msg).toNat := by
      rw [toNat_sizeByte, if_neg hlong]
      rfl
    obtain ⟨launcher'', hempty, -⟩ := readResult_report not_ack hzero (Nat.le_max_right n 256)
      (show launcher.fd.inbound = ~~~ACK :: sizeByte msg :: ([] ++ msg) from rfl)
    rw [hempty] at hresult
    have hmsg : [] = msg.take 255 := by
      injection hresult with hvalue
      exact congrArg LaunchResult.Msg hvalue
    have := congrArg List.length hmsg
    rw [List.length_take, List.length_nil] at this
    omega
  · obtain ⟨s', hfault⟩ := @putError_overrun msg (by omega) fresh
    rw [hfault] at hrun
    cases hrun

/-- **A report comes back** iff its length fits the byte that `PutError` stores it in. -/
theorem reports_iff {msg : Text} (hnul : 0 ∉ msg) : Reports msg ↔ msg.length ≤ 255 :=
  ⟨Reports.short, reports_of_short hnul⟩

/-- A text of 255 bytes. -/
theorem reports_iff_longest :
    Reports (List.replicate 255 97) ↔ (List.replicate 255 (97 : Byte)).length ≤ 255 :=
  reports_iff fun h => absurd (List.eq_of_mem_replicate h) (by decide)

/-- A text of 256 bytes comes back empty, and one of 258 leaves the buffer. -/
theorem longer_lost :
    ¬ Reports (List.replicate 256 97) ∧
      ∃ s', putError (List.replicate 258 97) fresh = .error (.fault .outOfBounds) s' := by
  refine ⟨fun h => ?_, putError_overrun ?_ fresh⟩
  · have := h.short
    rw [List.length_replicate] at this
    omega
  · rw [List.length_replicate]
    decide

end DaemonTools

end MbDaemon
