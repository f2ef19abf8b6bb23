import MbDaemon.DaemonTools

/-!
# Reports that are cut short

A child that dies leaves the end of the pipe behind what it has written, and `read()` then returns 0
for ever. `ReadToBuf` adds the 0 to its total and goes round again, so that `ReadResult` ends on the
complete reports and on no other bytes (`ends_iff`). `parse` says what the bytes stand for.
-/

namespace MbDaemon

namespace DaemonTools

/-- What the bytes of a pipe report: `ACK`, an error with its text, or nothing as they are cut short. -/
def parse : List Byte → Option LaunchResult
  | [] => none
  | b :: bytes =>
    if b = ACK then some { Ok := true, Msg := [] }
    else
      match bytes with
      | [] => none
      | size :: rest =>
        if size.toNat ≤ rest.length then
          some { Ok := false, Msg := (rest.take size.toNat).takeWhile (· ≠ 0) }
        else none

/-- The bytes begin with a whole report. -/
inductive Complete : List Byte → Prop where
  | ack (rest : List Byte) : Complete (ACK :: rest)
  | error {b size : Byte} {payload : List Byte} (rest : List Byte) (nack : b ≠ ACK)
      (whole : payload.length = size.toNat) : Complete (b :: size :: (payload ++ rest))

/-- A run of `ReadResult` that ends as the bytes ask for: with what they report, or in an exception
where they are cut short. -/
def Answers (bytes : List Byte) : EStateM.Result Stop DaemonTools LaunchResult → Prop
  | .ok result _ => parse bytes = some result
  | .error (.thrown _) _ => parse bytes = none
  | .error _ _ => False

/-- `ReadResult` ends on the bytes, in whatever pieces they come before the end of the file. -/
def Ends (bytes : List Byte) : Prop :=
  ∀ launcher : DaemonTools, launcher.fd.inbound = bytes → launcher.fd.recvEnd = .closed →
    ∃ n, ∀ fuel, n ≤ fuel → Answers bytes (readResult fuel launcher)

/-! ## Waiting for bytes that do not come -/

theorem readLoop_closed {size total fuel : Nat} {s : DaemonTools} (hlt : total < size)
    (hin : s.fd.inbound = []) (hend : s.fd.recvEnd = .closed) :
    readLoop size (fuel + 1) total s = readLoop size fuel total s := by
  have hrecv : s.fd.recv (size - total) = (.error .closed, s.fd) := by
    unfold Conn.recv
    rw [if_pos hin, hend]
  simp only [readLoop, if_pos hlt, bind, EStateM.bind, get, getThe, MonadStateOf.get, EStateM.get,
    hrecv]

/-- A read loop that wants more bytes than there are outlasts any fuel. -/
theorem readLoop_short (size fuel : Nat) : ∀ (total : Nat) (s : DaemonTools), size ≤ capacity →
    total + s.fd.inbound.length < size → s.fd.recvEnd = .closed →
    ∃ s', readLoop size fuel total s = .error .outOfFuel s' := by
  induction fuel with
  | zero => exact fun total s _ _ _ => ⟨s, rfl⟩
  | succ fuel ih =>
    intro total s hsize hshort hend
    by_cases hin : s.fd.inbound = []
    · rw [readLoop_closed (by omega) hin hend]
      exact ih total s hsize hshort hend
    · obtain ⟨ret, -, hle, hlen, hstep⟩ :=
        @readLoop_step size total fuel s (by omega) hsize hin
      have hrest : (s.received total ret).fd.inbound.length = s.fd.inbound.length - ret := by
        simp [received]
      rw [hstep]
      exact ih (total + ret) (s.received total ret) hsize (by omega) hend

theorem readToBuf_short {fuel n : Nat} {s : DaemonTools} (hn : n ≤ capacity)
    (hshort : s.fd.inbound.length < n) (hend : s.fd.recvEnd = .closed) :
    ∃ s', readToBuf fuel n s = .error .outOfFuel s' :=
  readLoop_short n fuel 0 s hn (by omega) hend

/-! ## The report -/

theorem parse_ack (rest : List Byte) : parse (ACK :: rest) = some { Ok := true, Msg := [] } := by
  simp [parse]

theorem parse_error {b size : Byte} {payload : List Byte} (rest : List Byte) (nack : b ≠ ACK)
    (whole : payload.length = size.toNat) :
    parse (b :: size :: (payload ++ rest)) =
      some { Ok := false, Msg := payload.takeWhile (· ≠ 0) } := by
  have hle : size.toNat ≤ (payload ++ rest).length := by rw [List.length_append]; omega
  have htake : (payload ++ rest).take size.toNat = payload := by rw [← whole, List.take_left]
  simp only [parse, if_neg nack, if_pos hle, htake]

theorem Complete.parse_some {bytes : List Byte} (h : Complete bytes) :
    ∃ result, parse bytes = some result := by
  cases h with
  | ack rest => exact ⟨_, parse_ack rest⟩
  | error rest nack whole => exact ⟨_, parse_error rest nack whole⟩

/-- Bytes that are no whole report stop in front of the first byte, of the size, or in the text. -/
theorem incomplete_cases {bytes : List Byte} (h : ¬ Complete bytes) :
    bytes = [] ∨ (∃ b, b ≠ ACK ∧ bytes = [b]) ∨
      ∃ b size payload, b ≠ ACK ∧ payload.length < size.toNat ∧ bytes = b :: size :: payload := by
  match bytes with
  | [] => exact .inl rfl
  | b :: rest =>
    have hnack : b ≠ ACK := by
      rintro rfl
      exact h (.ack rest)
    match rest with
    | [] => exact .inr (.inl ⟨b, hnack, rfl⟩)
    | size :: payload =>
      refine .inr (.inr ⟨b, size, payload, hnack, ?_, rfl⟩)
      by_contra hle
      have hwhole : (payload.take size.toNat).length = size.toNat := by
        rw [List.length_take]
        omega
      rw [← List.take_append_drop size.toNat payload] at h
      exact h (.error _ hnack hwhole)

theorem readToBuf_one {fuel : Nat} {s : DaemonTools} {b : Byte} {rest : List Byte} (hf : 1 < fuel)
    (hin : s.fd.inbound = b :: rest) :
    ∃ s', readToBuf fuel 1 s = .ok () s' ∧ s'.buffer 0 = b ∧ s'.fd.inbound = rest ∧
      s'.fd.recvEnd = s.fd.recvEnd := by
  refine ⟨s.received 0 1, readToBuf_ok hf (by decide) (by simp [hin]), ?_, ?_, rfl⟩
  · simp [received, hin, Memory.store]
  · simp [received, hin]

theorem readResult_ack {fuel : Nat} {s : DaemonTools} {rest : List Byte} (hf : 1 < fuel)
    (hin : s.fd.inbound = ACK :: rest) :
    ∃ s', readResult fuel s = .ok { Ok := true, Msg := [] } s' := by
  obtain ⟨s', hread, hbyte, -, -⟩ := readToBuf_one hf hin
  refine ⟨s', ?_⟩
  unfold readResult
  simp only [bind, EStateM.bind, hread, get, getThe, MonadStateOf.get, EStateM.get, hbyte, ne_eq,
    not_true_eq_false, if_false, pure, EStateM.pure]

/-- **Bytes that are cut short keep `ReadResult` in one of its loops**, whatever the fuel. -/
theorem readResult_stuck {s : DaemonTools} {fuel : Nat} (hf : 1 < fuel)
    (hend : s.fd.recvEnd = .closed) (h : ¬ Complete s.fd.inbound) :
    ∃ s', readResult fuel s = .error .outOfFuel s' := by
  have hcap : capacity = 259 := rfl
  rcases incomplete_cases h with hin | ⟨b, hnack, hin⟩ | ⟨b, size, payload, hnack, hshort, hin⟩
  · obtain ⟨s', hread⟩ := @readToBuf_short fuel 1 s (by omega) (by simp [hin]) hend
    refine ⟨s', ?_⟩
    unfold readResult
    simp only [bind, EStateM.bind, hread]
  · obtain ⟨first, hfirst, hbyte, hrest, hend'⟩ := readToBuf_one hf hin
    obtain ⟨s', hread⟩ :=
      @readToBuf_short fuel 1 first (by omega) (by simp [hrest]) (hend'.trans hend)
    refine ⟨s', ?_⟩
    unfold readResult
    simp only [bind, EStateM.bind, get, getThe, MonadStateOf.get, EStateM.get, hfirst, hbyte, hnack,
      ne_eq, not_false_eq_true, if_true, hread]
  · obtain ⟨first, hfirst, hbyte, hrest, hend'⟩ := readToBuf_one hf hin
    obtain ⟨second, hsecond, hsize, hrest', hend''⟩ := readToBuf_one hf hrest
    have hlt := size.toNat_lt
    obtain ⟨s', hread⟩ := @readToBuf_short fuel size.toNat second (by omega)
      (by rw [hrest']; exact hshort) (hend''.trans (hend'.trans hend))
    refine ⟨s', ?_⟩
    unfold readResult
    simp only [bind, EStateM.bind, get, getThe, MonadStateOf.get, EStateM.get, hfirst, hbyte, hnack,
      ne_eq, not_false_eq_true, if_true, hsecond, hsize, hread]

theorem ends_of_complete {bytes : List Byte} (h : Complete bytes) : Ends bytes := by
  intro launcher hin _
  refine ⟨256, fun fuel hfuel => ?_⟩
  cases h with
  | ack rest =>
    obtain ⟨s', hread⟩ := @readResult_ack fuel launcher rest (by omega) hin
    rw [hread]
    exact parse_ack rest
  | error rest nack whole =>
    obtain ⟨s', hread, -⟩ := readResult_report nack whole hfuel hin
    rw [hread]
    exact parse_error rest nack whole

/-- **`ReadResult` ends** iff the child has written `ACK` or a whole error. -/
theorem ends_iff (bytes : List Byte) : Ends bytes ↔ Complete bytes := by
  refine ⟨fun h => ?_, ends_of_complete⟩
  by_contra hshort
  let launcher : DaemonTools := { fresh with fd := { fresh.fd with inbound := bytes } }
  obtain ⟨n, hanswers⟩ := h launcher rfl rfl
  obtain ⟨s', hstuck⟩ := @readResult_stuck launcher (max n 2) (by omega) rfl hshort
  have hanswer := hanswers (max n 2) (Nat.le_max_left n 2)
  rw [hstuck] at hanswer
  exact hanswer

/-- A child that dies before it reports, and one that dies in the middle of its error. -/
theorem cut_short_never_ends : ¬ Ends [] ∧ ¬ Ends [~~~ACK, 5, 98, 105, 110] := by
  refine ⟨fun h => ?_, fun h => ?_⟩
  · cases (ends_iff []).1 h
  · obtain ⟨result, hparse⟩ := ((ends_iff _).1 h).parse_some
    have hnone : parse [~~~ACK, 5, 98, 105, 110] = none := by decide
    rw [hnone] at hparse
    cases hparse

end DaemonTools

end MbDaemon
