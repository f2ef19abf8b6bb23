import MbDaemon.RPC.Transfer

/-!
# Streams of frames

Every byte stream is a sequence of complete frames and a rest that is not one. `frames` lists them;
a session serves those before the first error frame (`requests`), and `afterError` is what it leaves
unread.
-/

namespace MbDaemon

open RPCDefs

namespace Frame

theorem parse_length {stream rest : List Byte} {f : Frame} (h : parse stream = some (f, rest)) :
    rest.length < stream.length := by
  rw [parse_some h, List.length_append, length_wire]
  omega

/-- A stream is its first frame and a stream, or has no complete frame at its start. -/
theorem stream_induction {P : List Byte → Prop} (stop : ∀ stream, parse stream = none → P stream)
    (step : ∀ (f : Frame) rest, P rest → P (f.wire ++ rest)) (stream : List Byte) : P stream := by
  induction hn : stream.length using Nat.strong_induction_on generalizing stream with
  | _ n ih =>
    cases hp : parse stream with
    | none => exact stop stream hp
    | some pair =>
      obtain ⟨f, rest⟩ := pair
      have hlt := parse_length hp
      rw [parse_some hp]
      exact step f rest (ih rest.length (by omega) rest rfl)

def frames (stream : List Byte) : List Frame :=
  match _h : parse stream with
  | none => []
  | some (f, rest) => f :: frames rest
termination_by stream.length
decreasing_by exact parse_length _h

/-- What follows the first error frame of a stream. -/
def afterError (stream : List Byte) : List Byte :=
  match _h : parse stream with
  | none => []
  | some (f, rest) => if f.procId = ProcIDs.error then rest else afterError rest
termination_by stream.length
decreasing_by exact parse_length _h

/-- The frames before the first error frame. -/
def requests (stream : List Byte) : List Frame :=
  (frames stream).takeWhile fun f => f.procId ≠ ProcIDs.error

theorem frames_none {stream : List Byte} (h : parse stream = none) : frames stream = [] := by
  unfold frames
  split
  · rfl
  · rename_i h'
    rw [h] at h'
    cases h'

theorem frames_wire (f : Frame) (rest : List Byte) : frames (f.wire ++ rest) = f :: frames rest := by
  rw [frames]
  split
  · rename_i h
    rw [parse_wire] at h
    cases h
  · rename_i h
    rw [parse_wire] at h
    cases h
    rfl

theorem afterError_none {stream : List Byte} (h : parse stream = none) : afterError stream = [] := by
  unfold afterError
  split
  · rfl
  · rename_i h'
    rw [h] at h'
    cases h'

theorem afterError_wire (f : Frame) (rest : List Byte) :
    afterError (f.wire ++ rest) = if f.procId = ProcIDs.error then rest else afterError rest := by
  rw [afterError]
  split
  · rename_i h
    rw [parse_wire] at h
    cases h
  · rename_i h
    rw [parse_wire] at h
    cases h
    rfl

theorem requests_none {stream : List Byte} (h : parse stream = none) : requests stream = [] := by
  unfold requests
  rw [frames_none h]
  rfl

theorem requests_error {f : Frame} (h : f.procId = ProcIDs.error) (rest : List Byte) :
    requests (f.wire ++ rest) = [] := by
  simp [requests, frames_wire, h]

theorem requests_wire {f : Frame} (h : f.procId ≠ ProcIDs.error) (rest : List Byte) :
    requests (f.wire ++ rest) = f :: requests rest := by
  simp [requests, frames_wire, h]

/-- A stream is its first request and a stream, or has no request. -/
theorem request_induction {P : List Byte → Prop} (last : ∀ stream, requests stream = [] → P stream)
    (step : ∀ (f : Frame) rest, f.procId ≠ ProcIDs.error → P rest → P (f.wire ++ rest))
    (stream : List Byte) : P stream := by
  induction stream using stream_induction with
  | stop stream hnone => exact last stream (requests_none hnone)
  | step f rest ih =>
    by_cases hid : f.procId = ProcIDs.error
    · exact last _ (requests_error hid rest)
    · exact step f rest hid ih

end Frame

end MbDaemon
