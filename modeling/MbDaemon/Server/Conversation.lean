import MbDaemon.Server.Protocol

/-!
# What a session says

A session that keeps to the protocol is at every moment a row of whole exchanges and a beginning of
the next (`conversation`): each request is handed to its handler once, with its own payload, and
answered with what came of it before anything of the next is read. The phase says where the exchange
in hand stands (`Phase.Explains`), and a call goes on with it or makes it whole (`explains_step`).
-/

namespace MbDaemon

open RPCDefs Interaction

namespace Calls

/-- A call of a handler and what it came to. -/
structure Handled where
  proc : Proc
  data : Nat → Byte
  outcome : Server.Outcome proc.Responce

def receivedOf : Event → List Byte
  | ⟨.recv _, .ok bs⟩ => bs.val
  | _ => []

def handledOf : Event → Option Handled
  | ⟨.handle p data, outcome⟩ => some ⟨p, data, outcome⟩
  | _ => none

def writtenOf : Event → List Byte
  | ⟨.send bytes, .ok ret⟩ => bytes.take ret.val
  | _ => []

def received (es : List Event) : List Byte := es.flatMap receivedOf

def handled (es : List Event) : List Handled := es.filterMap handledOf

theorem written_sends (es : List Event) : written (sends es) = es.flatMap writtenOf := by
  induction es with
  | nil => rfl
  | cons e es ih =>
    rw [List.flatMap_cons, ← ih]
    obtain ⟨q, answer⟩ := e
    cases q with
    | send bytes => cases answer <;> simp [sends, sendOf, written, writtenOf]
    | recv size => rfl
    | handle p data => rfl
    | doShutdown => rfl

/-- `bytes` answer the request `f`, by what its handler came to; the last index says whether the
session goes on. -/
inductive Answers (f : Frame) : Option Handled → List Byte → Bool → Prop where
  | handled (h : Handled) (known : Proc.ofId f.procId = some h.proc)
      (payload : Memory.load h.data 0 f.payload.length = f.payload) :
      Answers f (some h) ((replies h.proc h.outcome).1.flatMap Frame.wire)
        (replies h.proc h.outcome).2
  | unknown {bytes : List Byte} (noError : f.procId ≠ Server.errCode)
      (unknown : Proc.ofId f.procId = none) (echo : Echo f bytes) : Answers f none bytes true

/-- A request with its answer, after which the session goes on. -/
structure Exchange where
  frame : Frame
  handled : Option Handled
  answer : List Byte
  answers : Answers frame handled answer true

/-- An exchange that has begun, by what has come, been handled and been written of it: nothing is
handled or written before the request is whole, and what is written begins its answer. -/
inductive Begun : List Byte → List Handled → List Byte → Prop where
  | reading {got : List Byte} {f : Frame} (h : got <+: f.wire) : Begun got [] []
  | answering {f : Frame} {handled : Option Handled} {answer out : List Byte} {goesOn : Bool}
      (h : Answers f handled answer goesOn) (hout : out <+: answer) : Begun f.wire handled.toList out

/-- Where the exchange stands in each phase. -/
def Phase.Explains : Phase → List Byte → List Handled → List Byte → Prop
  | .idle, got, hs, out => got = [] ∧ hs = [] ∧ out = []
  | .taking bytes, got, hs, out => got = bytes ∧ hs = [] ∧ out = [] ∧ ∃ f : Frame, bytes <+: f.wire
  | .called f p, got, hs, out =>
    got = f.wire ∧ hs = [] ∧ out = [] ∧ Proc.ofId f.procId = some p
  | .echoing f, got, hs, out =>
    got = f.wire ∧ hs = [] ∧ out = [] ∧ f.procId ≠ Server.errCode ∧ Proc.ofId f.procId = none
  | .giving left queue goesOn, got, hs, out => ∃ (f : Frame) (h : Option Handled) (answer : List Byte),
    got = f.wire ∧ hs = h.toList ∧ Answers f h answer goesOn ∧
      out ++ left ++ queue.flatMap Frame.wire = answer
  | .ended, got, hs, out => Begun got hs out

theorem Phase.Explains.begun {ph : Phase} {got : List Byte} {hs : List Handled} {out : List Byte}
    (h : ph.Explains got hs out) : Begun got hs out := by
  cases ph with
  | idle =>
    obtain ⟨rfl, rfl, rfl⟩ := h
    exact .reading (f := ⟨0, [], Nat.zero_le _⟩) List.nil_prefix
  | taking bytes =>
    obtain ⟨rfl, rfl, rfl, f, hf⟩ := h
    exact .reading hf
  | called f p =>
    obtain ⟨rfl, rfl, rfl, -⟩ := h
    exact .reading List.prefix_rfl
  | echoing f =>
    obtain ⟨rfl, rfl, rfl, -⟩ := h
    exact .reading List.prefix_rfl
  | giving left queue goesOn =>
    obtain ⟨f, h, answer, rfl, rfl, hanswers, rfl⟩ := h
    exact .answering hanswers ⟨_, (List.append_assoc ..).symm⟩
  | ended => exact h

/-- The bytes of a frame that is not whole yet. -/
theorem prefix_of_parse_none {got : List Byte} (h : Frame.parse got = none) :
    ∃ f : Frame, got <+: f.wire := by
  match got with
  | [] => exact ⟨⟨0, [], Nat.zero_le _⟩, List.nil_prefix⟩
  | [procId] => exact ⟨⟨procId, [], Nat.zero_le _⟩, ⟨[0], rfl⟩⟩
  | procId :: size :: payload =>
    rcases Frame.parse_none h with hlen | ⟨_, _, _, hcons, hlt⟩
    · simp at hlen
    · cases hcons
      have hsize := size.toNat_lt
      have hlen : (payload ++ List.replicate (size.toNat - payload.length) 0).length = size.toNat := by
        simp; omega
      refine ⟨⟨procId, payload ++ List.replicate (size.toNat - payload.length) 0, by omega⟩,
        List.replicate (size.toNat - payload.length) 0, ?_⟩
      simp only [Frame.wire, Frame.size, hlen, UInt8.ofNat_toNat, List.cons_append]

/-- What is read does not reach beyond the request. -/
theorem wire_of_parse {got bs rest : List Byte} {f : Frame} (hpos : 0 < bs.length)
    (hle : bs.length ≤ lacking got) (h : Frame.parse (got ++ bs) = some (f, rest)) :
    got ++ bs = f.wire := by
  have hsplit := Frame.parse_some h
  have hlen := congrArg List.length hsplit
  simp only [List.length_append, Frame.length_wire] at hlen
  have hrest : rest.length = 0 := by
    match got with
    | [] => simp [lacking] at hle hlen; omega
    | [_] => simp [lacking] at hle hlen; omega
    | _ :: size :: payload =>
      have hsize : size = f.size := by
        simp only [Frame.wire, List.cons_append, List.cons.injEq] at hsplit
        exact hsplit.2.1
      have hpayload := f.toNat_size
      simp only [lacking, hsize] at hle
      simp only [List.length_cons] at hlen
      omega
  rw [hsplit, List.length_eq_zero_iff.1 hrest, List.append_nil]

theorem explains_taken {got bs : List Byte} (hpos : 0 < bs.length) (hle : bs.length ≤ lacking got) :
    (Phase.taken (got ++ bs)).Explains (got ++ bs) [] [] := by
  unfold Phase.taken
  cases hparse : Frame.parse (got ++ bs) with
  | none => exact ⟨rfl, rfl, rfl, prefix_of_parse_none hparse⟩
  | some found =>
    obtain ⟨f, rest⟩ := found
    rw [wire_of_parse hpos hle hparse]
    show (Phase.arrived f).Explains f.wire [] []
    unfold Phase.arrived
    split
    · exact .reading List.prefix_rfl
    · rename_i hne
      cases hp : Proc.ofId f.procId with
      | some p => exact ⟨rfl, rfl, rfl, hp⟩
      | none => exact ⟨rfl, rfl, rfl, hne, hp⟩

/-- An answer of which the queue is left: it goes on, or the exchange is whole. -/
theorem explains_give {f : Frame} {h : Option Handled} {answer out : List Byte} {goesOn : Bool}
    {queue : List Frame} (hanswers : Answers f h answer goesOn)
    (hout : out ++ queue.flatMap Frame.wire = answer) :
    (Phase.give queue goesOn).Explains f.wire h.toList out ∨
      (Phase.give queue goesOn = .idle ∧ ∃ x : Exchange, x.frame = f ∧ x.handled = h ∧ x.answer = out) := by
  cases queue with
  | cons g queue => exact .inl ⟨f, h, answer, rfl, rfl, hanswers, by simpa using hout⟩
  | nil =>
    obtain rfl : out = answer := by simpa using hout
    cases goesOn with
    | true => exact .inr ⟨rfl, ⟨f, h, out, hanswers⟩, rfl, rfl, rfl⟩
    | false => exact .inl (.answering hanswers List.prefix_rfl)

theorem explains_gave {f : Frame} {h : Option Handled} {answer out left : List Byte} {goesOn : Bool}
    {queue : List Frame} (hanswers : Answers f h answer goesOn)
    (hout : out ++ left ++ queue.flatMap Frame.wire = answer) :
    (Phase.gave left queue goesOn).Explains f.wire h.toList out ∨
      (Phase.gave left queue goesOn = .idle ∧
        ∃ x : Exchange, x.frame = f ∧ x.handled = h ∧ x.answer = out) := by
  unfold Phase.gave
  split
  · rename_i hnil
    rw [hnil, List.append_nil] at hout
    exact explains_give hanswers hout
  · exact .inl ⟨f, h, answer, rfl, rfl, hanswers, hout⟩

/-- What `send()` is given is what follows of an answer. -/
theorem answers_of_admits {ph : Phase} {got bytes out : List Byte} {hs : List Handled}
    {queue : List Frame} {goesOn : Bool} (h : ph.Explains got hs out)
    (hadmits : ph.admits bytes = some (queue, goesOn)) :
    ∃ (f : Frame) (x : Option Handled) (answer : List Byte), got = f.wire ∧ hs = x.toList ∧
      Answers f x answer goesOn ∧ out ++ bytes ++ queue.flatMap Frame.wire = answer := by
  cases ph with
  | giving left queue' goesOn' =>
    simp only [Phase.admits, Option.ite_none_right_eq_some] at hadmits
    obtain ⟨rfl, hafter⟩ := hadmits
    cases hafter
    exact h
  | echoing f =>
    simp only [Phase.admits, Option.ite_none_right_eq_some] at hadmits
    obtain ⟨hecho, hafter⟩ := hadmits
    cases hafter
    obtain ⟨rfl, rfl, rfl, hne, hp⟩ := h
    exact ⟨f, none, bytes, rfl, rfl, .unknown hne hp hecho, by simp⟩
  | idle => cases hadmits
  | taking _ => cases hadmits
  | called _ _ => cases hadmits
  | ended => cases hadmits

/-- A call goes on with the exchange, or makes it whole. -/
theorem explains_step {ph ph' : Phase} {e : Event} {got out : List Byte} {hs : List Handled}
    (h : ph.Explains got hs out) (hstep : follow ph e.1 e.2 = some ph') :
    ph'.Explains (got ++ receivedOf e) (hs ++ (handledOf e).toList) (out ++ writtenOf e) ∨
      (ph' = .idle ∧ ∃ x : Exchange, got ++ receivedOf e = x.frame.wire ∧
        hs ++ (handledOf e).toList = x.handled.toList ∧ out ++ writtenOf e = x.answer) := by
  obtain ⟨q, answer⟩ := e
  cases q with
  | doShutdown =>
    cases ph <;> try cases hstep
    obtain ⟨rfl, rfl, rfl⟩ := h
    have hnone : ([] : List Byte) <+: (⟨0, [], Nat.zero_le _⟩ : Frame).wire := List.nil_prefix
    left
    change Bool at answer
    cases answer with
    | true => exact .reading hnone
    | false => exact ⟨rfl, rfl, rfl, _, hnone⟩
  | recv size =>
    cases ph <;> try cases hstep
    rename_i bytes
    have hend := h.begun
    obtain ⟨rfl, rfl, rfl, f, hf⟩ := h
    simp only [follow, Option.ite_none_right_eq_some, Option.some.injEq] at hstep
    obtain ⟨rfl, rfl⟩ := hstep
    left
    cases answer with
    | error e =>
      show Begun (got ++ []) [] []
      rw [List.append_nil]
      exact hend
    | ok bs => exact explains_taken bs.property.1 bs.property.2
  | handle p data =>
    cases ph <;> try cases hstep
    rename_i f p'
    obtain ⟨rfl, rfl, rfl, hp⟩ := h
    simp only [follow, Option.ite_none_right_eq_some, Option.some.injEq] at hstep
    obtain ⟨⟨rfl, hdata⟩, rfl⟩ := hstep
    have hanswers := Answers.handled ⟨p', data, answer⟩ hp hdata
    have hwire : f.wire ++ receivedOf ⟨.handle p' data, answer⟩ = f.wire := List.append_nil _
    rcases explains_give hanswers (List.nil_append _) with hgoes | ⟨hidle, x, rfl, hcall, hanswer⟩
    · left
      rw [hwire]
      exact hgoes
    · refine .inr ⟨hidle, x, hwire, ?_, ?_⟩
      · rw [hcall]
        rfl
      · rw [hanswer]
        rfl
  | send bytes =>
    simp only [follow, Option.map_eq_some_iff, Prod.exists] at hstep
    obtain ⟨queue, goesOn, hadmits, rfl⟩ := hstep
    obtain ⟨f, x, whole, rfl, rfl, hanswers, hout⟩ := answers_of_admits h hadmits
    have hwire : f.wire ++ receivedOf ⟨.send bytes, answer⟩ = f.wire := List.append_nil _
    have hcall : x.toList ++ (handledOf ⟨.send bytes, answer⟩).toList = x.toList :=
      List.append_nil _
    rw [hwire, hcall]
    cases answer with
    | error e =>
      left
      show Begun f.wire x.toList (out ++ [])
      rw [List.append_nil]
      exact .answering hanswers ⟨bytes ++ queue.flatMap Frame.wire, by rw [← List.append_assoc, hout]⟩
    | ok ret =>
      have hsplit : out ++ bytes.take ret.val ++ bytes.drop ret.val ++ queue.flatMap Frame.wire =
          whole := by
        rw [List.append_assoc out, List.take_append_drop, hout]
      rcases explains_gave hanswers hsplit with hgoes | ⟨hidle, ex, rfl, rfl, hanswer⟩
      · exact .inl hgoes
      · exact .inr ⟨hidle, ex, rfl, rfl, hanswer.symm⟩

/-- The events make up whole exchanges and what the phase says of the next. -/
structure Accounts (es : List Event) (ph : Phase) (past : List Exchange) (got : List Byte)
    (hs : List Handled) (out : List Byte) : Prop where
  received : received es = past.flatMap (·.frame.wire) ++ got
  handled : handled es = past.filterMap (·.handled) ++ hs
  written : written (sends es) = past.flatMap (·.answer) ++ out
  explains : ph.Explains got hs out

theorem accounts_of_follow {es : List Event} {ph : Phase} (h : trackAll follow .idle es = some ph) :
    ∃ past got hs out, Accounts es ph past got hs out := by
  induction es using List.reverseRecOn generalizing ph with
  | nil => cases h; exact ⟨[], [], [], [], rfl, rfl, rfl, rfl, rfl, rfl⟩
  | append_singleton es e ih =>
    rw [trackAll_append] at h
    obtain ⟨ph₀, h₀, hlast⟩ := Option.bind_eq_some_iff.1 h
    obtain ⟨past, got, hs, out, hrecv, hhandled, hwritten, hexplains⟩ := ih h₀
    have hstep : follow ph₀ e.1 e.2 = some ph := by
      simpa [trackAll, Option.bind_eq_some_iff] using hlast
    have hrecv' : received (es ++ [e]) = past.flatMap (·.frame.wire) ++ (got ++ receivedOf e) := by
      rw [← List.append_assoc, ← hrecv]
      simp [received]
    have hhandled' : handled (es ++ [e]) =
        past.filterMap (·.handled) ++ (hs ++ (handledOf e).toList) := by
      rw [← List.append_assoc, ← hhandled]
      cases he : handledOf e <;> simp [handled, he]
    have hwritten' : written (sends (es ++ [e])) =
        past.flatMap (·.answer) ++ (out ++ writtenOf e) := by
      rw [← List.append_assoc, ← hwritten]
      simp [written_sends]
    rcases explains_step hexplains hstep with hgoes | ⟨rfl, x, hframe, hcall, hanswer⟩
    · exact ⟨past, _, _, _, hrecv', hhandled', hwritten', hgoes⟩
    · refine ⟨past ++ [x], [], [], [], ?_, ?_, ?_, rfl, rfl, rfl⟩
      · simp [hrecv', hframe]
      · rw [hhandled', hcall]
        cases hx : x.handled <;> simp [hx]
      · simp [hwritten', hanswer]

end Calls

end MbDaemon
