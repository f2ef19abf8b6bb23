import MbDaemon.Server.Frames
import MbDaemon.Server.Turn

/-!
# The protocol of a session

What a session may do next is a `Phase`: look at `DoShutdown`, read what is lacking of the next
request, call the handler of the request, write what is left of the answer, nothing more. `follow`
moves from phase to phase and objects to every other call, and `HandlerRoutine` keeps to it whatever
comes back from its calls (`handlerRoutine_follows`).
-/

namespace MbDaemon

open RPCDefs Interaction

namespace Calls

/-! ## The protocol -/

/-- The frames that are written when a handler throws, and whether the session goes on. -/
def apology : Thrown → List Frame × Bool
  | .std what =>
    if h : what.length ≤ 254 then (List.replicate 2 (Server.textFrame what h), true) else ([], false)
  | .forcedUnwind =>
    (List.replicate 2 (Server.textFrame (ascii "Server closed") (by decide)), false)
  | .other =>
    (List.replicate 2 (Server.textFrame (ascii "Unknown exception") (by decide)), false)

/-- The frames that answer a request, by what its handler came to, and whether the session goes
on. -/
def replies (p : Proc) : Server.Outcome p.Responce → List Frame × Bool
  | .ok msg =>
    if h : encodedLength p.Responce msg ≤ 254 then ([RPCProvider.msgFrame p.ID p.Responce msg h], true)
    else ([], false)
  | .error x => apology x

/-- What the reception of a frame leaves at the start of the buffer. -/
def stamp (f : Frame) : List Byte := f.payload ++ [f.procId, f.size].drop f.payload.length

/-- The bytes that an id without a case sends back: as many as `Buffer[1]` says, the received ones
first; what stands behind these in the buffer is not known. -/
def Echo (f : Frame) (bytes : List Byte) : Prop :=
  bytes.length = (Server.echoSize f).toNat + 2 ∧
    bytes.take (stamp f).length = (stamp f).take bytes.length

instance (f : Frame) (bytes : List Byte) : Decidable (Echo f bytes) :=
  inferInstanceAs (Decidable (_ ∧ _))

/-- What a session has to do next. -/
inductive Phase where
  | idle
  | taking (got : List Byte)
  | called (f : Frame) (p : Proc)
  | echoing (f : Frame)
  | giving (left : List Byte) (queue : List Frame) (goesOn : Bool)
  | ended
  deriving DecidableEq

/-- How many bytes are read next: what is lacking of the header, or of the payload. -/
def lacking : List Byte → Nat
  | _ :: size :: payload => size.toNat - payload.length
  | header => 2 - header.length

namespace Phase

/-- A whole frame has come. -/
def arrived (f : Frame) : Phase :=
  if f.procId = Server.errCode then ended
  else match Proc.ofId f.procId with
    | some p => called f p
    | none => echoing f

def taken (got : List Byte) : Phase :=
  match Frame.parse got with
  | some (f, _) => arrived f
  | none => taking got

def give : List Frame → Bool → Phase
  | [], true => idle
  | [], false => ended
  | f :: queue, goesOn => giving f.wire queue goesOn

/-- `left` is left of a frame. -/
def gave (left : List Byte) (queue : List Frame) (goesOn : Bool) : Phase :=
  if left = [] then give queue goesOn else giving left queue goesOn

/-- What `send()` may be given, and what is to follow. -/
def admits : Phase → List Byte → Option (List Frame × Bool)
  | giving left queue goesOn, bytes => if bytes = left then some (queue, goesOn) else none
  | echoing f, bytes => if Echo f bytes then some ([], true) else none
  | _, _ => none

end Phase

def follow (ph : Phase) : (q : Call) → q.Answer → Option Phase
  | .doShutdown, (stop : Bool) => match ph with
    | .idle => some (if stop then .ended else .taking [])
    | _ => none
  | .recv size, answer => match ph with
    | .taking got =>
      if size = lacking got then
        some (match answer with
          | .ok bs => .taken (got ++ bs.val)
          | .error _ => .ended)
      else none
    | _ => none
  | .handle p data, outcome => match ph with
    | .called f p' =>
      if p' = p ∧ Memory.load data 0 f.payload.length = f.payload then
        some (Phase.give (replies p outcome).1 (replies p outcome).2)
      else none
    | _ => none
  | .send bytes, answer =>
    (ph.admits bytes).map fun after => match answer with
      | .ok ret => Phase.gave (bytes.drop ret.val) after.1 after.2
      | .error _ => .ended

theorem follow_send_ok {ph : Phase} {bytes : List Byte} {queue : List Frame} {goesOn : Bool}
    (h : ph.admits bytes = some (queue, goesOn)) (ret : { ret : Nat // ret ≤ bytes.length }) :
    follow ph (.send bytes) (.ok ret) = some (.gave (bytes.drop ret.val) queue goesOn) :=
  congrArg (Option.map _) h

theorem follow_send_error {ph : Phase} {bytes : List Byte} {queue : List Frame} {goesOn : Bool}
    (h : ph.admits bytes = some (queue, goesOn)) (e : SendEnd) :
    follow ph (.send bytes) (.error e) = some .ended :=
  congrArg (Option.map _) h

/-! ## The session keeps to it -/

theorem parse_none_of_lacking {got : List Byte} (h : 0 < lacking got) : Frame.parse got = none := by
  match got with
  | [] => rfl
  | [_] => rfl
  | procId :: size :: payload =>
    simp only [lacking] at h
    exact dif_neg (by omega)

theorem taken_of_lacking {got : List Byte} (h : 0 < lacking got) : Phase.taken got = .taking got := by
  unfold Phase.taken
  rw [parse_none_of_lacking h]

theorem taken_wire (f : Frame) : Phase.taken f.wire = .arrived f := by
  have hparse := Frame.parse_wire f []
  rw [List.append_nil] at hparse
  unfold Phase.taken
  rw [hparse]

theorem lacking_append {got bs : List Byte} (h : bs.length < lacking got) :
    lacking (got ++ bs) = lacking got - bs.length := by
  match got, bs with
  | [], [] => rfl
  | [], [_] => rfl
  | [], _ :: _ :: _ => simp [lacking] at h
  | [_], [] => rfl
  | [_], _ :: _ => simp [lacking] at h
  | _ :: size :: payload, bs =>
    simp only [List.cons_append, lacking, List.length_append]
    omega

variable {s : Session}

theorem recvLoop_follows (size fuel : Nat) : ∀ (total : Nat) (got : List Byte) (s : Session),
    total ≤ size → size - total < fuel → (total < size → lacking got = size - total) →
    Meets follow (.taken got) (recvLoop size fuel total s) fun r ph => match r with
      | .ok _ s' => ∃ bs, bs.length = size - total ∧
          s' = { s with buffer := Memory.store s.buffer total bs } ∧ ph = .taken (got ++ bs)
      | .error e s' => (∃ x, e = .thrown x) ∧ s'.errCode = s.errCode ∧ ph = .ended := by
  induction fuel with
  | zero => intro total got s _ hfuel; omega
  | succ fuel ih =>
    intro total got s hle hfuel hlack
    unfold recvLoop
    split
    · rename_i hlt
      have hlack := hlack hlt
      rw [taken_of_lacking (by omega)]
      intro answer
      cases answer with
      | error e =>
        refine ⟨.ended, if_pos hlack.symm, ?_⟩
        cases e <;> exact ⟨⟨_, rfl⟩, rfl, rfl⟩
      | ok bs =>
        obtain ⟨bs, hpos, hbs⟩ := bs
        refine ⟨.taken (got ++ bs), if_pos hlack.symm, ?_⟩
        have hmore : total + bs.length < size →
            lacking (got ++ bs) = size - (total + bs.length) := fun hmore => by
          rw [lacking_append (by omega)]
          omega
        refine (ih (total + bs.length) (got ++ bs) { s with buffer := Memory.store s.buffer total bs }
          (by omega) (by omega) hmore).mono fun r ph hr => ?_
        cases r with
        | error e s' => exact hr
        | ok _ s' =>
          obtain ⟨rest, hlen, rfl, rfl⟩ := hr
          refine ⟨bs ++ rest, by rw [List.length_append]; omega, ?_, by rw [List.append_assoc]⟩
          rw [Memory.store_append]
    · exact ⟨[], by simp; omega, by rw [Memory.store_nil], by rw [List.append_nil]⟩

/-- What the reception of `f` leaves of the buffer. -/
def Session.took (s : Session) (f : Frame) : Session :=
  { s with buffer := Memory.store (Memory.store s.buffer 0 [f.procId, f.size]) 0 f.payload }

theorem recvPackage_follows (s : Session) :
    Meets follow (.taking []) (recvPackage s) fun r ph => match r with
      | .ok header s' => ∃ f : Frame, header.ProcId = f.procId ∧
          header.Ok = (f.procId != s.errCode) ∧ s' = s.took f ∧ ph = .arrived f
      | .error e s' => (∃ x, e = .thrown x) ∧ s'.errCode = s.errCode ∧ ph = .ended := by
  refine Routine.meets_bind (recvLoop_follows 2 3 0 [] s (by omega) (by omega) fun _ => rfl) ?_
    fun _ _ _ hr => hr
  intro _ s₁ ph₁ ⟨head, hhead, hs₁, hph₁⟩
  obtain ⟨procId, size, rfl⟩ : ∃ procId size, head = [procId, size] := by
    match head, hhead with
    | [procId, size], _ => exact ⟨procId, size, rfl⟩
  subst hs₁ hph₁
  have hlt := size.toNat_lt
  have hlack : 0 < size.toNat → lacking [procId, size] = size.toNat - 0 := fun _ => rfl
  refine Routine.meets_bind (x := recvToBuffer size.toNat)
    (recvLoop_follows size.toNat (size.toNat + 1) 0 [procId, size]
      { s with buffer := Memory.store s.buffer 0 [procId, size] } (by omega) (by omega) hlack) ?_
    fun _ _ _ hr => hr
  intro _ s₂ ph₂ ⟨payload, hpayload, hs₂, hph₂⟩
  have hfits : payload.length ≤ 255 := by omega
  have hsize : UInt8.ofNat payload.length = size := by
    rw [hpayload, Nat.sub_zero, UInt8.ofNat_toNat]
  refine ⟨⟨procId, payload, hfits⟩, rfl, rfl, ?_, ?_⟩
  · rw [hs₂]
    simp only [Session.took, Frame.size, hsize]
  · rw [hph₂, ← taken_wire]
    simp only [Frame.wire, Frame.size, hsize, List.cons_append, List.nil_append]

/-! ### Writing -/

theorem gave_load {s : Session} {total size : Nat} (queue : List Frame) (goesOn : Bool)
    (h : total < size) :
    Phase.gave (Memory.load s.object total (size - total)) queue goesOn =
      .giving (Memory.load s.object total (size - total)) queue goesOn := by
  refine if_neg fun hnil => ?_
  have hlen := congrArg List.length hnil
  rw [Memory.length_load, List.length_nil] at hlen
  omega

theorem sendLoop_follows (size fuel : Nat) (queue : List Frame) (goesOn : Bool) :
    ∀ (total : Nat) (ph : Phase) (s : Session), total ≤ size → size - total < fuel →
    (total < size →
      ph.admits (Memory.load s.object total (size - total)) = some (queue, goesOn)) →
    (total = size → ph = .give queue goesOn) →
    Meets follow ph (sendLoop size fuel total s) fun r ph' => match r with
      | .ok _ s' => s' = s ∧ ph' = .give queue goesOn
      | .error e s' => s' = s ∧ ∀ x, e = .thrown x → ph' = .ended := by
  induction fuel with
  | zero => intro total ph s _ hfuel; omega
  | succ fuel ih =>
    intro total ph s hle hfuel hadmits hdone
    unfold sendLoop
    split
    · rename_i hlt
      intro answer
      cases answer with
      | error e =>
        refine ⟨.ended, follow_send_error (hadmits hlt) e, ?_⟩
        cases e <;> exact ⟨rfl, fun _ _ => rfl⟩
      | ok ret =>
        refine ⟨_, follow_send_ok (hadmits hlt) ret, ?_⟩
        have hret : ret.val ≤ size - total :=
          ret.property.trans (Nat.le_of_eq (Memory.length_load ..))
        show Meets follow _ ((if ret.val = 0 then MonadExcept.throw (.fault .assertion)
          else sendLoop size fuel (total + ret.val) : SessionM Unit) s) _
        by_cases hzero : ret.val = 0
        · rw [if_pos hzero]
          exact ⟨rfl, fun x e => by cases e⟩
        rw [if_neg hzero, Memory.drop_load _ _ hret, Nat.sub_sub]
        refine ih (total + ret.val) _ s (by omega) (by omega) (fun hmore => ?_) fun hend => ?_
        · rw [gave_load queue goesOn hmore]
          exact if_pos rfl
        · rw [hend, Nat.sub_self, Memory.load_zero]
          exact if_pos rfl
    · exact ⟨rfl, hdone (by omega)⟩

/-- `SendPackage`, when the phase admits what `Buffer[1]` bounds. -/
theorem sendFromBuffer_follows {ph : Phase} {n : Nat} {queue : List Frame} {goesOn : Bool}
    (h : ph.admits (Memory.load s.object 0 (n + 2)) = some (queue, goesOn)) :
    Meets follow ph (sendFromBuffer (n + 2) s) fun r ph' => match r with
      | .ok _ s' => s' = s ∧ ph' = .give queue goesOn
      | .error e s' => s' = s ∧ ∀ x, e = .thrown x → ph' = .ended :=
  sendLoop_follows (n + 2) (n + 3) queue goesOn 0 ph s (by omega) (by omega) (fun _ => h)
    fun e => by omega

def Session.packed (s : Session) (f : Frame) : Session :=
  { s with buffer := Memory.store s.buffer 0 f.wire }

theorem load_packed (s : Session) {f : Frame} (h : f.payload.length ≤ 254) :
    Memory.load (s.packed f).object 0 (f.payload.length + 2) = f.wire := by
  calc Memory.load (s.packed f).object 0 (f.payload.length + 2)
      = Memory.load (s.packed f).buffer 0 (f.payload.length + 2) :=
        Memory.load_congr fun i hi => if_pos (by unfold bufSize; omega)
    _ = f.wire := Memory.load_store s.buffer 0 f.wire

theorem sendPackage_packed (s : Session) (f : Frame) :
    sendPackage (s.packed f) = sendFromBuffer (f.payload.length + 2) (s.packed f) := by
  have hsize : ((s.packed f).buffer 1).toNat = f.payload.length := f.toNat_size
  unfold sendPackage
  rw [Routine.get_bind, hsize]

theorem sendPacked_follows (s : Session) {f : Frame} (h : f.payload.length ≤ 254)
    (queue : List Frame) (goesOn : Bool) :
    Meets follow (.give (f :: queue) goesOn)
      (sendFromBuffer (f.payload.length + 2) (s.packed f)) fun r ph' => match r with
        | .ok _ s' => s' = s.packed f ∧ ph' = .give queue goesOn
        | .error e s' => s' = s.packed f ∧ ∀ x, e = .thrown x → ph' = .ended := by
  refine sendFromBuffer_follows ?_
  rw [load_packed s h]
  exact if_pos rfl

theorem write_bind_ok {α : Type} {g : (Nat → Byte) → Except Fault (Nat → Byte)}
    {k : Unit → SessionM α} {buffer : Nat → Byte} (h : g s.buffer = .ok buffer) :
    (write g >>= k) s = k () { s with buffer := buffer } := by
  show Prog.bind (write g s) _ = _
  rw [write_ok h]
  rfl

theorem write_bind_error {α : Type} {g : (Nat → Byte) → Except Fault (Nat → Byte)}
    {k : Unit → SessionM α} {e : Fault} (h : g s.buffer = .error e) :
    (write g >>= k) s = .pure (.error (.fault e) s) := by
  show Prog.bind (write g s) _ = _
  rw [write_error h]
  rfl

theorem write_header (s : Session) (procId size : Byte) :
    poke s.buffer 0 [procId, size] = .ok (Memory.store s.buffer 0 [procId, size]) :=
  poke_ok (by simp [bufSize])

theorem packMsg_cases (procId : Byte) (k : Kind) (msg : Outgoing k) (s : Session) :
    (∃ h : encodedLength k msg ≤ 254,
      packMsg procId k msg s = .pure (.ok () (s.packed (RPCProvider.msgFrame procId k msg h)))) ∨
    (254 < encodedLength k msg ∧ ∃ f s', packMsg procId k msg s = .pure (.error (.fault f) s')) := by
  have hstep : packMsg procId k msg s = write (serialize k msg · 2)
      { s with buffer := Memory.store s.buffer 0 [procId, getPackedSize k msg] } :=
    write_bind_ok (write_header s procId (getPackedSize k msg))
  rw [hstep]
  rcases serialize_cases k msg (Memory.store s.buffer 0 [procId, getPackedSize k msg])
    (Nat.le_refl 2) (by decide) with ⟨hb, hok⟩ | ⟨hb, f, herr⟩
  · unfold bufSize at hb
    have hlen : encodedLength k msg ≤ 254 := by omega
    refine .inl ⟨hlen, ?_⟩
    have hsize : getPackedSize k msg = (RPCProvider.msgFrame procId k msg hlen).size := by
      refine UInt8.toNat_inj.1 ?_
      rw [Frame.toNat_size, packedSize_eq (by omega)]
      exact (length_encode k msg).symm
    have happ := Memory.store_append s.buffer 0 [procId, getPackedSize k msg] (encode k msg)
    rw [write_ok hok]
    unfold Session.packed Frame.wire
    rw [← hsize]
    exact congrArg (fun b => Prog.pure (EStateM.Result.ok () { s with buffer := b })) happ.symm
  · unfold bufSize at hb
    exact .inr ⟨by omega, f, _, write_error herr⟩

/-- What `PackError` does with a text that passes its check. -/
theorem packError_passed {what : Text} (h : what.length ≤ 255) (s : Session) :
    packError what s =
      (do write (poke · 2 what)
          sendFromBuffer (what.length + 2) : SessionM Unit)
        { s with buffer := Memory.store s.buffer 0 [s.errCode, UInt8.ofNat what.length] } := by
  unfold packError
  rw [if_neg (by omega)]
  exact write_bind_ok (write_header s s.errCode (UInt8.ofNat what.length))

theorem packError_eq {what : Text} (h : what.length ≤ 254) (herr : s.errCode = Server.errCode) :
    packError what s =
      sendFromBuffer (what.length + 2) (s.packed (Server.textFrame what h)) := by
  have hbody : poke (Memory.store s.buffer 0 [s.errCode, UInt8.ofNat what.length]) 2 what =
      .ok (Memory.store s.buffer 0 ([s.errCode, UInt8.ofNat what.length] ++ what)) :=
    poke_append (by simp [bufSize]; omega)
  rw [packError_passed (by omega), write_bind_ok hbody]
  obtain ⟨buffer, errCode, connOk⟩ := s
  obtain rfl : errCode = Server.errCode := herr
  rfl

theorem packError_long {what : Text} (h : 254 < what.length) (s : Session) :
    ∃ e s', packError what s = .pure (.error e s') := by
  by_cases hlen : 255 < what.length
  · unfold packError
    rw [if_pos hlen]
    exact ⟨_, _, rfl⟩
  · have hbody : poke (Memory.store s.buffer 0 [s.errCode, UInt8.ofNat what.length]) 2 what =
        .error .outOfBounds := poke_error (by unfold bufSize; omega)
    rw [packError_passed (by omega), write_bind_error hbody]
    exact ⟨_, _, rfl⟩

theorem replyError_follows {what : Text} (h : what.length ≤ 254) (herr : s.errCode = Server.errCode)
    (goesOn : Bool) :
    Meets follow (.give (List.replicate 2 (Server.textFrame what h)) goesOn) (replyError what s)
      fun r ph => match r with
        | .ok _ s' => s'.errCode = s.errCode ∧ s'.connOk = s.connOk ∧ ph = .give [] goesOn
        | .error e _ => ∀ x, e = .thrown x → ph = .ended := by
  have hlen : (Server.textFrame what h).payload.length ≤ 254 := h
  unfold replyError
  have hfirst := sendPacked_follows s hlen [Server.textFrame what h] goesOn
  rw [show (Server.textFrame what h).payload.length = what.length from rfl,
    ← packError_eq h herr] at hfirst
  refine Routine.meets_bind hfirst (fun _ s' ph hr => ?_) fun e s' ph hr => hr.2
  obtain ⟨rfl, rfl⟩ := hr
  rw [sendPackage_packed]
  refine (sendPacked_follows s hlen [] goesOn).mono fun r ph hr => ?_
  cases r with
  | ok _ s' =>
    obtain ⟨rfl, rfl⟩ := hr
    exact ⟨rfl, rfl, rfl⟩
  | error e s' => exact hr.2

/-! ### The turns -/

theorem guarded_follows {α : Type} {x : SessionM α} {ph : Phase}
    {mid : EStateM.Result Stop Session α → Phase → Prop} (h : Meets follow ph (x s) mid) :
    Meets follow ph (guarded x s) fun r ph' => match r with
      | .ok a s' => mid (.ok a s') ph'
      | .error e s' => s'.connOk = false ∧ ∃ s₁, s'.errCode = s₁.errCode ∧ mid (.error e s₁) ph' := by
  refine Meets.bind h fun r ph' hr => ?_
  cases r with
  | ok a s' => exact hr
  | error e s' => exact ⟨rfl, s', rfl, hr⟩

/-- The flag and the error code are as they were. -/
def Session.Same (s s' : Session) : Prop := s'.errCode = s.errCode ∧ s'.connOk = s.connOk

/-- The buffer begins with the stamp of the frame that has come. -/
theorem store_stamp (m : Nat → Byte) (f : Frame) :
    Memory.store (Memory.store m 0 [f.procId, f.size]) 0 f.payload = Memory.store m 0 (stamp f) := by
  funext i
  simp only [Memory.store, stamp, Nat.zero_le, if_true, Nat.sub_zero]
  by_cases hi : i < f.payload.length
  · rw [List.getElem?_append_left hi]
    simp [hi]
  · rw [List.getElem?_append_right (by omega), List.getElem?_drop,
      List.getElem?_eq_none (l := f.payload) (by omega)]
    simp [show f.payload.length + (i - f.payload.length) = i by omega]

theorem take_load_of_load {m : Nat → Byte} {bs : List Byte} (h : Memory.load m 0 bs.length = bs)
    (n : Nat) : (Memory.load m 0 n).take bs.length = bs.take n := by
  rcases Nat.le_total bs.length n with hle | hle
  · rw [Memory.take_load hle, h, List.take_of_length_le hle]
  · rw [List.take_of_length_le (by rw [Memory.length_load]; exact hle), ← Memory.take_load hle, h]

theorem echo_took (s : Session) (f : Frame) :
    Echo f (Memory.load (s.took f).object 0 (((s.took f).buffer 1).toNat + 2)) := by
  have hsize : (s.took f).buffer 1 = Server.echoSize f := by
    simp only [Session.took, Server.echoSize, Memory.store, Nat.zero_le, if_true, Nat.sub_zero]
    rfl
  have hshort : (stamp f).length ≤ 255 := by
    have := f.fits
    simp [stamp]
    omega
  have hstamp : Memory.load (s.took f).object 0 (stamp f).length = stamp f := by
    calc Memory.load (s.took f).object 0 (stamp f).length
        = Memory.load (Memory.store s.buffer 0 (stamp f)) 0 (stamp f).length := by
          rw [← store_stamp]
          exact Memory.load_congr fun i hi => if_pos (by unfold bufSize; omega)
      _ = stamp f := Memory.load_store s.buffer 0 (stamp f)
  refine ⟨by rw [Memory.length_load, hsize], ?_⟩
  rw [take_load_of_load hstamp, Memory.length_load]

/-- The handler of the request is called on its payload, and what it comes to is packed. -/
theorem dispatchPackage_follows {header : MsgHeader} {f : Frame} (hid : header.ProcId = f.procId)
    (hne : f.procId ≠ Server.errCode) (s : Session) :
    Meets follow (.arrived f) (dispatchPackage header (s.took f)) fun r ph => match r with
      | .ok _ s' => s.Same s' ∧
          ph.admits (Memory.load s'.object 0 ((s'.buffer 1).toNat + 2)) = some ([], true)
      | .error (.thrown x) s' => s.Same s' ∧ ph = .give (apology x).1 (apology x).2
      | .error _ _ => True := by
  unfold dispatchPackage Phase.arrived
  rw [if_neg hne, hid]
  cases hp : Proc.ofId f.procId with
  | none =>
    exact ⟨⟨rfl, rfl⟩, if_pos (echo_took s f)⟩
  | some p =>
    intro outcome
    have hload : Memory.load (s.took f).buffer 0 f.payload.length = f.payload :=
      Memory.load_store (Memory.store s.buffer 0 [f.procId, f.size]) 0 f.payload
    refine ⟨_, if_pos ⟨rfl, hload⟩, ?_⟩
    cases outcome with
    | error x => exact ⟨⟨rfl, rfl⟩, rfl⟩
    | ok msg =>
      show Meets follow _ (packMsg p.ID p.Responce msg (s.took f)) _
      rcases packMsg_cases p.ID p.Responce msg (s.took f) with ⟨hlen, hpack⟩ | ⟨hlen, e, s', hpack⟩
      · rw [hpack]
        have hfit : (RPCProvider.msgFrame p.ID p.Responce msg hlen).payload.length ≤ 254 :=
          (length_encode _ _).trans_le hlen
        have hsize : (((s.took f).packed (RPCProvider.msgFrame p.ID p.Responce msg hlen)).buffer 1).toNat =
          (RPCProvider.msgFrame p.ID p.Responce msg hlen).payload.length := Frame.toNat_size _
        refine ⟨⟨rfl, rfl⟩, ?_⟩
        rw [hsize, load_packed _ hfit]
        simp only [replies, dif_pos hlen, Phase.give]
        exact if_pos rfl
      · rw [hpack]
        trivial

theorem turn_follows (herr : s.errCode = Server.errCode) :
    Meets follow (.taking []) (turn s) fun r ph => match r with
      | .ok true s' => s.Same s' ∧ ph = .idle
      | .ok false _ => ph = .ended
      | .error (.thrown x) s' => s'.errCode = s.errCode ∧
          (s'.connOk = false ∧ ph = .ended ∨
            s'.connOk = s.connOk ∧ ph = .give (apology x).1 (apology x).2)
      | .error _ _ => True := by
  refine Routine.meets_bind (guarded_follows (recvPackage_follows s)) ?_ ?_
  case refine_2 =>
    rintro e s' ph ⟨hconn, s₁, herr', ⟨x, rfl⟩, hsame, rfl⟩
    exact ⟨herr'.trans hsame, .inl ⟨hconn, rfl⟩⟩
  rintro header s₁ ph ⟨f, hid, hok, rfl, rfl⟩
  by_cases hne : f.procId = Server.errCode
  · have hclose : header.Ok = false := by rw [hok, herr, hne]; rfl
    rw [hclose]
    exact if_pos hne
  have hopen : header.Ok = true := by
    rw [hok, herr]
    exact bne_iff_ne.2 hne
  rw [hopen]
  refine Routine.meets_bind (dispatchPackage_follows hid hne s) ?_ ?_
  case refine_2 =>
    intro e s' ph hr
    cases e with
    | thrown x => exact ⟨hr.1.1, .inr ⟨hr.1.2, hr.2⟩⟩
    | fault _ => trivial
    | outOfFuel => trivial
  rintro _ s₂ ph ⟨hsame, hadmits⟩
  have hsend : Meets follow ph (sendPackage s₂) fun r ph' => match r with
      | .ok _ s' => s' = s₂ ∧ ph' = .give [] true
      | .error e s' => s' = s₂ ∧ ∀ x, e = .thrown x → ph' = .ended := by
    unfold sendPackage
    rw [Routine.get_bind]
    exact sendFromBuffer_follows hadmits
  refine Routine.meets_bind (guarded_follows hsend) ?_ ?_
  · rintro _ s₃ ph ⟨rfl, rfl⟩
    exact ⟨hsame, rfl⟩
  · rintro e s₃ ph ⟨hconn, s₄, herr', rfl, hend⟩
    cases e with
    | thrown x => exact ⟨herr'.trans hsame.1, .inl ⟨hconn, hend x rfl⟩⟩
    | fault _ => trivial
    | outOfFuel => trivial

/-- A session that goes on is between two exchanges. -/
def Resumes : EStateM.Result Stop Session Bool → Phase → Prop
  | .ok true s, ph => s.errCode = Server.errCode ∧ s.connOk = true ∧ ph = .idle
  | _, _ => True

/-- A text that is too long for a frame ends the session. -/
theorem replyError_refused {what : Text} (h : 254 < what.length) (s : Session) :
    ∃ e s', replyError what s = .pure (.error e s') := by
  obtain ⟨e, s', hpack⟩ := packError_long h s
  refine ⟨e, s', ?_⟩
  show Prog.bind (packError what s) _ = _
  rw [hpack]
  rfl

theorem rethrow_follows {what : Text} (hlen : what.length ≤ 254) {e : Stop} {ph : Phase}
    (herr : s.errCode = Server.errCode)
    (h : s.connOk = true → ph = .give (List.replicate 2 (Server.textFrame what hlen)) false) :
    Meets follow ph ((do if s.connOk then replyError what
                         MonadExcept.throw e : SessionM Bool) s) fun r _ => ∀ s', r ≠ .ok true s' := by
  cases hconn : s.connOk with
  | false => exact fun s' e => by cases e
  | true =>
    rw [h hconn]
    exact Routine.meets_bind (replyError_follows hlen herr false) (fun _ _ _ _ _ e => by cases e)
      fun _ _ _ _ _ e => by cases e

theorem Resumes.of_ne {r : EStateM.Result Stop Session Bool} {ph : Phase}
    (h : ∀ s', r ≠ .ok true s') : Resumes r ph := by
  cases r with
  | error e s' => trivial
  | ok again s' =>
    cases again with
    | false => trivial
    | true => exact absurd rfl (h s')

/-- The catch clauses write the apology that is due, once the connection is not broken. -/
theorem clause_follows (x : Thrown) {ph : Phase} (herr : s.errCode = Server.errCode)
    (h : s.connOk = true → ph = .give (apology x).1 (apology x).2) :
    Meets follow ph (clause x s) Resumes := by
  cases x with
  | std what =>
    show Meets follow ph ((if s.connOk then (do replyError what; Pure.pure true)
      else Pure.pure false : SessionM Bool) s) _
    cases hconn : s.connOk with
    | false => trivial
    | true =>
      rw [h hconn]
      by_cases hlen : what.length ≤ 254
      · simp only [apology, dif_pos hlen]
        refine Routine.meets_bind (replyError_follows hlen herr true) ?_ fun _ _ _ _ => trivial
        rintro _ s' ph ⟨herr', hconn', rfl⟩
        exact ⟨herr'.trans herr, hconn'.trans hconn, rfl⟩
      · obtain ⟨e, s', hrefused⟩ := replyError_refused (Nat.lt_of_not_le hlen) s
        show Meets follow _ (Prog.bind (replyError what s) _) _
        rw [hrefused]
        trivial
  | forcedUnwind => exact (rethrow_follows (by decide) herr h).mono fun _ _ => Resumes.of_ne
  | other => exact (rethrow_follows (by decide) herr h).mono fun _ _ => Resumes.of_ne

theorem iteration_follows (herr : s.errCode = Server.errCode) (hconn : s.connOk = true) :
    Meets follow (.taking []) (iteration s) Resumes := by
  refine Meets.bind (turn_follows herr) fun r ph hr => ?_
  cases r with
  | ok again s' =>
    cases again with
    | false => trivial
    | true => exact ⟨hr.1.1.trans herr, hr.1.2.trans hconn, hr.2⟩
  | error e s' =>
    cases e with
    | fault _ => trivial
    | outOfFuel => trivial
    | thrown x =>
      obtain ⟨herr', hcases⟩ := hr
      refine clause_follows x (herr'.trans herr) fun hconn' => ?_
      rcases hcases with ⟨hbroken, -⟩ | ⟨-, hph⟩
      · rw [hbroken] at hconn'
        cases hconn'
      · exact hph

theorem loop_follows (fuel : Nat) (herr : s.errCode = Server.errCode) (hconn : s.connOk = true) :
    Meets follow .idle (loop fuel s) fun _ _ => True := by
  induction fuel generalizing s with
  | zero => trivial
  | succ fuel ih =>
    intro stop
    refine ⟨_, rfl, ?_⟩
    cases stop with
    | true => trivial
    | false =>
      refine Routine.meets_bind (iteration_follows herr hconn) (fun again s' ph hr => ?_)
        fun _ _ _ _ => trivial
      cases again with
      | false => trivial
      | true =>
        obtain ⟨herr', hconn', rfl⟩ := hr
        exact ih herr' hconn'

/-- **The session keeps to the protocol**, whatever comes back from its calls. -/
theorem handlerRoutine_follows (fuel : Nat) (buffer : Nat → Byte) :
    Meets follow .idle (handlerRoutine fuel buffer) fun _ _ => True := loop_follows fuel rfl rfl

end Calls

end MbDaemon
