import MbDaemon.Server.Calls
import MbDaemon.RPC.Transfer

/-!
# What a session writes

Whatever comes back from its calls, `HandlerRoutine` writes whole frames, one after the other, and
after a frame that it could not finish it writes nothing more. `Line` follows the calls of `send()`:
between two frames, inside one, or dead. A turn leaves the line clear or the connection marked as
broken, and the catch clauses write only on a connection that is not so marked.
-/

namespace MbDaemon

open RPCDefs Interaction

namespace Calls

abbrev Event := (q : Call) × q.Answer

/-- A call of `send()`: the bytes it was given, and how many went out, if it did not fail. -/
structure SendCall where
  bytes : List Byte
  sent : Option Nat

def sendOf : Event → Option SendCall
  | ⟨.send bytes, .ok ret⟩ => some ⟨bytes, some ret.val⟩
  | ⟨.send bytes, .error _⟩ => some ⟨bytes, none⟩
  | _ => none

def sends (es : List Event) : List SendCall := es.filterMap sendOf

/-! ## The line -/

/-- Between two frames, inside a frame of which `left` is to follow, or given up. -/
inductive Line where
  | clear
  | amid (left : List Byte)
  | dead
  deriving DecidableEq

/-- What `send()` may be given: a frame, the rest of one, nothing. -/
def Line.admits : Line → List Byte → Prop
  | .clear, bytes => ∃ f : Frame, bytes = f.wire
  | .amid left, bytes => bytes = left
  | .dead, _ => False

def Line.after (bytes : List Byte) : Option Nat → Line
  | some ret => if bytes.drop ret = [] then .clear else .amid (bytes.drop ret)
  | none => .dead

open Classical in
/-- Follows the calls, and objects to a `send()` that is given anything else. -/
noncomputable def watch (l : Line) (q : Call) (a : q.Answer) : Option Line :=
  match sendOf ⟨q, a⟩ with
  | some c => if l.admits c.bytes then some (Line.after c.bytes c.sent) else none
  | none => some l

theorem watch_ok {l : Line} {bytes : List Byte} (h : l.admits bytes)
    (ret : { ret : Nat // ret ≤ bytes.length }) :
    watch l (.send bytes) (.ok ret) = some (Line.after bytes (some ret.val)) := if_pos h

theorem watch_error {l : Line} {bytes : List Byte} (h : l.admits bytes) (e : SendEnd) :
    watch l (.send bytes) (.error e) = some .dead := if_pos h

/-! ## What the operations do to the line -/

def stateOf {α : Type} : EStateM.Result Stop Session α → Session
  | .ok _ s => s
  | .error _ s => s

/-- `x` sends nothing and leaves the flag. -/
def Quiet {α : Type} (x : SessionM α) : Prop :=
  ∀ s l, Meets watch l (x s) fun r l' => l' = l ∧ (stateOf r).connOk = s.connOk

/-- On a clear line `x` sends whole frames, as far as it gets, and leaves the flag. -/
def Sends {α : Type} (x : SessionM α) : Prop :=
  ∀ s, Meets watch .clear (x s) fun r l' =>
    (stateOf r).connOk = s.connOk ∧ ∀ a s', r = .ok a s' → l' = .clear

variable {α β : Type} {x : SessionM α} {f : α → SessionM β}

theorem Quiet.sends (h : Quiet x) : Sends x :=
  fun s => (h s .clear).mono fun _ _ hr => ⟨hr.2, fun _ _ _ => hr.1⟩

theorem Quiet.pure (a : α) : Quiet (Pure.pure a : SessionM α) := fun _ _ => ⟨rfl, rfl⟩

theorem Quiet.throw (e : Stop) : Quiet (MonadExcept.throw e : SessionM α) := fun _ _ => ⟨rfl, rfl⟩

theorem Quiet.get : Quiet (MonadState.get : SessionM Session) := fun _ _ => ⟨rfl, rfl⟩

theorem Quiet.bind (hx : Quiet x) (hf : ∀ a, Quiet (f a)) : Quiet (x >>= f) := fun s l => by
  refine Routine.meets_bind (hx s l) (fun a s' l' hr => ?_) fun _ _ _ hr => hr
  obtain ⟨rfl, hok⟩ := hr
  exact (hf a s' l').mono fun _ _ hr' => ⟨hr'.1, hr'.2.trans hok⟩

theorem Sends.bind (hx : Sends x) (hf : ∀ a, Sends (f a)) : Sends (x >>= f) := fun s => by
  refine Routine.meets_bind (hx s) (fun a s' l' hr => ?_)
    fun e s' l' hr => ⟨hr.1, fun _ _ h => by cases h⟩
  obtain ⟨hok, hclear⟩ := hr
  rw [hclear a s' rfl]
  exact (hf a s').mono fun _ _ hr' => ⟨hr'.1.trans hok, hr'.2⟩

theorem Quiet.ask {q : Call} (h : ∀ a, sendOf ⟨q, a⟩ = none) : Quiet (Routine.ask q) := by
  intro s l a
  refine ⟨l, ?_, rfl, rfl⟩
  unfold watch
  rw [h a]

theorem Quiet.recv (size : Nat) : Quiet (recv size) := Quiet.ask fun _ => rfl

theorem Quiet.handlerImpl (p : Proc) (data : Nat → Byte) : Quiet (handlerImpl p data) :=
  Quiet.ask fun _ => rfl

theorem Quiet.setBuffer (buffer : Session → Nat → Byte) :
    Quiet (do let s ← MonadState.get; set { s with buffer := buffer s } : SessionM Unit) :=
  fun _ _ => ⟨rfl, rfl⟩

theorem write_ok {g : (Nat → Byte) → Except Fault (Nat → Byte)} {s : Session}
    {buffer : Nat → Byte} (h : g s.buffer = .ok buffer) :
    write g s = .pure (.ok () { s with buffer := buffer }) := by
  unfold write
  rw [Routine.get_bind, h]
  rfl

theorem write_error {g : (Nat → Byte) → Except Fault (Nat → Byte)} {s : Session} {e : Fault}
    (h : g s.buffer = .error e) : write g s = .pure (.error (.fault e) s) := by
  unfold write
  rw [Routine.get_bind, h]
  rfl

theorem quiet_write (g : (Nat → Byte) → Except Fault (Nat → Byte)) : Quiet (write g) := by
  intro s l
  cases hg : g s.buffer with
  | ok buffer => rw [write_ok hg]; exact ⟨rfl, rfl⟩
  | error e => rw [write_error hg]; exact ⟨rfl, rfl⟩

theorem quiet_recvLoop (size fuel : Nat) : ∀ total, Quiet (recvLoop size fuel total) := by
  induction fuel with
  | zero => exact fun total => Quiet.throw _
  | succ fuel ih =>
    intro total
    unfold recvLoop
    split
    · refine (Quiet.recv _).bind fun answer => ?_
      cases answer with
      | ok bs =>
        exact (Quiet.setBuffer fun s => Memory.store s.buffer total bs.val).bind fun _ => ih _
      | error e => cases e <;> exact Quiet.throw _
    · exact Quiet.pure ()

theorem quiet_recvPackage : Quiet recvPackage :=
  (quiet_recvLoop 2 3 0).bind fun _ => Quiet.get.bind fun _ =>
    (quiet_recvLoop _ _ 0).bind fun _ => Quiet.get.bind fun _ => Quiet.pure _

theorem quiet_packMsg (procId : Byte) (k : Kind) (msg : Outgoing k) :
    Quiet (packMsg procId k msg) :=
  (quiet_write _).bind fun _ => quiet_write _

theorem quiet_dispatchPackage (header : MsgHeader) : Quiet (dispatchPackage header) := by
  unfold dispatchPackage
  cases Proc.ofId header.ProcId with
  | none => exact Quiet.pure ()
  | some p =>
    refine Quiet.get.bind fun s => (Quiet.handlerImpl p s.buffer).bind fun outcome => ?_
    cases outcome with
    | ok responce => exact quiet_packMsg _ _ responce
    | error e => exact Quiet.throw _

/-! ## Sending -/

/-- Where the line stands when the last `left` bytes of a frame are to be sent. -/
def Line.toSend (left : List Byte) : Line := if left = [] then .clear else .amid left

theorem after_some {bytes : List Byte} {ret : Nat} :
    Line.after bytes (some ret) = Line.toSend (bytes.drop ret) := rfl

theorem sendLoop_meets (size fuel : Nat) : ∀ (total : Nat) (l : Line) (s : Session),
    total ≤ size → size - total < fuel →
    (total < size → l.admits (Memory.load s.object total (size - total))) →
    (total = size → l = .clear) →
    Meets watch l (sendLoop size fuel total s) fun r l' =>
      stateOf r = s ∧ ∀ a s', r = .ok a s' → l' = .clear := by
  induction fuel with
  | zero => intro total l s _ hfuel; omega
  | succ fuel ih =>
    intro total l s hle hfuel hadmits hclear
    unfold sendLoop
    split
    · rename_i hlt
      intro answer
      cases answer with
      | error e =>
        refine ⟨.dead, watch_error (hadmits hlt) e, ?_⟩
        cases e <;> exact ⟨rfl, fun _ _ h => by cases h⟩
      | ok ret =>
        refine ⟨_, watch_ok (hadmits hlt) ret, ?_⟩
        have hret : ret.val ≤ size - total :=
          ret.property.trans (Nat.le_of_eq (Memory.length_load ..))
        show Meets watch _ ((if ret.val = 0 then MonadExcept.throw (.fault .assertion)
          else sendLoop size fuel (total + ret.val) : SessionM Unit) s) _
        by_cases hzero : ret.val = 0
        · rw [if_pos hzero]
          exact ⟨rfl, fun _ _ h => by cases h⟩
        rw [if_neg hzero, after_some, Memory.drop_load _ _ hret, Nat.sub_sub]
        have hdone : Memory.load s.object (total + ret.val) (size - (total + ret.val)) = [] ↔
            total + ret.val = size := by
          rw [← List.length_eq_zero_iff, Memory.length_load]
          omega
        refine ih (total + ret.val) _ s (by omega) (by omega) (fun hmore => ?_) fun hend => ?_
        · rw [Line.toSend, if_neg (by rw [hdone]; omega)]
          rfl
        · rw [Line.toSend, if_pos (hdone.2 hend)]
    · exact ⟨rfl, fun _ _ _ => hclear (by omega)⟩

theorem load_object_frame (s : Session) {n : Nat} (hn : n ≤ 255)
    (hsize : s.buffer 1 = UInt8.ofNat n) :
    ∃ f : Frame, Memory.load s.object 0 (n + 2) = f.wire := by
  refine ⟨⟨s.buffer 0, Memory.load s.object 2 n, by rw [Memory.length_load]; exact hn⟩, ?_⟩
  rw [Memory.load_succ, Memory.load_succ]
  simp only [Frame.wire, Frame.size, Memory.length_load, ← hsize]
  rfl

theorem sendFromBuffer_meets {s : Session} {n : Nat} (hn : n ≤ 255)
    (hsize : s.buffer 1 = UInt8.ofNat n) :
    Meets watch .clear (sendFromBuffer (n + 2) s) fun r l' =>
      (stateOf r).connOk = s.connOk ∧ ∀ a s', r = .ok a s' → l' = .clear := by
  have hframe := load_object_frame s hn hsize
  refine (sendLoop_meets (n + 2) (n + 3) 0 .clear s (by omega) (by omega) (fun _ => hframe)
    (fun e => by omega)).mono fun r l' hr => ⟨by rw [hr.1], hr.2⟩

theorem sends_sendPackage : Sends sendPackage := by
  intro s
  have hlt := (s.buffer 1).toNat_lt
  exact sendFromBuffer_meets (by omega) (UInt8.ofNat_toNat).symm

theorem write_meets {g : (Nat → Byte) → Except Fault (Nat → Byte)} {k : Unit → SessionM α}
    {s : Session} {l : Line} {post : EStateM.Result Stop Session α → Line → Prop}
    (ok : ∀ buffer, g s.buffer = .ok buffer →
      Meets watch l (k () { s with buffer := buffer }) post)
    (error : ∀ e, post (.error e s) l) : Meets watch l ((write g >>= k) s) post := by
  show Meets watch l (Prog.bind (write g s) _) post
  cases hg : g s.buffer with
  | ok buffer => rw [write_ok hg]; exact ok buffer hg
  | error e => rw [write_error hg]; exact error _

theorem of_poke_ok {m m' : Nat → Byte} {ptr : Nat} {bs : List Byte} (h : poke m ptr bs = .ok m') :
    m' = Memory.store m ptr bs := by
  unfold poke at h
  split at h
  · cases h; rfl
  · cases h

theorem sends_packError (msg : Text) : Sends (packError msg) := by
  intro s
  unfold packError
  split
  · exact ⟨rfl, fun _ _ h => by cases h⟩
  · rename_i hlen
    refine write_meets (fun buffer hbuffer => ?_) fun e => ⟨rfl, fun _ _ h => by cases h⟩
    refine write_meets (fun buffer' hbuffer' => ?_) fun e => ⟨rfl, fun _ _ h => by cases h⟩
    have hsize : buffer' 1 = UInt8.ofNat msg.length := by
      rw [of_poke_ok hbuffer', of_poke_ok hbuffer]
      simp [Memory.store]
    exact sendFromBuffer_meets (s := { s with buffer := buffer' }) (by omega) hsize

theorem sends_replyError (what : Text) : Sends (replyError what) :=
  (sends_packError what).bind fun _ => sends_sendPackage

/-! ## The session -/

/-- A guarded operation that throws leaves the connection marked as broken. -/
theorem guarded_meets (h : Sends x) (s : Session) :
    Meets watch .clear (guarded x s) fun r l' => match r with
      | .ok _ s' => s'.connOk = s.connOk ∧ l' = .clear
      | .error _ s' => s'.connOk = false := by
  refine Meets.bind (h s) fun r l' hr => ?_
  cases r with
  | ok a s' => exact ⟨hr.1, hr.2 a s' rfl⟩
  | error e s' => exact rfl

/-- A turn leaves the line clear, or throws with the connection marked as broken. -/
theorem turn_meets (s : Session) :
    Meets watch .clear (turn s) fun r l' => match r with
      | .ok _ _ => l' = .clear
      | .error _ s' => s'.connOk = true → l' = .clear := by
  refine Routine.meets_bind (guarded_meets quiet_recvPackage.sends s) (fun header s' l' hr => ?_)
    fun e s' l' hr hok => by rw [hr] at hok; cases hok
  obtain ⟨-, rfl⟩ := hr
  cases header.Ok with
  | false => exact rfl
  | true =>
    refine Routine.meets_bind (quiet_dispatchPackage header s' .clear) (fun _ s₂ l₂ hr => ?_)
      fun e s₂ l₂ hr _ => hr.1
    obtain ⟨rfl, -⟩ := hr
    exact Routine.meets_bind (guarded_meets sends_sendPackage s₂) (fun _ s₃ l₃ hr => hr.2)
      fun e s₃ l₃ hr hok => by rw [hr] at hok; cases hok

theorem rethrow_meets (what : Text) (e : Stop) {s : Session} {l : Line}
    (h : s.connOk = true → l = .clear) :
    Meets watch l ((do if s.connOk then replyError what
                       MonadExcept.throw e : SessionM Bool) s)
      fun r _ => ∀ s', r ≠ .ok true s' := by
  cases hok : s.connOk with
  | false => exact fun s' e => by cases e
  | true =>
    rw [h hok]
    exact Routine.meets_bind (sends_replyError what s) (fun _ s' l' _ s'' e => by cases e)
      fun e s' l' _ s'' e => by cases e

/-- The catch clauses reply only while the connection is not marked, and go on only on a clear
line. -/
theorem clause_meets (thrown : Thrown) {s : Session} {l : Line} (h : s.connOk = true → l = .clear) :
    Meets watch l (clause thrown s) fun r l' => ∀ s', r = .ok true s' → l' = .clear := by
  cases thrown with
  | std what =>
    show Meets watch l ((if s.connOk then (do replyError what; Pure.pure true) else Pure.pure false :
      SessionM Bool) s) _
    cases hok : s.connOk with
    | false => exact fun s' e => by cases e
    | true =>
      rw [h hok]
      exact Routine.meets_bind (sends_replyError what s) (fun _ s' l' hr _ _ => hr.2 _ _ rfl)
        fun e s' l' hr _ e => by cases e
  | forcedUnwind => exact (rethrow_meets _ _ h).mono fun _ _ hr s' e => absurd e (hr s')
  | other => exact (rethrow_meets _ _ h).mono fun _ _ hr s' e => absurd e (hr s')

theorem iteration_meets (s : Session) :
    Meets watch .clear (iteration s) fun r l' => ∀ s', r = .ok true s' → l' = .clear := by
  refine Meets.bind (turn_meets s) fun r l' hr => ?_
  cases r with
  | ok again s' => exact fun _ _ => hr
  | error e s' =>
    cases e with
    | thrown x => exact clause_meets x hr
    | fault f => exact fun _ e => by cases e
    | outOfFuel => exact fun _ e => by cases e

theorem loop_meets (fuel : Nat) (s : Session) :
    Meets watch .clear (loop fuel s) fun _ _ => True := by
  induction fuel generalizing s with
  | zero => trivial
  | succ fuel ih =>
    intro stop
    refine ⟨.clear, rfl, ?_⟩
    cases stop with
    | true => trivial
    | false =>
      refine Routine.meets_bind (iteration_meets s) (fun again s' l' hr => ?_) ?_
      case refine_2 => exact fun _ _ _ _ => trivial
      cases again with
      | false => trivial
      | true =>
        rw [hr s' rfl]
        exact ih s'

theorem handlerRoutine_meets (fuel : Nat) (buffer : Nat → Byte) :
    Meets watch .clear (handlerRoutine fuel buffer) fun _ _ => True := loop_meets fuel _

/-! ## The frames -/

/-- The calls that have sent the bytes up to `left`, in order. -/
inductive Carries (bytes : List Byte) : List SendCall → List Byte → Prop where
  | start : Carries bytes [] bytes
  | more {calls : List SendCall} {left : List Byte} {ret : Nat} (h : Carries bytes calls left)
      (hret : ret ≤ left.length) : Carries bytes (calls ++ [⟨left, some ret⟩]) (left.drop ret)

def written (calls : List SendCall) : List Byte :=
  calls.flatMap fun call => call.bytes.take (call.sent.getD 0)

/-- The calls of a frame that is not finished, and what is left of it: so far, or given up after a
call that failed. -/
def Unfinished (f : Frame) (calls : List SendCall) (left : List Byte) : Prop :=
  left ≠ [] ∧ ∃ whole, Carries f.wire whole left ∧ (calls = whole ∨ calls = whole ++ [⟨left, none⟩])

/-- The calls since the last whole frame, by where the line stands. -/
def Line.Explains : Line → List SendCall → Prop
  | .clear, last => last = []
  | .amid left, last => left ≠ [] ∧ ∃ f : Frame, Carries f.wire last left
  | .dead, last => ∃ (f : Frame) (left : List Byte) (whole : List SendCall),
      left ≠ [] ∧ Carries f.wire whole left ∧ last = whole ++ [⟨left, none⟩]

theorem Carries.written {bytes left : List Byte} {calls : List SendCall}
    (h : Carries bytes calls left) : Calls.written calls ++ left = bytes := by
  induction h with
  | start => rfl
  | @more calls left ret h hret ih =>
    calc Calls.written (calls ++ [⟨left, some ret⟩]) ++ left.drop ret
        = Calls.written calls ++ (left.take ret ++ left.drop ret) := by
          simp [Calls.written, List.append_assoc]
      _ = Calls.written calls ++ left := by rw [List.take_append_drop]
      _ = bytes := ih

theorem wire_ne_nil (f : Frame) : f.wire ≠ [] := by simp [Frame.wire]

/-- A `send()` that the line admits goes on with a frame. -/
theorem carries_of_admits {l : Line} {last : List SendCall} {bytes : List Byte}
    (h : l.Explains last) (ha : l.admits bytes) :
    bytes ≠ [] ∧ ∃ f : Frame, Carries f.wire last bytes := by
  cases l with
  | clear =>
    obtain ⟨f, rfl⟩ := ha
    obtain rfl : last = [] := h
    exact ⟨wire_ne_nil f, f, .start⟩
  | amid left =>
    obtain rfl : bytes = left := ha
    exact h
  | dead => exact ha.elim

theorem sent_le {e : Event} {bytes : List Byte} {ret : Nat}
    (h : sendOf e = some ⟨bytes, some ret⟩) : ret ≤ bytes.length := by
  unfold sendOf at h
  split at h
  · rename_i ret'
    cases h
    exact ret'.property
  · cases h
  · cases h

/-- The calls of a run in which the line never objects. -/
theorem framed {es : List Event} {l : Line} (h : trackAll watch .clear es = some l) :
    ∃ (done : List (Frame × List SendCall)) (last : List SendCall),
      sends es = (done.map Prod.snd).flatten ++ last ∧
        (∀ g ∈ done, Carries g.1.wire g.2 []) ∧ l.Explains last := by
  induction es using List.reverseRecOn generalizing l with
  | nil => cases h; exact ⟨[], [], rfl, by simp, rfl⟩
  | append_singleton es e ih =>
    rw [trackAll_append] at h
    obtain ⟨l₀, h₀, hstep⟩ := Option.bind_eq_some_iff.1 h
    obtain ⟨done, last, hcalls, hdone, hlast⟩ := ih h₀
    have hwatch : watch l₀ e.1 e.2 = some l := by
      simpa [trackAll, Option.bind_eq_some_iff] using hstep
    unfold watch at hwatch
    cases hsend : sendOf e with
    | none =>
      rw [hsend] at hwatch
      cases hwatch
      exact ⟨done, last, by simp [sends, hsend, ← hcalls], hdone, hlast⟩
    | some call =>
      rw [hsend] at hwatch
      have hcalls' : sends (es ++ [e]) = (done.map Prod.snd).flatten ++ (last ++ [call]) := by
        rw [← List.append_assoc, ← hcalls]
        simp [sends, hsend]
      obtain ⟨bytes, sent⟩ := call
      by_cases hadmits : l₀.admits bytes
      · simp only [if_pos hadmits, Option.some.injEq] at hwatch
        obtain ⟨hne, f, hcarries⟩ := carries_of_admits hlast hadmits
        cases sent with
        | none => subst hwatch; exact ⟨done, _, hcalls', hdone, f, bytes, last, hne, hcarries, rfl⟩
        | some ret =>
          have hmore := hcarries.more (sent_le hsend)
          rw [after_some, Line.toSend] at hwatch
          split at hwatch
          · -- the frame is whole
            rename_i hnil
            subst hwatch
            refine ⟨done ++ [(f, last ++ [⟨bytes, some ret⟩])], [], by simp [hcalls'], ?_, rfl⟩
            intro g hg
            rcases List.mem_append.1 hg with hg | hg
            · exact hdone g hg
            · cases List.mem_singleton.1 hg
              rwa [hnil] at hmore
          · rename_i hleft
            subst hwatch
            exact ⟨done, _, hcalls', hdone, hleft, f, hmore⟩
      · simp only [if_neg hadmits] at hwatch
        cases hwatch

@[simp] theorem written_append (calls calls' : List SendCall) :
    written (calls ++ calls') = written calls ++ written calls' := List.flatMap_append

/-- Whole frames are written as they are. -/
theorem written_done {done : List (Frame × List SendCall)}
    (h : ∀ g ∈ done, Carries g.1.wire g.2 []) :
    written (done.map Prod.snd).flatten = (done.map fun g => g.1.wire).flatten := by
  induction done with
  | nil => rfl
  | cons g done ih =>
    have hg := (h g (List.mem_cons_self ..)).written
    rw [List.append_nil] at hg
    simp only [List.map_cons, List.flatten_cons, written_append, hg,
      ih fun g' hg' => h g' (List.mem_cons_of_mem _ hg')]

/-- The calls since the last whole frame have written the beginning of one. -/
theorem Line.Explains.unfinished {l : Line} {last : List SendCall} (h : l.Explains last) :
    last = [] ∧ written last = [] ∨
      ∃ f left, Unfinished f last left ∧ written last ++ left = f.wire := by
  cases l with
  | clear =>
    obtain rfl : last = [] := h
    exact .inl ⟨rfl, rfl⟩
  | amid left =>
    obtain ⟨hleft, f, hcarries⟩ := h
    exact .inr ⟨f, left, ⟨hleft, last, hcarries, .inl rfl⟩, hcarries.written⟩
  | dead =>
    obtain ⟨f, left, whole, hleft, hcarries, rfl⟩ := h
    refine .inr ⟨f, left, ⟨hleft, whole, hcarries, .inr rfl⟩, ?_⟩
    rw [written_append, show written [⟨left, none⟩] = [] by simp [written], List.append_nil]
    exact hcarries.written

/-- **Only whole frames, and no word after a broken one.** At any moment of any session the calls of
`send()` have carried whole frames, one after the other, and then at most the beginning of one more,
of which something is still left; the call that failed, if one has, was the last. -/
theorem writes_frames {fuel : Nat} {buffer : Nat → Byte} {es : List Event}
    {r : Option (EStateM.Result Stop Session Unit)} (h : Trace (handlerRoutine fuel buffer) es r) :
    ∃ (done : List (Frame × List SendCall)) (last : List SendCall) (tail : List Byte),
      sends es = (done.map Prod.snd).flatten ++ last ∧
      (∀ g ∈ done, Carries g.1.wire g.2 []) ∧
      (last = [] ∧ tail = [] ∨ ∃ f left, Unfinished f last left ∧ tail ++ left = f.wire) ∧
      written (sends es) = (done.map fun g => g.1.wire).flatten ++ tail := by
  obtain ⟨l, hline, -⟩ := (handlerRoutine_meets fuel buffer).sound h
  obtain ⟨done, last, hcalls, hdone, hlast⟩ := framed hline
  exact ⟨done, last, written last, hcalls, hdone, hlast.unfinished,
    by rw [hcalls, written_append, written_done hdone]⟩

/-- A `Ping` whose reply is cut off: one byte goes out, then the thread is cancelled. -/
def cutRun : List Event :=
  [⟨.doShutdown, false⟩, ⟨.recv 2, Except.ok ⟨[10, 0], by decide⟩⟩,
    ⟨.handle .ping (Memory.store (fun _ => 0) 0 [10, 0]), Except.ok ()⟩,
    ⟨.send [10, 0], Except.ok ⟨1, by decide⟩⟩, ⟨.send [0], Except.error .cancelled⟩]

theorem writes_frames_cut :
    ∃ r, Trace (handlerRoutine 1 fun _ => 0) cutRun (some r) ∧
      sends cutRun = [⟨[10, 0], some 1⟩, ⟨[0], none⟩] ∧
      ∃ (done : List (Frame × List SendCall)) (last : List SendCall) (tail : List Byte),
        sends cutRun = (done.map Prod.snd).flatten ++ last ∧
        (∀ g ∈ done, Carries g.1.wire g.2 []) ∧
        (last = [] ∧ tail = [] ∨ ∃ f left, Unfinished f last left ∧ tail ++ left = f.wire) ∧
        written (sends cutRun) = (done.map fun g => g.1.wire).flatten ++ tail := by
  have h : Trace (handlerRoutine 1 fun _ => 0) cutRun (some (.error (.thrown .forcedUnwind)
      ⟨Memory.store (Memory.store (fun _ => 0) 0 [10, 0]) 0 [10, 0], Server.errCode, false⟩)) :=
    .ask (.ask (.ask (.ask (.ask (.pure _)))))
  exact ⟨_, h, rfl, writes_frames h⟩

end Calls

end MbDaemon
