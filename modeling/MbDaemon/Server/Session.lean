import MbDaemon.Server.Turn
import MbDaemon.RPC.Stream

/-!
# Whole sessions

The loop takes the stream apart frame by frame. With every send succeeding it dispatches exactly the
requests of the stream, unless a response does not fit its frame (`dispatches_iff`). Whatever the
peer does, it ends by returning as long as no response overflows and no error reply has to be
refused (`returns_iff`): the catch clause that sends it has no clause of its own.
-/

namespace MbDaemon

open RPCDefs RPCProvider MbDaemon.Frame

namespace Server

/-- The outcome is a response or a `std::exception`. -/
def StdOutcome {k : Kind} (o : Outcome k) : Prop := ∀ x, o = .error x → ∃ what, x = .std what

/-- The outcome is a response or a `std::exception` with a text of at most 254 bytes. -/
def ShortOutcome {k : Kind} (o : Outcome k) : Prop :=
  ∀ x, o = .error x → ∃ what : Text, x = .std what ∧ what.length ≤ 254

theorem ShortOutcome.std {k : Kind} {o : Outcome k} (h : ShortOutcome o) : StdOutcome o := by
  intro x hx
  obtain ⟨what, rfl, -⟩ := h x hx
  exact ⟨what, rfl⟩

theorem handlerImpl_short {env : Env} (h : ∀ n p, ShortOutcome (env.handler n p)) (n : Nat)
    (p : Proc) : ShortOutcome (env.handlerImpl n p) := by
  cases p with
  | debugThrow =>
    intro x hx
    cases hx
    exact ⟨_, rfl, by decide⟩
  | shutdown | ping | debugBlock => intro x hx; cases hx
  | getStatus | flash | start | reset | connect | disconnect => exact h n _

theorem handlerImpl_std {env : Env} (h : ∀ n p, StdOutcome (env.handler n p)) (n : Nat)
    (p : Proc) : StdOutcome (env.handlerImpl n p) := by
  cases p with
  | debugThrow => intro x hx; cases hx; exact ⟨_, rfl⟩
  | shutdown | ping | debugBlock => intro x hx; cases hx
  | getStatus | flash | start | reset | connect | disconnect => exact h n _

/-- The response to the `n`-th dispatched frame, if there is one, fits a frame. -/
def ResponceFits (env : Env) (n : Nat) (f : Frame) : Prop :=
  ∀ p msg, Proc.ofId f.procId = some p → env.handlerImpl n p = .ok msg →
    encodedLength p.Responce msg ≤ 254

/-- What a frame leads to when the handler throws nothing but `std::exception`s. -/
theorem answer_cases {env : Env} (hstd : ∀ n p, StdOutcome (env.handler n p)) (n : Nat)
    (f : Frame) :
    (ResponceFits env n f ∧
      ((∃ r, env.answer n f = .reply r) ∨ env.answer n f = .unknown ∨
        ∃ p what, Proc.ofId f.procId = some p ∧ env.handlerImpl n p = .error (.std what) ∧
          env.answer n f = .error what)) ∨
    (¬ ResponceFits env n f ∧ env.answer n f = .overflow) := by
  unfold ResponceFits
  cases hp : Proc.ofId f.procId with
  | none => exact .inl ⟨fun p msg h => (by cases h), .inr (.inl (answer_of_unknown hp))⟩
  | some p =>
    cases hout : env.handlerImpl n p with
    | ok msg =>
      by_cases hlen : encodedLength p.Responce msg ≤ 254
      · refine .inl ⟨fun p' msg' h' hout' => ?_, .inl ⟨_, answer_of_fits hp hout hlen⟩⟩
        cases h'
        rw [hout] at hout'
        cases hout'
        exact hlen
      · exact .inr ⟨fun h => hlen (h p msg rfl hout), answer_of_overflows hp hout hlen⟩
    | error x =>
      obtain ⟨what, rfl⟩ := handlerImpl_std hstd n p x hout
      refine .inl ⟨fun p' msg' h' hout' => ?_,
        .inr (.inr ⟨p, what, rfl, hout, answer_of_throws hp hout⟩)⟩
      cases h'
      rw [hout] at hout'
      cases hout'

/-! ## A turn and its frame -/

/-- The number of bytes a dispatched frame is answered with. -/
def replyLength (env : Env) (n : Nat) (f : Frame) : Nat :=
  match env.answer n f with
  | .reply r => r.payload.length + 2
  | .error what => 2 * (what.length + 2)
  | .unknown => (echoSize f).toNat + 2
  | .overflow | .other _ => 0

/-- The answer to the `n`-th dispatched frame can be given after `sent` bytes: a response fits its
frame, and an error text fits a frame that the connection takes twice. -/
structure Answerable (env : Env) (conn : Conn) (n sent : Nat) (f : Frame) : Prop where
  responce : ResponceFits env n f
  error : ∀ p what, Proc.ofId f.procId = some p → env.handlerImpl n p = .error (.std what) →
    what.length ≤ 254 ∧ accepts conn (sent + 2 * (what.length + 2))

theorem accepts_mono {c : Conn} {n k : Nat} (h : accepts c k) (hle : n ≤ k) : accepts c n :=
  fun limit hlim => by
    have := h limit hlim
    omega

/-- The session can take its next turn; `stream` is what is left to read. -/
structure Serving (s : Session) (stream : List Byte) : Prop where
  inbound : s.rpc.conn.inbound = stream
  connOk : s.connOk = true
  code : s.rpc.errCode = errCode
  recvEnd : s.rpc.conn.recvEnd ≠ .cancelled

theorem Serving.took {s s' : Session} {f : Frame} {rest bytes : List Byte}
    (h : Serving s (f.wire ++ rest)) (took : Took s s' f rest bytes) : Serving s' rest where
  inbound := by rw [took.conn]
  connOk := took.connOk.trans h.connOk
  code := took.errCode.trans h.code
  recvEnd := by rw [took.conn]; exact h.recvEnd

/-- **The turn after the last request** leaves the loop: it finds an error frame, or the end of the
stream. -/
theorem last_turn (env : Env) {s : Session} {stream : List Byte} (h : Serving s stream)
    (hlast : requests stream = []) :
    ∃ s', iteration env s = .ok false s' ∧ s'.dispatched = s.dispatched ∧
      s'.rpc.conn.inbound = afterError stream := by
  cases hp : parse stream with
  | none =>
    rw [afterError_none hp]
    exact iteration_short env (by rw [h.inbound]; exact hp) h.recvEnd
  | some pair =>
    obtain ⟨f, rest⟩ := pair
    have hin := parse_some hp
    rw [hin] at hlast ⊢
    by_cases hid : f.procId = ProcIDs.error
    · have hi := iteration_error_frame env (h.inbound.trans hin) (hid.trans h.code.symm)
      refine ⟨_, hi, rfl, ?_⟩
      rw [afterError_wire, if_pos hid]
      rfl
    · rw [requests_wire hid] at hlast
      cases hlast

/-- What a turn does with the request at the head of the stream. -/
inductive TurnCases (env : Env) (s : Session) (f : Frame) (rest : List Byte) : Prop where
  | answered (s' : Session) (bytes : List Byte) (hi : iteration env s = .ok true s')
      (took : Took s s' f rest bytes) (length : bytes.length = replyLength env s.dispatched.length f)
      (accepted : accepts s.rpc.conn bytes.length)
      (answerable : Answerable env s.rpc.conn s.dispatched.length 0 f)
  | broken (s' : Session) (hi : iteration env s = .ok false s')
      (refused : ¬ accepts s.rpc.conn (replyLength env s.dispatched.length f))
      (answerable : Answerable env s.rpc.conn s.dispatched.length 0 f)
  | stopped (e : Stop) (s' : Session) (hi : iteration env s = .error e s')
      (unanswerable : ¬ Answerable env s.rpc.conn s.dispatched.length 0 f)

theorem turn_cases {env : Env} (hstd : ∀ n p, StdOutcome (env.handler n p)) {s : Session}
    {f : Frame} {rest : List Byte} (h : Serving s (f.wire ++ rest))
    (hid : f.procId ≠ ProcIDs.error) : TurnCases env s f rest := by
  have hne : f.procId ≠ s.rpc.errCode := fun e => hid (e.trans h.code)
  rcases answer_cases hstd s.dispatched.length f with ⟨hfits, hans⟩ | ⟨hfits, hans⟩
  · -- without an error text nothing but the response has to fit
    have quiet : (∀ what, env.answer s.dispatched.length f ≠ .error what) →
        Answerable env s.rpc.conn s.dispatched.length 0 f := fun hno =>
      ⟨hfits, fun p what hp hout => absurd (answer_of_throws hp hout) (hno what)⟩
    rcases hans with ⟨r, hans⟩ | hans | ⟨p, what, hp, hout, hans⟩
    · have hlen : r.payload.length + 2 = replyLength env s.dispatched.length f := by
        simp only [replyLength, hans]
      have hq := quiet (by intro what h; rw [hans] at h; cases h)
      obtain ⟨hok, hbroken⟩ := iteration_reply h.inbound hne hans
      by_cases hacc : accepts s.rpc.conn (r.payload.length + 2)
      · obtain ⟨s', hi, took⟩ := hok hacc
        exact .answered s' _ hi took hlen hacc hq
      · obtain ⟨s', hi⟩ := hbroken hacc
        exact .broken s' hi (by rw [← hlen]; exact hacc) hq
    · have hlen : (echoSize f).toNat + 2 = replyLength env s.dispatched.length f := by
        simp only [replyLength, hans]
      have hq := quiet (by intro what h; rw [hans] at h; cases h)
      obtain ⟨hok, hbroken⟩ := iteration_unknown h.inbound hne hans
      by_cases hacc : accepts s.rpc.conn ((echoSize f).toNat + 2)
      · obtain ⟨s', bytes, hi, hbytes, took⟩ := hok hacc
        exact .answered s' bytes hi took (hbytes.trans hlen) (by rw [hbytes]; exact hacc) hq
      · obtain ⟨s', hi⟩ := hbroken hacc
        exact .broken s' hi (by rw [← hlen]; exact hacc) hq
    · obtain ⟨hok, hbad⟩ := iteration_error h.inbound hne h.code h.connOk hans
      by_cases hgood : what.length ≤ 254 ∧ accepts s.rpc.conn (2 * (what.length + 2))
      · obtain ⟨hlen, hacc⟩ := hgood
        obtain ⟨s', hi, took⟩ := hok hlen hacc
        have hbytes : ((textFrame what hlen).wire ++ (textFrame what hlen).wire).length =
            2 * (what.length + 2) := by
          simp only [List.length_append, length_wire, textFrame]
          omega
        refine .answered s' _ hi took ?_ (by rw [hbytes]; exact hacc) ⟨hfits, ?_⟩
        · rw [hbytes]
          simp only [replyLength, hans]
        · intro p' what' hp' hout'
          have hsame := (answer_of_throws hp' hout').symm.trans hans
          cases hsame
          rw [Nat.zero_add]
          exact ⟨hlen, hacc⟩
      · obtain ⟨e, s', hi⟩ := hbad hgood
        refine .stopped e s' hi fun hans' => hgood ?_
        have herror := hans'.error p what hp hout
        rwa [Nat.zero_add] at herror
  · obtain ⟨e, s', hi⟩ := iteration_overflow h.inbound hne hans
    exact .stopped _ s' hi fun hans' => hfits hans'.responce

/-! ## The loop -/

section

variable {env : Env} {s s' : Session} {fuel : Nat}

theorem loop_shutdown (h : env.doShutdown s.dispatched.length = true) :
    loop env (fuel + 1) s = .ok () s := by
  simp only [loop, bind, EStateM.bind, get, getThe, MonadStateOf.get, EStateM.get, h, if_true]
  rfl

theorem loop_again (h : env.doShutdown s.dispatched.length = false)
    (hi : iteration env s = .ok true s') : loop env (fuel + 1) s = loop env fuel s' := by
  simp only [loop, bind, EStateM.bind, get, getThe, MonadStateOf.get, EStateM.get, h,
    Bool.false_eq_true, if_false, hi]
  rfl

theorem loop_leave (h : env.doShutdown s.dispatched.length = false)
    (hi : iteration env s = .ok false s') : loop env (fuel + 1) s = .ok () s' := by
  simp only [loop, bind, EStateM.bind, get, getThe, MonadStateOf.get, EStateM.get, h,
    Bool.false_eq_true, if_false, hi]
  rfl

theorem loop_error (h : env.doShutdown s.dispatched.length = false) {e : Stop}
    (hi : iteration env s = .error e s') : loop env (fuel + 1) s = .error e s' := by
  simp only [loop, bind, EStateM.bind, get, getThe, MonadStateOf.get, EStateM.get, h,
    Bool.false_eq_true, if_false, hi]

end

theorem forall_requests {P : Nat → Frame → Prop} {f : Frame} {fs : List Frame} {n : Nat} :
    (∀ i g, (f :: fs)[i]? = some g → P (n + i) g) ↔
      P n f ∧ ∀ i g, fs[i]? = some g → P (n + 1 + i) g := by
  constructor
  · intro h
    refine ⟨h 0 f rfl, fun i g hg => ?_⟩
    have := h (i + 1) g hg
    rwa [show n + (i + 1) = n + 1 + i by omega] at this
  · rintro ⟨h0, hs⟩ i g hg
    cases i with
    | zero => cases hg; exact h0
    | succ i =>
      have := hs i g hg
      rwa [show n + 1 + i = n + (i + 1) by omega] at this

/-! ## What is dispatched -/

/-- The session returns, has dispatched exactly the requests of the stream, and has read up to the
first error frame or to the end. -/
def Dispatches (result : EStateM.Result Stop Session Unit) (before : List Frame)
    (stream : List Byte) : Prop :=
  ∃ s, result = .ok () s ∧ s.dispatched = before ++ requests stream ∧
    s.rpc.conn.inbound = afterError stream

/-- With every send succeeding, short texts can always be sent. -/
theorem answerable_iff_fits {env : Env} (hshort : ∀ n p, ShortOutcome (env.handler n p))
    {conn : Conn} (hacc : ∀ n, accepts conn n) (n sent : Nat) (f : Frame) :
    Answerable env conn n sent f ↔ ResponceFits env n f := by
  refine ⟨fun h => h.responce, fun h => ⟨h, fun p what hp hout => ⟨?_, hacc _⟩⟩⟩
  obtain ⟨text, htext, hlen⟩ := handlerImpl_short hshort n p _ hout
  cases htext
  exact hlen

theorem loop_dispatches {env : Env} (hshort : ∀ n p, ShortOutcome (env.handler n p))
    (hrun : ∀ n, env.doShutdown n = false) (stream : List Byte) :
    ∀ (s : Session) (fuel : Nat), Serving s stream → stream.length < fuel →
      s.rpc.conn.sendLimit = none →
      (Dispatches (loop env fuel s) s.dispatched stream ↔
        ∀ i f, (requests stream)[i]? = some f →
          ResponceFits env (s.dispatched.length + i) f) := by
  have hstd : ∀ n p, StdOutcome (env.handler n p) := fun n p => (hshort n p).std
  induction stream using request_induction with
  | last stream hlast =>
    intro s fuel h hfuel hlim
    cases fuel with
    | zero => omega
    | succ fuel =>
      obtain ⟨s', hi, hdisp, hin⟩ := last_turn env h hlast
      rw [loop_leave (hrun _) hi]
      refine iff_of_true ⟨s', rfl, ?_, hin⟩ (fun i f hf => by simp [hlast] at hf)
      rw [hlast, List.append_nil, hdisp]
  | step f rest hid ih =>
    intro s fuel h hfuel hlim
    rw [List.length_append, length_wire] at hfuel
    have hacc : ∀ n, accepts s.rpc.conn n := accepts_unlimited hlim
    have hfits := answerable_iff_fits hshort hacc s.dispatched.length 0 f
    cases fuel with
    | zero => omega
    | succ fuel =>
      rw [requests_wire hid, forall_requests]
      cases turn_cases hstd h hid with
      | answered s' bytes hi took _ _ hans =>
        rw [loop_again (hrun _) hi, and_iff_right (hfits.1 hans)]
        have htail := ih s' fuel (h.took took) (by omega) (by rw [took.conn]; exact hlim)
        rw [took.dispatched, List.length_append] at htail
        refine Iff.trans ?_ htail
        unfold Dispatches
        rw [requests_wire hid, afterError_wire, if_neg hid, List.append_assoc,
          List.singleton_append]
      | broken s' _ refused => exact absurd (hacc _) refused
      | stopped e s' hi hans =>
        rw [loop_error (hrun _) hi]
        refine iff_of_false ?_ (fun h => hans (hfits.2 h.1))
        rintro ⟨s'', h, -⟩
        cases h

/-- **A session dispatches exactly the requests of its stream iff every response fits its frame**:
however the stream comes in, each complete frame before the first error frame is dispatched once and
in order, a truncated one is not, and the session ends at that error frame or at the end of the
stream. A response over 254 bytes is packed past the end of the buffer. The null messages of
`Shutdown`, `Ping` and `DebugBlock` are taken as empty. -/
theorem dispatches_iff {env : Env} (hshort : ∀ n p, ShortOutcome (env.handler n p))
    (hrun : ∀ n, env.doShutdown n = false) {conn : Conn} (hlim : conn.sendLimit = none)
    (hend : conn.recvEnd ≠ .cancelled) (buffer : Nat → Byte) :
    Dispatches (handlerRoutine env conn buffer) [] conn.inbound ↔
      ∀ n f, (requests conn.inbound)[n]? = some f → ResponceFits env n f := by
  have := loop_dispatches hshort hrun conn.inbound (Session.start conn buffer)
    (conn.inbound.length + 1) ⟨rfl, rfl, rfl, hend⟩ (by omega) hlim
  simp only [Session.start, List.length_nil, Nat.zero_add] at this
  exact this

/-- A peer that has sent `inbound` and takes `sendLimit` bytes. -/
def peer (inbound : List Byte) (sendLimit : Option Nat) : Conn where
  inbound := inbound
  recvEnd := .closed
  recvSplit := fun _ => 0
  outbound := []
  sendLimit := sendLimit
  sendErrno := ⟨104, ascii "Connection reset by peer"⟩
  sendSplit := fun _ => 0

/-- The frame of a request of type `Empty`. -/
def plain (p : Proc) : Frame := ⟨p.ID, [], by decide⟩

def refusing : Env where
  handler := fun _ _ => .error (.std (ascii "Port is not acquired"))
  doShutdown := fun _ => false

theorem refusing_short (n : Nat) (p : Proc) : ShortOutcome (refusing.handler n p) := by
  intro x hx
  cases hx
  exact ⟨_, rfl, by decide⟩

theorem refusing_fits (n : Nat) (f : Frame) : ResponceFits refusing n f := by
  intro p msg _ hout
  cases p with
  | shutdown | ping | debugBlock => exact Nat.zero_le _
  | getStatus | flash | start | reset | connect | disconnect | debugThrow => cases hout

/-- Two requests, an error frame, and a byte behind it. -/
def visit : List Byte :=
  (plain .debugThrow).wire ++
    ((plain .ping).wire ++ (Frame.wire ⟨ProcIDs.error, [], by decide⟩ ++ [1]))

theorem requests_visit : requests visit = [plain .debugThrow, plain .ping] := by
  unfold visit
  rw [requests_wire (by decide), requests_wire (by decide), requests_error rfl]

theorem dispatches_visit :
    Dispatches (handlerRoutine refusing (peer visit none) fun _ => 0) [] visit :=
  (@dispatches_iff refusing refusing_short (fun _ => rfl) (peer visit none) rfl (by decide) _).2
    fun n f _ => refusing_fits n f

/-- A handler whose client has connected with the longest name that a request holds. The status with
this name reaches over the end of `Buffer`, where `ErrCode` lies; a name of bytes 10 makes this the id
of `Ping`. -/
def flooded : Env where
  handler := fun
    | _, .getStatus => .ok
      { Description := { Data := fun _ => 82, Size := 7 }, Acquired := true,
        User := { Name := { Data := fun _ => 10, Size := 249 }, PID := 1 } }
    | _, _ => .error (.std (ascii "Port is already acquired"))
  doShutdown := fun _ => false

/-- **A status with a long name ends the session** before the request behind it. -/
theorem flooded_stops :
    ¬ Dispatches
      (handlerRoutine flooded (peer ((plain .getStatus).wire ++ (plain .ping).wire) none) fun _ => 0)
      [] ((plain .getStatus).wire ++ (plain .ping).wire) := by
  have hin : (Session.start (peer ((plain .getStatus).wire ++ (plain .ping).wire) none)
      fun _ => 0).rpc.conn.inbound = (plain .getStatus).wire ++ (plain .ping).wire := rfl
  have hans : flooded.answer 0 (plain .getStatus) = .overflow :=
    answer_of_overflows (p := .getStatus) rfl rfl (by decide)
  obtain ⟨f, s', hi⟩ := iteration_overflow hin (by decide) hans
  have hrun : handlerRoutine flooded
      (peer ((plain .getStatus).wire ++ (plain .ping).wire) none) (fun _ => 0) =
      .error (.fault f) s' := loop_error rfl hi
  rw [hrun]
  rintro ⟨s, h, -⟩
  cases h

/-! ## How the session ends -/

/-- The number of bytes the frames are answered with, the first of them dispatched as the `n`-th. -/
def replied (env : Env) : Nat → List Frame → Nat
  | _, [] => 0
  | n, f :: fs => replyLength env n f + replied env (n + 1) fs

/-- Every request that the session gets to can be answered: it gets to a request when no shutdown
has been asked for and the connection has taken the replies before. -/
def AllAnswerable (env : Env) (conn : Conn) (n : Nat) (fs : List Frame) : Prop :=
  ∀ i f, fs[i]? = some f → (∀ j ≤ i, env.doShutdown (n + j) = false) →
    accepts conn (replied env n (fs.take i)) →
    Answerable env conn (n + i) (replied env n (fs.take i)) f

theorem accepts_took {s s' : Session} {f : Frame} {rest bytes : List Byte}
    (took : Took s s' f rest bytes) (n : Nat) :
    accepts s'.rpc.conn n ↔ accepts s.rpc.conn (bytes.length + n) := by
  rw [took.conn]
  simp only [accepts, List.length_append, Nat.add_assoc]

theorem answerable_took {env : Env} {s s' : Session} {f g : Frame} {rest bytes : List Byte}
    (took : Took s s' f rest bytes) (n sent : Nat) :
    Answerable env s'.rpc.conn n sent g ↔
      Answerable env s.rpc.conn n (bytes.length + sent) g := by
  constructor
  · rintro ⟨hr, he⟩
    refine ⟨hr, fun p what hp hout => ?_⟩
    have := he p what hp hout
    rwa [accepts_took took, ← Nat.add_assoc] at this
  · rintro ⟨hr, he⟩
    refine ⟨hr, fun p what hp hout => ?_⟩
    rw [accepts_took took, ← Nat.add_assoc]
    exact he p what hp hout

/-- `AllAnswerable` for the requests `fs` behind `f`, which is the `n`-th. -/
def LaterAnswerable (env : Env) (conn : Conn) (n : Nat) (f : Frame) (fs : List Frame) : Prop :=
  ∀ i g, fs[i]? = some g → (∀ j ≤ i, env.doShutdown (n + 1 + j) = false) →
    accepts conn (replyLength env n f + replied env (n + 1) (fs.take i)) →
    Answerable env conn (n + 1 + i) (replyLength env n f + replied env (n + 1) (fs.take i)) g

theorem allAnswerable_cons {env : Env} {conn : Conn} {n : Nat} {f : Frame} {fs : List Frame}
    (hrun : env.doShutdown n = false) (h0 : accepts conn 0) :
    AllAnswerable env conn n (f :: fs) ↔
      Answerable env conn n 0 f ∧ LaterAnswerable env conn n f fs := by
  constructor
  · intro h
    refine ⟨h 0 f rfl (fun j hj => ?_) h0, fun i g hg hj hacc => ?_⟩
    · rw [Nat.le_zero.1 hj]
      exact hrun
    · have := h (i + 1) g hg (fun j hj' => ?_) hacc
      · rwa [show n + (i + 1) = n + 1 + i by omega] at this
      · cases j with
        | zero => exact hrun
        | succ j =>
          have := hj j (by omega)
          rwa [show n + 1 + j = n + (j + 1) by omega] at this
  · rintro ⟨hhead, htail⟩ i g hg hj hacc
    cases i with
    | zero => cases hg; exact hhead
    | succ i =>
      have := htail i g hg (fun j hj' => ?_) hacc
      · rwa [show n + 1 + i = n + (i + 1) by omega] at this
      · have := hj (j + 1) (by omega)
        rwa [show n + (j + 1) = n + 1 + j by omega] at this

theorem loop_returns {env : Env} (hstd : ∀ n p, StdOutcome (env.handler n p))
    (stream : List Byte) :
    ∀ (s : Session) (fuel : Nat), Serving s stream → stream.length < fuel →
      accepts s.rpc.conn 0 →
      ((∃ s', loop env fuel s = .ok () s') ↔
        AllAnswerable env s.rpc.conn s.dispatched.length (requests stream)) := by
  induction stream using request_induction with
  | last stream hlast =>
    intro s fuel h hfuel h0
    cases fuel with
    | zero => omega
    | succ fuel =>
      refine iff_of_true ?_ (fun i f hf => by simp [hlast] at hf)
      cases hrun : env.doShutdown s.dispatched.length with
      | true => exact ⟨s, loop_shutdown hrun⟩
      | false =>
        obtain ⟨s', hi, -⟩ := last_turn env h hlast
        exact ⟨s', loop_leave hrun hi⟩
  | step f rest hid ih =>
    intro s fuel h hfuel h0
    rw [List.length_append, length_wire] at hfuel
    cases fuel with
    | zero => omega
    | succ fuel =>
      cases hrun : env.doShutdown s.dispatched.length with
      | true =>
        refine iff_of_true ⟨s, loop_shutdown hrun⟩ (fun i g _ hj _ => ?_)
        have := hj 0 (Nat.zero_le _)
        rw [Nat.add_zero, hrun] at this
        cases this
      | false =>
        rw [requests_wire hid, allAnswerable_cons hrun h0]
        cases turn_cases hstd h hid with
        | answered s' bytes hi took hbytes hacc hans =>
          rw [loop_again hrun hi, and_iff_right hans]
          have htail := ih s' fuel (h.took took) (by omega) ((accepts_took took 0).2 hacc)
          rw [took.dispatched, List.length_append] at htail
          rw [htail]
          unfold AllAnswerable LaterAnswerable
          simp only [accepts_took took, answerable_took took, hbytes, List.length_singleton]
        | broken s' hi refused hans =>
          -- the session does not get to the requests behind this one
          refine iff_of_true ⟨s', loop_leave hrun hi⟩ ⟨hans, fun i g _ _ hacc => ?_⟩
          exact absurd (accepts_mono hacc (by omega)) refused
        | stopped e s' hi hans =>
          rw [loop_error hrun hi]
          refine iff_of_false ?_ (fun h => hans h.1)
          rintro ⟨s'', h⟩
          cases h

/-- **A session ends by returning iff it can answer every request it gets to**: no response
overflows its frame, and no error text is too long for one or has to be given up half sent. The
clause that catches the handler's exceptions sends the reply itself, so what is thrown there leaves
the thread. `Shutdown`, `Ping` and `DebugBlock` return a null message, which is taken as empty. -/
theorem returns_iff {env : Env} (hstd : ∀ n p, StdOutcome (env.handler n p)) {conn : Conn}
    (hnew : conn.outbound = []) (hend : conn.recvEnd ≠ .cancelled) (buffer : Nat → Byte) :
    (∃ s, handlerRoutine env conn buffer = .ok () s) ↔
      AllAnswerable env conn 0 (requests conn.inbound) :=
  loop_returns hstd conn.inbound (Session.start conn buffer) (conn.inbound.length + 1)
    ⟨rfl, rfl, rfl, hend⟩ (by omega) (fun limit _ => by simp [Session.start, hnew])

/-- The connection takes both copies of the error reply and nothing more. -/
theorem returns_visit :
    ∃ s, handlerRoutine refusing (peer visit (some 34)) (fun _ => 0) = .ok () s := by
  refine (@returns_iff refusing (fun n p => (refusing_short n p).std) (peer visit (some 34)) rfl
    (by decide) _).2 fun i f hf _ _ => ⟨refusing_fits _ f, fun p what hp hout => ?_⟩
  have hreq : requests (peer visit (some 34)).inbound = [plain .debugThrow, plain .ping] :=
    requests_visit
  rw [hreq] at hf ⊢
  match i, hf with
  | 0, hf =>
    cases hf
    cases hp
    cases hout
    refine ⟨by decide, fun limit hlim => ?_⟩
    cases hlim
    decide
  | 1, hf =>
    cases hf
    cases hp
    cases hout
  | i + 2, hf => simp at hf

/-- **An error reply to a peer that has gone leaves the session** as an exception. -/
theorem escapes_visit :
    ∃ what s, handlerRoutine refusing (peer visit (some 0)) (fun _ => 0) =
      .error (.thrown (.std what)) s :=
  ⟨_, _, rfl⟩

end Server

end MbDaemon
