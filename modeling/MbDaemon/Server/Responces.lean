import MbDaemon.Server.Session

/-!
# The responses that handlers return

`HandlerImpl<Proc>` returns a `unique_ptr` to the response, and `GenericHandler` dereferences it.
`Handler` allocates a response for every procedure of its own; `Shutdown`, `Ping` and `DebugBlock`
return `{}`, which points nowhere. And an id without a case in the switch of `DispatchPackage`
packs nothing, and the reply step sends what lies in the buffer. `answered_iff` says for which ids
and which outcomes of the handler a request gets an answer of its own.
-/

namespace MbDaemon

open RPCDefs RPCProvider

namespace Server

/-! ## Pointers -/

/-- What `HandlerImpl<Proc>` does: it returns a pointer, which may be null, or throws. -/
abbrev Returned (k : Kind) := Except Thrown (Option (Outgoing k))

/-- A handler that returns an object it has allocated, unless it throws. -/
def Outcome.allocated {k : Kind} (o : Outcome k) : Returned k := o.map some

def Env.returned (env : Env) (n : Nat) : (p : Proc) → Returned p.Responce
  | .shutdown => .ok none
  | .ping => .ok none
  | .debugBlock => .ok none
  | .debugThrow => .error (.std (ascii "Debug exception"))
  | .getStatus => (env.handler n .getStatus).allocated
  | .flash => (env.handler n .flash).allocated
  | .start => (env.handler n .start).allocated
  | .reset => (env.handler n .reset).allocated
  | .connect => (env.handler n .connect).allocated
  | .disconnect => (env.handler n .disconnect).allocated

/-- The procedures that return `{}`. -/
def returnsNull (p : Proc) : Bool := p ∈ [.shutdown, .ping, .debugBlock]

theorem returned_null {p : Proc} (h : returnsNull p = true) (env : Env) (n : Nat) :
    env.returned n p = .ok none := by
  cases p with
  | shutdown | ping | debugBlock => rfl
  | getStatus | flash | start | reset | connect | disconnect | debugThrow => cases h

theorem returned_eq {p : Proc} (h : returnsNull p = false) (env : Env) (n : Nat) :
    env.returned n p = (env.handlerImpl n p).allocated := by
  cases p with
  | shutdown | ping | debugBlock => cases h
  | getStatus | flash | start | reset | connect | disconnect | debugThrow => rfl

theorem allocated_ne_null {k : Kind} (o : Outcome k) : o.allocated ≠ .ok none := by
  cases o with
  | ok msg => exact fun h => by cases h
  | error x => exact fun h => by cases h

/-! ## What a turn puts on the connection -/

def left {α : Type} : EStateM.Result Stop Session α → Session
  | .ok _ s => s
  | .error _ s => s

/-- From `s` to `s'` a first part of `bytes` has been sent, and all of it if the connection takes
as much. -/
def Emits (s s' : Session) (bytes : List Byte) : Prop :=
  ∃ part, part <+: bytes ∧ s'.rpc.conn.outbound = s.rpc.conn.outbound ++ part ∧
    (accepts s.rpc.conn bytes.length → part = bytes)

theorem left_switch (env : Env) (n : Nat) (id : Byte) (s : Session) :
    (left (switch env n id s)).rpc.conn = s.rpc.conn := by
  unfold switch
  cases Proc.ofId id with
  | none => rfl
  | some p =>
    simp only [genericHandler]
    cases env.handlerImpl n p with
    | error x => rfl
    | ok msg =>
      have hconn := packMsg_conn p.ID p.Responce msg s.rpc
      simp only [lift]
      cases hpack : packMsg p.ID p.Responce msg s.rpc <;> rw [hpack] at hconn <;> exact hconn

theorem switch_throws {env : Env} {n : Nat} {id : Byte} {p : Proc} (hp : Proc.ofId id = some p)
    {x : Thrown} (hout : env.handlerImpl n p = .error x) (s : Session) :
    switch env n id s = .error (.thrown x) s := by
  unfold switch genericHandler
  rw [hp]
  simp only [hout]
  rfl

variable {env : Env} {s : Session} {f : Frame} {rest : List Byte}

/-- A turn whose switch returns puts out what the reply step does. -/
theorem left_iteration_returns (h : s.rpc.conn.inbound = f.wire ++ rest)
    (hid : f.procId ≠ s.rpc.errCode) {s₁ : Session}
    (hswitch : switch env s.dispatched.length f.procId (s.dispatch f rest) = .ok () s₁) :
    (left (iteration env s)).rpc = after (RPCProvider.sendPackage s₁.rpc) := by
  have hturn := turn_received env h hid
  simp only [bind, EStateM.bind, hswitch, guarded, lift] at hturn
  unfold iteration catching
  rw [hturn]
  cases hsend : RPCProvider.sendPackage s₁.rpc with
  | ok a rpc => rfl
  | error e rpc =>
    cases e with
    | thrown x => cases x <;> rfl
    | fault e => rfl
    | outOfFuel => rfl

theorem emits_reply (h : s.rpc.conn.inbound = f.wire ++ rest) (hid : f.procId ≠ s.rpc.errCode)
    {r : Frame} (ha : env.answer s.dispatched.length f = .reply r) :
    Emits s (left (iteration env s)) r.wire := by
  have hswitch := switch_cases env s.dispatched.length f (s.dispatch f rest)
  rw [ha] at hswitch
  have hlen := reply_length ha
  have hleft : (left (iteration env s)).rpc =
      after (RPCProvider.sendPackage ((s.dispatch f rest).packed r).rpc) :=
    left_iteration_returns h hid hswitch
  obtain ⟨part, hpart, hout⟩ := sendPackage_prefix (s.dispatch f rest).rpc hlen
  refine ⟨part, hpart, by rw [hleft]; exact hout, fun hacc => ?_⟩
  rw [sendPackage_ok (s := (s.dispatch f rest).rpc) hlen hacc] at hout
  have hall : s.rpc.conn.outbound ++ r.wire = s.rpc.conn.outbound ++ part := hout
  exact (List.append_cancel_left hall).symm

def replyText : Thrown → Text
  | .std what => what
  | .forcedUnwind => ascii "Server closed"
  | .other => ascii "Unknown exception"

theorem left_clause (hconn : s.connOk = true) (x : Thrown) :
    (left (clause x s)).rpc = (left (replyError (replyText x) s)).rpc := by
  cases x with
  | std what =>
    simp only [clause, bind, EStateM.bind, get, getThe, MonadStateOf.get, EStateM.get, hconn,
      if_true, replyText]
    cases replyError what s <;> rfl
  | forcedUnwind =>
    simp only [clause, bind, EStateM.bind, get, getThe, MonadStateOf.get, EStateM.get, hconn,
      if_true, replyText]
    cases replyError (ascii "Server closed") s <;> rfl
  | other =>
    simp only [clause, bind, EStateM.bind, get, getThe, MonadStateOf.get, EStateM.get, hconn,
      if_true, replyText]
    cases replyError (ascii "Unknown exception") s <;> rfl

theorem left_replyError (what : Text) (s : Session) :
    (left (replyError what s)).rpc = after ((do packError what; sendPackage : RPC Unit) s.rpc) := by
  unfold replyError
  simp only [bind, EStateM.bind, lift]
  cases packError what s.rpc with
  | error e rpc => rfl
  | ok a rpc => cases hsend : sendPackage rpc <;> simp only [hsend] <;> rfl

theorem emits_replyError {what : Text} (hlen : what.length ≤ 254) :
    Emits s (left (replyError what s))
      ((s.rpc.errorFrame what hlen).wire ++ (s.rpc.errorFrame what hlen).wire) := by
  have hframe : (s.rpc.errorFrame what hlen).payload.length ≤ 254 := hlen
  have hpack : packError what s.rpc =
      sendPackage (s.rpc.packed (s.rpc.errorFrame what hlen)) :=
    (packError_eq hlen).trans (sendPackage_packed s.rpc _).symm
  unfold Emits
  rw [left_replyError]
  simp only [bind, EStateM.bind, hpack]
  by_cases hfirst : accepts s.rpc.conn (what.length + 2)
  · rw [sendPackage_ok hframe hfirst]
    obtain ⟨part, hpart, hout⟩ := sendPackage_prefix
      (s.rpc.posted (s.rpc.errorFrame what hlen)) hframe
    refine ⟨(s.rpc.errorFrame what hlen).wire ++ part, (List.prefix_append_right_inj _).mpr hpart,
      hout.trans (List.append_assoc ..), fun hacc => ?_⟩
    have hsecond : accepts (s.rpc.posted (s.rpc.errorFrame what hlen)).conn
        (what.length + 2) := fun limit hlim => by
      have := hacc limit hlim
      simp only [posted, List.length_append, Frame.length_wire, errorFrame] at this ⊢
      omega
    rw [sendPackage_ok (s := s.rpc.posted (s.rpc.errorFrame what hlen)) hframe hsecond] at hout
    have hall : (s.rpc.posted (s.rpc.errorFrame what hlen)).conn.outbound ++
        (s.rpc.errorFrame what hlen).wire =
          (s.rpc.posted (s.rpc.errorFrame what hlen)).conn.outbound ++ part := hout
    rw [← List.append_cancel_left hall]
  · obtain ⟨part, hpart, hout⟩ := sendPackage_prefix s.rpc hframe
    obtain ⟨text, rpc, hsend⟩ := sendFromBuffer_error (n := what.length + 2)
      (s := s.rpc.packed (s.rpc.errorFrame what hlen)) (by omega) hfirst
    have hfail := (sendPackage_packed s.rpc (s.rpc.errorFrame what hlen)).trans hsend
    rw [hfail] at hout ⊢
    refine ⟨part, hpart.trans (List.prefix_append _ _), hout, fun hacc => absurd ?_ hfirst⟩
    refine accepts_mono hacc ?_
    simp [errorFrame]

theorem emits_error (h : s.rpc.conn.inbound = f.wire ++ rest) (hid : f.procId ≠ s.rpc.errCode)
    (hconn : s.connOk = true) {x : Thrown}
    (hswitch : switch env s.dispatched.length f.procId (s.dispatch f rest) =
      .error (.thrown x) (s.dispatch f rest))
    (hlen : (replyText x).length ≤ 254) :
    Emits s (left (iteration env s)) ((s.rpc.errorFrame (replyText x) hlen).wire ++
      (s.rpc.errorFrame (replyText x) hlen).wire) := by
  have hleft := left_clause (s := s.dispatch f rest) hconn x
  rw [← iteration_throws h hid hswitch] at hleft
  obtain ⟨part, hpart, hout, hall⟩ := emits_replyError (s := s.dispatch f rest) hlen
  exact ⟨part, hpart, by rw [hleft]; exact hout, hall⟩

/-- An error text that no frame holds is not sent. -/
theorem silent_error (h : s.rpc.conn.inbound = f.wire ++ rest) (hid : f.procId ≠ s.rpc.errCode)
    (hconn : s.connOk = true) {x : Thrown}
    (hswitch : switch env s.dispatched.length f.procId (s.dispatch f rest) =
      .error (.thrown x) (s.dispatch f rest))
    (hlen : 254 < (replyText x).length) :
    (left (iteration env s)).rpc.conn.outbound = s.rpc.conn.outbound := by
  have hleft := left_clause (s := s.dispatch f rest) hconn x
  rw [← iteration_throws h hid hswitch, left_replyError] at hleft
  obtain ⟨e, rpc, hpack, hkept⟩ := packError_long (s := (s.dispatch f rest).rpc) hlen
  simp only [bind, EStateM.bind, hpack, after] at hleft
  rw [hleft, hkept]
  rfl

/-- Nor is a response that no frame holds. -/
theorem silent_overflow (h : s.rpc.conn.inbound = f.wire ++ rest) (hid : f.procId ≠ s.rpc.errCode)
    (ha : env.answer s.dispatched.length f = .overflow) :
    (left (iteration env s)).rpc.conn.outbound = s.rpc.conn.outbound := by
  have hkept := left_switch env s.dispatched.length f.procId (s.dispatch f rest)
  have hswitch := switch_cases env s.dispatched.length f (s.dispatch f rest)
  rw [ha] at hswitch
  obtain ⟨e, s', hfault⟩ := hswitch
  rw [hfault] at hkept
  have hout : s'.rpc.conn.outbound = (s.dispatch f rest).rpc.conn.outbound :=
    congrArg Conn.outbound hkept
  rw [iteration_faults h hid hfault]
  exact hout

/-! ## Answers -/

/-- An answer to a request with this id: the frame of a response that exists, packed under the id,
or error frames. -/
inductive Proper (env : Env) (n : Nat) (id : Byte) : List Byte → Prop where
  | reply {p : Proc} {msg : Outgoing p.Responce} (hp : Proc.ofId id = some p)
      (hmsg : env.returned n p = .ok (some msg)) (hlen : encodedLength p.Responce msg ≤ 254) :
      Proper env n id (msgFrame p.ID p.Responce msg hlen).wire
  | error {fs : List Frame} (hne : fs ≠ []) (herr : ∀ g ∈ fs, g.procId = ProcIDs.error) :
      Proper env n id (fs.flatMap Frame.wire)

/-- The session is about to receive `f`, as its `n`-th request. Nothing is said about its buffer. -/
structure Receiving (s : Session) (n : Nat) (f : Frame) : Prop where
  inbound : f.wire <+: s.rpc.conn.inbound
  connOk : s.connOk = true
  errCode : s.rpc.errCode = errCode
  dispatched : s.dispatched.length = n

/-- The `n`-th request, if it has this id, is answered: no null pointer is dereferenced, and the
session sends one and the same proper answer, whatever its buffer holds and whatever payload the
request has. -/
def Answered (env : Env) (n : Nat) (id : Byte) : Prop :=
  (∀ p, Proc.ofId id = some p → env.returned n p ≠ .ok none) ∧
  ∃ bytes, Proper env n id bytes ∧
    ∀ s f, Receiving s n f → f.procId = id → Emits s (left (iteration env s)) bytes

/-- What the frame of an answer holds: the response, or the text of the exception. -/
def Holds {k : Kind} : Outcome k → Prop
  | .ok msg => encodedLength k msg ≤ 254
  | .error x => (replyText x).length ≤ 254

theorem Proper.ne_nil {env : Env} {n : Nat} {id : Byte} {bytes : List Byte}
    (h : Proper env n id bytes) : bytes ≠ [] := by
  cases h with
  | reply => exact List.cons_ne_nil _ _
  | error hne =>
    obtain ⟨g, fs, rfl⟩ := List.exists_cons_of_ne_nil hne
    exact List.cons_ne_nil _ _

/-- The answer to an id without a procedure begins with the error id. -/
theorem Proper.head_of_unknown {env : Env} {n : Nat} {id b : Byte} {bytes : List Byte}
    (h : Proper env n id (b :: bytes)) (hid : Proc.ofId id = none) : b = ProcIDs.error := by
  generalize hb : b :: bytes = answer at h
  cases h with
  | reply hp => rw [hid] at hp; cases hp
  | error hne herr =>
    obtain ⟨g, fs, rfl⟩ := List.exists_cons_of_ne_nil hne
    have hhead : b = g.procId := (List.cons.inj hb).1
    rw [hhead, herr g List.mem_cons_self]

/-- A session that receives `f` as its `n`-th request, over a connection that takes everything. -/
def receiving (n : Nat) (f : Frame) : Session where
  rpc := { conn := peer f.wire none, buffer := fun _ => 0, errCode := errCode }
  connOk := true
  dispatched := List.replicate n f

theorem receiving_receiving (n : Nat) (f : Frame) : Receiving (receiving n f) n f where
  inbound := List.prefix_refl _
  connOk := rfl
  errCode := rfl
  dispatched := List.length_replicate

theorem receiving_inbound (n : Nat) (f : Frame) :
    (receiving n f).rpc.conn.inbound = f.wire ++ [] := (List.append_nil _).symm

/-- A session that sends something sends all of the answer, if the connection takes it. -/
theorem Answered.emitted {env : Env} {n : Nat} {f : Frame} (h : Answered env n f.procId) :
    Proper env n f.procId (left (iteration env (receiving n f))).rpc.conn.outbound := by
  obtain ⟨-, bytes, hproper, hemits⟩ := h
  obtain ⟨part, -, hout, hall⟩ := hemits _ f (receiving_receiving n f) rfl
  rw [hall (accepts_unlimited rfl _)] at hout
  rw [hout]
  exact hproper

section

variable {n : Nat}

/-- A request that is a header and nothing else. -/
def bare (id : Byte) : Frame := ⟨id, [], Nat.zero_le 255⟩

/-- To an id without a procedure the session sends back what it has received. -/
theorem emitted_unknown {id : Byte} (hp : Proc.ofId id = none) (hid : id ≠ ProcIDs.error) :
    (left (iteration env (receiving n (bare id)))).rpc.conn.outbound = [id, 0] := by
  have hswitch := switch_cases env (receiving n (bare id)).dispatched.length (bare id)
    ((receiving n (bare id)).dispatch (bare id) [])
  rw [answer_of_unknown hp] at hswitch
  rw [left_iteration_returns (receiving_inbound n (bare id)) hid hswitch]
  have hacc : accepts ((receiving n (bare id)).dispatch (bare id) []).rpc.conn 2 :=
    accepts_unlimited rfl 2
  have hsend : RPCProvider.sendPackage ((receiving n (bare id)).dispatch (bare id) []).rpc =
      sendFromBuffer 2 ((receiving n (bare id)).dispatch (bare id) []).rpc := rfl
  rw [hsend, sendFromBuffer_ok hacc]
  rfl

/-- A request is answered if it names a procedure that returns an object, and what the answer has
to hold fits a frame. -/
theorem answered_of_holds {p : Proc} {id : Byte} (hp : Proc.ofId id = some p)
    (hnull : returnsNull p = false) (hholds : Holds (env.handlerImpl n p)) : Answered env n id := by
  have hne : id ≠ ProcIDs.error := by
    rintro rfl
    cases hp
  refine ⟨fun q hq => ?_, ?_⟩
  · cases hp.symm.trans hq
    rw [returned_eq hnull]
    exact allocated_ne_null _
  cases hout : env.handlerImpl n p with
  | ok msg =>
    rw [hout] at hholds
    have hmsg : env.returned n p = .ok (some msg) := by rw [returned_eq hnull, hout]; rfl
    refine ⟨_, .reply hp hmsg hholds, fun s f hs hf => ?_⟩
    obtain ⟨rest, hrest⟩ := hs.inbound
    subst hf
    have hanswer := answer_of_fits hp (n := s.dispatched.length) (by rw [hs.dispatched]; exact hout)
      hholds
    exact emits_reply hrest.symm (by rw [hs.errCode]; exact hne) hanswer
  | error x =>
    rw [hout] at hholds
    have hproper : Proper env n id
        ([textFrame (replyText x) hholds, textFrame (replyText x) hholds].flatMap Frame.wire) :=
      .error (List.cons_ne_nil _ _) (by simp [textFrame, errCode])
    refine ⟨_, hproper, fun s f hs hf => ?_⟩
    obtain ⟨rest, hrest⟩ := hs.inbound
    subst hf
    have hframe : s.rpc.errorFrame (replyText x) hholds = textFrame (replyText x) hholds := by
      unfold errorFrame textFrame
      rw [hs.errCode]
    have hswitch := switch_throws hp (n := s.dispatched.length) (by rw [hs.dispatched]; exact hout)
      (s.dispatch f rest)
    have hemits := emits_error hrest.symm (by rw [hs.errCode]; exact hne) hs.connOk hswitch hholds
    rw [hframe] at hemits
    simpa using hemits

theorem Answered.holds {p : Proc} {id : Byte} (hp : Proc.ofId id = some p)
    (h : Answered env n id) (hid : id ≠ ProcIDs.error) : Holds (env.handlerImpl n p) := by
  have hsent := (h.emitted (f := bare id)).ne_nil
  have hlen : (receiving n (bare id)).dispatched.length = n := List.length_replicate
  by_contra hbad
  cases hout : env.handlerImpl n p with
  | ok msg =>
    rw [hout] at hbad
    have hanswer := answer_of_overflows (f := bare id)
      (n := (receiving n (bare id)).dispatched.length) hp (by rw [hlen]; exact hout) hbad
    exact hsent (silent_overflow (receiving_inbound n (bare id)) hid hanswer)
  | error x =>
    rw [hout] at hbad
    have hswitch := switch_throws hp (n := (receiving n (bare id)).dispatched.length)
      (by rw [hlen]; exact hout) ((receiving n (bare id)).dispatch (bare id) [])
    exact hsent (silent_error (receiving_inbound n (bare id)) hid rfl hswitch
      (Nat.not_le.mp hbad))

/-- **A request with an id other than that of errors is answered** iff the id names a procedure,
one that returns an object, and the response or the error text fits a frame. -/
theorem answered_iff (env : Env) (n : Nat) {id : Byte} (hid : id ≠ ProcIDs.error) :
    Answered env n id ↔ ∃ p, Proc.ofId id = some p ∧ returnsNull p = false ∧
      Holds (env.handlerImpl n p) := by
  constructor
  · intro h
    cases hp : Proc.ofId id with
    | none =>
      have hsent := h.emitted (f := bare id)
      rw [emitted_unknown hp hid] at hsent
      exact absurd (hsent.head_of_unknown hp) hid
    | some p =>
      refine ⟨p, rfl, ?_, h.holds hp hid⟩
      by_contra hnull
      exact h.1 p hp (returned_null (by simpa using hnull) env n)
  · rintro ⟨p, hp, hnull, hholds⟩
    exact answered_of_holds hp hnull hholds

theorem answered_iff_refusing :
    Answered refusing 0 ProcIDs.flash ↔ ∃ p, Proc.ofId ProcIDs.flash = some p ∧
      returnsNull p = false ∧ Holds (refusing.handlerImpl 0 p) :=
  answered_iff refusing 0 (by decide)

/-- A request that names no procedure, over a buffer that held something: its payload goes back as
an answer, and two bytes that it never sent. A ping is answered through a null pointer. -/
theorem leftovers_sent :
    (left (iteration refusing { receiving 0 ⟨6, [65, 2], by decide⟩ with
      rpc := { (receiving 0 ⟨6, [65, 2], by decide⟩).rpc with buffer := fun _ => 83 } })
      ).rpc.conn.outbound = [65, 2, 83, 83] ∧
    ¬ Answered refusing 0 6 ∧
    refusing.returned 0 .ping = .ok none ∧ ¬ Answered refusing 0 ProcIDs.ping := by
  refine ⟨by decide +kernel, ?_, rfl, fun h => h.1 .ping rfl rfl⟩
  intro h
  have hsent := h.emitted (f := bare 6)
  rw [emitted_unknown rfl (by decide)] at hsent
  exact absurd (hsent.head_of_unknown rfl) (by decide)

end

end Server

end MbDaemon
