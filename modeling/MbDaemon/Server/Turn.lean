import MbDaemon.Server

/-!
# A turn of the session

What one iteration of the session's loop does with the frame at the head of the stream, by what the
handler answers to it (`Env.answer`): a response that fits goes out once, an error text goes out
twice, an id without a procedure sends back what the buffer holds, and a response that does not fit
leaves the buffer.
-/

namespace MbDaemon

open RPCDefs RPCProvider

namespace Server

inductive Answer where
  | reply (r : Frame)
  | overflow
  | error (what : Text)
  | unknown
  | other (x : Thrown)

def Env.answer (env : Env) (n : Nat) (f : Frame) : Answer :=
  match Proc.ofId f.procId with
  | none => .unknown
  | some p =>
    match env.handlerImpl n p with
    | .ok msg =>
      if h : encodedLength p.Responce msg ≤ 254 then .reply (msgFrame p.ID p.Responce msg h)
      else .overflow
    | .error (.std what) => .error what
    | .error .forcedUnwind => .other .forcedUnwind
    | .error .other => .other .other

theorem answer_of_unknown {env : Env} {n : Nat} {f : Frame} (hp : Proc.ofId f.procId = none) :
    env.answer n f = .unknown := by
  unfold Env.answer
  rw [hp]

section

variable {env : Env} {n : Nat} {f : Frame} {p : Proc} (hp : Proc.ofId f.procId = some p)

include hp

theorem answer_of_fits {msg : Outgoing p.Responce} (hout : env.handlerImpl n p = .ok msg)
    (hlen : encodedLength p.Responce msg ≤ 254) :
    env.answer n f = .reply (msgFrame p.ID p.Responce msg hlen) := by
  unfold Env.answer
  rw [hp]
  simp only [hout, dif_pos hlen]

theorem answer_of_overflows {msg : Outgoing p.Responce} (hout : env.handlerImpl n p = .ok msg)
    (hlen : ¬ encodedLength p.Responce msg ≤ 254) : env.answer n f = .overflow := by
  unfold Env.answer
  rw [hp]
  simp only [hout, dif_neg hlen]

theorem answer_of_throws {what : Text} (hout : env.handlerImpl n p = .error (.std what)) :
    env.answer n f = .error what := by
  unfold Env.answer
  rw [hp]
  simp only [hout]

end

theorem reply_length {env : Env} {n : Nat} {f r : Frame} (h : env.answer n f = .reply r) :
    r.payload.length ≤ 254 := by
  unfold Env.answer at h
  split at h
  · cases h
  · split at h
    · split at h
      · rename_i hlen
        cases h
        exact (length_encode _ _).trans_le hlen
      · cases h
    all_goals cases h

/-- What `Buffer[1]` holds after the reception of a frame: the second byte of the payload, else what
the header left there. -/
def echoSize (f : Frame) : Byte := (f.payload[1]?).getD f.size

theorem buffer_taken (s : RPCProvider) (f : Frame) (rest : List Byte) :
    (s.taken f rest).buffer 1 = echoSize f := by
  simp only [taken, echoSize, Memory.store, Nat.zero_le, if_true, Nat.sub_zero]
  rfl

/-- The session after the frame `f` has been received and dispatched. -/
def Session.dispatch (s : Session) (f : Frame) (rest : List Byte) : Session :=
  { s with rpc := s.rpc.taken f rest, dispatched := s.dispatched ++ [f] }

variable {env : Env} {s : Session} {f : Frame} {rest : List Byte}

theorem frame_taken (h : s.rpc.conn.inbound = f.wire ++ rest) :
    ({ s with rpc := s.rpc.taken f rest } : Session).frame (s.rpc.header f) = f := by
  have hload : Memory.load (s.rpc.taken f rest).buffer 0 f.size.toNat = f.payload := by
    rw [f.toNat_size]
    exact load_taken s.rpc f rest
  cases f with
  | mk procId payload fits =>
    simp only [Session.frame, RPCProvider.header, Frame.mk.injEq, true_and]
    exact hload

theorem turn_received (env : Env) (h : s.rpc.conn.inbound = f.wire ++ rest)
    (hid : f.procId ≠ s.rpc.errCode) :
    turn env s =
      (do switch env s.dispatched.length f.procId
          guarded (lift RPCProvider.sendPackage)
          pure true : SessionM Bool) (s.dispatch f rest) := by
  have hok : (s.rpc.header f).Ok = true := by
    simp only [RPCProvider.header, bne_iff_ne]
    exact hid
  unfold turn
  simp only [bind, EStateM.bind, guarded, lift, recvPackage_frame h, hok, if_true]
  unfold dispatchPackage
  simp only [bind, EStateM.bind, get, getThe, MonadStateOf.get, EStateM.get, set, EStateM.set,
    frame_taken h]
  rfl

theorem iteration_error_frame (env : Env) (h : s.rpc.conn.inbound = f.wire ++ rest)
    (hid : f.procId = s.rpc.errCode) :
    iteration env s = .ok false { s with rpc := s.rpc.taken f rest } := by
  have hok : (s.rpc.header f).Ok = false := by
    simp [RPCProvider.header, hid]
  unfold iteration catching turn
  simp only [bind, EStateM.bind, guarded, lift, recvPackage_frame h, hok]
  rfl

def Session.packed (s : Session) (r : Frame) : Session := { s with rpc := s.rpc.packed r }

def Session.posted (s : Session) (r : Frame) : Session := { s with rpc := s.rpc.posted r }

theorem switch_cases (env : Env) (n : Nat) (f : Frame) (s : Session) :
    match env.answer n f with
    | .reply r => switch env n f.procId s = .ok () (s.packed r)
    | .overflow => ∃ e s', switch env n f.procId s = .error (.fault e) s'
    | .error what => switch env n f.procId s = .error (.thrown (.std what)) s
    | .unknown => switch env n f.procId s = .ok () s
    | .other x => switch env n f.procId s = .error (.thrown x) s := by
  unfold switch Env.answer
  cases hp : Proc.ofId f.procId with
  | none => rfl
  | some p =>
    simp only
    unfold genericHandler
    cases hout : env.handlerImpl n p with
    | ok msg =>
      simp only
      rcases packMsg_cases p.ID p.Responce msg s.rpc with ⟨hlen, hpack⟩ | ⟨hlen, e, rpc, hpack⟩
      · rw [dif_pos hlen]
        simp only [lift, hpack]
        rfl
      · rw [dif_neg (by omega)]
        exact ⟨e, { s with rpc := rpc }, by simp only [lift, hpack]⟩
    | error x => cases x <;> rfl

/-- The send at the end of a turn, when the connection takes the bytes. -/
theorem guarded_send_ok {n : Nat} (hsize : (s.rpc.buffer 1).toNat + 2 = n)
    (hacc : accepts s.rpc.conn n) :
    guarded (lift RPCProvider.sendPackage) s = .ok () { s with rpc := s.rpc.sent 0 n } := by
  have hsend : RPCProvider.sendPackage s.rpc = .ok () (s.rpc.sent 0 n) := by
    unfold RPCProvider.sendPackage
    simp only [bind, EStateM.bind, get, getThe, MonadStateOf.get, EStateM.get, hsize]
    exact sendFromBuffer_ok hacc
  simp only [guarded, lift, hsend]

/-- The send at the end of a turn, when the connection does not take the bytes: the session knows
that the connection is broken. -/
theorem guarded_send_error {n : Nat} (hsize : (s.rpc.buffer 1).toNat + 2 = n)
    (hacc : ¬ accepts s.rpc.conn n) :
    ∃ what s', guarded (lift RPCProvider.sendPackage) s = .error (.thrown (.std what)) s' ∧
      s'.connOk = false ∧ s'.dispatched = s.dispatched := by
  obtain ⟨what, rpc, herr⟩ := sendFromBuffer_error (s := s.rpc) (n := n) (by omega) hacc
  have hsend : RPCProvider.sendPackage s.rpc = .error (.thrown (.std what)) rpc := by
    unfold RPCProvider.sendPackage
    simp only [bind, EStateM.bind, get, getThe, MonadStateOf.get, EStateM.get, hsize]
    exact herr
  refine ⟨what, { s with rpc := rpc, connOk := false }, ?_, rfl, rfl⟩
  simp only [guarded, lift, hsend]

/-- **A turn whose switch returns** sends what lies in the buffer, or finds the connection broken
and leaves the loop. -/
theorem iteration_sends (h : s.rpc.conn.inbound = f.wire ++ rest) (hid : f.procId ≠ s.rpc.errCode)
    {s₁ : Session}
    (hswitch : switch env s.dispatched.length f.procId (s.dispatch f rest) = .ok () s₁)
    {n : Nat} (hsize : (s₁.rpc.buffer 1).toNat + 2 = n) :
    (accepts s₁.rpc.conn n → iteration env s = .ok true { s₁ with rpc := s₁.rpc.sent 0 n }) ∧
    (¬ accepts s₁.rpc.conn n →
      ∃ s', iteration env s = .ok false s' ∧ s'.dispatched = s₁.dispatched) := by
  have hturn := turn_received env h hid
  simp only [bind, EStateM.bind, hswitch] at hturn
  constructor
  · intro hacc
    rw [guarded_send_ok hsize hacc] at hturn
    unfold iteration catching
    rw [hturn]
    rfl
  · intro hacc
    obtain ⟨what, s', hsend, hconn, hdisp⟩ := guarded_send_error hsize hacc
    rw [hsend] at hturn
    refine ⟨s', ?_, hdisp⟩
    unfold iteration catching
    rw [hturn]
    simp only [clause, bind, EStateM.bind, get, getThe, MonadStateOf.get, EStateM.get, hconn]
    rfl

/-- A turn whose switch throws leaves the rest to the catch clauses. -/
theorem iteration_throws (h : s.rpc.conn.inbound = f.wire ++ rest)
    (hid : f.procId ≠ s.rpc.errCode) {x : Thrown}
    (hswitch : switch env s.dispatched.length f.procId (s.dispatch f rest) =
      .error (.thrown x) (s.dispatch f rest)) :
    iteration env s = clause x (s.dispatch f rest) := by
  have hturn := turn_received env h hid
  simp only [bind, EStateM.bind, hswitch] at hturn
  unfold iteration catching
  rw [hturn]

theorem iteration_faults (h : s.rpc.conn.inbound = f.wire ++ rest)
    (hid : f.procId ≠ s.rpc.errCode) {e : Fault} {s' : Session}
    (hswitch : switch env s.dispatched.length f.procId (s.dispatch f rest) = .error (.fault e) s') :
    iteration env s = .error (.fault e) s' := by
  have hturn := turn_received env h hid
  simp only [bind, EStateM.bind, hswitch] at hturn
  unfold iteration catching
  rw [hturn]

theorem replyError_ok {what : Text} (hlen : what.length ≤ 254)
    (hacc : accepts s.rpc.conn (2 * (what.length + 2))) :
    replyError what s =
      .ok () (((s.packed (s.rpc.errorFrame what hlen)).posted (s.rpc.errorFrame what hlen)).posted
        (s.rpc.errorFrame what hlen)) := by
  have hfirst : accepts s.rpc.conn (what.length + 2) := fun limit hlim => by
    have := hacc limit hlim
    omega
  have hpack := packError_ok hlen hfirst
  -- the buffer still holds the frame when `SendPackage` comes
  have hagain : RPCProvider.sendPackage
      ((s.rpc.packed (s.rpc.errorFrame what hlen)).posted (s.rpc.errorFrame what hlen)) =
      .ok () (((s.rpc.packed (s.rpc.errorFrame what hlen)).posted
        (s.rpc.errorFrame what hlen)).posted (s.rpc.errorFrame what hlen)) := by
    refine sendPackage_ok (s := s.rpc.posted (s.rpc.errorFrame what hlen))
      (f := s.rpc.errorFrame what hlen) hlen fun limit hlim => ?_
    have := hacc limit hlim
    simp only [posted, List.length_append, Frame.length_wire, errorFrame]
    omega
  unfold replyError
  simp only [bind, EStateM.bind, lift, hpack, hagain]
  rfl

/-- An error reply that the frame does not hold, or the connection does not take, throws. -/
theorem replyError_error {what : Text}
    (h : ¬ (what.length ≤ 254 ∧ accepts s.rpc.conn (2 * (what.length + 2)))) :
    ∃ e s', replyError what s = .error e s' := by
  by_cases hlen : what.length ≤ 254
  · have hacc : ¬ accepts s.rpc.conn (2 * (what.length + 2)) := fun hacc => h ⟨hlen, hacc⟩
    by_cases hfirst : accepts s.rpc.conn (what.length + 2)
    · have hpack := packError_ok hlen hfirst
      have hsecond : ¬ accepts (s.rpc.posted (s.rpc.errorFrame what hlen)).conn
          (what.length + 2) := by
        intro hacc'
        refine hacc fun limit hlim => ?_
        have := hacc' limit hlim
        simp only [posted, List.length_append, Frame.length_wire, errorFrame] at this
        omega
      obtain ⟨text, rpc, hsend⟩ := sendFromBuffer_error (n := what.length + 2)
        (s := (s.rpc.packed (s.rpc.errorFrame what hlen)).posted (s.rpc.errorFrame what hlen))
        (by omega) hsecond
      have hagain : RPCProvider.sendPackage
          ((s.rpc.packed (s.rpc.errorFrame what hlen)).posted (s.rpc.errorFrame what hlen)) =
          .error (.thrown (.std text)) rpc :=
        (sendPackage_packed (s.rpc.posted (s.rpc.errorFrame what hlen))
          (s.rpc.errorFrame what hlen)).trans hsend
      refine ⟨.thrown (.std text), { s with rpc := rpc }, ?_⟩
      unfold replyError
      simp only [bind, EStateM.bind, lift, hpack, hagain]
    · obtain ⟨text, rpc, hsend⟩ := sendFromBuffer_error (n := what.length + 2)
        (s := s.rpc.packed (s.rpc.errorFrame what hlen)) (by omega) hfirst
      have hpack := (packError_eq (s := s.rpc) hlen).trans hsend
      refine ⟨.thrown (.std text), { s with rpc := rpc }, ?_⟩
      unfold replyError
      simp only [bind, EStateM.bind, lift, hpack]
  · obtain ⟨e, rpc, hpack, -⟩ := packError_long (s := s.rpc) (show 254 < what.length by omega)
    refine ⟨e, { s with rpc := rpc }, ?_⟩
    unfold replyError
    simp only [bind, EStateM.bind, lift, hpack]

/-! ## The turn as a whole -/

/-- The session has dispatched `f` and sent `bytes`; `rest` is left of the stream. -/
structure Took (s s' : Session) (f : Frame) (rest bytes : List Byte) : Prop where
  connOk : s'.connOk = s.connOk
  dispatched : s'.dispatched = s.dispatched ++ [f]
  errCode : s'.rpc.errCode = s.rpc.errCode
  conn : s'.rpc.conn =
    { s.rpc.conn with inbound := rest, outbound := s.rpc.conn.outbound ++ bytes }

def textFrame (what : Text) (h : what.length ≤ 254) : Frame :=
  ⟨errCode, what, Frame.fits_of_short h⟩

section

variable (h : s.rpc.conn.inbound = f.wire ++ rest) (hid : f.procId ≠ s.rpc.errCode)

include h hid

theorem iteration_reply {r : Frame} (ha : env.answer s.dispatched.length f = .reply r) :
    (accepts s.rpc.conn (r.payload.length + 2) →
      ∃ s', iteration env s = .ok true s' ∧ Took s s' f rest r.wire) ∧
    (¬ accepts s.rpc.conn (r.payload.length + 2) → ∃ s', iteration env s = .ok false s') := by
  have hswitch := switch_cases env s.dispatched.length f (s.dispatch f rest)
  rw [ha] at hswitch
  have hsize : ((((s.dispatch f rest).packed r).rpc.buffer 1).toNat) + 2 = r.payload.length + 2 := by
    have : (((s.dispatch f rest).packed r).rpc.buffer 1).toNat = r.payload.length := r.toNat_size
    omega
  obtain ⟨hok, hbroken⟩ := iteration_sends h hid hswitch hsize
  constructor
  · intro hacc
    have hsent : ((s.dispatch f rest).packed r).rpc.sent 0 (r.payload.length + 2) =
        ((s.dispatch f rest).packed r).rpc.posted r := sent_packed _ (reply_length ha)
    rw [hsent] at hok
    exact ⟨_, hok hacc, rfl, rfl, rfl, rfl⟩
  · intro hacc
    obtain ⟨s', hs', -⟩ := hbroken hacc
    exact ⟨s', hs'⟩

theorem iteration_unknown (ha : env.answer s.dispatched.length f = .unknown) :
    (accepts s.rpc.conn ((echoSize f).toNat + 2) →
      ∃ s' bytes, iteration env s = .ok true s' ∧ bytes.length = (echoSize f).toNat + 2 ∧
        Took s s' f rest bytes) ∧
    (¬ accepts s.rpc.conn ((echoSize f).toNat + 2) → ∃ s', iteration env s = .ok false s') := by
  have hswitch := switch_cases env s.dispatched.length f (s.dispatch f rest)
  rw [ha] at hswitch
  have hsize : ((s.dispatch f rest).rpc.buffer 1).toNat + 2 = (echoSize f).toNat + 2 :=
    congrArg (fun b : Byte => b.toNat + 2) (buffer_taken s.rpc f rest)
  obtain ⟨hok, hbroken⟩ := iteration_sends h hid hswitch hsize
  constructor
  · intro hacc
    exact ⟨_, Memory.load (s.dispatch f rest).rpc.object 0 ((echoSize f).toNat + 2), hok hacc,
      Memory.length_load _ _ _, rfl, rfl, rfl, rfl⟩
  · intro hacc
    obtain ⟨s', hs', -⟩ := hbroken hacc
    exact ⟨s', hs'⟩

theorem iteration_error {what : Text} (herr : s.rpc.errCode = errCode) (hconn : s.connOk = true)
    (ha : env.answer s.dispatched.length f = .error what) :
    (∀ hlen : what.length ≤ 254, accepts s.rpc.conn (2 * (what.length + 2)) →
      ∃ s', iteration env s = .ok true s' ∧
        Took s s' f rest ((textFrame what hlen).wire ++ (textFrame what hlen).wire)) ∧
    (¬ (what.length ≤ 254 ∧ accepts s.rpc.conn (2 * (what.length + 2))) →
      ∃ e s', iteration env s = .error e s') := by
  have hswitch := switch_cases env s.dispatched.length f (s.dispatch f rest)
  rw [ha] at hswitch
  have hiter := iteration_throws h hid hswitch
  have hdisp : (s.dispatch f rest).connOk = true := hconn
  simp only [clause, bind, EStateM.bind, get, getThe, MonadStateOf.get, EStateM.get, hdisp,
    if_true] at hiter
  constructor
  · intro hlen hacc
    have hreply := replyError_ok (s := s.dispatch f rest) hlen hacc
    have hframe : (s.dispatch f rest).rpc.errorFrame what hlen = textFrame what hlen := by
      unfold errorFrame textFrame
      rw [← herr]
      rfl
    rw [hreply, hframe] at hiter
    refine ⟨_, hiter, rfl, rfl, rfl, ?_⟩
    simp only [Session.posted, Session.packed, posted, RPCProvider.packed, Session.dispatch, taken,
      List.append_assoc]
  · intro hbad
    obtain ⟨e, s', hreply⟩ := replyError_error (s := s.dispatch f rest) hbad
    rw [hreply] at hiter
    exact ⟨e, s', hiter⟩

theorem iteration_overflow (ha : env.answer s.dispatched.length f = .overflow) :
    ∃ e s', iteration env s = .error (.fault e) s' := by
  have hswitch := switch_cases env s.dispatched.length f (s.dispatch f rest)
  rw [ha] at hswitch
  obtain ⟨e, s', hfault⟩ := hswitch
  exact ⟨e, s', iteration_faults h hid hfault⟩

end

/-- Without a complete frame the turn finds the connection broken and leaves the loop; all that was
left of the stream has been read. -/
theorem iteration_short (env : Env) (h : Frame.parse s.rpc.conn.inbound = none)
    (hend : s.rpc.conn.recvEnd ≠ .cancelled) :
    ∃ s', iteration env s = .ok false s' ∧ s'.dispatched = s.dispatched ∧
      s'.rpc.conn.inbound = [] := by
  obtain ⟨buffer, hrecv⟩ := recvPackage_short h
  obtain ⟨what, hstop⟩ : ∃ what, s.rpc.conn.recvEnd.stop = .thrown (.std what) := by
    cases hc : s.rpc.conn.recvEnd with
    | closed => exact ⟨_, rfl⟩
    | failed e => exact ⟨_, rfl⟩
    | cancelled => exact absurd hc hend
  rw [hstop] at hrecv
  refine ⟨{ s with rpc := { s.rpc with conn := { s.rpc.conn with inbound := [] }, buffer := buffer },
                   connOk := false }, ?_, rfl, rfl⟩
  unfold iteration catching turn
  simp only [bind, EStateM.bind, guarded, lift, hrecv]
  rfl

end Server

end MbDaemon
