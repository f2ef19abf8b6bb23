import MbDaemon.Server.Frames

/-!
# A session against a connection is one of the sessions

`Server.handlerRoutine` plays a session against a connection that answers as `Conn` says and
handlers as `Env` says. Each such session is one that `Calls.handlerRoutine` allows: it asks the
same and comes to the same end, and the bytes on the connection are those of its calls of `send()`
(`handlerRoutine_replayed`). So what holds of every session holds of these.
-/

namespace MbDaemon

open RPCDefs Interaction

namespace Calls

variable {S α β : Type}

/-- The end of an operation, its state seen through `view`. -/
def viewed (view : S → Session) : EStateM.Result Stop S α → EStateM.Result Stop Session α
  | .ok a s => .ok a (view s)
  | .error e s => .error e (view s)

def final : EStateM.Result Stop S α → S
  | .ok _ s => s
  | .error _ s => s

/-- From `s` the operation `y` is one way in which `x` can go from `v`, and it writes what `x` sends
there. -/
def Plays (view : S → Session) (out : S → List Byte) (v : Session) (s : S) (x : SessionM α)
    (y : EStateM Stop S α) : Prop :=
  ∃ es, Trace (x v) es (some (viewed view (y s))) ∧
    out (final (y s)) = out s ++ written (sends es)

section

variable {view : S → Session} {out : S → List Byte} {v : Session} {s s' : S} {x : SessionM α}
  {y : EStateM Stop S α} {f : α → SessionM β} {g : α → EStateM Stop S β}

theorem Plays.pure (a : α) :
    Plays view out (view s) s (Pure.pure a : SessionM α) (Pure.pure a) :=
  ⟨[], .pure _, by simp [final, sends, written]; rfl⟩

theorem Plays.throw (e : Stop) :
    Plays view out (view s) s (MonadExcept.throw e : SessionM α) (MonadExcept.throw e) :=
  ⟨[], .pure _, by simp [final, sends, written]; rfl⟩

theorem Plays.bind (hx : Plays view out v s x y)
    (hf : ∀ a s', y s = .ok a s' → Plays view out (view s') s' (f a) (g a)) :
    Plays view out v s (x >>= f) (y >>= g) := by
  obtain ⟨es, htrace, hout⟩ := hx
  show ∃ fs, Trace (Prog.bind (x v) _) fs (some (viewed view (EStateM.bind y g s))) ∧
    out (final (EStateM.bind y g s)) = _
  unfold EStateM.bind
  cases hy : y s with
  | ok a s' =>
    rw [hy] at htrace hout
    obtain ⟨fs, htrace', hout'⟩ := hf a s' hy
    refine ⟨es ++ fs, htrace.bind htrace', ?_⟩
    rw [hout', show out s' = _ from hout]
    simp [sends]
  | error e s' =>
    rw [hy] at htrace hout
    exact ⟨es ++ [], htrace.bind (.pure _), by rw [List.append_nil]; exact hout⟩

theorem Plays.get {f : Session → SessionM β} {g : S → EStateM Stop S β}
    (h : Plays view out v s (f v) (g s)) :
    Plays view out v s (MonadState.get >>= f) (MonadState.get >>= g) := h

theorem Plays.ask {q : Call} (a : q.Answer) {next : q.Answer → SessionM β}
    {y y' : EStateM Stop S β} (hy : y s = y' s')
    (grown : out s' = out s ++ written (sends [⟨q, a⟩]))
    (h : Plays view out v s' (next a) y') : Plays view out v s (Routine.ask q >>= next) y := by
  obtain ⟨es, htrace, hout⟩ := h
  refine ⟨⟨q, a⟩ :: es, .ask (hy ▸ htrace), ?_⟩
  rw [hy, hout, grown, List.append_assoc, ← written_append, sends, sends, ← List.filterMap_append]
  rfl

end

/-! ## The provider -/

/-- The state of a session, seen from its provider. -/
def view (ok : Bool) (s : RPCProvider) : Session where
  buffer := s.buffer
  errCode := s.errCode
  connOk := ok

/-- An operation of the provider. -/
def PlaysRpc {α : Type} (x : SessionM α) (y : RPC α) : Prop :=
  ∀ ok s, Plays (view ok) (fun s => s.conn.outbound) (view ok s) s x y

theorem recvLoop_plays (size fuel : Nat) :
    ∀ total, PlaysRpc (recvLoop size fuel total) (RPCProvider.recvLoop size fuel total) := by
  induction fuel with
  | zero => exact fun total ok s => Plays.throw _
  | succ fuel ih =>
    intro total ok s
    by_cases hlt : total < size
    · unfold recvLoop
      rw [if_pos hlt]
      by_cases hin : s.conn.inbound = []
      · have hend : RPCProvider.recvLoop size (fuel + 1) total s =
            (throw s.conn.recvEnd.stop : RPC Unit) s := RPCProvider.recvLoop_empty hlt hin
        refine Plays.ask (q := .recv (size - total)) (.error s.conn.recvEnd) hend ?_ ?_
        · simp [sends, sendOf, written]
        · cases s.conn.recvEnd <;> exact Plays.throw _
      · obtain ⟨ret, hpos, hle, hlen, hstep⟩ :=
          @RPCProvider.recvLoop_step size total fuel s hlt hin
        have htake : (s.conn.inbound.take ret).length = ret := by simp [hlen]
        refine Plays.ask (q := .recv (size - total))
          (.ok ⟨s.conn.inbound.take ret, by omega, by omega⟩) hstep ?_ ?_
        · simp [sends, sendOf, written, RPCProvider.received]
        · rw [show total + ret = total + (s.conn.inbound.take ret).length by rw [htake]]
          exact ih _ ok (s.received total ret)
    · simp only [recvLoop, RPCProvider.recvLoop, if_neg hlt]
      exact Plays.pure ()

theorem sendLoop_plays (size fuel : Nat) :
    ∀ total, PlaysRpc (sendLoop size fuel total) (RPCProvider.sendLoop size fuel total) := by
  induction fuel with
  | zero => exact fun total ok s => Plays.throw _
  | succ fuel ih =>
    intro total ok s
    by_cases hlt : total < size
    · unfold sendLoop
      rw [if_pos hlt]
      have hlen : (Memory.load (view ok s).object total (size - total)).length = size - total :=
        Memory.length_load ..
      refine Plays.get ?_
      by_cases hroom : s.conn.room (size - total) = 0
      · have hend : RPCProvider.sendLoop size (fuel + 1) total s =
            (RPCProvider.throwStd (fexcept "SendFromBuffer"
              (errnoWhat (ascii "Failed to send()") s.conn.sendErrno)) : RPC Unit) s :=
          RPCProvider.sendLoop_full hlt hroom
        refine Plays.ask (q := .send (Memory.load (view ok s).object total (size - total)))
          (.error (.failed s.conn.sendErrno)) hend ?_ (Plays.throw _)
        simp [sends, sendOf, written]
      · obtain ⟨ret, hpos, hle, hstep⟩ :=
          @RPCProvider.sendLoop_step size total fuel s hlt (by omega)
        have hret := hle.trans (RPCProvider.room_le s.conn (size - total))
        refine Plays.ask (q := .send (Memory.load (view ok s).object total (size - total)))
          (.ok ⟨ret, by omega⟩) hstep ?_ ?_
        · have hsent : (Memory.load (view ok s).object total (size - total)).take ret =
              Memory.load s.object total ret := Memory.take_load hret
          simp [sends, sendOf, written, hsent, RPCProvider.sent]
        · have hne : ret ≠ 0 := by omega
          show Plays _ _ _ _ (if ret = 0 then MonadExcept.throw (.fault .assertion)
            else sendLoop size fuel (total + ret)) _
          rw [if_neg hne]
          exact ih _ ok (s.sent total ret)
    · simp only [sendLoop, RPCProvider.sendLoop, if_neg hlt]
      exact Plays.pure ()

theorem write_plays (g : (Nat → Byte) → Except Fault (Nat → Byte)) :
    PlaysRpc (write g) (RPCProvider.write g) := by
  intro ok s
  cases hg : g s.buffer with
  | ok buffer =>
    refine ⟨[], ?_, ?_⟩
    · rw [@write_ok g (view ok s) buffer hg, RPCProvider.write_ok hg]
      exact .pure _
    · rw [RPCProvider.write_ok hg]
      simp [final, sends, written]
  | error e =>
    refine ⟨[], ?_, ?_⟩
    · rw [@write_error g (view ok s) e hg, RPCProvider.write_error hg]
      exact .pure _
    · rw [RPCProvider.write_error hg]
      simp [final, sends, written]

theorem packMsg_plays (procId : Byte) (k : Kind) (msg : Outgoing k) :
    PlaysRpc (packMsg procId k msg) (RPCProvider.packMsg procId k msg) := by
  intro ok s
  exact (write_plays _ ok s).bind fun _ s' _ => write_plays _ ok s'

theorem packError_plays (msg : Text) : PlaysRpc (packError msg) (RPCProvider.packError msg) := by
  intro ok s
  unfold packError RPCProvider.packError
  by_cases hlen : 255 < msg.length
  · simp only [if_pos hlen]
    exact Plays.throw _
  · simp only [if_neg hlen]
    exact (write_plays _ ok s).bind fun _ s₁ _ => (write_plays _ ok s₁).bind fun _ s₂ _ =>
      sendLoop_plays _ _ 0 ok s₂

theorem recvPackage_plays : PlaysRpc recvPackage RPCProvider.recvPackage := by
  intro ok s
  refine (recvLoop_plays 2 3 0 ok s).bind fun _ s₁ _ => ?_
  refine Plays.get ((recvLoop_plays _ _ 0 ok s₁).bind fun _ s₂ _ => Plays.get ?_)
  exact Plays.pure _

theorem sendPackage_plays : PlaysRpc sendPackage RPCProvider.sendPackage :=
  fun ok s => sendLoop_plays _ _ 0 ok s

/-! ## The session -/

/-- The state of a session against a connection. -/
def viewSession (s : Server.Session) : Session := view s.connOk s.rpc

def PlaysSession {α : Type} (x : SessionM α) (y : Server.SessionM α) : Prop :=
  ∀ s, Plays viewSession (fun s => s.rpc.conn.outbound) (viewSession s) s x y

theorem lift_plays {α : Type} {x : SessionM α} {y : RPC α} (h : PlaysRpc x y) :
    PlaysSession x (Server.lift y) := by
  intro s
  obtain ⟨es, htrace, hout⟩ := h s.connOk s.rpc
  refine ⟨es, ?_, ?_⟩
  · unfold Server.lift
    cases hy : y s.rpc <;> rw [hy] at htrace <;> exact htrace
  · unfold Server.lift
    cases hy : y s.rpc <;> rw [hy] at hout <;> exact hout

theorem guarded_plays {α : Type} {x : SessionM α} {y : Server.SessionM α} (h : PlaysSession x y) :
    PlaysSession (guarded x) (Server.guarded y) := by
  intro s
  obtain ⟨es, htrace, hout⟩ := h s
  unfold Server.guarded
  cases hy : y s with
  | ok a s' =>
    rw [hy] at htrace hout
    exact ⟨es ++ [], by simp only [hy]; exact htrace.bind (.pure _),
      by simp only [hy, List.append_nil]; exact hout⟩
  | error e s' =>
    rw [hy] at htrace hout
    exact ⟨es ++ [], by simp only [hy]; exact htrace.bind (.pure _),
      by simp only [hy, List.append_nil]; exact hout⟩

theorem catching_plays {x : SessionM Bool} {y : Server.SessionM Bool}
    {k : Thrown → SessionM Bool} {k' : Thrown → Server.SessionM Bool} (h : PlaysSession x y)
    (hk : ∀ e, PlaysSession (k e) (k' e)) :
    PlaysSession (catching x k) (Server.catching y k') := by
  intro s
  obtain ⟨es, htrace, hout⟩ := h s
  unfold Server.catching
  cases hy : y s with
  | ok again s' =>
    rw [hy] at htrace hout
    exact ⟨es ++ [], by simp only [hy]; exact htrace.bind (.pure _),
      by simp only [hy, List.append_nil]; exact hout⟩
  | error e s' =>
    rw [hy] at htrace hout
    cases e with
    | thrown e =>
      obtain ⟨fs, htrace', hout'⟩ := hk e s'
      refine ⟨es ++ fs, by simp only [hy]; exact htrace.bind htrace', ?_⟩
      simp only [hy, hout', sends, List.filterMap_append, written_append, ← List.append_assoc]
      exact congrArg (· ++ _) hout
    | fault f =>
      exact ⟨es ++ [], by simp only [hy]; exact htrace.bind (.pure _),
        by simp only [hy, List.append_nil]; exact hout⟩
    | outOfFuel =>
      exact ⟨es ++ [], by simp only [hy]; exact htrace.bind (.pure _),
        by simp only [hy, List.append_nil]; exact hout⟩

variable (env : Server.Env)

theorem genericHandler_plays (n : Nat) (p : Proc) :
    PlaysSession (genericHandler p) (Server.genericHandler env n p) := by
  intro s
  refine Plays.get (Plays.ask (q := .handle p s.rpc.buffer) (env.handlerImpl n p) rfl ?_ ?_)
  · simp [sends, sendOf, written]
  · cases env.handlerImpl n p with
    | ok responce => exact lift_plays (packMsg_plays _ _ responce) s
    | error x => exact Plays.throw _

theorem dispatchPackage_plays (header : MsgHeader) :
    PlaysSession (dispatchPackage header) (Server.dispatchPackage env header) := by
  intro s
  have hswitch : PlaysSession (dispatchPackage header)
      (Server.switch env s.dispatched.length header.ProcId) := by
    unfold dispatchPackage Server.switch
    cases Proc.ofId header.ProcId with
    | none => exact fun s => Plays.pure ()
    | some p => exact genericHandler_plays env _ p
  exact hswitch { s with dispatched := s.dispatched ++ [s.frame header] }

theorem turn_plays : PlaysSession turn (Server.turn env) := by
  intro s
  refine (guarded_plays (lift_plays recvPackage_plays) s).bind fun header s₁ _ => ?_
  cases header.Ok with
  | false => exact Plays.pure false
  | true =>
    refine (dispatchPackage_plays env header s₁).bind fun _ s₂ _ => ?_
    exact (guarded_plays (lift_plays sendPackage_plays) s₂).bind fun _ s₃ _ => Plays.pure true

theorem replyError_plays (what : Text) : PlaysSession (replyError what) (Server.replyError what) :=
  fun s => (lift_plays (packError_plays what) s).bind fun _ s' _ => lift_plays sendPackage_plays s'

theorem rethrow_plays (what : Text) (e : Stop) :
    PlaysSession
      (do
        let s ← MonadState.get
        if s.connOk then replyError what
        MonadExcept.throw e : SessionM Bool)
      (do
        let s ← MonadState.get
        if s.connOk then Server.replyError what
        MonadExcept.throw e : Server.SessionM Bool) := by
  intro s
  refine Plays.get ?_
  show Plays _ _ _ _ (if s.connOk then _ else _) _
  cases s.connOk with
  | true => exact (replyError_plays what s).bind fun _ s' _ => Plays.throw e
  | false => exact Plays.throw e

theorem clause_plays (e : Thrown) : PlaysSession (clause e) (Server.clause e) := by
  intro s
  cases e with
  | std what =>
    refine Plays.get ?_
    show Plays _ _ _ _ (if s.connOk then _ else _) _
    cases s.connOk with
    | true => exact (replyError_plays what s).bind fun _ s' _ => Plays.pure true
    | false => exact Plays.pure false
  | forcedUnwind => exact rethrow_plays _ _ s
  | other => exact rethrow_plays _ _ s

theorem iteration_plays : PlaysSession iteration (Server.iteration env) :=
  catching_plays (turn_plays env) clause_plays

theorem loop_plays (fuel : Nat) : PlaysSession (loop fuel) (Server.loop env fuel) := by
  induction fuel with
  | zero => exact fun s => Plays.throw _
  | succ fuel ih =>
    intro s
    have htest : Server.loop env (fuel + 1) s =
        (if env.doShutdown s.dispatched.length then Pure.pure ()
          else do
            let again ← Server.iteration env
            if again then Server.loop env fuel else Pure.pure () : Server.SessionM Unit) s := rfl
    refine Plays.ask (q := .doShutdown) (env.doShutdown s.dispatched.length) htest ?_ ?_
    · simp [sends, sendOf, written]
    · cases env.doShutdown s.dispatched.length with
      | true => exact Plays.pure ()
      | false =>
        refine (iteration_plays env s).bind fun again s' _ => ?_
        cases again with
        | true => exact ih s'
        | false => exact Plays.pure ()

/-- **A session against a connection is one of the sessions**, and its bytes on the connection are
what it sends there. -/
theorem handlerRoutine_replayed (conn : Conn) (buffer : Nat → Byte) :
    ∃ es, Trace (handlerRoutine (conn.inbound.length + 1) buffer) es
        (some (viewed viewSession (Server.handlerRoutine env conn buffer))) ∧
      (final (Server.handlerRoutine env conn buffer)).rpc.conn.outbound =
        conn.outbound ++ written (sends es) :=
  loop_plays env _ (Server.Session.start conn buffer)

end Calls

end MbDaemon
