import MbDaemon.Client
import MbDaemon.Server.Session

/-!
# Calls and their answers

A client and the session that serves it, calling in turns. The two agree on what belongs together by
each writing one frame per turn. An error reply is two frames, so the call after a failed one reads
an answer that is not its own: the calls are paired with their answers exactly when all but the last
of them succeed and every response fits its frame (`paired_iff`).
-/

namespace MbDaemon

open RPCDefs RPCProvider Server

namespace Client

structure System where
  client : RPCProvider
  server : Session

/-- A call to be made: its procedure, a request that fits a frame, and how the system will split
what the two ends receive. -/
structure Exchange where
  proc : Proc
  request : Outgoing proc.Request
  fits : encodedLength proc.Request request ≤ 254
  clientSplit : Nat → Nat
  serverSplit : Nat → Nat

def Exchange.frame (ex : Exchange) : Frame := msgFrame ex.proc.ID ex.proc.Request ex.request ex.fits

def deliver (s : RPCProvider) (bytes : List Byte) (recvSplit : Nat → Nat) : RPCProvider :=
  { s with conn := { s.conn with inbound := s.conn.inbound ++ bytes, recvSplit := recvSplit } }

/-- What `s'` has sent since `s`. -/
def written (s s' : RPCProvider) : List Byte := s'.conn.outbound.drop s.conn.outbound.length

/-- The server's turn: one iteration of the session's loop, which has to go on. -/
def serve (env : Env) (s : Session) : Option Session :=
  if env.doShutdown s.dispatched.length then none
  else
    match iteration env s with
    | .ok true s' => some s'
    | _ => none

/-- One `Call`: the request goes to the server, the server has its turn, and what it writes comes
back behind what the client has not read yet. -/
def call (env : Env) (ex : Exchange) (sys : System) : Option (CallResult ex.proc × System) :=
  match send ex.proc ex.request sys.client with
  | .error _ _ => none
  | .ok () client =>
    let server := { sys.server with
      rpc := deliver sys.server.rpc (written sys.client client) ex.serverSplit }
    match serve env server with
    | none => none
    | some server' =>
      match receive ex.proc (deliver client (written server.rpc server'.rpc) ex.clientSplit) with
      | .ok result client' => some (result, { client := client', server := server' })
      | .error _ _ => none

/-- The result is what the `n`-th dispatch answered. -/
structure Expected (env : Env) (n : Nat) (p : Proc) (result : CallResult p) : Prop where
  responce : ∀ msg, env.handlerImpl n p = .ok msg → result = .ok (value p.Responce msg)
  error : ∀ what, env.handlerImpl n p = .error (.std what) →
    result = .error { proc := p, error := what }

/-- Each call gets its own answer: when it is made nothing is left to be read that the server wrote
for an earlier one, its request is the next to be dispatched, and it comes back with what that
dispatch answered. -/
def Paired (env : Env) : Nat → List Exchange → System → Prop
  | _, [], _ => True
  | n, ex :: exs, sys =>
    sys.client.conn.inbound = [] ∧
      ∃ result sys', call env ex sys = some (result, sys') ∧
        sys'.server.dispatched = sys.server.dispatched ++ [ex.frame] ∧
        Expected env n ex.proc result ∧ Paired env (n + 1) exs sys'

def System.start (clientBuffer serverBuffer : Nat → Byte) (clientSend serverSend : Nat → Nat)
    (e : Errno) : System where
  client :=
    { conn := { inbound := [], recvEnd := .closed, recvSplit := fun _ => 0, outbound := [],
                sendLimit := none, sendErrno := e, sendSplit := clientSend },
      buffer := clientBuffer, errCode := errorCode }
  server := Session.start
    { inbound := [], recvEnd := .closed, recvSplit := fun _ => 0, outbound := [],
      sendLimit := none, sendErrno := e, sendSplit := serverSend } serverBuffer

structure Open (n : Nat) (sys : System) : Prop where
  dispatched : sys.server.dispatched.length = n
  connOk : sys.server.connOk = true
  serverCode : sys.server.rpc.errCode = Server.errCode
  clientCode : sys.client.errCode = errorCode
  serverIn : sys.server.rpc.conn.inbound = []
  serverLimit : sys.server.rpc.conn.sendLimit = none
  clientLimit : sys.client.conn.sendLimit = none

/-- Before the `n`-th call, nothing is under way in either direction. -/
structure Ready (n : Nat) (sys : System) : Prop extends Open n sys where
  clientIn : sys.client.conn.inbound = []

theorem ready_start (clientBuffer serverBuffer : Nat → Byte) (clientSend serverSend : Nat → Nat)
    (e : Errno) : Ready 0 (.start clientBuffer serverBuffer clientSend serverSend e) :=
  ⟨⟨rfl, rfl, rfl, rfl, rfl, rfl, rfl⟩, rfl⟩

/-! ## One call -/

theorem Exchange.ofId_frame (ex : Exchange) : Proc.ofId ex.frame.procId = some ex.proc :=
  Proc.ofId_ID ex.proc

theorem send_ok {ex : Exchange} {s : RPCProvider} (h : s.conn.sendLimit = none) :
    send ex.proc ex.request s = .ok () ((s.packed ex.frame).posted ex.frame) := by
  have hlen : ex.frame.payload.length ≤ 254 := (length_encode _ _).trans_le ex.fits
  have hpack : packMsg ex.proc.ID ex.proc.Request ex.request s = .ok () (s.packed ex.frame) := by
    rcases packMsg_cases ex.proc.ID ex.proc.Request ex.request s with ⟨_, hp⟩ | ⟨hp, -⟩
    · exact hp
    · have := ex.fits
      omega
  have hsend := sendPackage_ok (s := s) hlen (accepts_unlimited h _)
  unfold send
  simp only [bind, EStateM.bind, hpack, hsend]

theorem receive_frame {p : Proc} {s : RPCProvider} {f : Frame} {rest : List Byte}
    (h : s.conn.inbound = f.wire ++ rest) :
    receive p s = .ok
      (if f.procId ≠ s.errCode then .ok ((decode p.Responce 0).run (s.taken f rest).buffer)
        else .error { proc := p, error := f.payload }) (s.taken f rest) := by
  unfold receive
  simp only [bind, EStateM.bind, recvPackage_frame h, RPCProvider.header]
  by_cases hid : f.procId = s.errCode
  · simp [hid]
    rfl
  · simp [hid]
    rfl

def System.arrived (sys : System) (ex : Exchange) : Session :=
  { sys.server with rpc := deliver sys.server.rpc ex.frame.wire ex.serverSplit }

/-- The client when what the server has written in its turn has arrived. -/
def System.answered (sys : System) (ex : Exchange) (server' : Session) : RPCProvider :=
  deliver ((sys.client.packed ex.frame).posted ex.frame) (written sys.server.rpc server'.rpc)
    ex.clientSplit

section

variable {env : Env} {sys : System} {n : Nat} (ready : Open n sys) (ex : Exchange)

include ready

theorem inbound_arrived : (sys.arrived ex).rpc.conn.inbound = ex.frame.wire ++ [] := by
  simp [System.arrived, deliver, ready.serverIn]

theorem frame_ne_code : ex.frame.procId ≠ (sys.arrived ex).rpc.errCode := by
  have hcode : (sys.arrived ex).rpc.errCode = ProcIDs.error := ready.serverCode
  rw [hcode]
  exact ex.proc.ID_ne_error

omit ready in
/-- The client sees what the server has written in its turn behind what was there before. -/
theorem inbound_answered {server' : Session} {bytes : List Byte}
    (took : Took (sys.arrived ex) server' ex.frame [] bytes) :
    (sys.answered ex server').conn.inbound = sys.client.conn.inbound ++ bytes := by
  have hbytes : written sys.server.rpc server'.rpc = bytes := by
    unfold written
    rw [took.conn]
    simp [System.arrived, deliver]
  simp [System.answered, hbytes, deliver, posted, packed]

/-- When the client has read a frame, the next call can be made. -/
theorem open_took {server' : Session} {f : Frame} {rest bytes : List Byte}
    (took : Took (sys.arrived ex) server' ex.frame [] bytes) :
    Open (n + 1) { client := (sys.answered ex server').taken f rest, server := server' } where
  dispatched := by
    have hdisp : (sys.arrived ex).dispatched.length = n := ready.dispatched
    rw [took.dispatched, List.length_append, hdisp]
    rfl
  connOk := took.connOk.trans ready.connOk
  serverCode := took.errCode.trans ready.serverCode
  clientCode := ready.clientCode
  serverIn := by rw [took.conn]
  serverLimit := by rw [took.conn]; exact ready.serverLimit
  clientLimit := ready.clientLimit

variable (hrun : ∀ n, env.doShutdown n = false)

include hrun

theorem call_eq :
    call env ex sys =
      match iteration env (sys.arrived ex) with
      | .ok true server' =>
        match receive ex.proc (sys.answered ex server') with
        | .ok result client' => some (result, { client := client', server := server' })
        | .error _ _ => none
      | _ => none := by
  have hwritten : written sys.client ((sys.client.packed ex.frame).posted ex.frame) =
      ex.frame.wire := by
    simp [written, posted, packed]
  unfold call
  rw [send_ok ready.clientLimit]
  simp only [hwritten, serve, hrun]
  show (match (match iteration env (sys.arrived ex) with
    | .ok true s' => some s'
    | _ => none) with
    | none => none
    | some server' => _) = _
  cases iteration env (sys.arrived ex) with
  | ok again server' => cases again <;> rfl
  | error e server' => rfl

/-- A call whose turn ends with the client reading `f`. -/
theorem call_reads {server' : Session} {bytes rest : List Byte} {f : Frame}
    (hi : iteration env (sys.arrived ex) = .ok true server')
    (took : Took (sys.arrived ex) server' ex.frame [] bytes)
    (hin : sys.client.conn.inbound ++ bytes = f.wire ++ rest) :
    ∃ sys', call env ex sys = some
        (if f.procId ≠ errorCode then .ok ((decode ex.proc.Responce 0).run sys'.client.buffer)
          else .error { proc := ex.proc, error := f.payload }, sys') ∧
      Memory.load sys'.client.buffer 0 f.payload.length = f.payload ∧
      sys'.client.conn.inbound = rest ∧
      sys'.server.dispatched = sys.server.dispatched ++ [ex.frame] ∧ Open (n + 1) sys' := by
  refine ⟨{ client := (sys.answered ex server').taken f rest, server := server' }, ?_,
    load_taken _ f rest, rfl, took.dispatched, open_took ready ex took⟩
  have hcode : (sys.answered ex server').errCode = errorCode := ready.clientCode
  rw [call_eq ready ex hrun, hi]
  simp only [receive_frame ((inbound_answered ex took).trans hin), hcode]

/-- **A call whose dispatch returns a response that fits** comes back with it, and leaves nothing
behind. -/
theorem call_responce (hnone : sys.client.conn.inbound = []) {msg : Outgoing ex.proc.Responce}
    (hout : env.handlerImpl n ex.proc = .ok msg) (hlen : encodedLength ex.proc.Responce msg ≤ 254) :
    ∃ sys', call env ex sys = some (.ok (value ex.proc.Responce msg), sys') ∧
      sys'.server.dispatched = sys.server.dispatched ++ [ex.frame] ∧ Ready (n + 1) sys' := by
  have hans := answer_of_fits ex.ofId_frame hout hlen
  rw [← ready.dispatched] at hans
  obtain ⟨server', hi, took⟩ := (iteration_reply (inbound_arrived ready ex)
    (frame_ne_code ready ex) hans).1 (accepts_unlimited ready.serverLimit _)
  have hin : sys.client.conn.inbound ++ (msgFrame ex.proc.ID ex.proc.Responce msg hlen).wire =
      (msgFrame ex.proc.ID ex.proc.Responce msg hlen).wire ++ [] := by
    rw [hnone, List.nil_append, List.append_nil]
  obtain ⟨sys', hcall, hload, hrest, hdisp, hopen⟩ := call_reads ready ex hrun hi took hin
  have hvalue : (decode ex.proc.Responce 0).run sys'.client.buffer =
      value ex.proc.Responce msg := by
    apply run_decode (by omega)
    rw [← length_encode]
    exact hload
  have hne : (msgFrame ex.proc.ID ex.proc.Responce msg hlen).procId ≠ errorCode :=
    ex.proc.ID_ne_error
  rw [if_pos hne, hvalue] at hcall
  exact ⟨sys', hcall, hdisp, hopen, hrest⟩

/-- **A call whose dispatch throws** comes back with the text, and leaves a second copy behind. -/
theorem call_error (hnone : sys.client.conn.inbound = []) {what : Text}
    (hout : env.handlerImpl n ex.proc = .error (.std what)) (hlen : what.length ≤ 254) :
    ∃ sys', call env ex sys = some (.error { proc := ex.proc, error := what }, sys') ∧
      sys'.client.conn.inbound = (textFrame what hlen).wire ∧
      sys'.server.dispatched = sys.server.dispatched ++ [ex.frame] ∧ Open (n + 1) sys' := by
  have hans := answer_of_throws ex.ofId_frame hout
  rw [← ready.dispatched] at hans
  obtain ⟨server', hi, took⟩ := (iteration_error (inbound_arrived ready ex)
    (frame_ne_code ready ex) ready.serverCode ready.connOk hans).1 hlen
    (accepts_unlimited ready.serverLimit _)
  have hin : sys.client.conn.inbound ++ ((textFrame what hlen).wire ++ (textFrame what hlen).wire) =
      (textFrame what hlen).wire ++ (textFrame what hlen).wire := by
    rw [hnone, List.nil_append]
  obtain ⟨sys', hcall, -, hrest, hdisp, hopen⟩ := call_reads ready ex hrun hi took hin
  rw [if_neg (fun h => h rfl)] at hcall
  exact ⟨sys', hcall, hrest, hdisp, hopen⟩

/-- **A call behind a left copy** comes back with the text of the earlier one, whatever its own
dispatch returns. -/
theorem call_shifted {what : Text} {hlen : what.length ≤ 254}
    (hleft : sys.client.conn.inbound = (textFrame what hlen).wire)
    {msg : Outgoing ex.proc.Responce} (hout : env.handlerImpl n ex.proc = .ok msg)
    (hfit : encodedLength ex.proc.Responce msg ≤ 254) :
    ∃ sys', call env ex sys = some (.error { proc := ex.proc, error := what }, sys') := by
  have hans := answer_of_fits ex.ofId_frame hout hfit
  rw [← ready.dispatched] at hans
  obtain ⟨server', hi, took⟩ := (iteration_reply (inbound_arrived ready ex)
    (frame_ne_code ready ex) hans).1 (accepts_unlimited ready.serverLimit _)
  obtain ⟨sys', hcall, -⟩ := call_reads ready ex hrun hi took (by rw [hleft])
  rw [if_neg (fun h => h rfl)] at hcall
  exact ⟨sys', hcall⟩

theorem call_overflow {msg : Outgoing ex.proc.Responce}
    (hout : env.handlerImpl n ex.proc = .ok msg)
    (hlen : ¬ encodedLength ex.proc.Responce msg ≤ 254) : call env ex sys = none := by
  have hans := answer_of_overflows ex.ofId_frame hout hlen
  rw [← ready.dispatched] at hans
  obtain ⟨e, server', hi⟩ := iteration_overflow (inbound_arrived ready ex)
    (frame_ne_code ready ex) hans
  rw [call_eq ready ex hrun, hi]

end

/-! ## Sequences of calls -/

/-- Every response fits its frame, and every dispatch but the last returns one. -/
def AllSucceed (env : Env) (n : Nat) (exs : List Exchange) : Prop :=
  ∀ i ex, exs[i]? = some ex →
    (∀ msg, env.handlerImpl (n + i) ex.proc = .ok msg →
      encodedLength ex.proc.Responce msg ≤ 254) ∧
    (i + 1 < exs.length → ∃ msg, env.handlerImpl (n + i) ex.proc = .ok msg)

theorem allSucceed_cons {env : Env} {n : Nat} {ex : Exchange} {exs : List Exchange} :
    AllSucceed env n (ex :: exs) ↔
      ((∀ msg, env.handlerImpl n ex.proc = .ok msg → encodedLength ex.proc.Responce msg ≤ 254) ∧
        (exs ≠ [] → ∃ msg, env.handlerImpl n ex.proc = .ok msg)) ∧
      AllSucceed env (n + 1) exs := by
  constructor
  · intro h
    refine ⟨⟨(h 0 ex rfl).1, fun hne => (h 0 ex rfl).2 ?_⟩, fun i ex' hex => ?_⟩
    · have := List.length_pos_iff.2 hne
      rw [List.length_cons]
      omega
    · have := h (i + 1) ex' hex
      rw [show n + (i + 1) = n + 1 + i by omega] at this
      exact ⟨this.1, fun hi => this.2 (by rw [List.length_cons]; omega)⟩
  · rintro ⟨⟨hfit, hok⟩, hrest⟩ i ex' hex
    cases i with
    | zero =>
      cases hex
      refine ⟨hfit, fun hi => hok ?_⟩
      rintro rfl
      simp at hi
    | succ i =>
      have := hrest i ex' hex
      rw [show n + (i + 1) = n + 1 + i by omega]
      exact ⟨this.1, fun hi => this.2 (by rw [List.length_cons] at hi; omega)⟩

theorem paired_ready {env : Env} (hshort : ∀ n p, ShortOutcome (env.handler n p))
    (hrun : ∀ n, env.doShutdown n = false) (exs : List Exchange) :
    ∀ (n : Nat) (sys : System), Ready n sys → (Paired env n exs sys ↔ AllSucceed env n exs) := by
  induction exs with
  | nil => intro n sys _; exact iff_of_true trivial (fun i ex h => by simp at h)
  | cons ex exs ih =>
    intro n sys ready
    rw [allSucceed_cons, Paired, and_iff_right ready.clientIn]
    cases hout : env.handlerImpl n ex.proc with
    | ok msg =>
      by_cases hlen : encodedLength ex.proc.Responce msg ≤ 254
      · obtain ⟨sys', hcall, hdisp, ready'⟩ :=
          call_responce ready.toOpen ex hrun ready.clientIn hout hlen
        have hhead : (∀ msg', Except.ok msg = (.ok msg' : Outcome ex.proc.Responce) →
            encodedLength ex.proc.Responce msg' ≤ 254) ∧
            (exs ≠ [] → ∃ msg', Except.ok msg = (.ok msg' : Outcome ex.proc.Responce)) :=
          ⟨fun msg' h => by cases h; exact hlen, fun _ => ⟨msg, rfl⟩⟩
        rw [and_iff_right hhead, ← ih (n + 1) sys' ready', hcall]
        constructor
        · rintro ⟨result, sys'', h, -, -, hpaired⟩
          cases h
          exact hpaired
        · intro hpaired
          refine ⟨_, _, rfl, hdisp, ⟨fun msg' h => ?_, fun what h => ?_⟩, hpaired⟩
          · rw [hout] at h
            cases h
            rfl
          · rw [hout] at h
            cases h
      · rw [call_overflow ready.toOpen ex hrun hout hlen]
        refine iff_of_false ?_ (fun h => hlen (h.1.1 msg rfl))
        rintro ⟨result, sys', h, -⟩
        cases h
    | error x =>
      obtain ⟨what, rfl, hlen⟩ := handlerImpl_short hshort n ex.proc x hout
      obtain ⟨sys', hcall, hleft, hdisp, -⟩ :=
        call_error ready.toOpen ex hrun ready.clientIn hout hlen
      rw [hcall]
      cases exs with
      | nil =>
        refine iff_of_true ⟨_, _, rfl, hdisp, ⟨fun msg h => ?_, fun what' h => ?_⟩, trivial⟩
          ⟨⟨fun msg h => (by cases h), fun h => absurd rfl h⟩, fun i ex h => by simp at h⟩
        · rw [hout] at h
          cases h
        · rw [hout] at h
          cases h
          rfl
      | cons ex' exs =>
        -- the second copy is still there when the next call is made
        refine iff_of_false ?_ (fun h => ?_)
        · rintro ⟨result, sys'', h, -, -, hin, -⟩
          cases h
          rw [hleft] at hin
          cases hin
        · obtain ⟨msg, h⟩ := h.1.2 (List.cons_ne_nil _ _)
          cases h

/-- **The calls of a connection are paired with their answers iff all but the last succeed and every
response fits its frame.** A dispatch that throws is answered with two frames. -/
theorem paired_iff {env : Env} (hshort : ∀ n p, ShortOutcome (env.handler n p))
    (hrun : ∀ n, env.doShutdown n = false) (exs : List Exchange)
    (clientBuffer serverBuffer : Nat → Byte) (clientSend serverSend : Nat → Nat) (e : Errno) :
    Paired env 0 exs (.start clientBuffer serverBuffer clientSend serverSend e) ↔
      AllSucceed env 0 exs :=
  paired_ready hshort hrun exs 0 _ (ready_start clientBuffer serverBuffer clientSend serverSend e)

/-- `Ping` and `DebugThrow`, as a client calls them. -/
def pingCall : Exchange := ⟨.ping, (), by decide, fun _ => 0, fun _ => 0⟩

def debugThrowCall : Exchange := ⟨.debugThrow, (), by decide, fun _ => 0, fun _ => 0⟩

def System.new : System := .start (fun _ => 0) (fun _ => 0) (fun _ => 0) (fun _ => 0) ⟨32, []⟩

theorem paired_debugThrow_last : Paired refusing 0 [pingCall, debugThrowCall] .new := by
  refine (paired_iff refusing_short (fun _ => rfl) _ _ _ _ _ _).2 ?_
  refine allSucceed_cons.2 ⟨⟨fun msg _ => Nat.zero_le _, fun _ => ⟨(), rfl⟩⟩, ?_⟩
  refine allSucceed_cons.2 ⟨⟨fun msg h => (by cases h), fun h => absurd rfl h⟩, ?_⟩
  intro i ex h
  simp at h

/-- **The call after a failed one reads its text**: `Ping`, which has succeeded, throws what
`DebugThrow` has thrown. -/
theorem ping_shifted :
    ¬ Paired refusing 0 [debugThrowCall, pingCall] .new ∧
      ∃ sys sys',
        call refusing debugThrowCall .new =
          some (.error { proc := .debugThrow, error := ascii "Debug exception" }, sys) ∧
        call refusing pingCall sys =
          some (.error { proc := .ping, error := ascii "Debug exception" }, sys') := by
  have ready : Ready 0 System.new := ready_start _ _ _ _ _
  have hrun : ∀ n, refusing.doShutdown n = false := fun _ => rfl
  have hlen : (ascii "Debug exception").length ≤ 254 := by decide
  obtain ⟨sys, hcall, hleft, -, hopen⟩ :=
    call_error ready.toOpen debugThrowCall hrun ready.clientIn rfl hlen
  obtain ⟨sys', hcall'⟩ := call_shifted hopen pingCall hrun hleft rfl (Nat.zero_le _)
  refine ⟨?_, sys, sys', hcall, hcall'⟩
  rintro ⟨-, result, sys'', h, -, -, hin, -⟩
  cases hcall.symm.trans h
  rw [hleft] at hin
  cases hin

end Client

end MbDaemon
