import MbDaemon.CLI
import MbDaemon.CLI.Parser
import MbDaemon.Client.Pairing

/-!
# The commands of the client

The commands that talk to the daemon, from the client that `MakeClient` returns on. Each makes one
call, prints what it got and says goodbye. What a command prints is what it returns; the text of a
command whose goodbye fails is left out. A command that returns has sent its request and has read a
response to it (`callOnce_ok`).
-/

namespace MbDaemon

open RPCDefs RPCProvider

namespace DaemonCLI

/-- One call and the goodbye; `put` is what is printed of the response. -/
def callOnce {α : Type} (p : Proc) (request : Outgoing p.Request) (put : Value p.Responce → α) :
    RPC α := do
  Client.send p request
  match ← Client.receive p with
  | .ok responce => do
    Client.softDisconnect
    pure (put responce)
  | .error e => throwStd e.what

def doChipStart : RPC Unit := callOnce .start () id

def doChipStop : RPC Unit := callOnce .reset () id

def doDaemonStop : RPC Unit := callOnce .shutdown () id

def doDaemonDebugBlock : RPC Unit := callOnce .debugBlock () id

def doDaemonDebugDisconnect : RPC Unit := callOnce .disconnect () id

def putStatus (responce : Messages.ChipStatus Text) : Text :=
  ascii "Chip status: " ++ responce.Description ++
    ascii "\nIs acquired: " ++ ascii (if responce.Acquired then "Yes\n" else "No\n") ++
    if responce.Acquired then
      ascii "User name:  " ++ responce.User.Name ++
        ascii "\nUser PID:   " ++ ascii (toString responce.User.PID.toInt) ++ ascii "\n"
    else []

def doChipStatus : RPC Text := callOnce .getStatus () putStatus

def putPort (responce : Text) : Text := ascii "Motherboard port is " ++ responce ++ ascii "\n"

/-- `pid` is what `getpid()` returns. -/
def doDaemonDebugConnect (pid : Int32) : RPC Text :=
  callOnce .connect { Name := .ofCxxStr (ascii "CLI Debug"), PID := pid } putPort

/-- The one command that goes on after a `ProcException`. -/
def doDaemonDebugThrow : RPC Text := do
  Client.send .debugThrow ()
  let put ← match ← Client.receive .debugThrow with
    | .ok _ => pure []
    | .error e => pure (ascii "Error arrived: " ++ e.what ++ ascii "\n")
  Client.softDisconnect
  pure put

theorem doChipFlash_callOnce (path : Text) :
    doChipFlash path = callOnce .flash (flashRequest path) id := by
  have hbye : (Client.softDisconnect >>= fun _ => (pure () : RPC Unit)) = Client.softDisconnect := by
    funext s
    simp only [bind, EStateM.bind]
    cases Client.softDisconnect s <;> rfl
  unfold doChipFlash callOnce
  congr 1
  funext _
  congr 1
  funext result
  cases result with
  | ok _ => exact hbye.symm
  | error e => rfl

/-! ## A command that returns -/

/-- A client that returns has sent its request, and then at most two goodbyes, and has read a
response. -/
structure Answered (p : Proc) (request : Outgoing p.Request) (s s' : RPCProvider) : Prop where
  fits : encodedLength p.Request request ≤ 254
  sent : ∃ part, part <+: goodbye.wire ++ goodbye.wire ∧
    s'.conn.outbound = (msgFrame p.ID p.Request request fits).wire ++ part
  read : ∃ (g : Frame) (rest : List Byte), s.conn.inbound = g.wire ++ rest ∧ g.procId ≠ Client.errorCode

variable {α : Type} {p : Proc} {request : Outgoing p.Request} {put : Value p.Responce → α}
  {s s' : RPCProvider} {a : α}

theorem send_returns (h : Client.send p request s = .ok () s') :
    ∃ fits, s' = (s.packed (msgFrame p.ID p.Request request fits)).posted
      (msgFrame p.ID p.Request request fits) := by
  have hbind : Client.send p request s =
      (packMsg p.ID p.Request request >>= fun _ => sendPackage) s := rfl
  rw [hbind] at h
  simp only [bind, EStateM.bind] at h
  rcases packMsg_cases p.ID p.Request request s with ⟨fits, hpack⟩ | ⟨-, f, t, hpack⟩
  · have hlen : (msgFrame p.ID p.Request request fits).payload.length ≤ 254 :=
      (length_encode _ _).trans_le fits
    rw [hpack] at h
    simp only at h
    refine ⟨fits, ?_⟩
    by_cases hacc : accepts s.conn ((msgFrame p.ID p.Request request fits).payload.length + 2)
    · rw [sendPackage_ok hlen hacc] at h
      cases h
      rfl
    · obtain ⟨what, t, herror⟩ := sendFromBuffer_error
        (s := s.packed (msgFrame p.ID p.Request request fits)) (by omega) hacc
      rw [sendPackage_packed, herror] at h
      cases h
  · rw [hpack] at h
    cases h

theorem receive_returns {responce : Value p.Responce}
    (h : Client.receive p s = .ok (.ok responce) s') :
    ∃ (g : Frame) (rest : List Byte), s.conn.inbound = g.wire ++ rest ∧ g.procId ≠ s.errCode ∧ s' = s.taken g rest := by
  cases hparse : Frame.parse s.conn.inbound with
  | none =>
    obtain ⟨buffer, hshort⟩ := recvPackage_short hparse
    have hrun : Client.receive p s = .error s.conn.recvEnd.stop
        { s with conn := { s.conn with inbound := [] }, buffer := buffer } := by
      unfold Client.receive
      simp only [bind, EStateM.bind, hshort]
    rw [hrun] at h
    cases h
  | some found =>
    obtain ⟨g, rest⟩ := found
    have hin := Frame.parse_some hparse
    rw [Client.receive_frame hin] at h
    by_cases hid : g.procId = s.errCode
    · rw [if_neg (by simpa using hid)] at h
      cases h
    · rw [if_pos hid] at h
      cases h
      exact ⟨g, rest, hin, hid, rfl⟩

/-- **A command that returns** has sent its request and read a response. -/
theorem callOnce_ok (hs : Fresh s) (h : callOnce p request put s = .ok a s') :
    Answered p request s s' := by
  unfold callOnce at h
  simp only [bind, EStateM.bind] at h
  cases hsend : Client.send p request s with
  | error e t => rw [hsend] at h; cases h
  | ok u t =>
    obtain ⟨fits, rfl⟩ := send_returns hsend
    rw [hsend] at h
    simp only at h
    suffices hparts : (∃ part, part <+: goodbye.wire ++ goodbye.wire ∧
        s'.conn.outbound = (msgFrame p.ID p.Request request fits).wire ++ part) ∧
        ∃ (g : Frame) (rest : List Byte), s.conn.inbound = g.wire ++ rest ∧
          g.procId ≠ Client.errorCode from ⟨fits, hparts.1, hparts.2⟩
    generalize msgFrame p.ID p.Request request fits = f at h ⊢
    cases hrecv : Client.receive p ((s.packed f).posted f) with
    | error e t => rw [hrecv] at h; cases h
    | ok result t =>
      rw [hrecv] at h
      cases result with
      | error e => cases h
      | ok responce =>
        obtain ⟨g, rest, hin, hid, rfl⟩ := receive_returns hrecv
        obtain ⟨part, hpart, hout⟩ := softDisconnect_prefix
          (s := ((s.packed f).posted f).taken g rest) hs.errCode
        have hwire : (((s.packed f).posted f).taken g rest).conn.outbound = f.wire := by
          simp [taken, posted, packed, hs.outbound]
        simp only [EStateM.bind] at h
        cases hbye : Client.softDisconnect (((s.packed f).posted f).taken g rest) with
        | error e t => rw [hbye] at h; cases h
        | ok u t =>
          rw [hbye] at h hout
          cases h
          rw [hwire] at hout
          exact ⟨⟨part, hpart, hout⟩, g, rest, hin, by rw [← hs.errCode]; exact hid⟩

end DaemonCLI

end MbDaemon
