import MbDaemon.CLI.Commands
import MbDaemon.Daemon.Requested

/-!
# What the tool reports

From the command line to the hardware. A client sends one request and then goodbyes, so the session
that serves it has one exchange (`only_request`). A hardware command that returns has read a response
in this exchange, so the daemon has forked the script of the command once for this client, and the
script has exited with 0 (`reported_done`).
-/

namespace MbDaemon

open RPCDefs RPCProvider
open scoped List

namespace DaemonCLI

/-- The hardware commands, each with the action it stands for. -/
def Command.action : Command → Option (RPC Unit × FirmwareFSM.Op)
  | .chipStart => some (doChipStart, .startFirmware)
  | .chipStop => some (doChipStop, .resetChip)
  | .chipFlash path => some (doChipFlash path, .flashBootlader (flashRequest path).text)
  | _ => none

/-- The two ends of a connection: the session has received what the client has sent or a beginning of
it, and the client will read what the session has written or a beginning of it. -/
structure Wired (client client' : RPCProvider) (session : Daemon.Session) : Prop where
  requests : Calls.received session.events <+: client'.conn.outbound
  answers : client.conn.inbound <+: Calls.written (Calls.sends session.events)

/-! ## One request -/

theorem wire_ne_nil (f : Frame) : f.wire ≠ [] := nofun

theorem noError_of_known {f : Frame} {p : Proc} (h : Proc.ofId f.procId = some p) :
    f.procId ≠ ProcIDs.error := by
  intro e
  rw [e] at h
  cases h

theorem noError_of_answers {f : Frame} {h : Option Calls.Handled} {answer : List Byte}
    {goesOn : Bool} (hanswers : Calls.Answers f h answer goesOn) : f.procId ≠ ProcIDs.error := by
  cases hanswers with
  | handled h known payload => exact noError_of_known known
  | unknown noError _ _ => exact noError

/-- Of what a client sends, one frame is a request. -/
theorem only_request {f : Frame} {frames : List Frame} {rest part : List Byte}
    (hpart : part <+: goodbye.wire ++ goodbye.wire)
    (h : frames.flatMap Frame.wire ++ rest <+: f.wire ++ part)
    (hrequests : ∀ g ∈ frames, g.procId ≠ ProcIDs.error) : frames = [] ∨ frames = [f] := by
  match frames with
  | [] => exact .inl rfl
  | g :: frames =>
    rw [List.flatMap_cons, List.append_assoc] at h
    obtain rfl : g = f :=
      Frame.wire_prefix_inj ((List.prefix_append _ _).trans h) (List.prefix_append _ _)
    have htail := (List.prefix_append_right_inj _).1 h
    match frames with
    | [] => exact .inr rfl
    | g' :: frames =>
      rw [List.flatMap_cons, List.append_assoc] at htail
      have hbye : g' = goodbye := Frame.wire_prefix_inj
        ((List.prefix_append _ _).trans (htail.trans hpart)) (List.prefix_append _ _)
      exact absurd (by rw [hbye]; rfl) (hrequests g' (by simp))

theorem frames_noError {past : List Calls.Exchange} :
    ∀ g ∈ past.map (·.frame), g.procId ≠ ProcIDs.error := by
  intro g hg
  obtain ⟨x, -, rfl⟩ := List.mem_map.1 hg
  exact noError_of_answers x.answers

theorem returned_of_reply {f g : Frame} {h : Option Calls.Handled} {answer : List Byte}
    {goesOn : Bool} (hanswers : Calls.Answers f h answer goesOn) {p : Proc}
    (hid : Proc.ofId f.procId = some p) (hreply : g.wire <+: answer)
    (hnoError : g.procId ≠ ProcIDs.error) :
    ∃ x : Calls.Handled, h = some x ∧ x.proc = p ∧
      Memory.load x.data 0 f.payload.length = f.payload ∧ ∃ msg, x.outcome = .ok msg := by
  have htext : ∀ (what : Text) (hlen : what.length ≤ 254),
      ¬ g.wire <+: (List.replicate 2 (Server.textFrame what hlen)).flatMap Frame.wire := by
    intro what hlen hpre
    have hsame : g = Server.textFrame what hlen :=
      Frame.wire_prefix_inj hpre (List.prefix_append _ _)
    exact hnoError (by rw [hsame]; rfl)
  have hnil : ¬ g.wire <+: ([] : List Frame).flatMap Frame.wire :=
    fun hpre => wire_ne_nil g (List.prefix_nil.1 hpre)
  cases hanswers with
  | unknown _ unknown _ => rw [hid] at unknown; cases unknown
  | handled x known payload =>
    rw [hid] at known
    refine ⟨x, rfl, (Option.some.inj known).symm, payload, ?_⟩
    obtain ⟨p', data, outcome⟩ := x
    cases outcome with
    | ok msg => exact ⟨msg, rfl⟩
    | error e =>
      cases e with
      | std what =>
        simp only [Calls.replies, Calls.apology] at hreply
        split at hreply
        · exact absurd hreply (htext _ _)
        · exact absurd hreply hnil
      | forcedUnwind => exact absurd hreply (htext _ _)
      | other => exact absurd hreply (htext _ _)

/-- A session that has replied to the request of such a client has handled this request, with success,
and nothing else. -/
theorem handled_of_replied {s : Daemon.Session} (h : Daemon.Follows s) {f g : Frame} {p : Proc}
    {part : List Byte} (hid : Proc.ofId f.procId = some p)
    (hpart : part <+: goodbye.wire ++ goodbye.wire)
    (hrecv : Calls.received s.events <+: f.wire ++ part)
    (hreply : g.wire <+: Calls.written (Calls.sends s.events))
    (hnoError : g.procId ≠ ProcIDs.error) :
    ∃ x : Calls.Handled, Calls.handled s.events = [x] ∧ x.proc = p ∧
      Memory.load x.data 0 f.payload.length = f.payload ∧ ∃ msg, x.outcome = .ok msg := by
  obtain ⟨ph, hph, -⟩ := h
  obtain ⟨past, got, calls, out, hgot, hhandled, hwritten, hexplains⟩ :=
    Calls.accounts_of_follow hph
  rw [hgot, Daemon.flatMap_wire_past] at hrecv
  rw [hwritten] at hreply
  cases hexplains.begun with
  | reading _ =>
    rcases only_request hpart hrecv frames_noError with hnil | hone
    · obtain rfl : past = [] := List.map_eq_nil_iff.1 hnil
      exact absurd (List.prefix_nil.1 hreply) (wire_ne_nil g)
    · obtain ⟨x, rfl, rfl⟩ := List.map_eq_singleton_iff.1 hone
      obtain ⟨y, hy, hproc, hload, hok⟩ :=
        returned_of_reply x.answers hid (by simpa using hreply) hnoError
      exact ⟨y, by simp [hhandled, hy], hproc, hload, hok⟩
  | @answering f' z answer out goesOn hanswers hout =>
    have hrecv' : (past.map (·.frame) ++ [f']).flatMap Frame.wire ++ [] <+: f.wire ++ part := by
      simpa using hrecv
    have hnoErrors : ∀ g ∈ past.map (·.frame) ++ [f'], g.procId ≠ ProcIDs.error := by
      intro g hg
      rcases List.mem_append.1 hg with hpast | hlast
      · exact frames_noError g hpast
      · rw [List.mem_singleton.1 hlast]
        exact noError_of_answers hanswers
    rcases only_request hpart hrecv' hnoErrors with hnil | hone
    · simp at hnil
    · obtain ⟨rfl, rfl⟩ : past = [] ∧ f' = f := by
        cases past with
        | nil => exact ⟨rfl, by simpa using hone⟩
        | cons x past => simp at hone
      obtain ⟨y, rfl, hproc, hload, hok⟩ := returned_of_reply hanswers hid (hreply.trans hout) hnoError
      exact ⟨y, by simp [hhandled], hproc, hload, hok⟩

theorem none_in_hand {events : List Calls.Event} {q : Proc} {data : Nat → Byte}
    {next : Calls.Call.Answer (.handle q data) → _} {f g : Frame} {part : List Byte}
    (hpart : part <+: goodbye.wire ++ goodbye.wire)
    (hrecv : Calls.received events <+: f.wire ++ part)
    (hreply : g.wire <+: Calls.written (Calls.sends events)) :
    ¬ Daemon.Follows ⟨events, .ask (.handle q data) next⟩ := by
  intro h
  obtain ⟨past, f', hid', -, hgot, -, hwritten⟩ := h.in_hand
  have hrecv' : (past.map (·.frame) ++ [f']).flatMap Frame.wire ++ [] <+: f.wire ++ part := by
    rw [hgot, Daemon.flatMap_wire_past] at hrecv
    simpa using hrecv
  have hnoErrors : ∀ g ∈ past.map (·.frame) ++ [f'], g.procId ≠ ProcIDs.error := by
    intro g hg
    rcases List.mem_append.1 hg with hpast | hlast
    · exact frames_noError g hpast
    · rw [List.mem_singleton.1 hlast]
      exact noError_of_known hid'
  rcases only_request hpart hrecv' hnoErrors with hnil | hone
  · simp at hnil
  · obtain rfl : past = [] := by
      cases past with
      | nil => rfl
      | cons x past => simp at hone
    rw [hwritten] at hreply
    exact wire_ne_nil g (List.prefix_nil.1 hreply)

/-! ## The hardware commands -/

/-- A hardware command is one call, whose request asks for its action. -/
theorem call_of_action {cmd : Command} {m : RPC Unit} {op : FirmwareFSM.Op}
    (h : cmd.action = some (m, op)) :
    ∃ (p : Proc) (request : Outgoing p.Request), m = callOnce p request (fun _ => ()) ∧
      Proc.ofId p.ID = some p ∧ ∀ data : Nat → Byte, encodedLength p.Request request ≤ 254 →
        Memory.load data 0 (encodedLength p.Request request) = encode p.Request request →
        (Daemon.request p data).bind HandlerImpl.Request.action = some op := by
  cases cmd with
  | chipStart => cases h; exact ⟨.start, (), rfl, rfl, fun _ _ _ => rfl⟩
  | chipStop => cases h; exact ⟨.reset, (), rfl, rfl, fun _ _ _ => rfl⟩
  | chipFlash path =>
    cases h
    refine ⟨.flash, flashRequest path, doChipFlash_callOnce path, rfl, fun data hfits hdata => ?_⟩
    have hread : (decode .string 0).run data = (flashRequest path).text :=
      run_decode (hfits.trans (by decide)) hdata
    exact congrArg (fun path => some (FirmwareFSM.Op.flashBootlader path)) hread
  | _ => cases h

/-- The books of a session that has served a hardware command: it has handled the one request, and
nothing is in hand. -/
theorem books_of_returned {port : Text} {ls : List Daemon.Label} {c : Daemon.Config}
    (h : Lts.run Daemon.step (Daemon.Config.init port) ls = some c) {t : Tid} {s : Daemon.Session}
    (hs : c.session t = some s) {cmd : Command} {m : RPC Unit} {op : FirmwareFSM.Op}
    (hcmd : cmd.action = some (m, op)) {r r' : RPCProvider} (hr : Fresh r) (hrun : m r = .ok () r')
    (hwired : Wired r r' s) :
    c.asked t = [op] ∧ c.acknowledged t = [op] ∧ ∀ milestone, c.passed milestone t = [] := by
  obtain ⟨p, request, rfl, hid, hasks⟩ := call_of_action hcmd
  obtain ⟨fits, ⟨part, hpart, hsent⟩, g, rest, hin, hnoError⟩ := callOnce_ok hr hrun
  have hrecv := hsent ▸ hwired.requests
  have hreply : g.wire <+: Calls.written (Calls.sends s.events) :=
    (hin ▸ List.prefix_append _ _ : g.wire <+: r.conn.inbound).trans hwired.answers
  have hfollows := Daemon.follows_run h hs
  obtain ⟨x, hcalls, rfl, hload, msg, hok⟩ :=
    handled_of_replied hfollows hid hpart hrecv hreply hnoError
  have haction : Daemon.actionOf x = some op :=
    hasks x.data fits (by simpa [msgFrame, length_encode] using hload)
  have hdone : Daemon.doneOf x = some op := by
    unfold Daemon.doneOf
    rw [hok]
    exact haction
  refine ⟨?_, ?_, fun milestone => ?_⟩
  · simp [Daemon.Config.asked, Daemon.Config.calls, hs, hcalls, haction]
  · simp [Daemon.Config.acknowledged, Daemon.Config.calls, hs, hcalls, hdone]
  · unfold Daemon.Config.passed Daemon.Config.inHand
    rw [hs]
    obtain ⟨events, rest⟩ := s
    cases rest with
    | pure _ => rfl
    | ask q next =>
      cases q with
      | handle q data => exact absurd hfollows (none_in_hand hpart hrecv hreply)
      | _ => rfl

/-- **What the tool reports as done has been done.** When a hardware command returns, in any run of the
daemon in which no session is cancelled inside the handler, whatever the other sessions do, the
session that has served it has forked the script of the command, once, and no other; and this script
has exited with 0. -/
theorem reported_done {port : Text} {ls : List Daemon.Label} {c : Daemon.Config}
    (h : Lts.run Daemon.step (Daemon.Config.init port) ls = some c) {t : Tid}
    {s : Daemon.Session} (hs : c.session t = some s) {cmd : Command} {m : RPC Unit}
    {op : FirmwareFSM.Op} (hcmd : cmd.action = some (m, op)) {r r' : RPCProvider} (hr : Fresh r)
    (hrun : m r = .ok () r') (hwired : Wired r r' s) :
    Daemon.executed port t ls = [op] ∧ Daemon.succeeded port t ls = [op] := by
  obtain ⟨hasked, hack, hpassed⟩ := books_of_returned h hs hcmd hr hrun hwired
  rw [← hasked]
  exact (Daemon.ledger_run h t).2.settled hpassed (hack.trans hasked.symm)

def startedClient : RPCProvider := { quiet with conn := { quiet.conn with inbound := [2, 0] } }

theorem sends_of_decide {m : RPC Unit} {r : RPCProvider} {bytes : List Byte}
    (h : (match m r with
      | .ok _ r' => decide (bytes <+: r'.conn.outbound)
      | .error _ _ => false) = true) :
    ∃ r', m r = .ok () r' ∧ bytes <+: r'.conn.outbound := by
  cases hrun : m r with
  | ok _ r' =>
    rw [hrun] at h
    exact ⟨r', rfl, of_decide_eq_true h⟩
  | error _ _ =>
    rw [hrun] at h
    cases h

theorem reported_done_started :
    ∃ c s r', Lts.run Daemon.step (Daemon.Config.init []) Daemon.startedRun = some c ∧
      c.session 1 = some s ∧ doChipStart startedClient = .ok () r' ∧ Wired startedClient r' s ∧
      Daemon.executed [] 1 Daemon.startedRun = [.startFirmware] ∧
      Daemon.succeeded [] 1 Daemon.startedRun = [.startFirmware] := by
  obtain ⟨c, hrun, hsession⟩ : ∃ c,
      Lts.run Daemon.step (Daemon.Config.init []) Daemon.startedRun = some c ∧
      (c.session 1).map (fun s => (Calls.received s.events, Calls.written (Calls.sends s.events))) =
        some ([2, 0], [2, 0]) := Lts.run_reaches (by decide)
  obtain ⟨s, hs, hbytes⟩ := Option.map_eq_some_iff.1 hsession
  obtain ⟨hrecv, hwritten⟩ := Prod.mk.inj hbytes
  obtain ⟨r', hclient, hsent⟩ : ∃ r', doChipStart startedClient = .ok () r' ∧
      [2, 0] <+: r'.conn.outbound := sends_of_decide (by decide +kernel)
  have hwired : Wired startedClient r' s :=
    ⟨by rw [hrecv]; exact hsent, by rw [hwritten]; exact List.prefix_rfl⟩
  have haction : Command.chipStart.action = some (doChipStart, .startFirmware) := rfl
  exact ⟨c, s, r', hrun, hs, hclient, hwired,
    reported_done hrun hs haction ⟨rfl, rfl⟩ hclient hwired⟩

end DaemonCLI

end MbDaemon
