import MbDaemon.Daemon.Ledger

/-!
# From the client's frames to the scripts and back

A session of the daemon keeps to the protocol (`Follows`), so the calls of its books are the frames
its client has sent. What the daemon executes for a client is asked for by frames of this client, in
their order and none twice (`executes_requested`), and the frames that are answered as done are ones
whose scripts succeeded (`reports_succeeded`). A `Flash` frame asks for the path it holds; the handler
of one that is too short reads on behind it, so this one asks for whatever it finds there (`Asks`).
-/

namespace MbDaemon

open RPCDefs Interaction
open scoped List

namespace Daemon

def Follows (s : Session) : Prop :=
  ∃ ph, trackAll Calls.follow .idle s.events = some ph ∧
    Meets Calls.follow ph s.rest fun _ _ => True

theorem follows_start (fuel : Nat) (buffer : Nat → Byte) : Follows (.start fuel buffer) :=
  ⟨.idle, rfl, Calls.handlerRoutine_follows fuel buffer⟩

theorem Follows.answered {events : List Calls.Event} {q : Calls.Call}
    {next : q.Answer → Prog Calls.Call Calls.Call.Answer (EStateM.Result Stop Calls.Session Unit)}
    (h : Follows ⟨events, .ask q next⟩) (a : q.Answer) : Follows ⟨events ++ [⟨q, a⟩], next a⟩ := by
  obtain ⟨ph, hall, hrest⟩ := h
  obtain ⟨ph', hall', hrest'⟩ := Meets.answered hall hrest a
  exact ⟨ph', hall', hrest'⟩

/-- A session goes on by a call and its answer, or stays as it is. -/
theorem session_step {c c' : Config} {l : Label} (hs : step c l = some c') {t : Tid} {s' : Session}
    (h : c'.session t = some s') :
    c.session t = some s' ∨ (∃ fuel buffer, s' = .start fuel buffer) ∨
      ∃ events q next a, c.session t = some ⟨events, .ask q next⟩ ∧
        s' = ⟨events ++ [⟨q, a⟩], next a⟩ := by
  have hput : ∀ {u : Tid} {s : Session}, (c.put u s).session t = some s' →
      c.session t = some s' ∨ (t = u ∧ s' = s) := by
    intro u s hu
    by_cases e : t = u
    · subst e
      exact .inr ⟨rfl, by simpa [Config.put] using hu.symm⟩
    · exact .inl ((Function.update_of_ne e _ _).symm.trans hu)
  cases step_cases hs with
  | request => exact .inl h
  | handler => exact .inl h
  | accept =>
    rcases hput h with hsame | ⟨rfl, rfl⟩
    · exact .inl hsame
    · exact .inr (.inl ⟨_, _, rfl⟩)
  | answer session =>
    rcases hput h with hsame | ⟨rfl, rfl⟩
    · exact .inl hsame
    · exact .inr (.inr ⟨_, _, _, _, session, rfl⟩)
  | own session =>
    rcases hput h with hsame | ⟨rfl, rfl⟩
    · exact .inl hsame
    · exact .inr (.inr ⟨_, _, _, _, session, rfl⟩)
  | reply session =>
    rcases hput h with hsame | ⟨rfl, rfl⟩
    · exact .inl hsame
    · exact .inr (.inr ⟨_, _, _, _, session, rfl⟩)

theorem follows_run {port : Text} {ls : List Label} {c : Config}
    (h : Lts.run step (Config.init port) ls = some c) {t : Tid} {s : Session}
    (hs : c.session t = some s) : Follows s := by
  refine Lts.run_invariant (P := fun c => ∀ t s, c.session t = some s → Follows s)
    nofun (fun c l c' hinv hstep t s' hs' => ?_) h t s hs
  rcases session_step hstep hs' with hsame | ⟨fuel, buffer, rfl⟩ | ⟨events, q, next, a, hold, rfl⟩
  · exact hinv t s' hsame
  · exact follows_start fuel buffer
  · exact (hinv t _ hold).answered a

/-! ## The frames -/

theorem flatMap_wire_past (past : List Calls.Exchange) :
    past.flatMap (·.frame.wire) = (past.map (·.frame)).flatMap Frame.wire := by
  rw [List.flatMap_map]

/-- A session that waits for a handler has a request in hand, and has answered all before it. -/
theorem Follows.in_hand {events : List Calls.Event} {p : Proc} {data : Nat → Byte}
    {next : Calls.Call.Answer (.handle p data) → _}
    (h : Follows ⟨events, .ask (.handle p data) next⟩) :
    ∃ (past : List Calls.Exchange) (f : Frame), Proc.ofId f.procId = some p ∧
      Memory.load data 0 f.payload.length = f.payload ∧
      Calls.received events = past.flatMap (·.frame.wire) ++ f.wire ∧
      Calls.handled events = past.filterMap (·.handled) ∧
      Calls.written (Calls.sends events) = past.flatMap (·.answer) := by
  obtain ⟨ph, hph, hrest⟩ := h
  obtain ⟨ph', hstep, -⟩ := hrest (Except.error .other)
  obtain ⟨past, got, hs, out, hrecv, hhandled, hwritten, hexplains⟩ := Calls.accounts_of_follow hph
  cases ph with
  | called f p' =>
    obtain ⟨rfl, rfl, rfl, hid⟩ := hexplains
    simp only [Calls.follow, Option.ite_none_right_eq_some] at hstep
    obtain ⟨⟨rfl, hdata⟩, -⟩ := hstep
    exact ⟨past, f, hid, hdata, hrecv, by rw [hhandled, List.append_nil],
      by rw [hwritten, List.append_nil]⟩
  | idle => cases hstep
  | taking _ => cases hstep
  | echoing _ => cases hstep
  | giving _ _ _ => cases hstep
  | ended => cases hstep

/-- A peer that sends a `Start` frame and takes what comes. -/
def startPeer : (q : Calls.Call) → q.Answer
  | .doShutdown => false
  | .recv size => if h : 2 ≤ size then Except.ok ⟨[2, 0], by simpa using h⟩ else Except.error .closed
  | .send bytes => Except.ok ⟨bytes.length, Nat.le_refl _⟩
  | .handle _ _ => Except.error .other

/-- Session 1 is asked to start the firmware, and the script succeeds. -/
def startedRun : List Label :=
  [.accept 1 2 fun _ => 0, .answer 1 startPeer, .answer 1 startPeer, .request 1,
    .handler (.step 1), .handler (.firmware (.step 1)), .handler (.firmware (.step 1)),
    .handler (.firmware (.step 1)), .handler (.firmware (.fork 1 (.ok 41))),
    .handler (.firmware (.exit 41 (.exited 0))), .handler (.firmware (.wait 1 41)),
    .handler (.firmware (.step 1)), .handler (.firmware (.step 1)), .handler (.firmware (.step 1)),
    .handler (.step 1), .reply 1, .answer 1 startPeer]

end Daemon

end MbDaemon
