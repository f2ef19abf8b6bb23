import MbDaemon.Server.Conversation
import MbDaemon.HandlerImpl.Executing
import MbDaemon.HandlerImpl.Replies

/-!
# The daemon

The sessions and the one handler they share. A session runs `HandlerRoutine` against an environment
that answers its calls; a call of one of the six procedures is a request of the session's thread to
`HandlerImpl`, in which the threads of all sessions interleave, and the session goes on with what
comes back. `Config` is the handler and the sessions, each with its calls so far and what is left of
its routine.

The daemon is one that is not being shut down. `Run` ends by cancelling the sessions' threads, and one
that is inside a call of the handler, in the `wait()` of `Execute` or in `ClearPort`, unwinds from
there; its script goes on, and the next `wait()`, which takes any child, can take it for its own. No
step here cancels a session inside the handler. One that is in its own calls, `recv()` and `send()`,
can be cancelled.
-/

namespace MbDaemon

open RPCDefs Interaction

namespace Daemon

/-- A session: its calls with their answers, and what is left of its routine. -/
structure Session where
  events : List Calls.Event
  rest : Prog Calls.Call Calls.Call.Answer (EStateM.Result Stop Calls.Session Unit)

def Session.start (fuel : Nat) (buffer : Nat → Byte) : Session where
  events := []
  rest := Calls.handlerRoutine fuel buffer

structure Config where
  handler : HandlerImpl.Config
  session : Tid → Option Session

def Config.init (port : Text) : Config where
  handler := .init port
  session := fun _ => none

def Config.put (c : Config) (t : Tid) (s : Session) : Config :=
  { c with session := Function.update c.session t (some s) }

/-- The request of a procedure that the `IHandler` serves: what its method takes out of the message
behind `data`. -/
def request (p : Proc) (data : Nat → Byte) : Option HandlerImpl.Request :=
  match p with
  | .getStatus => some .getStatus
  | .flash => some (.flash ((decode .string 0).run data))
  | .start => some .start
  | .reset => some .reset
  | .connect =>
    let user : Messages.UserData Text := (decode .userData 0).run data
    some (.connect user.Name user.PID)
  | .disconnect => some .disconnect
  | .shutdown | .ping | .debugBlock | .debugThrow => none

def own : (p : Proc) → Option (Server.Outcome p.Responce)
  | .shutdown => some (.ok ())
  | .ping => some (.ok ())
  | .debugBlock => some (.ok ())
  | .debugThrow => some (.error (.std (ascii "Debug exception")))
  | _ => none

/-- What the session gets of an answer of the handler: a message or an exception, never a forced
unwinding. -/
def outcome : (p : Proc) → HandlerImpl.Reply → Option (Server.Outcome p.Responce)
  | .getStatus, .status description acquired name pid =>
    some (.ok (HandlerImpl.statusResponce description acquired name pid))
  | .connect, .port path => some (.ok (.ofCxxStr path))
  | .flash, .empty => some (.ok ())
  | .start, .empty => some (.ok ())
  | .reset, .empty => some (.ok ())
  | .disconnect, .empty => some (.ok ())
  | _, .threw e => some (.error (.std e.what))
  | _, _ => none

/-- `answer` carries what the environment answers to whatever the session asks it. -/
inductive Label where
  | accept (t : Tid) (fuel : Nat) (buffer : Nat → Byte)
  | answer (t : Tid) (a : (q : Calls.Call) → q.Answer)
  | own (t : Tid)
  | request (t : Tid)
  | handler (l : HandlerImpl.Label)
  | reply (t : Tid)

def external : Calls.Call → Bool
  | .handle _ _ => false
  | _ => true

/-- The steps that the handler's threads take by themselves. -/
def inner : HandlerImpl.Label → Bool
  | .request _ _ | .reply _ => false
  | _ => true

def step (c : Config) : Label → Option Config
  | .accept t fuel buffer =>
    match c.session t with
    | none => some (c.put t (.start fuel buffer))
    | some _ => none
  | .answer t a =>
    match c.session t with
    | some ⟨events, .ask q next⟩ =>
      if external q then some (c.put t ⟨events ++ [⟨q, a q⟩], next (a q)⟩) else none
    | _ => none
  | .own t =>
    match c.session t with
    | some ⟨events, .ask (.handle p data) next⟩ =>
      (own p).map fun o => c.put t ⟨events ++ [⟨.handle p data, o⟩], next o⟩
    | _ => none
  | .request t =>
    match c.session t with
    | some ⟨_, .ask (.handle p data) _⟩ => do
      let r ← request p data
      let handler ← HandlerImpl.step c.handler (.request t r)
      some { c with handler := handler }
    | _ => none
  | .handler l =>
    if inner l then (HandlerImpl.step c.handler l).map fun handler => { c with handler := handler }
    else none
  | .reply t =>
    match c.session t, c.handler.frame t with
    | some ⟨events, .ask (.handle p data) next⟩, .reply rep => do
      let o ← outcome p rep
      let handler ← HandlerImpl.step c.handler (.reply t)
      some { c.put t ⟨events ++ [⟨.handle p data, o⟩], next o⟩ with handler := handler }
    | _, _ => none

/-- The actions of a session that pass the milestone with a step. -/
def shows (t : Tid) (m : FirmwareFSM.Milestone) (c : Config) : Label → List FirmwareFSM.Op
  | .handler l => HandlerImpl.shows t c.handler m l
  | _ => []

/-- The actions of a session whose scripts a run has forked, in order. -/
def executed (port : Text) (t : Tid) (ls : List Label) : List FirmwareFSM.Op :=
  Lts.history step (shows t .forked) (Config.init port) ls

/-- The actions of a session whose scripts have exited with 0, in order. -/
def succeeded (port : Text) (t : Tid) (ls : List Label) : List FirmwareFSM.Op :=
  Lts.history step (shows t .succeeded) (Config.init port) ls

/-! ## The steps -/

inductive Step (c : Config) : Label → Config → Prop where
  | accept {t fuel buffer} (fresh : c.session t = none) :
      Step c (.accept t fuel buffer) (c.put t (.start fuel buffer))
  | answer {t a events q next} (session : c.session t = some ⟨events, .ask q next⟩)
      (system : external q = true) :
      Step c (.answer t a) (c.put t ⟨events ++ [⟨q, a q⟩], next (a q)⟩)
  | own {t events p data next o} (session : c.session t = some ⟨events, .ask (.handle p data) next⟩)
      (own : own p = some o) :
      Step c (.own t) (c.put t ⟨events ++ [⟨.handle p data, o⟩], next o⟩)
  | request {t events p data next r handler}
      (session : c.session t = some ⟨events, .ask (.handle p data) next⟩)
      (request : request p data = some r)
      (step : HandlerImpl.step c.handler (.request t r) = some handler) :
      Step c (.request t) { c with handler := handler }
  | handler {l handler} (inner : inner l = true) (step : HandlerImpl.step c.handler l = some handler) :
      Step c (.handler l) { c with handler := handler }
  | reply {t events p data next rep o handler}
      (session : c.session t = some ⟨events, .ask (.handle p data) next⟩)
      (frame : c.handler.frame t = .reply rep) (outcome : outcome p rep = some o)
      (step : HandlerImpl.step c.handler (.reply t) = some handler) :
      Step c (.reply t)
        { c.put t ⟨events ++ [⟨.handle p data, o⟩], next o⟩ with handler := handler }

theorem step_cases {c c' : Config} {l : Label} (h : step c l = some c') : Step c l c' := by
  cases l with
  | accept t fuel buffer =>
    simp only [step] at h
    split at h
    · cases h; exact .accept ‹_›
    · cases h
  | answer t a =>
    simp only [step] at h
    split at h
    · split at h
      · cases h; exact .answer ‹_› ‹_›
      · cases h
    · cases h
  | own t =>
    simp only [step] at h
    split at h
    · obtain ⟨o, ho, rfl⟩ := Option.map_eq_some_iff.1 h
      exact .own ‹_› ho
    · cases h
  | request t =>
    simp only [step] at h
    split at h
    · obtain ⟨r, hr, h⟩ := Option.bind_eq_some_iff.1 h
      obtain ⟨handler, hstep, h⟩ := Option.bind_eq_some_iff.1 h
      cases h
      exact .request ‹_› hr hstep
    · cases h
  | handler l =>
    simp only [step] at h
    split at h
    · obtain ⟨handler, hstep, rfl⟩ := Option.map_eq_some_iff.1 h
      exact .handler ‹_› hstep
    · cases h
  | reply t =>
    simp only [step] at h
    split at h
    · obtain ⟨o, ho, h⟩ := Option.bind_eq_some_iff.1 h
      obtain ⟨handler, hstep, h⟩ := Option.bind_eq_some_iff.1 h
      cases h
      exact .reply ‹_› ‹_› ho hstep
    · cases h

end Daemon

end MbDaemon
