import MbDaemon.HandlerImpl.Steps

/-!
# The script a request runs

`Flash`, `Start` and `Reset` stand for one hardware action each (`Request.action`), and a thread that
serves one of them forks the script of that action once or not at all, and sees it succeed at most
once. These are the milestones of an action; `shows` is where an observer of the process table sees a
thread pass one, `passed` says whether a thread at such a place has, and the two agree along every
step (`serves_step`). `Serves` says where in the handler a request can be.
-/

namespace MbDaemon

open HwUtils

namespace FirmwareFSM

/-- The script has been forked; it has exited with 0 and been waited for. -/
inductive Milestone where
  | forked
  | succeeded
  deriving DecidableEq

/-- Whether the milestone has been passed when `Execute` comes back, by what it throws. -/
def Milestone.after : Milestone → Option ExecError → Bool
  | _, none => true
  | .forked, some (.fork _) => false
  | .forked, some _ => true
  | .succeeded, some _ => false

/-- Whether a thread that waits for the script has passed it. -/
def Milestone.waiting : Milestone → Bool
  | .forked => true
  | .succeeded => false

def Exn.passed (m : Milestone) : Exn → Bool
  | .execute e => m.after (some e)
  | .fsm _ _ _ => false

/-- Whether a thread at such a point of a transition has passed the milestone. -/
def Pc.passed (m : Milestone) : Pc → Bool
  | .wait _ _ => m.waiting
  | .setLock _ thrown | .setWork _ thrown | .setUnlock _ thrown => m.after thrown
  | .done .returned => true
  | .done (.threw e) => e.passed m
  | _ => false

@[simp] theorem passed_result (m : Milestone) (thrown : Option ExecError) :
    (Pc.done (result thrown)).passed m = m.after thrown := by
  cases thrown <;> rfl

/-- The actions of a thread that pass the milestone with a step: it has forked the script, or has
reaped this very child with success. -/
def shows (t : Tid) (c : Config) : Milestone → Label → List Op
  | .forked, .fork u (.ok _) =>
    if u = t then
      match c.pc t with
      | .act op => [op]
      | _ => []
    else []
  | .succeeded, .wait u pid =>
    if u = t then
      match c.pc t, reapable c.children pid with
      | .wait op own, some status => if pid = own ∧ checkStatus status = none then [op] else []
      | _, _ => []
    else []
  | _, _ => []

theorem shows_of_other {c : Config} {l : Label} {t : Tid} (m : Milestone) (ht : l.thread ≠ some t) :
    shows t c m l = [] := by
  unfold shows
  split
  · exact if_neg fun e => ht (congrArg some e)
  · exact if_neg fun e => ht (congrArg some e)
  · rfl

/-- Only a thread in front of its script or in wait for it passes a milestone. -/
theorem shows_of_outside {c : Config} {t : Tid} (hact : ∀ op, c.pc t ≠ .act op)
    (hwait : ∀ op pid, c.pc t ≠ .wait op pid) (m : Milestone) (l : Label) : shows t c m l = [] := by
  unfold shows
  split
  · split
    · split
      · exact absurd ‹_› (hact _)
      · rfl
    · rfl
  · split
    · split
      · exact absurd ‹_› (hwait _ _)
      · rfl
    · rfl
  · rfl

theorem after_checkStatus (status : WaitStatus) :
    Milestone.forked.after (checkStatus status) = true ∧
      (Milestone.succeeded.after (checkStatus status) = true ↔ checkStatus status = none) := by
  cases status with
  | signaled _ => exact ⟨rfl, by simp [checkStatus, Milestone.after]⟩
  | exited code => by_cases h : code = 0 <;> simp [checkStatus, h, Milestone.after]

/-- A transition that goes on inside the firmware object passes a milestone at the step that shows
it. -/
theorem passed_step {c c' : Config} {l : Label} {t : Tid} {op : Op} (m : Milestone) (hi : Inv c)
    (hs : step c l = some c') (hserves : Serves (.transition op) (c.pc t))
    (hcall : ∀ k, l ≠ .call t k) (hret : l ≠ .ret t) :
    (if (c'.pc t).passed m then [op] else []) =
      (if (c.pc t).passed m then [op] else []) ++ shows t c m l := by
  by_cases ht : l.thread = some t
  case neg => rw [pc_of_other hs ht, shows_of_other m ht, List.append_nil]
  cases step_cases hs with
  | call pc => cases ht; exact absurd rfl (hcall _)
  | ret pc => cases ht; exact absurd rfl hret
  | exit => cases ht
  | @fork u op' pid pc =>
    cases ht
    rw [pc] at hserves
    obtain rfl : op' = op := by simpa [Serves, Pc.op] using hserves
    cases m <;> simp [Config.goto, shows, pc, Pc.passed, Milestone.waiting]
  | @wait u op' own pid status pc ended =>
    cases ht
    rw [pc] at hserves
    obtain rfl : op' = op := by simpa [Serves, Pc.op] using hserves
    obtain ⟨hforked, hsucceeded⟩ := after_checkStatus status
    -- the only child there is to reap is the thread's own
    obtain ⟨st, hchildren⟩ := hi.phase.children_of_wait pc
    rw [hchildren] at ended
    obtain ⟨rfl, rfl⟩ := reapable_single ended
    rw [← hchildren] at ended
    cases m with
    | forked => simp [Config.goto, shows, pc, Pc.passed, Milestone.waiting, hforked]
    | succeeded => simp [Config.goto, shows, pc, ended, Pc.passed, Milestone.waiting, hsucceeded]
  | @unlock u op' ok pc => cases ht; cases ok <;> cases m <;> simp [Config.goto, shows, pc, Pc.passed]
  | @waitFail u op' own e pc =>
    cases ht
    cases m <;> simp [Config.goto, shows, pc, Pc.passed, Milestone.waiting, Milestone.after]
  | @setUnlock u op' thrown pc =>
    cases ht
    cases m <;> simp [Config.goto, shows, pc] <;> rfl
  | @forkFail u op' e pc =>
    cases ht
    cases m <;> simp [Config.goto, shows, pc, Pc.passed, Milestone.after]
  | @reject u op' pc =>
    cases ht
    cases m <;> simp [Config.goto, shows, pc, Pc.passed, Exn.passed]
  | @lock u op' pc _ | @accept u op' pc _ | @refuse u op' pc _ | @setLock u op' _ pc _
  | @setWork u op' _ pc | @getLock u _ pc _ | @getWork u _ pc | @getUnlock u _ pc =>
    cases ht
    cases m <;> simp [Config.goto, shows, pc, Pc.passed]

theorem passed_forked {p : Pc} (h : p.passed .succeeded = true) : p.passed .forked = true := by
  have hafter : ∀ thrown, Milestone.succeeded.after thrown = true →
      Milestone.forked.after thrown = true := by
    intro thrown hthrown
    cases thrown with
    | none => rfl
    | some e => simp [Milestone.after] at hthrown
  cases p with
  | setLock op thrown => exact hafter thrown h
  | setWork op thrown => exact hafter thrown h
  | setUnlock op thrown => exact hafter thrown h
  | done r =>
    cases r with
    | returned => rfl
    | threw e =>
      cases e with
      | fsm _ _ _ => cases h
      | execute e => exact hafter (some e) h
    | value _ => cases h
  | wait _ _ => cases h
  | _ => cases h

end FirmwareFSM

namespace HandlerImpl

def Request.action : Request → Option FirmwareFSM.Op
  | .flash path => some (.flashBootlader path)
  | .start => some .startFirmware
  | .reset => some .resetChip
  | _ => none

theorem Request.action_of_op {r : Request} {op : FirmwareFSM.Op} (h : r.op = some op) :
    r.action = some op := by
  cases r <;> cases h <;> rfl

def Request.Gives : Request → Reply → Prop
  | _, .threw _ => True
  | .getStatus, .status _ _ _ _ => True
  | .connect _ _, .port _ => True
  | .flash _, .empty | .start, .empty | .reset, .empty | .disconnect, .empty => True
  | _, _ => False

/-- The answers that come out of a critical section; the others come out of the firmware. -/
def Request.GivesInside (r : Request) : Reply → Prop
  | .empty => r.action = none
  | .threw (.firmware _) => False
  | _ => True

def Serves (r : Request) : Frame → Prop
  | .idle => False
  | .lock r' | .held r' => r' = r
  | .describing | .fill _ => r = .getStatus
  | .stateCheck name pid | .getPort name pid | .portRead name pid => r = .connect name pid
  | .clearPort name pid _ | .store name pid _ => r = .connect name pid
  | .unlock (.firmware op) | .enter op | .firmware op => r.action = some op
  | .unlock (.reply rep) => r.Gives rep ∧ r.GivesInside rep
  | .reply rep => r.Gives rep

/-- Whether the action of the request has passed the milestone. -/
def Frame.passed (m : FirmwareFSM.Milestone) (p : FirmwareFSM.Pc) : Frame → Bool
  | .firmware _ => p.passed m
  | .reply .empty => true
  | .reply (.threw (.firmware e)) => e.passed m
  | _ => false

/-- The action of a thread that serves `r`, once it has passed the milestone. -/
def Config.passed (c : Config) (m : FirmwareFSM.Milestone) (t : Tid) (r : Request) :
    List FirmwareFSM.Op :=
  if (c.frame t).passed m (c.firmware.pc t) then r.action.toList else []

/-- The actions of a thread that pass the milestone with a step. -/
def shows (t : Tid) (c : Config) (m : FirmwareFSM.Milestone) : Label → List FirmwareFSM.Op
  | .firmware l => FirmwareFSM.shows t c.firmware m l
  | _ => []

theorem shows_of_other {c : Config} {l : Label} {t : Tid} (m : FirmwareFSM.Milestone)
    (ht : l.thread ≠ some t) : shows t c m l = [] := by
  cases l with
  | firmware l => exact FirmwareFSM.shows_of_other m ht
  | _ => rfl

theorem serves_entry (r : Request) : Serves r r.entry := by cases r <;> rfl

theorem Request.gives_empty {r : Request} {op : FirmwareFSM.Op} (h : r.action = some op) :
    r.Gives .empty := by
  cases r with
  | getStatus | connect _ _ => cases h
  | flash _ | start | reset | disconnect => trivial

@[simp] theorem Request.gives_threw (r : Request) (e : Exn) : r.Gives (.threw e) := by
  cases r <;> trivial

theorem passed_inside {r : Request} {rep : Reply} (h : r.GivesInside rep)
    (m : FirmwareFSM.Milestone) (p : FirmwareFSM.Pc) :
    (if (Frame.reply rep).passed m p then r.action.toList else []) = [] := by
  cases rep with
  | empty => rw [show r.action = none from h]; rfl
  | threw e => cases e <;> first | rfl | exact h.elim
  | status _ _ _ _ => rfl
  | port _ => rfl

/-- A thread outside the transitions is at no point of one. -/
theorem op_of_frame {c : Config} (hi : Inv c) {t : Tid} (h : ∀ op, c.frame t ≠ .firmware op) :
    (c.firmware.pc t).op = none := by
  have hplaced := hi.placed t
  unfold Placed at hplaced
  cases hf : c.frame t with
  | firmware op => exact absurd hf (h op)
  | describing | stateCheck _ _ | portRead _ _ =>
    rw [hf] at hplaced
    rcases hplaced with hpc | hpc | ⟨v, -, hpc | hpc⟩ <;> rw [hpc] <;> rfl
  | _ =>
    rw [hf] at hplaced
    rw [show c.firmware.pc t = .idle from hplaced]
    rfl

theorem shows_of_frame {c : Config} (hi : Inv c) {t : Tid} (h : ∀ op, c.frame t ≠ .firmware op)
    (m : FirmwareFSM.Milestone) (l : Label) : shows t c m l = [] := by
  have hop := op_of_frame hi h
  cases l with
  | firmware l =>
    refine FirmwareFSM.shows_of_outside (fun op e => ?_) (fun op pid e => ?_) m l
    · rw [e] at hop; cases hop
    · rw [e] at hop; cases hop
  | _ => rfl

theorem passed_congr {f : Frame} (h : ∀ op, f ≠ .firmware op) (m : FirmwareFSM.Milestone)
    (p q : FirmwareFSM.Pc) : f.passed m p = f.passed m q := by
  cases f with
  | firmware op => exact absurd rfl (h op)
  | reply rep =>
    cases rep with
    | threw e => cases e <;> rfl
    | _ => rfl
  | _ => rfl

theorem passed_forked {f : Frame} {p : FirmwareFSM.Pc} (h : f.passed .succeeded p = true) :
    f.passed .forked p = true := by
  cases f with
  | firmware op => exact FirmwareFSM.passed_forked h
  | reply rep =>
    cases rep with
    | empty => rfl
    | threw e =>
      cases e with
      | firmware e => exact FirmwareFSM.passed_forked (p := .done (.threw e)) h
      | _ => cases h
    | _ => cases h
  | _ => cases h

/-- A request goes on, and passes the milestones the step shows. -/
theorem serves_step {c c' : Config} {l : Label} {t : Tid} {r : Request} (m : FirmwareFSM.Milestone)
    (hi : Inv c) (hs : step c l = some c') (hserves : Serves r (c.frame t)) (hl : l ≠ .reply t) :
    Serves r (c'.frame t) ∧ c'.passed m t r = c.passed m t r ++ shows t c m l := by
  by_cases ht : l.thread = some t
  case neg =>
    obtain ⟨hframe, hpc⟩ := of_other hs ht
    unfold Config.passed
    rw [hframe, hpc, shows_of_other m ht, List.append_nil]
    exact ⟨hserves, rfl⟩
  unfold Config.passed
  cases step_cases hs with
  | request frame => cases ht; rw [frame] at hserves; cases hserves
  | reply frame => cases ht; exact absurd rfl hl
  | @lock u r' frame =>
    cases ht
    rw [frame] at hserves ⊢
    simp only [Config.goto, Function.update_self]
    exact ⟨hserves, rfl⟩
  | @refuse u r' procName frame =>
    cases ht
    rw [frame]
    simp only [Config.goto, Function.update_self]
    exact ⟨⟨r.gives_threw _, trivial⟩, rfl⟩
  | @pass u r' op frame guarded =>
    cases ht
    rw [frame] at hserves ⊢
    obtain rfl : r' = r := hserves
    simp only [Config.goto, Function.update_self]
    exact ⟨Request.action_of_op guarded, rfl⟩
  | @disconnect u frame =>
    cases ht
    rw [frame] at hserves ⊢
    obtain rfl : .disconnect = r := hserves
    simp only [Config.goto, Function.update_self]
    exact ⟨⟨trivial, rfl⟩, rfl⟩
  | @notAcquired u frame =>
    cases ht
    rw [frame]
    simp only [Config.goto, Function.update_self]
    exact ⟨⟨r.gives_threw _, trivial⟩, rfl⟩
  | @call u f k f' fw frame calls firmware =>
    cases ht
    rw [frame] at hserves ⊢
    cases FirmwareFSM.step_cases firmware with
    | call pc =>
      simp only [Config.goto, FirmwareFSM.Config.goto, Function.update_self]
      cases calls with
      | status => exact ⟨hserves.symm, rfl⟩
      | connect free => exact ⟨hserves.symm, rfl⟩
      | port => exact ⟨hserves, rfl⟩
      | enter => exact ⟨hserves, rfl⟩
  | @ret u f v f' fw frame pc returns firmware =>
    cases ht
    rw [frame] at hserves ⊢
    rw [pc]
    cases FirmwareFSM.step_cases firmware with
    | ret pc' =>
      simp only [Config.goto, FirmwareFSM.Config.goto, Function.update_self]
      cases returns with
      | description => exact ⟨hserves, rfl⟩
      | notRunning h => exact ⟨⟨r.gives_threw _, trivial⟩, rfl⟩
      | running => exact ⟨hserves, rfl⟩
      | port => exact ⟨hserves, rfl⟩
      | returned => exact ⟨Request.gives_empty hserves, (List.append_nil _).symm⟩
      | @threw op e => exact ⟨r.gives_threw (.firmware e), (List.append_nil _).symm⟩
  | @fill u d frame =>
    cases ht
    rw [frame] at hserves ⊢
    obtain rfl : r = .getStatus := hserves
    simp only [Config.goto, Function.update_self]
    exact ⟨⟨trivial, trivial⟩, rfl⟩
  | @cleared u name pid path frame =>
    cases ht
    rw [frame] at hserves ⊢
    simp only [Config.goto, Function.update_self]
    exact ⟨hserves, rfl⟩
  | @clearFail u name pid path func e frame =>
    cases ht
    rw [frame]
    simp only [Config.goto, Function.update_self]
    exact ⟨⟨r.gives_threw _, trivial⟩, rfl⟩
  | @store u name pid path frame =>
    cases ht
    rw [frame] at hserves ⊢
    obtain rfl : r = .connect name pid := hserves
    simp only [Config.goto, Function.update_self]
    exact ⟨⟨trivial, trivial⟩, rfl⟩
  | @unlock u n frame =>
    cases ht
    rw [frame] at hserves ⊢
    simp only [Config.goto, Function.update_self]
    cases n with
    | firmware op => exact ⟨hserves, rfl⟩
    | reply rep =>
      exact ⟨hserves.1, passed_inside hserves.2 m _⟩
  | @firmware k fw inner firmware =>
    refine ⟨hserves, ?_⟩
    by_cases htransition : ∃ op, c.frame t = .firmware op
    · obtain ⟨op, frame⟩ := htransition
      have hplaced := hi.placed t
      rw [frame] at hserves hplaced
      have haction : r.action = some op := hserves
      simp only [frame, Frame.passed, haction, Option.toList_some, shows]
      exact FirmwareFSM.passed_step m hi.firmware firmware hplaced (fun k e => by subst e; cases inner)
        fun e => by subst e; cases inner
    · have hframe : ∀ op, c.frame t ≠ .firmware op := fun op e => htransition ⟨op, e⟩
      rw [shows_of_frame hi hframe, List.append_nil, passed_congr hframe]

/-- A thread that serves nothing takes no step but a request. -/
theorem idle_step {c c' : Config} {l : Label} {t : Tid} (hs : step c l = some c')
    (hidle : c.frame t = .idle) (hl : ∀ r, l ≠ .request t r) : c'.frame t = .idle := by
  by_cases ht : l.thread = some t
  case neg => rw [(of_other hs ht).1, hidle]
  cases step_cases hs with
  | request => cases ht; exact absurd rfl (hl _)
  | firmware => exact hidle
  | @call u f k f' fw frame calls =>
    cases ht
    rw [hidle] at frame
    subst frame
    cases calls
  | @ret u f v f' fw frame pc returns =>
    cases ht
    rw [hidle] at frame
    subst frame
    cases returns
  | lock frame | refuse frame | pass frame | disconnect frame | notAcquired frame | fill frame
  | cleared frame | clearFail frame | store frame | unlock frame | reply frame =>
    cases ht
    rw [hidle] at frame
    cases frame

end HandlerImpl

end MbDaemon
