import MbDaemon.HandlerImpl

/-!
# Steps of the handler

`Step` lists what a step of the handler can do; calls into the firmware object and returns from it
are one constructor each, over the table of the places they happen at. The handler's own mutex
agrees with the frames (`Inv`), every step of the handler is a step of the firmware object or leaves
it alone (`firmware_step`), and `Holder` is what the handler's mutex guards.
-/

namespace MbDaemon

namespace HandlerImpl

/-- The name `EnsureNotAcquired` is given, for the procedures that call it. -/
def Request.guard : Request → Option String
  | .flash _ => some "Flash"
  | .reset => some "Reset"
  | .connect _ _ => some "Connect"
  | _ => none

/-- The firmware operation a guard stands in front of. -/
def Request.op : Request → Option FirmwareFSM.Op
  | .flash path => some (.flashBootlader path)
  | .reset => some .resetChip
  | _ => none

/-- The calls of firmware member functions: from which frame, and where the thread waits for the
answer. -/
inductive Calls (c : Config) : Frame → FirmwareFSM.Call → Frame → Prop where
  | status : Calls c (.held .getStatus) (.getter .getStateDescription) .describing
  | connect {name pid} (free : c.acquired = false) :
      Calls c (.held (.connect name pid)) (.getter .getState) (.stateCheck name pid)
  | port {name pid} : Calls c (.getPort name pid) (.getter .getPort) (.portRead name pid)
  | enter {op} : Calls c (.enter op) (.transition op) (.firmware op)

/-- The returns: where the thread waits, what it gets, and where it goes on. -/
inductive Returns : Frame → FirmwareFSM.Result → Frame → Prop where
  | description {d} : Returns .describing (.value (.description d)) (.fill d)
  | notRunning {name pid s} (h : s ≠ .running) :
      Returns (.stateCheck name pid) (.value (.state s)) (.unlock (.reply (.threw .notStarted)))
  | running {name pid} : Returns (.stateCheck name pid) (.value (.state .running)) (.getPort name pid)
  | port {name pid path} :
      Returns (.portRead name pid) (.value (.port path)) (.clearPort name pid path)
  | returned {op} : Returns (.firmware op) .returned (.reply .empty)
  | threw {op e} : Returns (.firmware op) (.threw e) (.reply (.threw (.firmware e)))

inductive Step (c : Config) : Label → Config → Prop where
  | request {t r} (frame : c.frame t = .idle) : Step c (.request t r) (c.goto t r.entry)
  | lock {t r} (frame : c.frame t = .lock r) (free : c.mutex = none) :
      Step c (.step t) { c.goto t (.held r) with mutex := some t }
  | refuse {t r procName} (frame : c.frame t = .held r) (guard : r.guard = some procName)
      (acquired : c.acquired = true) :
      Step c (.step t)
        (c.goto t (.unlock (.reply (.threw (.acquired procName c.userName c.userPid)))))
  | pass {t r op} (frame : c.frame t = .held r) (guarded : r.op = some op)
      (free : c.acquired = false) :
      Step c (.step t) (c.goto t (.unlock (.firmware op)))
  | disconnect {t} (frame : c.frame t = .held .disconnect) (acquired : c.acquired = true) :
      Step c (.step t) { c.goto t (.unlock (.reply .empty)) with acquired := false }
  | notAcquired {t} (frame : c.frame t = .held .disconnect) (free : c.acquired = false) :
      Step c (.step t) (c.goto t (.unlock (.reply (.threw .notAcquired))))
  | call {t f k f' fw} (frame : c.frame t = f) (calls : Calls c f k f')
      (firmware : FirmwareFSM.step c.firmware (.call t k) = some fw) :
      Step c (.step t) { c.goto t f' with firmware := fw }
  | ret {t f v f' fw} (frame : c.frame t = f) (pc : c.firmware.pc t = .done v)
      (returns : Returns f v f') (firmware : FirmwareFSM.step c.firmware (.ret t) = some fw) :
      Step c (.step t) { c.goto t f' with firmware := fw }
  | fill {t d} (frame : c.frame t = .fill d) :
      Step c (.step t) (c.goto t (.unlock (.reply (.status d c.acquired c.userName c.userPid))))
  | cleared {t name pid path} (frame : c.frame t = .clearPort name pid path) :
      Step c (.clearPort t (.ok ())) (c.goto t (.store name pid path))
  | clearFail {t name pid path func e} (frame : c.frame t = .clearPort name pid path) :
      Step c (.clearPort t (.error (func, e)))
        (c.goto t (.unlock (.reply (.threw (.clearPort func e)))))
  | store {t name pid path} (frame : c.frame t = .store name pid path) :
      Step c (.step t) { c.goto t (.unlock (.reply (.port path))) with
        userName := name, userPid := pid, acquired := true }
  | unlock {t n} (frame : c.frame t = .unlock n) :
      Step c (.step t) { c.goto t n.frame with mutex := none }
  | firmware {l fw} (inner : internal l = true)
      (firmware : FirmwareFSM.step c.firmware l = some fw) :
      Step c (.firmware l) { c with firmware := fw }
  | reply {t r} (frame : c.frame t = .reply r) : Step c (.reply t) (c.goto t .idle)

theorem call_cases {c c' : Config} {t : Tid} {k : FirmwareFSM.Call} {f : Frame}
    (h : c.call t k f = some c') (hc : Calls c (c.frame t) k f) : Step c (.step t) c' := by
  unfold Config.call at h
  split at h
  · cases h; exact .call rfl hc ‹_›
  · cases h

theorem ret_cases {c c' : Config} {t : Tid} {f : Frame} {v : FirmwareFSM.Result}
    (h : c.ret t f = some c') (pc : c.firmware.pc t = .done v) (hr : Returns (c.frame t) v f) :
    Step c (.step t) c' := by
  unfold Config.ret at h
  split at h
  · cases h; exact .ret rfl pc hr ‹_›
  · cases h

theorem ensureNotAcquired_some {c : Config} {procName : String} {e : Exn}
    (h : c.ensureNotAcquired procName = some e) :
    c.acquired = true ∧ e = .acquired procName c.userName c.userPid := by
  unfold Config.ensureNotAcquired at h
  split at h
  · cases h; exact ⟨‹_›, rfl⟩
  · cases h

theorem ensureNotAcquired_none {c : Config} {procName : String}
    (h : c.ensureNotAcquired procName = none) : c.acquired = false := by
  unfold Config.ensureNotAcquired at h
  split at h
  · cases h
  · rename_i hacq; simpa using hacq

theorem section_cases {c c' : Config} {t : Tid} {r : Request} (frame : c.frame t = .held r)
    (h : c.enterSection t r = some c') : Step c (.step t) c' := by
  cases r with
  | getStatus => exact call_cases h (by rw [frame]; exact .status)
  | start => cases h
  | disconnect =>
    simp only [Config.enterSection] at h
    split at h
    · cases h; exact .disconnect frame ‹_›
    · rename_i hacq; cases h; exact .notAcquired frame (by simpa using hacq)
  | connect name pid =>
    simp only [Config.enterSection] at h
    split at h
    · rename_i e he
      obtain ⟨acquired, rfl⟩ := ensureNotAcquired_some he
      cases h; exact .refuse frame rfl acquired
    · exact call_cases h (by rw [frame]; exact .connect (ensureNotAcquired_none ‹_›))
  | flash _ | reset =>
    simp only [Config.enterSection] at h
    split at h
    · rename_i e he
      obtain ⟨acquired, rfl⟩ := ensureNotAcquired_some he
      cases h; exact .refuse frame rfl acquired
    · cases h; exact .pass frame rfl (ensureNotAcquired_none ‹_›)

theorem next_cases {c c' : Config} {t : Tid} (h : c.next t = some c') : Step c (.step t) c' := by
  unfold Config.next at h
  split at h
  case h_1 r frame =>
    split at h
    · cases h; exact .lock frame ‹_›
    · cases h
  case h_2 r frame => exact section_cases frame h
  case h_3 frame =>
    split at h
    · exact ret_cases h ‹_› (by rw [frame]; exact .description)
    · cases h
  case h_4 d frame => cases h; exact .fill frame
  case h_5 name pid frame =>
    split at h
    · split at h
      · exact ret_cases h ‹_› (by rw [frame]; exact .notRunning ‹_›)
      · rename_i s pc hs
        simp only [ne_eq, not_not] at hs
        subst hs
        exact ret_cases h pc (by rw [frame]; exact .running)
    · cases h
  case h_6 name pid frame => exact call_cases h (by rw [frame]; exact .port)
  case h_7 name pid frame =>
    split at h
    · exact ret_cases h ‹_› (by rw [frame]; exact .port)
    · cases h
  case h_8 name pid path frame => cases h; exact .store frame
  case h_9 n frame => cases h; exact .unlock frame
  case h_10 op frame => exact call_cases h (by rw [frame]; exact .enter)
  case h_11 op frame =>
    split at h
    · exact ret_cases h ‹_› (by rw [frame]; exact .returned)
    · exact ret_cases h ‹_› (by rw [frame]; exact .threw)
    · cases h
  case h_12 => cases h

theorem step_cases {c c' : Config} {l : Label} (h : step c l = some c') : Step c l c' := by
  cases l with
  | request t r =>
    simp only [step] at h
    split at h
    · cases h; exact .request ‹_›
    · cases h
  | step t => exact next_cases h
  | clearPort t answer =>
    simp only [step] at h
    split at h
    · cases h; exact .cleared ‹_›
    · cases h; exact .clearFail ‹_›
    · cases h
  | firmware l =>
    simp only [step] at h
    split at h
    · split at h
      · cases h; exact .firmware ‹_› ‹_›
      · cases h
    · cases h
  | reply t =>
    simp only [step] at h
    split at h
    · cases h; exact .reply ‹_›
    · cases h

/-! ## The two locks -/

def Frame.holds : Frame → Bool
  | .held _ | .describing | .fill _ | .stateCheck _ _ | .getPort _ _ | .portRead _ _ => true
  | .clearPort _ _ _ | .store _ _ _ | .unlock _ => true
  | _ => false

def Frame.call : Frame → Option FirmwareFSM.Call
  | .describing => some (.getter .getStateDescription)
  | .stateCheck _ _ => some (.getter .getState)
  | .portRead _ _ => some (.getter .getPort)
  | .firmware op => some (.transition op)
  | _ => none

/-- The two places of a thread agree: outside every firmware call it is idle there. -/
def Placed (f : Frame) (p : FirmwareFSM.Pc) : Prop :=
  match f.call with
  | none => p = .idle
  | some k => FirmwareFSM.Serves k p

structure Inv (c : Config) : Prop where
  owned : Mutex.Owned Frame.holds c.frame c.mutex
  firmware : FirmwareFSM.Inv c.firmware
  placed : ∀ t, Placed (c.frame t) (c.firmware.pc t)

theorem inv_init (port : Text) : Inv (Config.init port) where
  owned := fun t => by simp [Config.init, Frame.holds]
  firmware := FirmwareFSM.inv_init port
  placed := fun _ => rfl

/-- **Every step of the handler is a step of the firmware object or leaves it alone.** -/
theorem firmware_step {c c' : Config} {l : Label} (hs : step c l = some c') :
    c'.firmware = c.firmware ∨ ∃ m, FirmwareFSM.step c.firmware m = some c'.firmware := by
  cases step_cases hs with
  | call _ _ firmware => exact .inr ⟨_, firmware⟩
  | ret _ _ _ firmware => exact .inr ⟨_, firmware⟩
  | firmware _ firmware => exact .inr ⟨_, firmware⟩
  | _ => exact .inl rfl

theorem Calls.holds {c : Config} {f f' : Frame} {k : FirmwareFSM.Call} (h : Calls c f k f') :
    f'.holds = f.holds := by
  cases h <;> rfl

theorem Returns.holds {f f' : Frame} {v : FirmwareFSM.Result} (h : Returns f v f') :
    f'.holds = f.holds := by
  cases h <;> rfl

theorem Request.entry_holds (r : Request) : r.entry.holds = false := by cases r <;> rfl

theorem Next.frame_holds (n : Next) : n.frame.holds = false := by cases n <;> rfl

theorem owned_step {c c' : Config} {l : Label} (ho : Mutex.Owned Frame.holds c.frame c.mutex)
    (hs : step c l = some c') : Mutex.Owned Frame.holds c'.frame c'.mutex := by
  cases step_cases hs with
  | request frame => exact ho.keep (by rw [frame, Request.entry_holds]; rfl)
  | lock frame free => exact (free ▸ ho).acquire _ rfl
  | call frame calls => exact ho.keep (by rw [frame, calls.holds])
  | ret frame _ returns => exact ho.keep (by rw [frame, returns.holds])
  | unlock frame => exact ho.release (by rw [frame]; rfl) (Next.frame_holds _)
  | firmware => exact ho
  | _ =>
    rename_i frame
    exact ho.keep (by simp [*, Frame.holds])

theorem Calls.call {c : Config} {f f' : Frame} {k : FirmwareFSM.Call} (h : Calls c f k f') :
    f'.call = some k := by
  cases h <;> rfl

theorem Returns.call {f f' : Frame} {v : FirmwareFSM.Result} (h : Returns f v f') :
    f'.call = none := by
  cases h <;> rfl

theorem Request.entry_call (r : Request) : r.entry.call = none := by cases r <;> rfl

theorem Next.frame_call (n : Next) : n.frame.call = none := by cases n <;> rfl

theorem placed_goto {c c' : Config} (h : ∀ t, Placed (c.frame t) (c.firmware.pc t)) {t : Tid}
    {f : Frame} (hframe : c'.frame = Function.update c.frame t f)
    (hfw : c'.firmware = c.firmware) (hold : (c.frame t).call = none) (hnew : f.call = none) :
    ∀ u, Placed (c'.frame u) (c'.firmware.pc u) := by
  intro u
  rw [hframe, hfw]
  by_cases e : u = t
  · subst e
    have := h u
    rw [Function.update_self]
    unfold Placed at this ⊢
    rwa [hnew, ← hold]
  · rw [Function.update_of_ne e]; exact h u

theorem placed_step {c c' : Config} {l : Label} (h : ∀ t, Placed (c.frame t) (c.firmware.pc t))
    (hs : step c l = some c') : ∀ t, Placed (c'.frame t) (c'.firmware.pc t) := by
  cases step_cases hs with
  | @call t f k f' fw frame calls firmware =>
    intro u
    cases FirmwareFSM.step_cases firmware with
    | call pc =>
      by_cases e : u = t
      · subst e
        simp only [Config.goto, FirmwareFSM.Config.goto, Function.update_self]
        unfold Placed
        rw [calls.call]
        exact FirmwareFSM.serves_entry k
      · simpa [Config.goto, FirmwareFSM.Config.goto, e] using h u
  | @ret t f v f' fw frame pc returns firmware =>
    intro u
    cases FirmwareFSM.step_cases firmware with
    | ret pc' =>
      by_cases e : u = t
      · subst e
        simp only [Config.goto, FirmwareFSM.Config.goto, Function.update_self]
        unfold Placed
        rw [returns.call]
      · simpa [Config.goto, FirmwareFSM.Config.goto, e] using h u
  | @firmware m fw inner firmware =>
    intro u
    have hu := h u
    unfold Placed at hu ⊢
    cases hcall : (c.frame u).call with
    | none =>
      -- an idle thread takes no step of its own in the firmware object
      rw [hcall] at hu
      have hm : m.thread ≠ some u := by
        intro ht
        obtain ⟨k, rfl⟩ := FirmwareFSM.call_of_idle firmware ht hu
        cases inner
      simp only
      rw [FirmwareFSM.pc_of_other firmware hm]
      exact hu
    | some k =>
      rw [hcall] at hu
      simp only
      exact FirmwareFSM.serves_step firmware (fun e => by subst e; cases inner) hu
  | request frame => exact placed_goto h rfl rfl (by rw [frame]; rfl) (Request.entry_call _)
  | unlock frame => exact placed_goto h rfl rfl (by rw [frame]; rfl) (Next.frame_call _)
  | lock frame | refuse frame | pass frame | disconnect frame | notAcquired frame | fill frame
  | cleared frame | clearFail frame | store frame | reply frame =>
    exact placed_goto h rfl rfl (by rw [frame]; rfl) rfl

theorem inv_step {c c' : Config} {l : Label} (h : Inv c) (hs : step c l = some c') : Inv c' := by
  refine ⟨owned_step h.owned hs, ?_, placed_step h.placed hs⟩
  rcases firmware_step hs with e | ⟨m, hm⟩
  · rw [e]; exact h.firmware
  · exact FirmwareFSM.inv_step h.firmware hm

theorem Reachable.inv {port : Text} {c : Config} (h : Reachable port c) : Inv c := by
  obtain ⟨ls, hls⟩ := h
  exact Lts.run_invariant (inv_init port) (fun _ _ _ hi hs => inv_step hi hs) hls

/-! ## Whose step it is -/

def Label.thread : Label → Option Tid
  | .request t _ | .step t | .clearPort t _ | .reply t => some t
  | .firmware l => l.thread

theorem of_other {c c' : Config} {l : Label} (hs : step c l = some c') {t : Tid}
    (ht : l.thread ≠ some t) :
    c'.frame t = c.frame t ∧ c'.firmware.pc t = c.firmware.pc t := by
  cases step_cases hs with
  | @firmware m fw inner firmware => exact ⟨rfl, FirmwareFSM.pc_of_other firmware ht⟩
  | @call u f k f' fw frame calls firmware =>
    have hu : t ≠ u := fun e => ht (by rw [e]; rfl)
    refine ⟨Function.update_of_ne hu _ _, FirmwareFSM.pc_of_other firmware ?_⟩
    exact fun e => ht e
  | @ret u f v f' fw frame pc returns firmware =>
    have hu : t ≠ u := fun e => ht (by rw [e]; rfl)
    refine ⟨Function.update_of_ne hu _ _, FirmwareFSM.pc_of_other firmware ?_⟩
    exact fun e => ht e
  | @request u | @lock u | @refuse u | @pass u | @disconnect u | @notAcquired u | @fill u
  | @cleared u | @clearFail u | @store u | @unlock u | @reply u =>
    have hu : t ≠ u := fun e => ht (by rw [e]; rfl)
    exact ⟨Function.update_of_ne hu _ _, rfl⟩

/-! ## Two stretches of a run -/

def startRun : List Label :=
  [.request 0 .start, .step 0, .firmware (.step 0), .firmware (.step 0), .firmware (.step 0),
    .firmware (.fork 0 (.ok 41)), .firmware (.exit 41 (.exited 0)), .firmware (.wait 0 41),
    .firmware (.step 0), .firmware (.step 0), .firmware (.step 0), .step 0, .reply 0]

def connectRun (t : Tid) : List Label :=
  [.request t (.connect [] 7), .step t, .step t, .firmware (.step t), .firmware (.step t),
    .firmware (.step t), .step t, .step t, .firmware (.step t), .firmware (.step t),
    .firmware (.step t), .step t, .clearPort t (.ok ()), .step t, .step t, .reply t]

end HandlerImpl

end MbDaemon
