import MbDaemon.FirmwareFSM

/-!
# Exclusion between transitions

The mutex is free while an action runs, so what keeps a second action out is the state itself:
`Transition` is in no `ExpectedStates` list. `Inv` is the inductive invariant: the mutex agrees with
the program points, and the object is either quiet, or one thread is between its accepted check and
its final `SetState`, the state is `Transition`, the routine's name is that thread's, and the only
child that can be in the process table is the one this thread waits for.
-/

namespace MbDaemon

open HwUtils

namespace FirmwareFSM

inductive Step (c : Config) : Label → Config → Prop where
  | call {t k} (pc : c.pc t = .idle) : Step c (.call t k) (c.goto t k.entry)
  | lock {t op} (pc : c.pc t = .lock op) (free : c.mutex = none) :
      Step c (.step t) { c.goto t (.check op) with mutex := some t }
  | accept {t op} (pc : c.pc t = .check op)
      (ok : c.checkState op.routine.expectedStates = true) :
      Step c (.step t) { c.goto t (.unlock op true) with toFirmwareFSM := c.claim op.routine }
  | refuse {t op} (pc : c.pc t = .check op)
      (bad : c.checkState op.routine.expectedStates = false) :
      Step c (.step t) (c.goto t (.unlock op false))
  | unlock {t op ok} (pc : c.pc t = .unlock op ok) :
      Step c (.step t) { c.goto t (if ok then .act op else .reject op) with mutex := none }
  | reject {t op} (pc : c.pc t = .reject op) :
      Step c (.step t)
        (c.goto t (.done (.threw (.fsm op.routine.name c.state op.routine.expectedStates))))
  | forkFail {t op e} (pc : c.pc t = .act op) :
      Step c (.fork t (.error e)) (c.goto t (.setLock op (some (.fork e))))
  | fork {t op pid} (pc : c.pc t = .act op) (fresh : pid ∉ c.children.map (·.pid)) :
      Step c (.fork t (.ok pid)) { c.goto t (.wait op pid) with children := ⟨pid, none⟩ :: c.children }
  | exit {pid status} (alive : ⟨pid, none⟩ ∈ c.children) :
      Step c (.exit pid status) { c with children := setStatus c.children pid status }
  | wait {t op own pid status} (pc : c.pc t = .wait op own)
      (ended : reapable c.children pid = some status) :
      Step c (.wait t pid) { c.goto t (.setLock op (checkStatus status)) with
        children := c.children.filter (·.pid ≠ pid) }
  | waitFail {t op own e} (pc : c.pc t = .wait op own) (none_left : c.children = []) :
      Step c (.waitFail t e) (c.goto t (.setLock op (some (.wait e))))
  | setLock {t op e} (pc : c.pc t = .setLock op e) (free : c.mutex = none) :
      Step c (.step t) { c.goto t (.setWork op e) with mutex := some t }
  | setWork {t op e} (pc : c.pc t = .setWork op e) :
      Step c (.step t) { c.goto t (.setUnlock op e) with toFirmwareFSM := c.setState (newState op e) }
  | setUnlock {t op e} (pc : c.pc t = .setUnlock op e) :
      Step c (.step t) { c.goto t (.done (result e)) with mutex := none }
  | getLock {t g} (pc : c.pc t = .getLock g) (free : c.mutex = none) :
      Step c (.step t) { c.goto t (.getWork g) with mutex := some t }
  | getWork {t g} (pc : c.pc t = .getWork g) :
      Step c (.step t) (c.goto t (.getUnlock (c.get g)))
  | getUnlock {t v} (pc : c.pc t = .getUnlock v) :
      Step c (.step t) { c.goto t (.done (.value v)) with mutex := none }
  | ret {t r} (pc : c.pc t = .done r) : Step c (.ret t) (c.goto t .idle)

theorem next_cases {c c' : Config} {t : Tid} (h : c.next t = some c') : Step c (.step t) c' := by
  unfold Config.next at h
  split at h
  case h_1 op hpc =>
    split at h
    · cases h; exact .lock hpc ‹_›
    · cases h
  case h_2 op hpc =>
    split at h
    · cases h; exact .accept hpc ‹_›
    · rename_i bad; cases h; exact .refuse hpc (by simpa using bad)
  case h_3 op ok hpc => cases h; exact .unlock hpc
  case h_4 op hpc => cases h; exact .reject hpc
  case h_5 op e hpc =>
    split at h
    · cases h; exact .setLock hpc ‹_›
    · cases h
  case h_6 op e hpc => cases h; exact .setWork hpc
  case h_7 op e hpc => cases h; exact .setUnlock hpc
  case h_8 g hpc =>
    split at h
    · cases h; exact .getLock hpc ‹_›
    · cases h
  case h_9 g hpc => cases h; exact .getWork hpc
  case h_10 v hpc => cases h; exact .getUnlock hpc
  case h_11 => cases h

theorem step_cases {c c' : Config} {l : Label} (h : step c l = some c') : Step c l c' := by
  cases l with
  | call t k =>
    simp only [step] at h
    split at h
    · cases h; exact .call ‹_›
    · cases h
  | step t => exact next_cases h
  | fork t answer =>
    simp only [step] at h
    split at h
    · cases h; exact .forkFail ‹_›
    · split at h
      · cases h
      · cases h; exact .fork ‹_› ‹_›
    · cases h
  | exit pid status =>
    simp only [step] at h
    split at h
    · cases h; exact .exit ‹_›
    · cases h
  | wait t pid =>
    simp only [step] at h
    split at h
    · cases h; exact .wait ‹_› ‹_›
    · cases h
  | waitFail t e =>
    simp only [step] at h
    split at h
    · split at h
      · cases h; exact .waitFail ‹_› ‹_›
      · cases h
    · cases h
  | ret t =>
    simp only [step] at h
    split at h
    · cases h; exact .ret ‹_›
    · cases h

/-- The thread that takes a step; a child that ends is no thread. -/
def Label.thread : Label → Option Tid
  | .call t _ | .step t | .fork t _ | .wait t _ | .waitFail t _ | .ret t => some t
  | .exit _ _ => none

theorem pc_of_other {c c' : Config} {l : Label} (hs : step c l = some c') {t : Tid}
    (hl : l.thread ≠ some t) : c'.pc t = c.pc t := by
  cases step_cases hs with
  | exit => rfl
  | _ => exact Function.update_of_ne (fun e => hl (by rw [e]; rfl)) _ _

theorem call_of_idle {c c' : Config} {l : Label} (hs : step c l = some c') {t : Tid}
    (hl : l.thread = some t) (pc : c.pc t = .idle) : ∃ k, l = .call t k := by
  cases step_cases hs with
  | call => cases hl; exact ⟨_, rfl⟩
  | exit => cases hl
  | _ => cases hl; simp_all

def Pc.op : Pc → Option Op
  | .lock op | .check op | .unlock op _ | .reject op | .act op | .wait op _ => some op
  | .setLock op _ | .setWork op _ | .setUnlock op _ => some op
  | _ => none

/-- The getter that answers with such a value. -/
def Value.getter : Value → Getter
  | .state _ => .getState
  | .port _ => .getPort
  | .description _ => .getStateDescription

/-- The points of a call, its result included. -/
def Serves : Call → Pc → Prop
  | .transition op, p => p.op = some op ∨ p = .done .returned ∨ ∃ e, p = .done (.threw e)
  | .getter g, p =>
    p = .getLock g ∨ p = .getWork g ∨
      ∃ v : Value, v.getter = g ∧ (p = .getUnlock v ∨ p = .done (.value v))

theorem serves_entry (k : Call) : Serves k k.entry := by
  cases k with
  | transition op => exact .inl rfl
  | getter g => exact .inl rfl

theorem not_serves_idle (k : Call) : ¬ Serves k .idle := by
  cases k <;> simp [Serves, Pc.op]

theorem get_getter (f : FirmwareFSM) (g : Getter) : (f.get g).getter = g := by cases g <;> rfl

theorem serves_step {c c' : Config} {l : Label} (hs : step c l = some c') {t : Tid} {k : Call}
    (hl : l ≠ .ret t) (h : Serves k (c.pc t)) : Serves k (c'.pc t) := by
  by_cases ht : l.thread = some t
  · cases step_cases hs with
    | exit => cases ht
    | ret => cases ht; exact absurd rfl hl
    | @call u k' pc => cases ht; rw [pc] at h; exact absurd h (not_serves_idle k)
    | @unlock u op ok pc =>
      cases ht
      cases k <;> cases ok <;> simp_all [Serves, Config.goto, Pc.op]
    | @setUnlock u op e pc =>
      cases ht
      cases k <;> cases e <;> simp_all [Serves, Config.goto, Pc.op, result]
    | @getWork u g pc =>
      cases ht
      cases k <;> simp_all [Serves, Config.goto, Pc.op, get_getter]
    | _ =>
      rename_i pc
      cases ht
      cases k <;> simp_all [Serves, Config.goto, Pc.op]
  · rwa [pc_of_other hs ht]

/-! ## The invariant -/

def Pc.holds : Pc → Bool
  | .check _ | .unlock _ _ | .setWork _ _ | .setUnlock _ _ | .getWork _ | .getUnlock _ => true
  | _ => false

/-- The operation in progress at a point: from the accepted check to the final `SetState`. -/
def Pc.active : Pc → Option Op
  | .unlock op true | .act op | .wait op _ | .setLock op _ | .setWork op _ => some op
  | _ => none

def Pc.child : Pc → Option Pid
  | .wait _ pid => some pid
  | _ => none

/-- The process table of a thread that waits for `child`, if for any. -/
def TableFor (child : Option Pid) (children : List Child) : Prop :=
  match child with
  | none => children = []
  | some pid => ∃ status, children = [⟨pid, status⟩]

/-- Either nothing is in progress, or exactly one thread's transition is. -/
inductive Phase (c : Config) : Prop where
  | quiet (none_active : ∀ t, (c.pc t).active = none) (state : c.state ≠ .transition)
      (name : c.routineName = Routines.empty) (children : c.children = [])
  | busy (t : Tid) (op : Op) (active : (c.pc t).active = some op)
      (alone : ∀ u, u ≠ t → (c.pc u).active = none) (state : c.state = .transition)
      (name : c.routineName = op.routine.name) (children : TableFor (c.pc t).child c.children)

structure Inv (c : Config) : Prop where
  owned : Mutex.Owned Pc.holds c.pc c.mutex
  phase : Phase c

theorem checkState_eq_true {f : FirmwareFSM} {expected : List FWState} :
    f.checkState expected = true ↔ f.state ∈ expected := by
  have go : ∀ passed, expected.foldl
      (fun passed required => if passed then true else f.state == required) passed = true ↔
      passed = true ∨ f.state ∈ expected := by
    induction expected with
    | nil => simp
    | cons s ss ih =>
      intro passed
      rw [List.foldl_cons, ih, List.mem_cons]
      cases passed <;> simp
  simpa [checkState] using go false

theorem transition_not_expected (op : Op) : FWState.transition ∉ op.routine.expectedStates := by
  cases op <;> simp [Op.routine, resetChip, flashBootlader, startFirmware]

theorem newState_ne_transition (op : Op) (e : Option ExecError) : newState op e ≠ .transition := by
  cases e with
  | none => cases op <;> simp [newState, Op.routine, resetChip, flashBootlader, startFirmware]
  | some _ => simp [newState]

theorem Phase.of_active {c : Config} (h : Phase c) {t : Tid} {op : Op}
    (ht : (c.pc t).active = some op) :
    (∀ u, u ≠ t → (c.pc u).active = none) ∧ c.state = .transition ∧
      c.routineName = op.routine.name ∧ TableFor (c.pc t).child c.children := by
  cases h with
  | quiet none_active => rw [none_active t] at ht; cases ht
  | busy t' op' active alone state name children =>
    by_cases e : t = t'
    · subst e
      rw [active] at ht
      cases ht
      exact ⟨alone, state, name, children⟩
    · rw [alone t e] at ht; cases ht

theorem Phase.move {c c' : Config} (h : Phase c) {t : Tid} {p : Pc}
    (hpc : c'.pc = Function.update c.pc t p) (hstate : c'.state = c.state)
    (hname : c'.routineName = c.routineName) (hchildren : c'.children = c.children)
    (hactive : p.active = (c.pc t).active) (hchild : p.child = (c.pc t).child) : Phase c' := by
  have hact : ∀ u, (c'.pc u).active = (c.pc u).active := by
    intro u
    by_cases hu : u = t
    · subst hu; rw [hpc, Function.update_self, hactive]
    · rw [hpc, Function.update_of_ne hu]
  have hch : ∀ u, (c'.pc u).child = (c.pc u).child := by
    intro u
    by_cases hu : u = t
    · subst hu; rw [hpc, Function.update_self, hchild]
    · rw [hpc, Function.update_of_ne hu]
  cases h with
  | quiet none_active state name children =>
    exact .quiet (fun u => by rw [hact, none_active]) (by rwa [hstate]) (by rwa [hname])
      (by rwa [hchildren])
  | busy u op active alone state name children =>
    exact .busy u op (by rw [hact, active]) (fun v hv => by rw [hact, alone v hv]) (by rwa [hstate])
      (by rwa [hname]) (by rwa [hch, hchildren])

/-- The thread in progress moves on inside its transition. -/
theorem Phase.advance {c c' : Config} (h : Phase c) {t : Tid} {op : Op}
    (ht : (c.pc t).active = some op) {p : Pc} (hpc : c'.pc = Function.update c.pc t p)
    (hstate : c'.state = c.state) (hname : c'.routineName = c.routineName)
    (hactive : p.active = some op) (hchildren : TableFor p.child c'.children) : Phase c' := by
  obtain ⟨alone, state, name, -⟩ := h.of_active ht
  refine .busy t op (by rw [hpc, Function.update_self, hactive]) (fun u hu => ?_) (by rwa [hstate])
    (by rwa [hname]) (by rwa [hpc, Function.update_self])
  rw [hpc, Function.update_of_ne hu, alone u hu]

theorem inv_init (port : Text) : Inv (Config.init port) where
  owned := fun t => by simp [Config.init, Pc.holds, constructed, setState, claim]
  phase :=
    .quiet (fun _ => rfl) (by simp [Config.init, constructed, setState, claim, resetChip]) rfl rfl

theorem reapable_single {pid own : Pid} {st : Option WaitStatus} {status : WaitStatus}
    (h : reapable [⟨own, st⟩] pid = some status) : pid = own ∧ st = some status := by
  simp only [reapable, List.find?_cons, List.find?_nil] at h
  split at h
  · rename_i hm
    simp only [Bool.and_eq_true, beq_iff_eq] at hm
    exact ⟨hm.1.symm, h⟩
  · cases h

/-! What each kind of step does to the invariant, when the thread was at `p` and goes to `q`. -/

section

variable {c : Config} {t : Tid} {p q : Pc} {op : Op}

theorem Phase.table (h : Phase c) (pc : c.pc t = p) (hp : p.active = some op) :
    TableFor p.child c.children := by
  subst pc
  exact (h.of_active hp).2.2.2

theorem Inv.move (h : Inv c) (pc : c.pc t = p) (hholds : q.holds = p.holds)
    (hactive : q.active = p.active) (hchild : q.child = p.child) : Inv (c.goto t q) := by
  subst pc
  exact ⟨h.owned.keep hholds, h.phase.move rfl rfl rfl rfl hactive hchild⟩

theorem Inv.enter (h : Inv c) (pc : c.pc t = p) (free : c.mutex = none) (hin : q.holds = true)
    (hactive : q.active = p.active) (hchild : q.child = p.child) :
    Inv { c.goto t q with mutex := some t } := by
  subst pc
  exact ⟨(free ▸ h.owned).acquire t hin, h.phase.move rfl rfl rfl rfl hactive hchild⟩

theorem Inv.leave (h : Inv c) (pc : c.pc t = p) (hin : p.holds = true) (hout : q.holds = false)
    (hactive : q.active = p.active) (hchild : q.child = p.child) :
    Inv { c.goto t q with mutex := none } := by
  subst pc
  exact ⟨h.owned.release hin hout, h.phase.move rfl rfl rfl rfl hactive hchild⟩

/-- The thread in progress moves on outside the mutex and leaves `children` in the table. -/
theorem Inv.advance (h : Inv c) (pc : c.pc t = p) (hp : p.active = some op) (q : Pc)
    (hholds : q.holds = p.holds) (hq : q.active = some op) {children : List Child}
    (hchildren : TableFor q.child children) : Inv { c.goto t q with children := children } := by
  subst pc
  exact ⟨h.owned.keep hholds, h.phase.advance hp rfl rfl rfl hq hchildren⟩

theorem Phase.begin (h : Phase c) (ok : c.checkState op.routine.expectedStates = true) :
    Phase { c.goto t (.unlock op true) with toFirmwareFSM := c.claim op.routine } := by
  -- the expected states leave out `Transition`, so nothing else is in progress
  cases h with
  | quiet none_active state name children =>
    refine .busy t op (by simp [Config.goto, Pc.active]) (fun u hu => ?_) rfl rfl ?_
    · simpa [Config.goto, hu] using none_active u
    · simpa [Config.goto, Pc.child, TableFor] using children
  | busy u op' active alone state name children =>
    rw [checkState_eq_true, state] at ok
    exact absurd ok (transition_not_expected op)

theorem Phase.finish (h : Phase c) {e : Option ExecError} (pc : c.pc t = .setWork op e) :
    Phase { c.goto t (.setUnlock op e) with toFirmwareFSM := c.setState (newState op e) } := by
  obtain ⟨alone, -, -, -⟩ := h.of_active (congrArg Pc.active pc)
  refine .quiet (fun u => ?_) (newState_ne_transition op e) rfl (h.table pc rfl)
  by_cases hu : u = t
  · subst hu; simp [Config.goto, Pc.active]
  · simpa [Config.goto, hu] using alone u hu

theorem Phase.exit (h : Phase c) {pid : Pid} {status : WaitStatus}
    (alive : ⟨pid, none⟩ ∈ c.children) :
    Phase { c with children := setStatus c.children pid status } := by
  cases h with
  | quiet none_active state name children => rw [children] at alive; cases alive
  | busy t op active alone state name children =>
    refine .busy t op active alone state name ?_
    show TableFor (c.pc t).child (setStatus c.children pid status)
    cases hch : (c.pc t).child with
    | none => rw [hch] at children; rw [show c.children = [] from children] at alive; cases alive
    | some own =>
      rw [hch] at children
      obtain ⟨st, hst⟩ := children
      rw [hst] at alive ⊢
      cases List.mem_singleton.1 alive
      exact ⟨some status, by simp [setStatus]⟩

end

/-- **Every step keeps the invariant.** -/
theorem inv_step {c c' : Config} {l : Label} (h : Inv c) (hs : step c l = some c') : Inv c' := by
  cases step_cases hs with
  | @call t k pc => cases k <;> exact h.move pc rfl rfl rfl
  | lock pc free => exact h.enter pc free rfl rfl rfl
  | accept pc ok => exact ⟨h.owned.keep (by rw [pc]; rfl), h.phase.begin ok⟩
  | refuse pc bad => exact h.move pc rfl rfl rfl
  | @unlock t op ok pc => cases ok <;> exact h.leave pc rfl rfl rfl rfl
  | reject pc => exact h.move pc rfl rfl rfl
  | @forkFail t op e pc =>
    have none_yet : c.children = [] := h.phase.table pc rfl
    exact h.advance pc rfl (.setLock op (some (.fork e))) rfl rfl none_yet
  | @fork t op pid pc fresh =>
    have none_yet : c.children = [] := h.phase.table pc rfl
    exact h.advance pc rfl (.wait op pid) rfl rfl ⟨none, by rw [none_yet]⟩
  | exit alive => exact ⟨h.owned, h.phase.exit alive⟩
  | @wait t op own pid status pc ended =>
    obtain ⟨st, hst⟩ := h.phase.table pc rfl
    refine h.advance pc rfl (.setLock op (checkStatus status)) rfl rfl ?_
    rw [hst] at ended
    show c.children.filter _ = []
    rw [hst, (reapable_single ended).1]
    simp
  | @waitFail t op own e pc none_left =>
    exact h.advance pc rfl (.setLock op (some (.wait e))) rfl rfl none_left
  | setLock pc free => exact h.enter pc free rfl rfl rfl
  | setWork pc => exact ⟨h.owned.keep (by rw [pc]; rfl), h.phase.finish pc⟩
  | setUnlock pc => exact h.leave pc rfl rfl rfl rfl
  | getLock pc free => exact h.enter pc free rfl rfl rfl
  | getWork pc => exact h.move pc rfl rfl rfl
  | getUnlock pc => exact h.leave pc rfl rfl rfl rfl
  | ret pc => exact h.move pc rfl rfl rfl

def Reachable (port : Text) (c : Config) : Prop :=
  ∃ ls, Lts.run step (Config.init port) ls = some c

theorem Reachable.inv {port : Text} {c : Config} (h : Reachable port c) : Inv c := by
  obtain ⟨ls, hls⟩ := h
  exact Lts.run_invariant (inv_init port) (fun _ _ _ hi hs => inv_step hi hs) hls

/-! ## One action at a time -/

def Pc.inAction : Pc → Bool
  | .act _ | .wait _ _ => true
  | _ => false

theorem Pc.inAction_active {p : Pc} (h : p.inAction = true) : ∃ op, p.active = some op := by
  cases p <;> first | exact ⟨_, rfl⟩ | cases h

theorem Phase.active_unique {c : Config} (h : Phase c) {t u : Tid} {op op' : Op}
    (ht : (c.pc t).active = some op) (hu : (c.pc u).active = some op') : u = t := by
  by_contra hne
  rw [(h.of_active ht).1 u hne] at hu
  cases hu

theorem Phase.transition_iff {c : Config} (h : Phase c) :
    c.state = .transition ↔ ∃ t op, (c.pc t).active = some op := by
  cases h with
  | quiet none_active state => simp [state, none_active]
  | busy t op active _ state => exact ⟨fun _ => ⟨t, op, active⟩, fun _ => state⟩

theorem Phase.children_le_one {c : Config} (h : Phase c) : c.children.length ≤ 1 := by
  cases h with
  | quiet _ _ _ children => simp [children]
  | busy t op _ _ _ _ children =>
    cases hc : (c.pc t).child with
    | none => rw [hc] at children; simp [show c.children = [] from children]
    | some own =>
      rw [hc] at children
      obtain ⟨st, hst⟩ := children
      simp [hst]

/-- A thread in `wait()` has its own child in the table, alone. -/
theorem Phase.children_of_wait {c : Config} (h : Phase c) {t : Tid} {op : Op} {own : Pid}
    (pc : c.pc t = .wait op own) : ∃ status, c.children = [⟨own, status⟩] :=
  h.table pc rfl

/-- **One action at a time.** In every reachable configuration at most one thread is inside an
action, the state is `Transition` exactly while some thread is between its accepted check and its
final `SetState`, at most one child is unreaped, and the `wait()` of `Execute`, which takes any
child, returns the status of the child its own `fork` made, and never fails. -/
theorem one_action_at_a_time {port : Text} {c : Config} (h : Reachable port c) :
    (∀ t u, (c.pc t).inAction = true → (c.pc u).inAction = true → t = u) ∧
    (c.state = .transition ↔ ∃ t op, (c.pc t).active = some op) ∧
    c.children.length ≤ 1 ∧
    (∀ t op own, c.pc t = .wait op own →
      (∀ pid c', step c (.wait t pid) = some c' →
        pid = own ∧ ∃ status, c.children = [⟨own, some status⟩] ∧
          c'.pc t = .setLock op (checkStatus status)) ∧
      ∀ e, step c (.waitFail t e) = none) := by
  have hp := h.inv.phase
  refine ⟨fun t u ht hu => ?_, hp.transition_iff, hp.children_le_one, fun t op own pc => ?_⟩
  · obtain ⟨op, hop⟩ := Pc.inAction_active ht
    obtain ⟨op', hop'⟩ := Pc.inAction_active hu
    exact hp.active_unique hop' hop
  obtain ⟨st, hst⟩ := hp.children_of_wait pc
  refine ⟨fun pid c' hs => ?_, fun e => by simp [step, pc, hst]⟩
  cases step_cases hs with
  | wait pc' ended =>
    rw [pc] at pc'
    cases pc'
    rw [hst] at ended
    obtain ⟨rfl, rfl⟩ := reapable_single ended
    exact ⟨rfl, _, hst, by simp [Config.goto]⟩

/-- Two threads ask for a reset; the first is in `wait()` when the second is turned away. -/
def forkedRun : List Label :=
  [.call 0 (.transition .resetChip), .step 0, .step 0, .step 0, .fork 0 (.ok 41),
    .call 1 (.transition .resetChip), .step 1, .step 1, .step 1, .exit 41 (.exited 0)]

theorem one_action_at_a_time_forked :
    ∃ c, Lts.run step (Config.init []) forkedRun = some c ∧ c.pc 0 = .wait .resetChip 41 ∧
      c.children.length ≤ 1 ∧
      (∀ pid c', step c (.wait 0 pid) = some c' → pid = 41) :=
  ⟨_, rfl, rfl, (@one_action_at_a_time [] _ ⟨forkedRun, rfl⟩).2.2.1, fun pid c' hs =>
    (((@one_action_at_a_time [] _ ⟨forkedRun, rfl⟩).2.2.2 0 .resetChip 41 rfl).1
      pid c' hs).1⟩

/-! ## A child that does not end -/

/-- A thread waits for a child that still runs. -/
structure Waiting (t : Tid) (op : Op) (pid : Pid) (c : Config) : Prop where
  inv : Inv c
  pc : c.pc t = .wait op pid
  running : c.children = [⟨pid, none⟩]

/-- Nothing but the end of the child ends the wait. -/
theorem waiting_step {c c' : Config} {l : Label} {t : Tid} {op : Op} {pid : Pid}
    (h : Waiting t op pid c) (hs : step c l = some c') (hl : ∀ status, l ≠ .exit pid status) :
    Waiting t op pid c' := by
  have hpc := h.pc
  have hactive : (c.pc t).active = some op := by rw [hpc]; rfl
  have hother : ∀ u p, c.pc u = p → p.inAction = true → u = t := by
    intro u p pc hp
    obtain ⟨op', hop'⟩ := Pc.inAction_active hp
    exact h.inv.phase.active_unique hactive (by rw [pc]; exact hop')
  have hinv := inv_step h.inv hs
  by_cases ht : l.thread = some t
  · cases step_cases hs with
    | exit => cases ht
    | wait pc ended =>
      rw [h.running] at ended
      simp [reapable] at ended
    | waitFail pc none_left =>
      rw [h.running] at none_left
      cases none_left
    | _ => cases ht; simp_all
  · refine ⟨hinv, (pc_of_other hs ht).trans h.pc, ?_⟩
    cases step_cases hs with
    | fork pc fresh => exact absurd (congrArg some (hother _ _ pc rfl)) ht
    | wait pc ended => exact absurd (congrArg some (hother _ _ pc rfl)) ht
    | @exit pid' status mem =>
      rw [h.running, List.mem_singleton] at mem
      cases mem
      exact absurd rfl (hl status)
    | _ => exact h.running

/-- **A thread waits as long as its child runs**, the machine stays in `Transition`, and every
routine is turned away. -/
theorem waits_for_child {port : Text} {c c' : Config} (h : Reachable port c) {t : Tid} {op : Op}
    {pid : Pid} (pc : c.pc t = .wait op pid) (running : ⟨pid, none⟩ ∈ c.children) {ls : List Label}
    (hrun : Lts.run step c ls = some c') (hls : ∀ status, Label.exit pid status ∉ ls) :
    c'.pc t = .wait op pid ∧ c'.state = .transition ∧
      ∀ op' : Op, c'.checkState op'.routine.expectedStates = false := by
  have hstart : Waiting t op pid c := by
    obtain ⟨status, hchildren⟩ := h.inv.phase.children_of_wait pc
    rw [hchildren, List.mem_singleton] at running
    cases running
    exact ⟨h.inv, pc, hchildren⟩
  have hend : (∀ status, Label.exit pid status ∉ ls) → Waiting t op pid c' :=
    Lts.run_induction (P := fun ls c => (∀ status, Label.exit pid status ∉ ls) → Waiting t op pid c)
      (fun _ => hstart)
      (fun ls c l c' _ ih hs hls => waiting_step
        (ih fun status hmem => hls status (List.mem_append_left _ hmem)) hs
        fun status he => hls status (by rw [he]; simp)) hrun
  have hwait := hend hls
  have hstate : c'.state = .transition :=
    hwait.inv.phase.transition_iff.2 ⟨t, op, by rw [hwait.pc]; rfl⟩
  refine ⟨hwait.pc, hstate, fun op' => ?_⟩
  rw [← Bool.not_eq_true, checkState_eq_true, hstate]
  exact transition_not_expected op'

end FirmwareFSM

end MbDaemon
