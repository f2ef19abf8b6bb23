import MbDaemon.Server.Threads.Steps

/-!
# Inside the mutex

The cleanup thread joins handlers with `JoinablesMutex` held, and a handler takes that mutex on its
way out. Cleanup only joins a handler whose id it has found in the queue, and it holds the mutex
itself: so the handler has pushed and has left the mutex again, and the join returns at once. Nobody
else waits for anything inside, so the mutex is given back after a number of the holder's own steps
that the length of the queue bounds (`holder_not_blocked`).
-/

namespace MbDaemon

namespace Threads

variable {c c' : Config} {l : Label} {ls : List Label} {t : Thread}

def Label.thread : Label → Option Thread
  | .dispatch | .insert _ | .dispatchThrow | .dispatchCancel | .dispatchWake => some .dispatch
  | .handler id | .handlerEnd id => some (.handler id)
  | .cleanup | .cleanupWake => some .cleanup
  | .signal | .main => none

/-- The steps left until the mutex is given back. -/
def DispatchPc.work : DispatchPc → Nat
  | .insert _ => 2
  | .unlockInsert _ => 1
  | _ => 0

def HandlerPc.work : HandlerPc → Nat
  | .push => 3
  | .notifyJoin => 2
  | .unlock => 1
  | _ => 0

/-- Four steps for each id in the queue. A cleanup that has thrown inside keeps the mutex. -/
def CleanupPc.work (queued : Nat) : CleanupPc → Nat
  | .waitTest => 4 * queued + 4
  | .exitTest => 4 * queued + 3
  | .drain => 4 * queued + 2
  | .lookup _ => 4 * queued + 1
  | .joining _ => 4 * queued
  | .erase _ => 4 * queued - 1
  | .waitSleep | .unlock | .exitUnlock | .crashed => 1
  | _ => 0

def Config.work (c : Config) : Nat :=
  match c.joinablesMutex with
  | some .dispatch => c.dispatch.work
  | some (.handler id) => (c.handler id).work
  | some .cleanup => c.cleanup.work c.joinables.length
  | none => 0

theorem work_le (c : Config) : c.work ≤ 4 * c.joinables.length + 4 := by
  unfold Config.work
  split
  · cases c.dispatch <;> simp [DispatchPc.work]
  · rename_i id _
    cases c.handler id <;> simp [HandlerPc.work]
  · cases c.cleanup <;> simp only [CleanupPc.work] <;> omega
  · omega

theorem Inv.queued_of_taking (hi : Inv c) {id : HandlerId} (ht : c.cleanup.taking.id = some id) :
    1 ≤ c.joinables.length := by
  have hfront : c.joinables.head? = some id := hi.books.front id ht
  obtain ⟨rest, hrest⟩ := List.head?_eq_some_iff.1 hfront
  simp [hrest]

theorem Inv.mem_holds (hi : Inv c) (held : c.joinablesMutex = some t) : c.holds t = true :=
  (hi.owned t).2 held

theorem Inv.held_of_holds (hi : Inv c) (h : c.holds t = true) : c.joinablesMutex = some t :=
  (hi.owned t).1 h

/-- Whoever holds the mutex has yet to give it back. -/
theorem work_pos (hi : Inv c) (held : c.joinablesMutex = some t) : 0 < c.work := by
  have hin := hi.mem_holds held
  unfold Config.work
  rw [held]
  cases t with
  | dispatch => cases pc : c.dispatch <;> simp_all [Config.holds, DispatchPc.holds, DispatchPc.work]
  | handler id =>
    cases pc : c.handler id <;> simp_all [Config.holds, HandlerPc.holds, HandlerPc.work]
  | cleanup =>
    cases pc : c.cleanup with
    | joining id | erase id =>
      have htaking : c.cleanup.taking.id = some id := by rw [pc]; rfl
      have hqueued := hi.queued_of_taking htaking
      simp only [CleanupPc.work]
      omega
    | lock | asleep | reacquire | done => simp [Config.holds, pc, CleanupPc.holds] at hin
    | _ => simp [CleanupPc.work]

/-- **The handler that cleanup joins has ended**: it has queued its id, and it is not in the mutex,
since cleanup is. -/
theorem ended_of_joining (hi : Inv c) {id : HandlerId} (pc : c.cleanup = .joining id) :
    c.handler id = .finished := by
  have hpushed : (c.handler id).stage = .pushed :=
    hi.books.pushed_of_front (.inr (by simp [Config.roster, pc, CleanupPc.taking]))
  have hout : c.holds (.handler id) = false :=
    hi.owned.excludes (t := .cleanup) (by simp [Config.holds, pc, CleanupPc.holds])
      Thread.noConfusion
  cases h : c.handler id <;> simp_all [HandlerPc.stage, Config.holds, HandlerPc.holds]

/-! ## The holder moves on -/

/-- The next step of a thread that is inside the mutex. -/
def Config.inside (c : Config) : Thread → Label
  | .dispatch =>
    match c.dispatch with
    | .insert _ => .insert 0
    | _ => .dispatch
  | .handler id => .handler id
  | .cleanup => .cleanup

@[simp] theorem thread_inside (c : Config) (t : Thread) : (c.inside t).thread = some t := by
  cases t with
  | dispatch => unfold Config.inside; dsimp only; split <;> rfl
  | handler id => rfl
  | cleanup => rfl

theorem holder_moves (hi : Inv c) (up : c.cleanup ≠ .crashed) (held : c.joinablesMutex = some t) :
    ∃ c', step c (c.inside t) = some c' := by
  have hin := hi.mem_holds held
  cases t with
  | dispatch =>
    cases pc : c.dispatch <;> simp_all [Config.holds, DispatchPc.holds, Config.inside, step,
      Config.nextInsert, Config.nextDispatch]
  | handler id =>
    cases pc : c.handler id <;> simp_all [Config.holds, HandlerPc.holds, Config.inside, step,
      Config.nextHandler]
  | cleanup =>
    cases pc : c.cleanup with
    | joining id =>
      have hended := ended_of_joining hi pc
      simp [step, Config.inside, Config.nextCleanup, pc, hended]
    | drain => cases hq : c.joinables <;> simp [step, Config.inside, Config.nextCleanup, pc, hq]
    | crashed => exact absurd pc up
    | lock | asleep | reacquire | done => simp [Config.holds, pc, CleanupPc.holds] at hin
    | _ => simp [step, Config.inside, Config.nextCleanup, pc]

/-- A step of the holder leaves it less to do inside, down to nothing when it gives the mutex
back. -/
theorem work_own (hi : Inv c) (held : c.joinablesMutex = some t) (hl : l.thread = some t)
    (hs : Step c l c') : c'.work < c.work := by
  have hin := hi.mem_holds held
  cases hs with
  | signal => cases hl
  | main h => cases hl
  | dispatch h =>
    obtain rfl : t = .dispatch := by cases h <;> exact (Option.some.inj hl).symm
    cases h with
    | insert pc | unlockInsert pc => simp [Config.work, held, pc, DispatchPc.work]
    | throw pc =>
      cases h : c.dispatch <;> simp_all [Config.holds, DispatchPc.throws, DispatchPc.holds]
    | cancel pc =>
      cases h : c.dispatch <;> simp_all [Config.holds, DispatchPc.cancels, DispatchPc.holds]
    | _ => simp_all [Config.holds, DispatchPc.holds]
  | @handler id _ _ h =>
    obtain rfl : t = .handler id := by cases h <;> exact (Option.some.inj hl).symm
    cases h with
    | push pc | notifyJoin pc | unlock pc => simp [Config.work, held, pc, HandlerPc.work]
    | leave pc => rcases pc with pc | pc <;> simp [Config.holds, pc, HandlerPc.holds] at hin
    | setReady pc | notifyReady pc | lock pc => simp [Config.holds, pc, HandlerPc.holds] at hin
  | cleanup h =>
    obtain rfl : t = .cleanup := by cases h <;> exact (Option.some.inj hl).symm
    cases h with
    | lock pc => rcases pc with pc | pc <;> simp [Config.holds, pc, CleanupPc.holds] at hin
    | wake pc => simp [Config.holds, pc, CleanupPc.holds] at hin
    | @join id pc ended =>
      have htaking : c.cleanup.taking.id = some id := by rw [pc]; rfl
      have hqueued := hi.queued_of_taking htaking
      simp only [Config.work, held, pc, CleanupPc.work]
      omega
    | @erase id pc =>
      have htaking : c.cleanup.taking.id = some id := by rw [pc]; rfl
      have hqueued := hi.queued_of_taking htaking
      simp only [Config.work, held, pc, CleanupPc.work, List.length_tail]
      omega
    | @miss id pc gone =>
      have htaking : c.cleanup.taking.id = some id := by rw [pc]; rfl
      have hqueued := hi.queued_of_taking htaking
      simp only [Config.work, held, pc, CleanupPc.work]
      omega
    | go pc | wait pc | sleep pc | exit pc | stay pc | drained pc | front pc | find pc | unlock pc
    | exitUnlock pc =>
      simp [Config.work, held, pc, CleanupPc.work]

@[simp] theorem work_notified (queued : Nat) (pc : CleanupPc) :
    pc.notified.work queued = pc.work queued := by
  cases pc <;> rfl

@[simp] theorem work_dispatch_notified (id : HandlerId) (pc : DispatchPc) :
    (pc.notified id).work = pc.work := by
  unfold DispatchPc.notified
  split
  · rename_i e; subst e; rfl
  · rfl

theorem work_keep (same : c'.joinablesMutex = c.joinablesMutex)
    (dispatch : c'.dispatch.work = c.dispatch.work)
    (handler : ∀ i, (c'.handler i).work ≤ (c.handler i).work)
    (cleanup : c'.cleanup.work c'.joinables.length = c.cleanup.work c.joinables.length) :
    c'.work ≤ c.work := by
  unfold Config.work
  rw [same]
  split
  · exact dispatch.le
  · exact handler _
  · exact cleanup.le
  · exact le_rfl

theorem work_move {f : HandlerId → HandlerPc} {id : HandlerId} {pc : HandlerPc} (h : pc.work = 0)
    (i : HandlerId) : (Function.update f id pc i).work ≤ (f i).work := by
  by_cases hi : i = id
  · subst hi; simp [h]
  · rw [Function.update_of_ne hi]

/-- A step of another thread leaves the mutex with the holder, and the holder no more to do. -/
theorem work_other (hi : Inv c) (held : c.joinablesMutex = some t) (hl : l.thread ≠ some t)
    (hs : Step c l c') : c'.joinablesMutex = some t ∧ c'.work ≤ c.work := by
  have hin := hi.mem_holds held
  cases hs with
  | signal => exact ⟨held, work_keep rfl rfl (fun _ => le_rfl) rfl⟩
  | main h =>
    cases h with
    | notify => exact ⟨held, work_keep rfl rfl (fun _ => le_rfl) (work_notified _ _)⟩
    | _ => exact ⟨held, work_keep rfl rfl (fun _ => le_rfl) rfl⟩
  | dispatch h =>
    have hne : t ≠ .dispatch := by rintro rfl; cases h <;> exact hl rfl
    have hout : c.dispatch.holds = false := hi.owned.excludes hin hne
    cases h with
    | lockInsert pc free => simp [held] at free
    | insert pc | unlockInsert pc => rw [pc] at hout; cases hout
    | create pc =>
      exact ⟨held, work_keep rfl (by rw [pc]; rfl) (work_move rfl) rfl⟩
    | throw pc =>
      refine ⟨held, work_keep rfl ?_ (fun _ => le_rfl) rfl⟩
      cases h : c.dispatch <;> first | rfl | (rw [h] at pc; cases pc)
    | cancel pc =>
      refine ⟨held, work_keep rfl ?_ (fun _ => le_rfl) rfl⟩
      cases h : c.dispatch <;> first | rfl | (rw [h] at pc; cases pc)
    | leave pc | stay pc | accept pc | socket pc | isReady pc | notReady pc | readySleep pc
    | hello pc | wake pc =>
      exact ⟨held, work_keep rfl (by rw [pc]; rfl) (fun _ => le_rfl) rfl⟩
  | @handler id _ _ h =>
    have hne : t ≠ .handler id := by rintro rfl; cases h <;> exact hl rfl
    have hout : (c.handler id).holds = false := hi.owned.excludes (u := .handler id) hin hne
    cases h with
    | lock pc free => simp [held] at free
    | push pc | notifyJoin pc | unlock pc => rw [pc] at hout; cases hout
    | notifyReady pc =>
      exact ⟨held, work_keep rfl (work_dispatch_notified _ _) (work_move rfl) rfl⟩
    | setReady pc | leave pc => exact ⟨held, work_keep rfl rfl (work_move rfl) rfl⟩
  | cleanup h =>
    have hne : t ≠ .cleanup := by rintro rfl; cases h <;> exact hl rfl
    have hout : c.cleanup.holds = false := hi.owned.excludes (u := .cleanup) hin hne
    cases h with
    | lock pc free => simp [held] at free
    | wake pc => exact ⟨held, work_keep rfl rfl (fun _ => le_rfl) (by rw [pc]; rfl)⟩
    | go pc | wait pc | sleep pc | exit pc | stay pc | drained pc | front pc | find pc | miss pc
    | join pc | erase pc | unlock pc | exitUnlock pc => rw [pc] at hout; cases hout

/-- While the mutex stays with its holder, each of the holder's steps has left it less to do. -/
theorem work_run (h : Lts.run step Config.init ls = some c) {ms : List Label}
    (hrun : Lts.run step c ms = some c')
    (hheld : ∀ pre s, pre <+: ms → Lts.run step c pre = some s → s.joinablesMutex = some t) :
    ms.countP (·.thread = some t) + c'.work ≤ c.work := by
  refine Lts.run_induction (P := fun ms c' =>
    (∀ pre s, pre <+: ms → Lts.run step c pre = some s → s.joinablesMutex = some t) →
      ms.countP (·.thread = some t) + c'.work ≤ c.work) (fun _ => by simp) ?_ hrun hheld
  intro ms s l s' hms ih hstep hheld
  have hi : Inv s := inv_run (by rw [Lts.run_append h ms, hms])
  have hsheld : s.joinablesMutex = some t := hheld ms s (List.prefix_append _ _) hms
  have hbefore := ih fun pre u hpre => hheld pre u (hpre.trans (List.prefix_append _ _))
  rw [List.countP_append, List.countP_singleton]
  by_cases hl : l.thread = some t
  · have hless := work_own hi hsheld hl (step_cases hstep)
    simp only [hl, decide_true, if_true]
    omega
  · have hle := (work_other hi hsheld hl (step_cases hstep)).2
    simp only [hl, decide_false, Bool.false_eq_true, if_false]
    omega

/-- **Nobody waits inside the mutex.** In every state that the threads reach, short of an exception
out of the cleanup thread, whoever holds `JoinablesMutex` can take a step, and however the steps of
the others fall it gives the mutex back with the last of four of its own steps for each id in the
queue and four more at the latest. -/
theorem holder_not_blocked (h : Lts.run step Config.init ls = some c)
    (up : c.cleanup ≠ .crashed) (held : c.joinablesMutex = some t) :
    (∃ l c', l.thread = some t ∧ step c l = some c') ∧
      ∀ ms c', Lts.run step c ms = some c' →
        (∀ pre s, pre <+: ms → Lts.run step c pre = some s → s.joinablesMutex = some t) →
        ms.countP (·.thread = some t) < 4 * c.joinables.length + 4 := by
  constructor
  · obtain ⟨c', hstep⟩ := holder_moves (inv_run h) up held
    exact ⟨c.inside t, c', thread_inside c t, hstep⟩
  · intro ms c' hrun hheld
    have hspent := work_run h hrun hheld
    have hbound := work_le c
    have hleft : 0 < c'.work := work_pos (inv_run (by rw [Lts.run_append h ms, hrun]))
      (hheld ms c' List.prefix_rfl hrun)
    omega

/-- A handler has ended and cleanup is about to join it. -/
def joiningRun : List Label :=
  [.dispatch, .dispatch, .dispatch, .dispatch, .dispatch, .insert 0, .dispatch, .handler 0,
    .handler 0, .handlerEnd 0, .handler 0, .handler 0, .handler 0, .handler 0, .cleanup, .cleanup,
    .cleanup, .cleanup, .cleanup]

theorem holder_not_blocked_joining :
    ∃ c, Lts.run step Config.init joiningRun = some c ∧ c.cleanup = .joining 0 ∧
      ∃ l c', l.thread = some .cleanup ∧ step c l = some c' := by
  obtain ⟨c, hrun, pc, held⟩ : ∃ c, Lts.run step Config.init joiningRun = some c ∧
      c.cleanup = .joining 0 ∧ c.joinablesMutex = some .cleanup := Lts.run_reaches (by decide)
  exact ⟨c, hrun, pc, (holder_not_blocked hrun (by rw [pc]; exact CleanupPc.noConfusion) held).1⟩

end Threads

end MbDaemon
