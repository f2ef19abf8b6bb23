import MbDaemon.Server.Threads.Blocking
import MbDaemon.Server.Threads.Cancelling
import MbDaemon.Server.Threads.Joining

/-!
# Shutting down

The way out of `Run` from the signal on, played thread by thread: dispatch ends, the holder of the
mutex gives it back, `Run` walks its loop while nobody else moves, the handlers end, and cleanup
joins them. No step of it is a spurious wakeup or an exception in the dispatch thread. It is open
unless cleanup is `Doomed`: on its way through a queue that holds the id of a handler that dispatch
has yet to enter, and cannot enter, because cleanup has the mutex.
-/

namespace MbDaemon

namespace Threads

variable {c c' : Config} {l : Label} {ls : List Label} {t : Thread}

/-- Neither a spurious wakeup nor an exception in the dispatch thread. -/
def Label.orderly : Label → Prop
  | .dispatchThrow | .dispatchWake | .cleanupWake => False
  | _ => True

/-- Cleanup has bound itself to look up the id of a handler that dispatch has yet to enter. -/
def Doomed (c : Config) : Prop :=
  Overtaken c ∧ (c.cleanup.drains = true ∨
    (c.cleanup = .waitTest ∨ c.cleanup = .exitTest) ∧ c.handlers ≠ [])

instance (c : Config) : Decidable (Doomed c) :=
  inferInstanceAs (Decidable (Overtaken c ∧ (c.cleanup.drains = true ∨
    (c.cleanup = .waitTest ∨ c.cleanup = .exitTest) ∧ c.handlers ≠ [])))

theorem holds_of_drains {pc : CleanupPc} (h : pc.drains = true) : pc.holds = true := by
  cases pc <;> first | rfl | cases h

theorem Doomed.holds (hd : Doomed c) : c.cleanup.holds = true := by
  obtain ⟨-, h | ⟨h | h, -⟩⟩ := hd
  · exact holds_of_drains h
  · rw [h]; rfl
  · rw [h]; rfl

/-! ## The holder leaves -/

/-- What the phases of the way out have in common. -/
structure Leaving (c : Config) : Prop where
  inv : Inv c
  up : c.cleanup ≠ .crashed
  shut : c.doShutdown = true
  cancelled : c.dispatchCancelled = true

/-- What a step leaves to the others. -/
structure Aside (c c' : Config) : Prop where
  main : c'.main = c.main
  dispatch : c'.dispatch = c.dispatch
  shut : c'.doShutdown = c.doShutdown
  cancelled : c'.dispatchCancelled = c.dispatchCancelled

theorem Leaving.aside (hl : Leaving c) (ha : Aside c c') (inv : Inv c')
    (up : c'.cleanup ≠ .crashed) : Leaving c' where
  inv := inv
  up := up
  shut := ha.shut.trans hl.shut
  cancelled := ha.cancelled.trans hl.cancelled

theorem aside_cleanup (hs : CleanupStep c l c') : Aside c c' := by
  cases hs <;> exact ⟨rfl, rfl, rfl, rfl⟩

theorem aside_handler {id : HandlerId} (hin : (c.handler id).holds = true)
    (hs : HandlerStep c id l c') : Aside c c' := by
  cases hs with
  | notifyReady pc => rw [pc] at hin; cases hin
  | _ => exact ⟨rfl, rfl, rfl, rfl⟩

theorem settled_of_entered (h : c.dispatch.created = none) : Settled c := by
  rintro - ⟨id, -, hcreated⟩
  rw [h] at hcreated
  cases hcreated

theorem settled_of_not_doomed (h : ¬ Doomed c) : Settled c :=
  fun hdrains hover => h ⟨hover, .inl hdrains⟩

theorem up_cleanup (hi : Inv c) (hset : Settled c)
    (hs : CleanupStep c l c') : c'.cleanup ≠ .crashed := by
  cases hs with
  | miss pc gone => exact absurd (known_of_settled hi hset pc) gone
  | _ => exact CleanupPc.noConfusion

theorem up_handler {id : HandlerId} (up : c.cleanup ≠ .crashed) (hs : HandlerStep c id l c') :
    c'.cleanup ≠ .crashed := by
  cases hs with
  | notifyJoin pc => cases h : c.cleanup <;> simp_all [CleanupPc.notified]
  | _ => exact up

theorem orderly_inside (c : Config) (t : Thread) : (c.inside t).orderly := by
  cases t with
  | dispatch => unfold Config.inside; dsimp only; split <;> exact trivial
  | _ => exact trivial

theorem not_doomed_cleanup (shut : c.doShutdown = true) (hin : c.cleanup.holds = true)
    (hd : ¬ Doomed c) (hs : CleanupStep c l c') : ¬ Doomed c' := by
  rintro ⟨hover, hat⟩
  cases hs with
  | lock pc => rcases pc with pc | pc <;> rw [pc] at hin <;> cases hin
  | wake pc => rw [pc] at hin; cases hin
  | wait | sleep | exit | drained | miss | unlock | exitUnlock =>
    simp [CleanupPc.drains] at hat
  | go pc =>
    simp only [CleanupPc.drains, Bool.false_eq_true, false_or, or_true, true_and] at hat
    exact hd ⟨hover, .inr ⟨.inl pc, hat⟩⟩
  | stay pc more => exact hd ⟨hover, .inr ⟨.inr pc, fun empty => more ⟨shut, empty⟩⟩⟩
  | front pc | find pc | join pc => exact hd ⟨hover, .inl (by rw [pc]; rfl)⟩
  | erase pc =>
    obtain ⟨id, hmem, hcreated⟩ := hover
    exact hd ⟨⟨id, List.mem_of_mem_tail hmem, hcreated⟩, .inl (by rw [pc]; rfl)⟩

theorem not_doomed_outside (h : c.cleanup.holds = false) : ¬ Doomed c := by
  intro hd
  rw [hd.holds] at h
  cases h

/-- Where nothing is doomed, the holder's next step brings it nearer to giving the mutex back, and
nobody else is touched. -/
theorem holder_step (hl : Leaving c) (hd : ¬ Doomed c) (held : c.joinablesMutex = some t)
    (ht : t ≠ .dispatch) :
    ∃ c', step c (c.inside t) = some c' ∧ Leaving c' ∧ ¬ Doomed c' ∧ Aside c c' ∧
      c'.work < c.work := by
  have hin := hl.inv.mem_holds held
  obtain ⟨c', hstep⟩ := holder_moves hl.inv hl.up held
  have hless := work_own hl.inv held (thread_inside c t) (step_cases hstep)
  have hinv := inv_step hl.inv (step_cases hstep)
  refine ⟨c', hstep, ?_⟩
  cases t with
  | dispatch => exact absurd rfl ht
  | handler id =>
    have hs : HandlerStep c id (.handler id) c' :=
      nextHandler_cases (by simpa [step, Config.inside, hl.up] using hstep)
    have ha := aside_handler hin hs
    have hout : c'.cleanup.holds = false := by
      have hbefore := hl.inv.owned.cleanup_outside hin
      cases hs with
      | notifyJoin pc => simpa using hbefore
      | _ => exact hbefore
    exact ⟨hl.aside ha hinv (up_handler hl.up hs), not_doomed_outside hout, ha, hless⟩
  | cleanup =>
    have hs : CleanupStep c .cleanup c' :=
      nextCleanup_cases (by simpa [step, Config.inside, hl.up] using hstep)
    have ha := aside_cleanup hs
    have hup := up_cleanup hl.inv (settled_of_not_doomed hd) hs
    exact ⟨hl.aside ha hinv hup, not_doomed_cleanup hl.shut hin hd hs, ha, hless⟩

/-! ## Dispatch ends -/

def DispatchPc.toEnd : DispatchPc → Nat
  | .create _ => 6
  | .lockInsert _ => 5
  | .insert _ => 4
  | .unlockInsert _ => 3
  | .readyTest _ => 2
  | .done => 0
  | _ => 1

theorem not_doomed_dispatch (hi : Inv c) (hd : ¬ Doomed c) (hs : DispatchStep c l c') :
    ¬ Doomed c' := by
  rintro ⟨hover, hat⟩
  have hbefore := overtaken_dispatch hi hs hover
  cases hs with
  | insert pc =>
    obtain ⟨id, -, hcreated⟩ := hover
    cases hcreated
  | _ => exact hd ⟨hbefore, hat⟩

theorem Leaving.dispatched (hl : Leaving c) (hs : DispatchStep c l c') :
    Leaving c' ∧ c'.main = c.main := by
  have hinv := inv_step hl.inv (.dispatch hs)
  cases hs <;> exact ⟨⟨hinv, hl.up, hl.shut, hl.cancelled⟩, rfl⟩

theorem dispatch_moves (hl : Leaving c) (pc : c.dispatch ≠ .done)
    (free : ∀ id, c.dispatch = .lockInsert id → c.joinablesMutex = none) :
    ∃ l c', l.orderly ∧ step c l = some c' ∧ DispatchStep c l c' ∧
      c'.dispatch.toEnd < c.dispatch.toEnd := by
  obtain ⟨-, up, shut, cancelled⟩ := hl
  cases hpc : c.dispatch with
  | done => exact absurd hpc pc
  | test =>
    exact ⟨.dispatch, _, trivial, by simp [step, up, Config.nextDispatch, hpc, shut],
      .leave hpc shut, by simp [DispatchPc.toEnd]⟩
  | accept | socket id | readySleep id | readyAsleep id | hello id =>
    exact ⟨.dispatchCancel, _, trivial,
      by simp only [step, up, cancelled, hpc, DispatchPc.cancels, if_false, and_self, if_true],
      .cancel (by rw [hpc]; rfl) cancelled, by simp [DispatchPc.toEnd]⟩
  | create id =>
    exact ⟨.dispatch, _, trivial, by simp only [step, up, Config.nextDispatch, hpc, if_false],
      .create hpc, by simp [DispatchPc.toEnd]⟩
  | lockInsert id =>
    exact ⟨.dispatch, _, trivial, by simp [step, up, Config.nextDispatch, hpc, free id hpc],
      .lockInsert hpc (free id hpc), by simp [DispatchPc.toEnd]⟩
  | insert id =>
    exact ⟨.insert 0, _, trivial, by simp only [step, up, Config.nextInsert, hpc, if_false],
      .insert hpc, by simp [DispatchPc.toEnd]⟩
  | unlockInsert id =>
    exact ⟨.dispatch, _, trivial, by simp only [step, up, Config.nextDispatch, hpc, if_false],
      .unlockInsert hpc, by simp [DispatchPc.toEnd]⟩
  | readyTest id =>
    cases hready : c.ready id with
    | true =>
      exact ⟨.dispatch, _, trivial, by simp [step, up, Config.nextDispatch, hpc, hready],
        .isReady hpc hready, by simp [DispatchPc.toEnd]⟩
    | false =>
      exact ⟨.dispatch, _, trivial, by simp [step, up, Config.nextDispatch, hpc, hready],
        .notReady hpc hready, by simp [DispatchPc.toEnd]⟩

theorem dispatch_ends (hl : Leaving c) (hd : ¬ Doomed c) (main : c.main = .joinDispatch) :
    ∃ c', Lts.Leads step Label.orderly c c' ∧ Leaving c' ∧ c'.main = .joinDispatch ∧
      c'.dispatch = .done := by
  have hnext : ∀ s, (Leaving s ∧ ¬ Doomed s ∧ s.main = .joinDispatch) → ¬ s.dispatch = .done →
      ∃ l s', l.orderly ∧ step s l = some s' ∧
        (Leaving s' ∧ ¬ Doomed s' ∧ s'.main = .joinDispatch) ∧
        toLex (s'.dispatch.toEnd, s'.work) < toLex (s.dispatch.toEnd, s.work) := by
    rintro s ⟨hl, hd, hmain⟩ hpc
    by_cases hwait : ∃ id t, s.dispatch = .lockInsert id ∧ s.joinablesMutex = some t
    · obtain ⟨id, t, hlock, held⟩ := hwait
      have ht : t ≠ .dispatch := by
        rintro rfl
        have hin := hl.inv.mem_holds held
        simp [Config.holds, hlock, DispatchPc.holds] at hin
      obtain ⟨s', hstep, hl', hd', ha, hless⟩ := holder_step hl hd held ht
      refine ⟨s.inside t, s', orderly_inside s t, hstep, ⟨hl', hd', ha.main.trans hmain⟩, ?_⟩
      rw [ha.dispatch]
      exact Prod.Lex.toLex_lt_toLex.2 (.inr ⟨rfl, hless⟩)
    · have hfree : ∀ id, s.dispatch = .lockInsert id → s.joinablesMutex = none := fun id hlock =>
        Option.eq_none_iff_forall_not_mem.2 fun t held => hwait ⟨id, t, hlock, held⟩
      obtain ⟨l, s', hown, hstep, hs, hless⟩ := dispatch_moves hl hpc hfree
      obtain ⟨hl', hmain'⟩ := hl.dispatched hs
      refine ⟨l, s', hown, hstep, ⟨hl', not_doomed_dispatch hl.inv hd hs, hmain'.trans hmain⟩, ?_⟩
      exact Prod.Lex.toLex_lt_toLex.2 (.inl hless)
  obtain ⟨c', hlead, ⟨hl', -, hmain⟩, hdone⟩ := Lts.leads_of_descent _ hnext c ⟨hl, hd, main⟩
  exact ⟨c', hlead, hl', hmain, hdone⟩

/-- With dispatch gone nothing is doomed. -/
theorem not_doomed_done (h : c.dispatch = .done) : ¬ Doomed c := by
  rintro ⟨⟨id, -, hcreated⟩, -⟩
  rw [h] at hcreated
  cases hcreated

theorem mutex_freed (hl : Leaving c) (main : c.main = .joinDispatch) (done : c.dispatch = .done) :
    ∃ c', Lts.Leads step Label.orderly c c' ∧ Leaving c' ∧ c'.main = .joinDispatch ∧
      c'.dispatch = .done ∧ c'.joinablesMutex = none := by
  have hnext : ∀ s, (Leaving s ∧ s.main = .joinDispatch ∧ s.dispatch = .done) →
      ¬ s.joinablesMutex = none → ∃ l s', l.orderly ∧ step s l = some s' ∧
        (Leaving s' ∧ s'.main = .joinDispatch ∧ s'.dispatch = .done) ∧ s'.work < s.work := by
    rintro s ⟨hl, hmain, hdone⟩ hheld
    obtain ⟨t, held⟩ := Option.ne_none_iff_exists'.1 hheld
    have ht : t ≠ .dispatch := by
      rintro rfl
      have hin := hl.inv.mem_holds held
      simp [Config.holds, hdone, DispatchPc.holds] at hin
    obtain ⟨s', hstep, hl', -, ha, hless⟩ := holder_step hl (not_doomed_done hdone) held ht
    exact ⟨s.inside t, s', orderly_inside s t, hstep,
      ⟨hl', ha.main.trans hmain, ha.dispatch.trans hdone⟩, hless⟩
  obtain ⟨c', hlead, ⟨hl', hmain, hdone⟩, hfree⟩ :=
    Lts.leads_of_descent _ hnext c ⟨hl, main, done⟩
  exact ⟨c', hlead, hl', hmain, hdone, hfree⟩

/-! ## `Run` walks its loop -/

/-- From `dispatch.join()` to `cleanup.join()`. -/
def MainPc.walking : MainPc → Bool
  | .joinDispatch | .cancel _ | .advance _ | .notify | .joinCleanup => true
  | _ => false

/-- The steps to `cleanup.join()`, two for each entry from the one the loop is at. -/
def MainPc.toEnd (handlers : List HandlerId) : MainPc → Nat
  | .joinDispatch => 2 * handlers.length + 2
  | .cancel id => 2 * (handlers.dropWhile (· ≠ id)).length + 1
  | .advance id => 2 * (handlers.dropWhile (· ≠ id)).length
  | .notify => 1
  | _ => 0

/-- What stands behind an entry starts with the next one. -/
theorem dropWhile_after {id next : HandlerId} {handlers : List HandlerId} (nodup : handlers.Nodup)
    (h : after id handlers = some next) :
    handlers.dropWhile (· ≠ next) = (handlers.dropWhile (· ≠ id)).tail := by
  induction handlers with
  | nil => rfl
  | cons x xs ih =>
    obtain ⟨hx, hxs⟩ := List.nodup_cons.1 nodup
    by_cases hid : x = id
    · subst hid
      simp only [after, ne_eq, List.dropWhile_cons, not_true_eq_false, decide_false,
        Bool.false_eq_true, if_false, List.tail_cons] at h ⊢
      obtain ⟨rest, rfl⟩ := List.head?_eq_some_iff.1 h
      have hne : x ≠ next := fun e => hx (by rw [e]; exact List.mem_cons_self)
      simp [hne]
    · have hafter : after id xs = some next := by
        simpa [after, List.dropWhile_cons, hid] using h
      have hne : x ≠ next := fun e => hx (by rw [e]; exact mem_of_after hafter)
      simpa [List.dropWhile_cons, hid, hne] using ih hxs hafter

theorem pos_of_mem {id : HandlerId} {handlers : List HandlerId} (h : id ∈ handlers) :
    0 < (handlers.dropWhile (· ≠ id)).length := by
  induction handlers with
  | nil => cases h
  | cons x xs ih =>
    by_cases hid : x = id
    · simp [hid]
    · rcases List.mem_cons.1 h with rfl | h
      · exact absurd rfl hid
      · simpa [List.dropWhile_cons, hid] using ih h

theorem toEnd_head (handlers : List HandlerId) :
    (MainPc.round handlers.head?).toEnd handlers < 2 * handlers.length + 2 := by
  cases handlers with
  | nil => simp [MainPc.round, MainPc.toEnd]
  | cons x xs => simp [MainPc.round, MainPc.toEnd]

theorem toEnd_after {id : HandlerId} {handlers : List HandlerId} (nodup : handlers.Nodup)
    (h : id ∈ handlers) :
    (MainPc.round (after id handlers)).toEnd handlers <
      2 * (handlers.dropWhile (· ≠ id)).length := by
  have hpos := pos_of_mem h
  cases hnext : after id handlers with
  | none => simp only [MainPc.round, MainPc.toEnd]; omega
  | some next =>
    simp only [MainPc.round, MainPc.toEnd]
    rw [dropWhile_after nodup hnext, List.length_tail]
    omega

@[simp] theorem walking_round (next : Option HandlerId) : (MainPc.round next).walking = true := by
  cases next <;> rfl

/-- Nobody moves but `Run`, and it is inside its loop. -/
structure Walking (c : Config) : Prop where
  leaving : Leaving c
  done : c.dispatch = .done
  free : c.joinablesMutex = none
  walking : c.main.walking = true
  cursor : ∀ id ∈ c.main.cursor, id ∈ c.handlers
  awake : c.main = .joinCleanup → c.cleanup ≠ .asleep

theorem Inv.outside (hi : Inv c) (free : c.joinablesMutex = none) (t : Thread) :
    c.holds t = false := by
  cases h : c.holds t with
  | false => rfl
  | true => rw [hi.held_of_holds h] at free; cases free

/-- With the mutex free no handler in the map has been joined. -/
theorem unjoined_of_free (hi : Inv c) (free : c.joinablesMutex = none) {id : HandlerId}
    (h : id ∈ c.handlers) : c.handler id ≠ .joined := by
  intro hjoined
  have hout : c.cleanup.holds = false := hi.outside free .cleanup
  have htaking := (hi.books.keys id h).2 (by simp [Config.roster, hjoined, HandlerPc.stage])
  cases hpc : c.cleanup <;> simp_all [Config.roster, CleanupPc.taking, CleanupPc.holds]

theorem Walking.next (hw : Walking c) (hgoal : c.main ≠ .joinCleanup) :
    ∃ c', step c .main = some c' ∧ Walking c' ∧
      c'.main.toEnd c'.handlers < c.main.toEnd c.handlers := by
  obtain ⟨⟨hi, up, shut, cancelled⟩, done, free, walking, cursor, awake⟩ := hw
  have hkeep : ∀ {c'}, step c .main = some c' → Inv c' := fun h => inv_step hi (step_cases h)
  cases pc : c.main with
  | joinCleanup => exact absurd pc hgoal
  | pause | cancelDispatch | stray | returned => rw [pc] at walking; cases walking
  | joinDispatch =>
    have hstep : step c .main = some { c with main := .round c.handlers.head? } := by
      simp [step, up, Config.nextMain, pc, done]
    refine ⟨_, hstep, ⟨⟨hkeep hstep, up, shut, cancelled⟩, done, free, walking_round _, ?_, ?_⟩, ?_⟩
    · intro id hid
      simp only [cursor_round] at hid
      exact List.mem_of_head? hid
    · intro e; cases h : c.handlers.head? <;> simp [MainPc.round, h] at e
    · exact toEnd_head c.handlers
  | cancel id =>
    have hmem : id ∈ c.handlers := cursor id (by rw [pc]; rfl)
    have hstep : step c .main = some { c with
        main := .advance id, handlerCancelled := Function.update c.handlerCancelled id true } := by
      simp [step, up, Config.nextMain, pc, hmem, unjoined_of_free hi free hmem]
    refine ⟨_, hstep, ⟨⟨hkeep hstep, up, shut, cancelled⟩, done, free, rfl, ?_, ?_⟩, ?_⟩
    · exact fun i hi' => by cases hi'; exact hmem
    · exact fun e => by cases e
    · simp [MainPc.toEnd]
  | advance id =>
    have hmem : id ∈ c.handlers := cursor id (by rw [pc]; rfl)
    have hstep : step c .main = some { c with main := .round (after id c.handlers) } := by
      simp [step, up, Config.nextMain, pc, hmem]
    refine ⟨_, hstep, ⟨⟨hkeep hstep, up, shut, cancelled⟩, done, free, walking_round _, ?_, ?_⟩, ?_⟩
    · intro i hi'
      simp only [cursor_round] at hi'
      exact mem_of_after hi'
    · intro e; cases h : after id c.handlers <;> simp [MainPc.round, h] at e
    · exact toEnd_after hi.books.handlersNodup hmem
  | notify =>
    have hstep : step c .main = some { c with
        main := .joinCleanup, cleanup := c.cleanup.notified } := by
      simp [step, up, Config.nextMain, pc]
    have hup : c.cleanup.notified ≠ .crashed := by
      cases h : c.cleanup <;> simp_all [CleanupPc.notified]
    refine ⟨_, hstep, ⟨⟨hkeep hstep, hup, shut, cancelled⟩, done, free, rfl, ?_, ?_⟩, ?_⟩
    · exact fun i hi' => by cases hi'
    · intro _
      cases c.cleanup <;> simp [CleanupPc.notified]
    · simp [MainPc.toEnd]

/-- `Run` comes to `cleanup.join()`. -/
theorem loop_walked (hw : Walking c) :
    ∃ c', Lts.Leads step Label.orderly c c' ∧ Walking c' ∧ c'.main = .joinCleanup := by
  have hnext : ∀ s, Walking s → ¬ s.main = .joinCleanup → ∃ l s', l.orderly ∧
      step s l = some s' ∧ Walking s' ∧ s'.main.toEnd s'.handlers < s.main.toEnd s.handlers := by
    intro s hw hgoal
    obtain ⟨s', hstep, hw', hless⟩ := hw.next hgoal
    exact ⟨.main, s', trivial, hstep, hw', hless⟩
  exact Lts.leads_of_descent _ hnext c hw

/-! ## The handlers end -/

def HandlerPc.toEnd : HandlerPc → Nat
  | .setReady => 7
  | .notifyReady => 6
  | .serving => 5
  | .lock => 4
  | .push => 3
  | .notifyJoin => 2
  | .unlock => 1
  | .absent | .finished | .joined => 0

/-- `Run` waits for the cleanup thread, which is neither asleep nor inside the mutex. -/
structure Ending (c : Config) : Prop where
  leaving : Leaving c
  done : c.dispatch = .done
  main : c.main = .joinCleanup
  outside : c.cleanup.holds = false
  awake : c.cleanup ≠ .asleep

theorem handler_moves {id : HandlerId} (up : c.cleanup ≠ .crashed) (hpc : 0 < (c.handler id).toEnd)
    (free : c.handler id = .lock → c.joinablesMutex = none) :
    ∃ l c' pc, l.orderly ∧ step c l = some c' ∧ HandlerStep c id l c' ∧
      c'.handler = Function.update c.handler id pc ∧ pc.toEnd < (c.handler id).toEnd := by
  cases h : c.handler id with
  | absent | finished | joined => rw [h] at hpc; cases hpc
  | serving =>
    exact ⟨.handlerEnd id, _, .lock, trivial, by simp only [step, up, Config.nextEnd, h, if_false],
      .leave (.inl h), rfl, by simp [HandlerPc.toEnd]⟩
  | lock =>
    exact ⟨.handler id, _, .push, trivial,
      by simp [step, up, Config.nextHandler, h, free h], .lock h (free h), rfl,
      by simp [HandlerPc.toEnd]⟩
  | setReady =>
    exact ⟨.handler id, _, .notifyReady, trivial,
      by simp only [step, up, Config.nextHandler, h, if_false], .setReady h, rfl,
      by simp [HandlerPc.toEnd]⟩
  | notifyReady =>
    exact ⟨.handler id, _, .serving, trivial,
      by simp only [step, up, Config.nextHandler, h, if_false], .notifyReady h, rfl,
      by simp [HandlerPc.toEnd]⟩
  | push =>
    exact ⟨.handler id, _, .notifyJoin, trivial,
      by simp only [step, up, Config.nextHandler, h, if_false], .push h, rfl,
      by simp [HandlerPc.toEnd]⟩
  | notifyJoin =>
    exact ⟨.handler id, _, .unlock, trivial,
      by simp only [step, up, Config.nextHandler, h, if_false], .notifyJoin h, rfl,
      by simp [HandlerPc.toEnd]⟩
  | unlock =>
    exact ⟨.handler id, _, .finished, trivial,
      by simp only [step, up, Config.nextHandler, h, if_false], .unlock h, rfl,
      by simp [HandlerPc.toEnd]⟩

theorem Ending.handled {id : HandlerId} (he : Ending c) (hs : HandlerStep c id l c') :
    Ending c' ∧ c'.handlers = c.handlers := by
  obtain ⟨⟨hi, up, shut, cancelled⟩, done, main, outside, awake⟩ := he
  have hinv := inv_step hi (.handler hs)
  have hup := up_handler up hs
  cases hs with
  | notifyReady pc =>
    exact ⟨⟨⟨hinv, hup, shut, cancelled⟩, by simp [done, DispatchPc.notified], main, outside, awake⟩,
      rfl⟩
  | notifyJoin pc =>
    refine ⟨⟨⟨hinv, hup, shut, cancelled⟩, done, main, by simpa using outside, ?_⟩, rfl⟩
    cases h : c.cleanup <;> simp_all [CleanupPc.notified]
  | _ => exact ⟨⟨⟨hinv, hup, shut, cancelled⟩, done, main, outside, awake⟩, rfl⟩

/-- With dispatch gone the handlers that have not been joined are in the map. -/
theorem known_of_done (hi : Inv c) (done : c.dispatch = .done) {id : HandlerId}
    (h : (c.handler id).stage = .running ∨ (c.handler id).stage = .pushed) : id ∈ c.handlers := by
  rcases hi.books.known id h with hk | hc
  · exact hk
  · simp only [Config.roster, done, DispatchPc.created] at hc
    cases hc

theorem stage_of_holds {pc : HandlerPc} (h : pc.holds = true) :
    pc.stage = .running ∨ pc.stage = .pushed := by
  cases pc <;> simp_all [HandlerPc.holds, HandlerPc.stage]

theorem toEnd_of_holds {pc : HandlerPc} (h : pc.holds = true) : 0 < pc.toEnd := by
  cases pc <;> simp_all [HandlerPc.holds, HandlerPc.toEnd]

theorem sum_update_lt {f : HandlerId → HandlerPc} {id : HandlerId} {pc : HandlerPc}
    {handlers : List HandlerId} (h : id ∈ handlers) (hlt : pc.toEnd < (f id).toEnd) :
    (handlers.map fun i => (Function.update f id pc i).toEnd).sum <
      (handlers.map fun i => (f i).toEnd).sum := by
  refine List.sum_lt_sum _ _ (fun i _ => ?_) ⟨id, h, by simpa using hlt⟩
  by_cases hi : i = id
  · subst hi; simpa using hlt.le
  · rw [Function.update_of_ne hi]

theorem handlers_end (he : Ending c) :
    ∃ c', Lts.Leads step Label.orderly c c' ∧ Ending c' ∧
      ∀ id ∈ c'.handlers, c'.handler id = .finished := by
  have hnext : ∀ s, Ending s → ¬ (∀ id ∈ s.handlers, s.handler id = .finished) →
      ∃ l s', l.orderly ∧ step s l = some s' ∧ Ending s' ∧
        (s'.handlers.map fun i => (s'.handler i).toEnd).sum <
          (s.handlers.map fun i => (s.handler i).toEnd).sum := by
    intro s he hgoal
    have hi := he.leaving.inv
    -- the holder of the mutex if there is one, or any handler that has not ended
    have hmover : ∃ id ∈ s.handlers, 0 < (s.handler id).toEnd ∧
        (s.handler id = .lock → s.joinablesMutex = none) := by
      cases hm : s.joinablesMutex with
      | some t =>
        have hin := hi.mem_holds hm
        cases t with
        | dispatch => simp [Config.holds, he.done, DispatchPc.holds] at hin
        | cleanup => simp [Config.holds, he.outside] at hin
        | handler id =>
          refine ⟨id, known_of_done hi he.done (stage_of_holds hin), toEnd_of_holds hin, ?_⟩
          intro hlock
          simp [Config.holds, hlock, HandlerPc.holds] at hin
      | none =>
        obtain ⟨id, hmem, hpc⟩ := not_forall₂.1 hgoal
        refine ⟨id, hmem, ?_, fun _ => rfl⟩
        have hpresent := (hi.books.keys id hmem).1
        have hjoined := unjoined_of_free hi hm hmem
        cases h : s.handler id <;> simp_all [HandlerPc.toEnd, Config.roster, HandlerPc.stage]
    obtain ⟨id, hmem, hpos, hfree⟩ := hmover
    obtain ⟨l, s', pc, hown, hstep, hs, hhandler, hless⟩ :=
      handler_moves he.leaving.up hpos hfree
    obtain ⟨he', hhandlers⟩ := he.handled hs
    refine ⟨l, s', hown, hstep, he', ?_⟩
    rw [hhandlers, hhandler]
    exact sum_update_lt hmem hless
  obtain ⟨c', hlead, he', hended⟩ := Lts.leads_of_descent _ hnext c he
  exact ⟨c', hlead, he', hended⟩

/-! ## Cleanup joins them -/

/-- The steps of the cleanup thread to its end, when every handler in the map has queued its id. -/
def CleanupPc.toEnd (handlers : List HandlerId) (queued : Nat) : CleanupPc → Nat
  | .exitUnlock => 1
  | .exitTest => if handlers = [] then 2 else 4 * queued + 10
  | .waitTest => if handlers = [] then 3 else 4 * queued + 11
  | .lock | .reacquire => if handlers = [] then 4 else 4 * queued + 12
  | .unlock => if handlers = [] then 5 else 4 * queued + 13
  | .drain => 4 * queued + 9
  | .lookup _ => 4 * queued + 8
  | .joining _ => 4 * queued + 7
  | .erase _ => 4 * queued + 6
  | .waitSleep | .asleep | .done | .crashed => 0

/-- `Run` waits for the cleanup thread, and the handlers in the map have ended. -/
structure Joining (c : Config) : Prop where
  leaving : Leaving c
  done : c.dispatch = .done
  main : c.main = .joinCleanup
  awake : c.cleanup ≠ .asleep ∧ c.cleanup ≠ .waitSleep
  ended : ∀ id ∈ c.handlers, c.handler id = .finished ∨ c.handler id = .joined

theorem Joining.no_handler (hj : Joining c) (id : HandlerId) : (c.handler id).holds = false := by
  cases hin : (c.handler id).holds with
  | false => rfl
  | true =>
    have hmem := known_of_done hj.leaving.inv hj.done (stage_of_holds hin)
    rcases hj.ended id hmem with h | h <;> simp [h, HandlerPc.holds] at hin

theorem Joining.free (hj : Joining c) (hout : c.cleanup.holds = false) :
    c.joinablesMutex = none := by
  refine Option.eq_none_iff_forall_not_mem.2 fun t held => ?_
  have hin := hj.leaving.inv.mem_holds held
  cases t with
  | dispatch => simp [Config.holds, hj.done, DispatchPc.holds] at hin
  | handler id => simp [Config.holds, hj.no_handler id] at hin
  | cleanup => simp [Config.holds, hout] at hin

/-- When the queue has been emptied, so has the map. -/
theorem Joining.emptied (hj : Joining c) (pc : c.cleanup = .drain) (hq : c.joinables = []) :
    c.handlers = [] := by
  refine List.eq_nil_iff_forall_not_mem.2 fun id hmem => ?_
  have hi := hj.leaving.inv
  rcases hj.ended id hmem with h | h
  · have hqueued : id ∈ c.joinables :=
      (hi.books.queue id).2 (.inl (by simp [Config.roster, h, HandlerPc.stage]))
    rw [hq] at hqueued
    cases hqueued
  · have htaking := (hi.books.keys id hmem).2 (by simp [Config.roster, h, HandlerPc.stage])
    simp [Config.roster, pc, CleanupPc.taking] at htaking

theorem joining_moves (hj : Joining c) (pc : c.cleanup ≠ .done) :
    ∃ c', step c .cleanup = some c' := by
  have hup := hj.leaving.up
  cases h : c.cleanup with
  | done => exact absurd h pc
  | crashed => exact absurd h hup
  | asleep => exact absurd h hj.awake.1
  | waitSleep => exact absurd h hj.awake.2
  | lock | reacquire =>
    have hfree := hj.free (by rw [h]; rfl)
    simp [step, Config.nextCleanup, h, hfree]
  | joining id =>
    have hended := ended_of_joining hj.leaving.inv h
    simp [step, Config.nextCleanup, h, hended]
  | drain => cases hq : c.joinables <;> simp [step, Config.nextCleanup, h, hq]
  | _ => simp [step, Config.nextCleanup, h]

theorem Joining.next (hj : Joining c) (hs : CleanupStep c .cleanup c') :
    Joining c' ∧ c'.cleanup.toEnd c'.handlers c'.joinables.length <
      c.cleanup.toEnd c.handlers c.joinables.length := by
  have hinv := inv_step hj.leaving.inv (.cleanup hs)
  have hup := up_cleanup hj.leaving.inv (settled_of_entered (by rw [hj.done]; rfl)) hs
  have haside := aside_cleanup hs
  have hl := hj.leaving.aside haside hinv hup
  have hd := haside.dispatch.trans hj.done
  have hm := haside.main.trans hj.main
  have hshut := hj.leaving.shut
  have hended := hj.ended
  cases hs with
  | lock pc free =>
    refine ⟨⟨hl, hd, hm, by simp, hended⟩, ?_⟩
    rcases pc with pc | pc <;> simp only [pc, CleanupPc.toEnd] <;> split <;> omega
  | go pc ready =>
    refine ⟨⟨hl, hd, hm, by simp, hended⟩, ?_⟩
    simp only [pc, CleanupPc.toEnd]
    split <;> omega
  | wait pc empty running => rw [hshut] at running; cases running
  | sleep pc => exact absurd pc hj.awake.2
  | exit pc shut empty => exact ⟨⟨hl, hd, hm, by simp, hended⟩, by simp [pc, CleanupPc.toEnd, empty]⟩
  | stay pc more =>
    have hne : c.handlers ≠ [] := fun empty => more ⟨hshut, empty⟩
    exact ⟨⟨hl, hd, hm, by simp, hended⟩, by simp [pc, CleanupPc.toEnd, hne]⟩
  | drained pc empty =>
    refine ⟨⟨hl, hd, hm, by simp, hended⟩, ?_⟩
    simp [pc, CleanupPc.toEnd, hj.emptied pc empty]
  | front pc | find pc | miss pc | exitUnlock pc =>
    exact ⟨⟨hl, hd, hm, by simp, hended⟩, by simp [pc, CleanupPc.toEnd]⟩
  | unlock pc =>
    refine ⟨⟨hl, hd, hm, by simp, hended⟩, ?_⟩
    simp only [pc, CleanupPc.toEnd]
    split <;> omega
  | @join id pc ended =>
    refine ⟨⟨hl, hd, hm, by simp, fun i hi => ?_⟩, by simp [pc, CleanupPc.toEnd]⟩
    show Function.update c.handler id .joined i = _ ∨ Function.update c.handler id .joined i = _
    by_cases hid : i = id
    · subst hid; right; exact Function.update_self _ _ _
    · rw [Function.update_of_ne hid]; exact hended i hi
  | @erase id pc =>
    refine ⟨⟨hl, hd, hm, by simp, fun i hi => hended i (List.mem_of_mem_erase hi)⟩, ?_⟩
    have htaking : c.cleanup.taking.id = some id := by rw [pc]; rfl
    have hqueued := hj.leaving.inv.queued_of_taking htaking
    simp only [pc, CleanupPc.toEnd, List.length_tail]
    omega

theorem cleanup_ends (hj : Joining c) :
    ∃ c', Lts.Leads step Label.orderly c c' ∧ Joining c' ∧ c'.cleanup = .done := by
  have hnext : ∀ s, Joining s → ¬ s.cleanup = .done → ∃ l s', l.orderly ∧
      step s l = some s' ∧ Joining s' ∧
        s'.cleanup.toEnd s'.handlers s'.joinables.length <
          s.cleanup.toEnd s.handlers s.joinables.length := by
    intro s hj hgoal
    obtain ⟨s', hstep⟩ := joining_moves hj hgoal
    have hs : CleanupStep s .cleanup s' :=
      nextCleanup_cases (by simpa [step, hj.leaving.up] using hstep)
    obtain ⟨hj', hless⟩ := hj.next hs
    exact ⟨.cleanup, s', trivial, hstep, hj', hless⟩
  exact Lts.leads_of_descent _ hnext c hj

end Threads

end MbDaemon
