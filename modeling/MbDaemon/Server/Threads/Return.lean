import MbDaemon.Server.Threads.Shutdown

/-!
# The return of `Run`

While `Run` waits for its signal the threads can still be brought to its return, unless cleanup is
doomed or has thrown (`can_return_iff`): nothing brings a doomed cleanup thread to its end.
-/

namespace MbDaemon

namespace Threads

variable {c c' : Config} {l : Label} {ls : List Label}

/-! ## A doomed run -/

theorem Doomed.ne_done (hd : Doomed c) : c.cleanup ≠ .done := by
  intro e
  have h := hd.holds
  rw [e] at h
  cases h

theorem Doomed.waiting (hi : Inv c) (hd : Doomed c) : ∃ id, c.dispatch = .lockInsert id := by
  obtain ⟨id, -, hcreated⟩ := hd.1
  have hout : c.dispatch.holds = false :=
    hi.owned.excludes (t := .cleanup) (u := .dispatch) hd.holds Thread.noConfusion
  cases pc : c.dispatch with
  | lockInsert i => exact ⟨i, rfl⟩
  | insert i => rw [pc] at hout; cases hout
  | _ => rw [pc] at hcreated; cases hcreated

theorem Doomed.same (hd : Doomed c) (joinables : c'.joinables = c.joinables)
    (created : c'.dispatch.created = c.dispatch.created) (cleanup : c'.cleanup = c.cleanup)
    (handlers : c'.handlers = c.handlers) : Doomed c' := by
  simpa only [Doomed, Overtaken, joinables, created, cleanup, handlers] using hd

theorem notified_of_holds {pc : CleanupPc} (h : pc.holds = true) : pc.notified = pc := by
  cases pc <;> first | rfl | cases h

theorem doomed_cleanup (hi : Inv c) (hd : Doomed c) (hs : CleanupStep c l c') :
    Doomed c' ∨ c'.cleanup = .crashed := by
  obtain ⟨hover, hat⟩ := hd
  obtain ⟨id, hmem, hcreated⟩ := hover
  have hne : c.joinables ≠ [] := List.ne_nil_of_mem hmem
  cases hs with
  | lock pc => rcases pc with pc | pc <;> simp [pc, CleanupPc.drains] at hat
  | sleep pc | unlock pc | exitUnlock pc | wake pc => simp [pc, CleanupPc.drains] at hat
  | wait pc empty => exact absurd empty hne
  | drained pc empty => exact absurd empty hne
  | go pc ready =>
    simp only [pc, CleanupPc.drains, Bool.false_eq_true, false_or, true_or, true_and] at hat
    exact .inl ⟨⟨id, hmem, hcreated⟩, .inr ⟨.inr rfl, hat⟩⟩
  | exit pc shut empty => simp [pc, CleanupPc.drains, empty] at hat
  | stay pc more | front pc head | find pc known | join pc ended =>
    exact .inl ⟨⟨id, hmem, hcreated⟩, .inl rfl⟩
  | miss pc gone => exact .inr rfl
  | @erase i pc =>
    -- the id that goes was in the map, and the one dispatch has to enter is not
    have hfront : c.joinables.head? = some i :=
      hi.books.front i (by simp [Config.roster, pc, CleanupPc.taking, Taking.id])
    obtain ⟨rest, hrest⟩ := List.head?_eq_some_iff.1 hfront
    have hin : i ∈ c.handlers :=
      (hi.books.joined i (by simp [Config.roster, pc, CleanupPc.taking])).1
    have hnot : id ∉ c.handlers := (hi.books.created id hcreated).1
    have hrest' : id ∈ rest := by
      rw [hrest] at hmem
      rcases List.mem_cons.1 hmem with rfl | h
      · exact absurd hin hnot
      · exact h
    exact .inl ⟨⟨id, by simpa [hrest] using hrest', hcreated⟩, .inl rfl⟩

theorem doomed_step (hi : Inv c) (hd : Doomed c) (hs : Step c l c') :
    Doomed c' ∨ c'.cleanup = .crashed := by
  obtain ⟨i, hwait⟩ := hd.waiting hi
  cases hs with
  | signal => exact .inl (hd.same rfl rfl rfl rfl)
  | main h =>
    cases h with
    | notify => exact .inl (hd.same rfl rfl (notified_of_holds hd.holds) rfl)
    | _ => exact .inl (hd.same rfl rfl rfl rfl)
  | dispatch h =>
    have hheld : c.joinablesMutex = some .cleanup := hi.held_of_holds hd.holds
    cases h with
    | lockInsert pc free => rw [hheld] at free; cases free
    | throw pc => rw [hwait] at pc; cases pc
    | cancel pc => rw [hwait] at pc; cases pc
    | leave pc | stay pc | accept pc | socket pc | create pc | insert pc | unlockInsert pc
    | isReady pc | notReady pc | readySleep pc | hello pc | wake pc => rw [hwait] at pc; cases pc
  | @handler id _ _ h =>
    have hout : (c.handler id).holds = false :=
      hi.owned.excludes (t := .cleanup) (u := .handler id) hd.holds Thread.noConfusion
    cases h with
    | push pc => rw [pc] at hout; cases hout
    | notifyReady pc => exact .inl (hd.same rfl (created_notified _ _) rfl rfl)
    | notifyJoin pc => exact .inl (hd.same rfl rfl (notified_of_holds hd.holds) rfl)
    | _ => exact .inl (hd.same rfl rfl rfl rfl)
  | cleanup h => exact doomed_cleanup hi hd h

/-- Once cleanup has bound itself to throw, or has thrown, it never ends in good order. -/
theorem doomed_run (hi : Inv c) (hd : Doomed c ∨ c.cleanup = .crashed)
    (h : Lts.run step c ls = some c') : c'.cleanup ≠ .done := by
  have hkept : Inv c' ∧ (Doomed c' ∨ c'.cleanup = .crashed) := by
    refine Lts.run_invariant (P := fun c => Inv c ∧ (Doomed c ∨ c.cleanup = .crashed)) ⟨hi, hd⟩ ?_ h
    rintro s l s' ⟨hi, hd | hd⟩ hs
    · exact ⟨inv_step hi (step_cases hs), doomed_step hi hd (step_cases hs)⟩
    · simp [step, hd] at hs
  rcases hkept.2 with hd | hd
  · exact hd.ne_done
  · rw [hd]; exact CleanupPc.noConfusion

/-! ## The way out -/

/-- From the signal on, `Run` can be brought to return. -/
theorem leads_to_return (hl : Leaving c) (hd : ¬ Doomed c) (main : c.main = .joinDispatch) :
    ∃ c', Lts.Leads step Label.orderly c c' ∧ c'.main = .returned := by
  obtain ⟨c₁, h₁, hl₁, hm₁, hd₁⟩ := dispatch_ends hl hd main
  obtain ⟨c₂, h₂, hl₂, hm₂, hd₂, hfree₂⟩ := mutex_freed hl₁ hm₁ hd₁
  have hw : Walking c₂ :=
    ⟨hl₂, hd₂, hfree₂, by rw [hm₂]; rfl, by simp [hm₂, MainPc.cursor], by simp [hm₂]⟩
  obtain ⟨c₃, h₃, hw₃, hm₃⟩ := loop_walked hw
  have hout₃ : c₃.cleanup.holds = false := hw₃.leaving.inv.outside hw₃.free .cleanup
  obtain ⟨c₄, h₄, he₄, hended₄⟩ :=
    handlers_end ⟨hw₃.leaving, hw₃.done, hm₃, hout₃, hw₃.awake hm₃⟩
  have hawake : c₄.cleanup ≠ .waitSleep := by
    intro e
    have hout := he₄.outside
    rw [e] at hout
    cases hout
  obtain ⟨c₅, h₅, hj₅, hdone⟩ := cleanup_ends
    ⟨he₄.leaving, he₄.done, he₄.main, ⟨he₄.awake, hawake⟩, fun i hi => .inl (hended₄ i hi)⟩
  have hlast : step c₅ .main = some { c₅ with main := .returned } := by
    simp [step, Config.nextMain, hj₅.main, hdone]
  exact ⟨_, (((h₁.trans h₂).trans h₃).trans h₄).trans (h₅.trans (.one (l := .main) trivial hlast)), rfl⟩

/-- **Whether `Run` can still return.** In every reachable state in which `Run` waits for its
signal, the threads can be brought to its return without a spurious wakeup and without an exception
in the dispatch thread iff the cleanup thread has neither thrown nor bound itself to throw. -/
theorem can_return_iff (h : Lts.run step Config.init ls = some c) (waits : c.main = .pause) :
    (∃ ms c', (∀ l ∈ ms, l.orderly) ∧ Lts.run step c ms = some c' ∧ c'.main = .returned) ↔
      c.cleanup ≠ .crashed ∧ ¬ Doomed c := by
  have hi := inv_run h
  constructor
  · rintro ⟨ms, c', -, hrun, hreturned⟩
    have hdone : c'.cleanup = .done :=
      (waited_run (by rw [Lts.run_append h ms, hrun])).cleanup hreturned
    exact ⟨fun e => doomed_run hi (.inr e) hrun hdone, fun hd => doomed_run hi (.inl hd) hrun hdone⟩
  · rintro ⟨up, hd⟩
    have hstart : Lts.run step c [.signal, .main, .main] = some { c with
        doShutdown := true, main := .joinDispatch, dispatchCancelled := true } := by
      simp [Lts.run, step, up, Config.nextMain, waits]
    have hinv := inv_run (by rw [Lts.run_append h _, hstart])
    obtain ⟨c', ⟨ms, hown, hrun⟩, hreturned⟩ :=
      leads_to_return ⟨hinv, up, rfl, rfl⟩ (show ¬ Doomed _ from hd) rfl
    refine ⟨[.signal, .main, .main] ++ ms, c', fun l hl => ?_, ?_, hreturned⟩
    · rcases List.mem_append.1 hl with hl | hl
      · fin_cases hl <;> exact trivial
      · exact hown l hl
    · rw [Lts.run_append hstart, hrun]

/-- With one handler served and about to be joined `Run` can return, and with one that has overtaken
its own entry it cannot. -/
theorem can_return_served :
    (∃ c, Lts.run step Config.init servedRun = some c ∧
      ∃ ms c', (∀ l ∈ ms, l.orderly) ∧ Lts.run step c ms = some c' ∧ c'.main = .returned) ∧
    ∃ c, Lts.run step Config.init earlyRun = some c ∧
      ¬ ∃ ms c', (∀ l ∈ ms, l.orderly) ∧ Lts.run step c ms = some c' ∧ c'.main = .returned := by
  obtain ⟨c, hrun, waits, up, hd⟩ : ∃ c, Lts.run step Config.init servedRun = some c ∧
      c.main = .pause ∧ c.cleanup ≠ .crashed ∧ ¬ Doomed c := Lts.run_reaches (by decide)
  obtain ⟨e, herun, hewaits, hed⟩ : ∃ c, Lts.run step Config.init earlyRun = some c ∧
      c.main = .pause ∧ Doomed c := Lts.run_reaches (by decide)
  refine ⟨⟨c, hrun, (can_return_iff hrun waits).2 ⟨up, hd⟩⟩, e, herun, fun hret => ?_⟩
  exact ((can_return_iff herun hewaits).1 hret).2 hed

end Threads

end MbDaemon
