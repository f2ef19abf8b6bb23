import MbDaemon.Daemon

/-!
# What the daemon executes

The actions that a session's requests asked for, the scripts that were forked for it, the scripts
that exited with 0, and the actions that it was told have been done are four lists. `Ledger` keeps
them in step at every moment, whatever the interleaving of the sessions: each is part of the one
before it, in the same order (`ledger_run`). So no script is executed that the client did not ask for,
or twice, and none is reported that did not succeed; the protocol of the session turns the requests
into the frames of the client (`executes_requested`, `reports_succeeded`).
-/

namespace MbDaemon

open RPCDefs Interaction
open scoped List

namespace Daemon

/-- The hardware action that a call of a handler asks for. -/
def actionOf (h : Calls.Handled) : Option FirmwareFSM.Op :=
  (request h.proc h.data).bind HandlerImpl.Request.action

/-- The hardware action that a call of a handler reports as done. -/
def doneOf (h : Calls.Handled) : Option FirmwareFSM.Op :=
  match h.outcome with
  | .ok _ => actionOf h
  | .error _ => none

/-- The calls of handlers that have returned to the session. -/
def Config.calls (c : Config) (t : Tid) : List Calls.Handled :=
  match c.session t with
  | some s => Calls.handled s.events
  | none => []

/-- The actions asked for by the calls that have returned. -/
def Config.asked (c : Config) (t : Tid) : List FirmwareFSM.Op := (c.calls t).filterMap actionOf

def Config.acknowledged (c : Config) (t : Tid) : List FirmwareFSM.Op :=
  (c.calls t).filterMap doneOf

/-- The request a session is waiting with, if its handler is the `IHandler`. -/
def Config.inHand (c : Config) (t : Tid) : Option HandlerImpl.Request :=
  match c.session t with
  | some ⟨_, .ask (.handle p data) _⟩ => request p data
  | _ => none

/-- The action of the request in hand, once it has passed the milestone. -/
def Config.passed (c : Config) (m : FirmwareFSM.Milestone) (t : Tid) : List FirmwareFSM.Op :=
  match c.inHand t with
  | some r => c.handler.passed m t r
  | none => []

/-- The books of a session: `forked` and `good` are the scripts executed, and those with success. -/
structure Ledger (c : Config) (t : Tid) (forked good : List FirmwareFSM.Op) : Prop where
  serving : c.handler.frame t = .idle ∨
    ∃ r, c.inHand t = some r ∧ HandlerImpl.Serves r (c.handler.frame t)
  books : ∃ forked₀ good₀, forked = forked₀ ++ c.passed .forked t ∧
    good = good₀ ++ c.passed .succeeded t ∧
    c.acknowledged t <+ good₀ ∧ good₀ <+ forked₀ ∧ forked₀ <+ c.asked t

variable {c c' : Config} {t u : Tid} {forked good : List FirmwareFSM.Op}

theorem passed_of_idle (m : FirmwareFSM.Milestone) (h : c.handler.frame t = .idle) :
    c.passed m t = [] := by
  unfold Config.passed
  split
  · simp [HandlerImpl.Config.passed, h, HandlerImpl.Frame.passed]
  · rfl

theorem Ledger.idle (h : Ledger c t forked good) (hnone : c.inHand t = none) :
    c.handler.frame t = .idle := by
  rcases h.serving with hidle | ⟨r, hr, -⟩
  · exact hidle
  · rw [hnone] at hr
    cases hr

theorem Ledger.same (h : Ledger c t forked good) (hsession : c'.session t = c.session t)
    (hframe : c'.handler.frame t = c.handler.frame t)
    (hpc : c'.handler.firmware.pc t = c.handler.firmware.pc t) : Ledger c' t forked good := by
  obtain ⟨hserving, hbooks⟩ := h
  have hin : c'.inHand t = c.inHand t := by unfold Config.inHand; rw [hsession]
  have hcalls : c'.calls t = c.calls t := by unfold Config.calls; rw [hsession]
  refine ⟨by rw [hin, hframe]; exact hserving, ?_⟩
  unfold Config.passed HandlerImpl.Config.passed Config.acknowledged Config.asked
  rw [hin, hcalls, hframe, hpc]
  exact hbooks

/-- The books of an idle session say only what has returned. -/
theorem Ledger.of_idle (hidle : c.handler.frame t = .idle) (hack : c.acknowledged t <+ good)
    (hgood : good <+ forked) (hasked : forked <+ c.asked t) : Ledger c t forked good :=
  ⟨.inl hidle, forked, good, by rw [passed_of_idle _ hidle, List.append_nil],
    by rw [passed_of_idle _ hidle, List.append_nil], hack, hgood, hasked⟩

theorem Ledger.idle_books (h : Ledger c t forked good) (hidle : c.handler.frame t = .idle) :
    c.acknowledged t <+ good ∧ good <+ forked ∧ forked <+ c.asked t := by
  obtain ⟨-, forked₀, good₀, rfl, rfl, hbooks⟩ := h
  rw [passed_of_idle _ hidle, passed_of_idle _ hidle, List.append_nil, List.append_nil]
  exact hbooks

/-- The books of a session that has had everything reported as done that it asked for. -/
theorem Ledger.settled (h : Ledger c t forked good) (hpassed : ∀ m, c.passed m t = [])
    (hall : c.acknowledged t = c.asked t) : forked = c.asked t ∧ good = c.asked t := by
  obtain ⟨-, forked₀, good₀, hforked, hgood, hack, hsub, hasked⟩ := h
  rw [hpassed, List.append_nil] at hforked hgood
  rw [hall] at hack
  rw [hforked, hgood]
  exact ⟨hasked.antisymm (hack.trans hsub), (hsub.trans hasked).antisymm hack⟩

/-- A session that waits for no handler has a call answered that asks for no action. -/
theorem Ledger.plain (h : Ledger c t forked good) {s : Session} (hnone : c.inHand t = none)
    (hack : (Calls.handled s.events).filterMap doneOf = c.acknowledged t)
    (hasked : (Calls.handled s.events).filterMap actionOf = c.asked t) :
    Ledger (c.put t s) t forked good := by
  have hidle := h.idle hnone
  obtain ⟨hack', hgood, hasked'⟩ := h.idle_books hidle
  have hcalls : (c.put t s).calls t = Calls.handled s.events := by
    simp [Config.calls, Config.put]
  refine .of_idle hidle ?_ hgood ?_
  · unfold Config.acknowledged
    rw [hcalls, hack]
    exact hack'
  · unfold Config.asked
    rw [hcalls, hasked]
    exact hasked'

theorem handled_snoc (es : List Calls.Event) (e : Calls.Event) :
    Calls.handled (es ++ [e]) = Calls.handled es ++ (Calls.handledOf e).toList := by
  cases he : Calls.handledOf e <;> simp [Calls.handled, he]

theorem request_own {p : Proc} {o : Server.Outcome p.Responce} (h : own p = some o)
    (data : Nat → Byte) : request p data = none := by
  cases p <;> first | rfl | cases h

theorem done_passed {p : Proc} {data : Nat → Byte} {r : HandlerImpl.Request} {rep : HandlerImpl.Reply}
    {o : Server.Outcome p.Responce} (hr : request p data = some r) (ho : outcome p rep = some o)
    (pc : FirmwareFSM.Pc) :
    (doneOf ⟨p, data, o⟩).toList <+
      if (HandlerImpl.Frame.reply rep).passed .succeeded pc then r.action.toList else [] := by
  have haction : actionOf ⟨p, data, o⟩ = r.action := by simp [actionOf, hr]
  cases o with
  | error x => exact List.nil_sublist _
  | ok msg =>
    have hdone : doneOf ⟨p, data, .ok msg⟩ = r.action := haction
    rw [hdone]
    cases rep with
    | empty => exact List.Sublist.refl _
    | threw e => cases p <;> cases ho
    | status _ _ _ _ =>
      cases p <;> cases ho
      cases hr
      exact List.nil_sublist _
    | port _ =>
      cases p <;> cases ho
      cases hr
      exact List.nil_sublist _

/-- At its answer a request's action has succeeded only if it has been forked. -/
theorem succeeded_forked (r : HandlerImpl.Request) (rep : HandlerImpl.Reply) (pc : FirmwareFSM.Pc) :
    (if (HandlerImpl.Frame.reply rep).passed .succeeded pc then r.action.toList else []) <+
      if (HandlerImpl.Frame.reply rep).passed .forked pc then r.action.toList else [] := by
  split
  · rename_i h
    rw [if_pos (HandlerImpl.passed_forked h)]
  · exact List.nil_sublist _

theorem Ledger.returned (h : Ledger c t forked good) {events : List Calls.Event} {p : Proc}
    {data : Nat → Byte} {next : Calls.Call.Answer (.handle p data) → _} {rep : HandlerImpl.Reply}
    {o : Server.Outcome p.Responce} {handler : HandlerImpl.Config}
    (hsession : c.session t = some ⟨events, .ask (.handle p data) next⟩)
    (hframe : c.handler.frame t = .reply rep) (ho : outcome p rep = some o)
    (hidle : handler.frame t = .idle) :
    Ledger { c.put t ⟨events ++ [⟨.handle p data, o⟩], next o⟩ with handler := handler } t
      forked good := by
  obtain ⟨hserving, forked₀, good₀, rfl, rfl, hack, hgood, hasked⟩ := h
  rcases hserving with hno | ⟨r, hin, hserves⟩
  · rw [hframe] at hno
    cases hno
  have hr : request p data = some r := by
    rw [← hin]
    simp [Config.inHand, hsession]
  have hcalls : c.calls t = Calls.handled events := by simp [Config.calls, hsession]
  have hpassed : ∀ m, c.passed m t =
      if (HandlerImpl.Frame.reply rep).passed m (c.handler.firmware.pc t) then r.action.toList
      else [] := fun m => by
    simp [Config.passed, hin, HandlerImpl.Config.passed, hframe]
  have haction : actionOf ⟨p, data, o⟩ = r.action := by simp [actionOf, hr]
  refine .of_idle hidle ?_ ?_ ?_
  · have hnew : Config.acknowledged
        { c.put t ⟨events ++ [⟨.handle p data, o⟩], next o⟩ with handler := handler } t =
        c.acknowledged t ++ (doneOf ⟨p, data, o⟩).toList := by
      simp only [Config.acknowledged, hcalls]
      simp only [Config.calls, Config.put, Function.update_self, handled_snoc, List.filterMap_append]
      cases hd : doneOf ⟨p, data, o⟩ <;> simp [Calls.handledOf, hd]
    rw [hnew, hpassed]
    exact hack.append (done_passed hr ho _)
  · rw [hpassed, hpassed]
    exact hgood.append (succeeded_forked r rep _)
  · have hnew : Config.asked
        { c.put t ⟨events ++ [⟨.handle p data, o⟩], next o⟩ with handler := handler } t =
        c.asked t ++ r.action.toList := by
      simp only [Config.asked, hcalls]
      simp only [Config.calls, Config.put, Function.update_self, handled_snoc, List.filterMap_append]
      cases hd : r.action <;> simp [Calls.handledOf, haction, hd]
    rw [hnew, hpassed]
    refine hasked.append ?_
    split
    · exact List.Sublist.refl _
    · exact List.nil_sublist _

/-! ## The steps -/

theorem ledger_handler {l : HandlerImpl.Label} {handler : HandlerImpl.Config}
    (hi : HandlerImpl.Inv c.handler) (h : Ledger c t forked good) (hinner : inner l = true)
    (hs : HandlerImpl.step c.handler l = some handler) :
    Ledger { c with handler := handler } t (forked ++ HandlerImpl.shows t c.handler .forked l)
      (good ++ HandlerImpl.shows t c.handler .succeeded l) := by
  rcases h.serving with hidle | ⟨r, hin, hserves⟩
  · have hidle' := HandlerImpl.idle_step hs hidle fun r e => by subst e; cases hinner
    have hshows : ∀ m, HandlerImpl.shows t c.handler m l = [] := fun m =>
      HandlerImpl.shows_of_frame hi (fun op e => by rw [hidle] at e; cases e) m l
    obtain ⟨hack, hgood, hasked⟩ := h.idle_books hidle
    rw [hshows, hshows, List.append_nil, List.append_nil]
    exact .of_idle hidle' hack hgood hasked
  · have hnext := fun m => HandlerImpl.serves_step m hi hs hserves fun e => by
      subst e
      cases hinner
    have hpassed : ∀ m, Config.passed { c with handler := handler } m t =
        c.passed m t ++ HandlerImpl.shows t c.handler m l := fun m => by
      have hin' : Config.inHand { c with handler := handler } t = some r := hin
      simp only [Config.passed, hin, hin', (hnext m).2]
    obtain ⟨-, forked₀, good₀, rfl, rfl, hbooks⟩ := h
    refine ⟨.inr ⟨r, hin, (hnext .forked).1⟩, forked₀, good₀, ?_, ?_, hbooks⟩
    · rw [hpassed, List.append_assoc]
    · rw [hpassed, List.append_assoc]

theorem ledger_step {l : Label} (hi : HandlerImpl.Inv c.handler) (h : Ledger c t forked good)
    (hs : step c l = some c') :
    Ledger c' t (forked ++ shows t .forked c l) (good ++ shows t .succeeded c l) := by
  cases step_cases hs with
  | handler hinner hstep => exact ledger_handler hi h hinner hstep
  | @accept u fuel buffer fresh =>
    show Ledger _ t (forked ++ []) (good ++ [])
    rw [List.append_nil, List.append_nil]
    by_cases e : t = u
    · subst e
      refine h.plain (by simp [Config.inHand, fresh]) ?_ ?_
      · simp [Config.acknowledged, Config.calls, fresh, Session.start, Calls.handled]
      · simp [Config.asked, Config.calls, fresh, Session.start, Calls.handled]
    · exact h.same (Function.update_of_ne e _ _) rfl rfl
  | @answer u a events q next session system =>
    show Ledger _ t (forked ++ []) (good ++ [])
    rw [List.append_nil, List.append_nil]
    by_cases e : t = u
    · subst e
      have hnone : Calls.handledOf ⟨q, a q⟩ = none := by cases q <;> first | rfl | cases system
      refine h.plain ?_ ?_ ?_
      · cases q with
        | handle p data => cases system
        | _ => simp [Config.inHand, session]
      · simp [handled_snoc, hnone, Config.acknowledged, Config.calls, session]
      · simp [handled_snoc, hnone, Config.asked, Config.calls, session]
    · exact h.same (Function.update_of_ne e _ _) rfl rfl
  | @own u events p data next o session hown =>
    show Ledger _ t (forked ++ []) (good ++ [])
    rw [List.append_nil, List.append_nil]
    by_cases e : t = u
    · subst e
      have hrequest := request_own hown data
      have haction : actionOf ⟨p, data, o⟩ = none := by simp [actionOf, hrequest]
      have hdone : doneOf ⟨p, data, o⟩ = none := by
        cases o with
        | ok _ => exact haction
        | error _ => rfl
      refine h.plain (by simp [Config.inHand, session, hrequest]) ?_ ?_
      · simp [handled_snoc, Calls.handledOf, hdone, Config.acknowledged, Config.calls, session]
      · simp [handled_snoc, Calls.handledOf, haction, Config.asked, Config.calls, session]
    · exact h.same (Function.update_of_ne e _ _) rfl rfl
  | @request u events p data next r handler session hrequest hstep =>
    show Ledger _ t (forked ++ []) (good ++ [])
    rw [List.append_nil, List.append_nil]
    by_cases e : t = u
    · subst e
      cases HandlerImpl.step_cases hstep with
      | request frame =>
        have hbooks := h.idle_books frame
        have hin : Config.inHand { c with handler := c.handler.goto t r.entry } t = some r := by
          simp [Config.inHand, session, hrequest]
        have hpassed : ∀ m, Config.passed { c with handler := c.handler.goto t r.entry } m t = [] :=
          fun m => by
            unfold Config.passed
            rw [hin]
            cases r <;> simp [HandlerImpl.Config.passed, HandlerImpl.Config.goto,
              HandlerImpl.Request.entry, HandlerImpl.Frame.passed]
        refine ⟨.inr ⟨r, hin, ?_⟩, forked, good, ?_, ?_, hbooks⟩
        · simp only [HandlerImpl.Config.goto, Function.update_self]
          exact HandlerImpl.serves_entry r
        · rw [hpassed, List.append_nil]
        · rw [hpassed, List.append_nil]
    · obtain ⟨hframe, hpc⟩ := HandlerImpl.of_other hstep (t := t)
        fun e' => e (Option.some.inj e').symm
      exact h.same rfl hframe hpc
  | @reply u events p data next rep o handler session frame ho hstep =>
    show Ledger _ t (forked ++ []) (good ++ [])
    rw [List.append_nil, List.append_nil]
    by_cases e : t = u
    · subst e
      refine h.returned session frame ho ?_
      cases HandlerImpl.step_cases hstep with
      | reply _ => exact Function.update_self _ _ _
    · obtain ⟨hframe, hpc⟩ := HandlerImpl.of_other hstep (t := t)
        fun e' => e (Option.some.inj e').symm
      exact h.same (Function.update_of_ne e _ _) hframe hpc

theorem handler_inv_step {l : Label} (hi : HandlerImpl.Inv c.handler) (hs : step c l = some c') :
    HandlerImpl.Inv c'.handler := by
  cases step_cases hs with
  | request _ _ hstep => exact HandlerImpl.inv_step hi hstep
  | handler _ hstep => exact HandlerImpl.inv_step hi hstep
  | reply _ _ _ hstep => exact HandlerImpl.inv_step hi hstep
  | accept | answer | own => exact hi

/-- **The books at every moment of every run.** -/
theorem ledger_run {port : Text} {ls : List Label} (h : Lts.run step (Config.init port) ls = some c)
    (t : Tid) :
    HandlerImpl.Inv c.handler ∧ Ledger c t (executed port t ls) (succeeded port t ls) := by
  refine Lts.run_induction (P := fun ls c => HandlerImpl.Inv c.handler ∧
    Ledger c t (executed port t ls) (succeeded port t ls)) ?_ ?_ h
  · exact ⟨HandlerImpl.inv_init port,
      .of_idle rfl (List.nil_sublist _) (List.nil_sublist _) (List.nil_sublist _)⟩
  · intro ls c l c' hrun ⟨hi, hledger⟩ hs
    refine ⟨handler_inv_step hi hs, ?_⟩
    unfold executed succeeded at hledger ⊢
    rw [Lts.history_snoc hrun, Lts.history_snoc hrun]
    exact ledger_step hi hledger hs

end Daemon

end MbDaemon
