import MbDaemon.HandlerImpl.Arbitration

/-!
# Who holds the port

`Disconnect` takes no argument and the handler does not know who asks, so any session can drop the
flag another one raised. A client that was answered a successful `Connect` and has not disconnected
(`Holds`) is the only one of its kind, unless a client other than the first holder disconnected in
between.
-/

namespace MbDaemon

namespace HandlerImpl

/-- `t` has been answered a successful `Connect` and has made no successful `Disconnect` since. -/
def Holds (port : Text) (ls : List Label) (t : Tid) : Prop :=
  ∃ pre post c path es, ls = pre ++ .reply t :: post ∧
    Lts.run step (Config.init port) pre = some c ∧ c.frame t = .reply (.port path) ∧
    trace port ls = trace port pre ++ es ∧ .give t ∉ es

/-- The thread is about to answer a successful `Connect`. -/
def Granting (c : Config) (t : Tid) : Prop :=
  ∃ path, c.frame t = .unlock (.reply (.port path)) ∨ c.frame t = .reply (.port path)

/-- A thread comes to its answer by storing the user, and shows nothing on the way. -/
theorem granting_step {c c' : Config} {l : Label} (hi : Inv c) (hs : step c l = some c') {t : Tid}
    (h : Granting c' t) :
    (Granting c t ∧ own t (observe c l) = []) ∨
      ∃ note, own t (observe c l) = [.take t note] := by
  by_cases ht : l.thread = some t
  · obtain ⟨path, h⟩ := h
    cases step_cases hs with
    | @store u name pid p frame =>
      cases ht
      exact .inr ⟨(name, pid), by simp only [observe, frame]; exact own_self rfl⟩
    | @unlock u n frame =>
      cases ht
      left
      cases n <;> simp_all [Granting, Config.goto, Next.frame, observe, own]
    | @firmware m fw inner firmware =>
      have hd : c.frame t ≠ .describing := by
        intro hd
        simp only at h
        rw [hd] at h
        exact absurd h (by simp)
      exact .inl ⟨⟨path, h⟩, by rw [observe_firmware_eq_nil hi ht hd]; rfl⟩
    | @request u r frame => cases ht; cases r <;> simp [Config.goto, Request.entry] at h
    | @call u f k f' fw frame calls =>
      cases ht
      cases calls <;> simp [Config.goto] at h
    | @ret u f v f' fw frame pc returns =>
      cases ht
      cases returns <;> simp [Config.goto] at h
    | lock | refuse | pass | disconnect | notAcquired | fill | cleared | clearFail | reply =>
      cases ht
      simp [Config.goto] at h
  · have hframe := (of_other hs ht).1
    rw [Granting, hframe] at h
    exact .inl ⟨h, own_observe_of_other ht⟩

/-- The last thing a client did that is about to be answered a successful `Connect` is that. -/
theorem granting_last {port : Text} {ls : List Label} {c : Config}
    (h : Lts.run step (Config.init port) ls = some c) {t : Tid} (ht : Granting c t) :
    ∃ es note, own t (trace port ls) = es ++ [.take t note] := by
  refine Lts.run_induction (P := fun ls c => Granting c t →
    ∃ es note, own t (trace port ls) = es ++ [.take t note]) (fun ht => ?_)
    (fun ls c l c' hls ih hs ht => ?_) h ht
  · obtain ⟨path, ht⟩ := ht
    simp [Config.init] at ht
  · have hsnoc : own t (trace port (ls ++ [l])) = own t (trace port ls) ++ own t (observe c l) := by
      rw [trace, Lts.history_snoc hls, own, List.filter_append]
      rfl
    rw [hsnoc]
    rcases granting_step (Reachable.inv ⟨ls, hls⟩) hs ht with ⟨hg, ho⟩ | ⟨note, ho⟩
    · rw [ho, List.append_nil]; exact ih hg
    · exact ⟨_, note, by rw [ho]⟩

/-- A holder's `Connect` took effect, and no `Disconnect` of its own did after it. -/
theorem Holds.take {port : Text} {ls : List Label} {t : Tid} (h : Holds port ls t) :
    ∃ note a b, trace port ls = a ++ .take t note :: b ∧ .give t ∉ b := by
  obtain ⟨pre, post, c, path, es, -, hrun, frame, htrace, hg⟩ := h
  obtain ⟨x, note, hown⟩ := granting_last hrun ⟨path, .inr frame⟩
  obtain ⟨a, b', hab, -, hb'⟩ := List.filter_eq_append_iff.1 hown
  obtain ⟨b₁, b₂, rfl, -, -, hb₂⟩ := List.filter_eq_cons_iff.1 hb'
  refine ⟨note, a ++ b₁, b₂ ++ es, by simp [htrace, hab], ?_⟩
  rw [List.mem_append, not_or]
  refine ⟨fun hmem => ?_, hg⟩
  exact List.filter_eq_nil_iff.1 hb₂ _ hmem (by simp [Arbiter.Event.client])

/-- **Two clients hold the port only after somebody else's `Disconnect`**: between the `Connect`s that
they have not undone since, a client other than the first of the two disconnected. -/
theorem two_holders {port : Text} {ls : List Label} {c : Config}
    (h : Lts.run step (Config.init port) ls = some c) {t u : Tid} (htu : t ≠ u)
    (ht : Holds port ls t) (hu : Holds port ls u) :
    ∃ p q i j v m₁ m₂ m₃ m₄, (p = t ∧ q = u ∨ p = u ∧ q = t) ∧ v ≠ p ∧
      trace port ls =
        m₁ ++ .take p i :: (m₂ ++ .give v :: (m₃ ++ .take q j :: m₄)) ∧
      .give p ∉ m₂ ++ .give v :: (m₃ ++ .take q j :: m₄) ∧ .give q ∉ m₄ := by
  obtain ⟨i, a, b, hx, hgx⟩ := ht.take
  obtain ⟨j, a', b', hy, hgy⟩ := hu.take
  exact Arbiter.two_takers (refines h) htu hx hy hgx hgy

/-- Thread `t` disconnects, from its entry to its answer. -/
def disconnectRun (t : Tid) : List Label :=
  [.request t .disconnect, .step t, .step t, .step t, .reply t]

/-- Client 1 connects, client 2 disconnects and connects. -/
def takenOver : List Label :=
  startRun ++ connectRun 1 ++ disconnectRun 2 ++ connectRun 2

theorem holds_first : Holds [] takenOver 1 :=
  ⟨startRun ++ (connectRun 1).dropLast, disconnectRun 2 ++ connectRun 2, _, [],
    [.give 2, .take 2 ([], 7)], rfl, rfl, rfl, rfl, by simp⟩

theorem holds_second : Holds [] takenOver 2 :=
  ⟨startRun ++ connectRun 1 ++ disconnectRun 2 ++ (connectRun 2).dropLast, [], _, [], [],
    rfl, rfl, rfl, rfl, by simp⟩

/-- **Two clients hold the port at once.** -/
theorem port_shared :
    ∃ c, Lts.run step (Config.init []) takenOver = some c ∧ Holds [] takenOver 1 ∧
      Holds [] takenOver 2 :=
  ⟨_, rfl, holds_first, holds_second⟩

theorem two_holders_shared :
    ∃ p q i j v m₁ m₂ m₃ m₄, (p = 1 ∧ q = 2 ∨ p = 2 ∧ q = 1) ∧ v ≠ p ∧
      trace [] takenOver = m₁ ++ .take p i :: (m₂ ++ .give v :: (m₃ ++ .take q j :: m₄)) ∧
      .give p ∉ m₂ ++ .give v :: (m₃ ++ .take q j :: m₄) ∧ .give q ∉ m₄ := by
  have h : (Lts.run step (Config.init []) takenOver).isSome := rfl
  exact two_holders (Option.some_get h).symm (by decide) holds_first holds_second

end HandlerImpl

end MbDaemon
