import MbDaemon.HandlerImpl.Steps
import MbDaemon.Lib.Arbiter

/-!
# The port arbiter

The handler's acquisition flag, user name and PID are a sequential arbiter that the sessions share.
`observe` says where each operation takes effect: a `Connect` where it stores its user, a
`Disconnect` where it drops the flag, a `GetStatus` where it reads the firmware's description. The
handler refines the arbiter (`arbiter_step`), and each request shows between its arrival and its
answer exactly the events its answer stands for (`progress_step`).
-/

namespace MbDaemon

namespace HandlerImpl

abbrev Note := Text × Int32

abbrev Event := Arbiter.Event Tid Note String

/-- The arbiter's state in the handler's fields. -/
def Config.arbiter (c : Config) : Arbiter.State Note := ⟨c.acquired, (c.userName, c.userPid)⟩

def observe (c : Config) : Label → List Event
  | .step t =>
    match c.frame t with
    | .store name pid _ => [.take t (name, pid)]
    | .held .disconnect => if c.acquired then [.give t] else []
    | _ => []
  | .firmware (.step t) =>
    match c.firmware.pc t with
    | .getWork .getStateDescription =>
      [.look t c.acquired (c.userName, c.userPid) c.firmware.getStateDescription]
    | _ => []
  | _ => []

def trace (port : Text) (ls : List Label) : List Event :=
  Lts.history step observe (Config.init port) ls

def own (t : Tid) (es : List Event) : List Event := es.filter (·.client = t)

/-- The events an answer stands for. -/
def effect (t : Tid) : Request → Reply → List Event
  | .connect name pid, .port _ => [.take t (name, pid)]
  | .disconnect, .empty => [.give t]
  | _, .status description acquired name pid => [.look t acquired (name, pid) description]
  | _, _ => []

def Frame.user : Frame → Option Note
  | .stateCheck name pid | .getPort name pid | .portRead name pid => some (name, pid)
  | .clearPort name pid _ | .store name pid _ => some (name, pid)
  | _ => none

/-- What a thread that serves `r` has done when it leaves its critical section. -/
def Settled (t : Tid) (r : Request) : Next → List Event → Prop
  | .reply rep, es => es = effect t r rep
  | .firmware _, es => r ≠ .disconnect ∧ es = []

/-- What a thread that serves `r` has done so far. -/
def Progress (c : Config) (t : Tid) (r : Request) (es : List Event) : Prop :=
  match c.frame t with
  | .idle => False
  | .lock r' | .held r' => r' = r ∧ es = []
  | .describing =>
    match c.firmware.pc t with
    | .getUnlock (.description d) | .done (.value (.description d)) =>
      es = [.look t c.acquired (c.userName, c.userPid) d]
    | _ => es = []
  | .fill d => es = [.look t c.acquired (c.userName, c.userPid) d]
  | .stateCheck name pid | .getPort name pid | .portRead name pid => r = .connect name pid ∧ es = []
  | .clearPort name pid _ | .store name pid _ => r = .connect name pid ∧ es = []
  | .unlock n => Settled t r n es
  | .enter op | .firmware op => Settled t r (.firmware op) es
  | .reply rep => Settled t r (.reply rep) es

@[simp] theorem effect_threw (t : Tid) (r : Request) (e : Exn) : effect t r (.threw e) = [] := by
  cases r <;> rfl

@[simp] theorem effect_status (t : Tid) (r : Request) (d : String) (a : Bool) (name : Text)
    (pid : Int32) : effect t r (.status d a name pid) = [.look t a (name, pid) d] := by
  cases r <;> rfl

theorem effect_empty {t : Tid} {r : Request} (h : r ≠ .disconnect) : effect t r .empty = [] := by
  cases r <;> first | rfl | exact absurd rfl h

/-! ## Other threads -/

theorem observe_client {c : Config} {l : Label} {e : Event} (he : e ∈ observe c l) :
    l.thread = some e.client := by
  unfold observe at he
  split at he
  · split at he
    · simp only [List.mem_singleton] at he; subst he; rfl
    · split at he
      · simp only [List.mem_singleton] at he; subst he; rfl
      · cases he
    · cases he
  · split at he
    · simp only [List.mem_singleton] at he; subst he; rfl
    · cases he
  · cases he

theorem observe_firmware (c : Config) (m : FirmwareFSM.Label) :
    observe c (.firmware m) = [] ∨
      ∃ t, m = .step t ∧ c.firmware.pc t = .getWork .getStateDescription ∧
        observe c (.firmware m) =
          [.look t c.acquired (c.userName, c.userPid) c.firmware.getStateDescription] := by
  cases m with
  | step t =>
    by_cases h : c.firmware.pc t = .getWork .getStateDescription
    · exact .inr ⟨t, rfl, h, by simp [observe, h]⟩
    · left
      show (match c.firmware.pc t with
        | .getWork .getStateDescription => _
        | _ => []) = _
      split
      · exact absurd ‹_› h
      · rfl
  | _ => exact .inl rfl

theorem own_observe_of_other {c : Config} {l : Label} {t : Tid} (ht : l.thread ≠ some t) :
    own t (observe c l) = [] := by
  refine List.filter_eq_nil_iff.2 fun e he hc => ht ?_
  rw [observe_client he]
  simpa using hc

/-! ## The fields -/

/-- The fields change only at the events that say so. -/
theorem arbiter_eq {c c' : Config} {l : Label} (hs : step c l = some c') (ho : observe c l = []) :
    c'.arbiter = c.arbiter := by
  cases step_cases hs with
  | disconnect frame acquired => simp [observe, frame, acquired] at ho
  | store frame => simp [observe, frame] at ho
  | _ => rfl

/-- The steps that change the fields are taken inside the critical section. -/
theorem holds_of_changed {c c' : Config} {l : Label} (hs : step c l = some c')
    (hne : c'.arbiter ≠ c.arbiter) : ∃ u, l.thread = some u ∧ (c.frame u).holds = true := by
  cases step_cases hs with
  | @disconnect u frame => exact ⟨u, rfl, by rw [frame]; rfl⟩
  | @store u name pid path frame => exact ⟨u, rfl, by rw [frame]; rfl⟩
  | _ => exact absurd rfl hne

/-- While a thread is in its critical section the others leave the fields alone. -/
theorem arbiter_frozen {c c' : Config} {l : Label} (hi : Inv c) (hs : step c l = some c') {t : Tid}
    (hh : (c.frame t).holds = true) (ht : l.thread ≠ some t) : c'.arbiter = c.arbiter := by
  by_contra hne
  obtain ⟨u, hu, hh'⟩ := holds_of_changed hs hne
  exact ht (by rw [hu, hi.owned.unique hh' hh])

/-- A `Connect` past its guard runs with the port free. -/
def Untaken (c : Config) : Prop :=
  ∀ t, (c.frame t).user ≠ none → c.acquired = false

theorem holds_of_user {f : Frame} (h : f.user ≠ none) : f.holds = true := by
  cases f <;> first | rfl | exact absurd rfl h

theorem untaken_step {c c' : Config} {l : Label} (hi : Inv c) (hu : Untaken c)
    (hs : step c l = some c') : Untaken c' := by
  intro t ht
  by_cases e : l.thread = some t
  · cases step_cases hs with
    | @disconnect u frame => rfl
    | @call u f k f' fw frame calls firmware =>
      cases e
      simp only [Config.goto, Function.update_self] at ht ⊢
      cases calls with
      | connect free => exact free
      | port => exact hu t (by rw [frame]; exact ht)
      | status | enter => exact absurd rfl ht
    | @ret u f v f' fw frame pc returns firmware =>
      cases e
      simp only [Config.goto, Function.update_self] at ht ⊢
      cases returns with
      | running => exact hu t (by rw [frame]; exact ht)
      | port => exact hu t (by rw [frame]; exact ht)
      | description | notRunning | returned | threw => exact absurd rfl ht
    | @cleared u name pid path frame => cases e; exact hu t (by rw [frame]; intro h; cases h)
    | @firmware m fw inner firmware => exact hu t ht
    | @request u r frame =>
      cases e
      simp only [Config.goto, Function.update_self] at ht
      cases r <;> exact absurd rfl ht
    | @unlock u n frame =>
      cases e
      simp only [Config.goto, Function.update_self] at ht
      cases n <;> exact absurd rfl ht
    | @lock u | @refuse u | @pass u | @notAcquired u | @fill u | @clearFail u | @store u
    | @reply u =>
      cases e
      simp only [Config.goto, Function.update_self] at ht
      exact absurd rfl ht
  · rw [(of_other hs e).1] at ht
    have := congrArg Arbiter.State.held (arbiter_frozen hi hs (holds_of_user ht) e)
    exact this.trans (hu t ht)

/-- **A step of the handler is what its events are for the arbiter.** -/
theorem arbiter_step {c c' : Config} {l : Label} (hu : Untaken c) (hs : step c l = some c') :
    Lts.run Arbiter.step c.arbiter (observe c l) = some c'.arbiter := by
  by_cases ho : observe c l = []
  · rw [ho, arbiter_eq hs ho]; rfl
  cases step_cases hs with
  | disconnect frame acquired =>
    simp [observe, frame, acquired, Lts.run, Arbiter.step, Config.arbiter, Config.goto,
      Arbiter.State.after]
  | @store t name pid path frame =>
    have free : c.acquired = false := hu t (by rw [frame]; intro h; cases h)
    simp [observe, frame, free, Lts.run, Arbiter.step, Config.arbiter, Arbiter.State.after]
  | @firmware m fw inner firmware =>
    rcases observe_firmware c m with h | ⟨t, -, -, h⟩
    · exact absurd h ho
    · rw [h]
      simp [Lts.run, Arbiter.step, Config.arbiter]
  | @refuse t r procName frame guard => cases r <;> simp_all [observe, Request.guard]
  | @pass t r op frame guarded => cases r <;> simp_all [observe]
  | call frame calls => cases calls <;> simp_all [observe]
  | ret frame _ returns => cases returns <;> simp_all [observe]
  | _ => simp_all [observe]

/-! ## One request -/

theorem progress_of_other {c c' : Config} {l : Label} (hi : Inv c) (hs : step c l = some c')
    {t : Tid} (ht : l.thread ≠ some t) {r : Request} {es : List Event} (h : Progress c t r es) :
    Progress c' t r (es ++ own t (observe c l)) := by
  obtain ⟨hframe, hpc⟩ := of_other hs ht
  rw [own_observe_of_other ht, List.append_nil]
  unfold Progress at h ⊢
  rw [hframe, hpc]
  cases hf : c.frame t with
  | describing | fill d =>
    have hfields := arbiter_frozen hi hs (by rw [hf]; rfl) ht
    simp only [Config.arbiter, Arbiter.State.mk.injEq, Prod.mk.injEq] at hfields
    obtain ⟨h1, h2, h3⟩ := hfields
    rw [hf] at h
    rw [h1, h2, h3]
    exact h
  | _ => rw [hf] at h; exact h

end HandlerImpl

namespace FirmwareFSM

/-- Inside a getter a thread locks, reads and unlocks. -/
theorem getter_own_step {c c' : Config} {l : Label} (hs : step c l = some c') {t : Tid}
    {g : Getter} (ht : l.thread = some t) (hl : l ≠ .ret t) (h : Serves (.getter g) (c.pc t)) :
    (c.pc t = .getLock g ∧ c'.pc t = .getWork g) ∨
      (l = .step t ∧ c.pc t = .getWork g ∧ c'.pc t = .getUnlock (c.get g)) ∨
      ∃ v, c.pc t = .getUnlock v ∧ c'.pc t = .done (.value v) := by
  cases step_cases hs with
  | exit => cases ht
  | ret => cases ht; exact absurd rfl hl
  | getUnlock pc =>
    cases ht
    exact .inr (.inr ⟨_, pc, by simp [Config.goto]⟩)
  | @call u k pc => cases ht; rw [pc] at h; exact absurd h (not_serves_idle _)
  | _ =>
    rename_i pc
    cases ht
    simp_all [Serves, Config.goto]

end FirmwareFSM

namespace HandlerImpl

theorem own_self {t : Tid} {e : Event} (h : e.client = t) : own t [e] = [e] := by
  simp [own, h]

/-- Only `GetStatus` asks for the description. -/
theorem observe_firmware_eq_nil {c : Config} (hi : Inv c) {m : FirmwareFSM.Label} {t : Tid}
    (ht : m.thread = some t) (hd : c.frame t ≠ .describing) : observe c (.firmware m) = [] := by
  rcases observe_firmware c m with ho | ⟨u, rfl, hu, -⟩
  · exact ho
  · cases ht
    have hp := hi.placed t
    rw [hu] at hp
    cases hf : c.frame t <;> simp_all [Placed, Frame.call, FirmwareFSM.Serves, FirmwareFSM.Pc.op]

theorem progress_firmware {c : Config} {fw : FirmwareFSM.Config} {m : FirmwareFSM.Label}
    (hi : Inv c) (inner : internal m = true) (firmware : FirmwareFSM.step c.firmware m = some fw)
    {t : Tid} (ht : m.thread = some t) {r : Request} {es : List Event} (h : Progress c t r es) :
    Progress { c with firmware := fw } t r (es ++ own t (observe c (.firmware m))) := by
  have hl : m ≠ .ret t := by rintro rfl; cases inner
  have hp := hi.placed t
  by_cases hd : c.frame t = .describing
  · rw [hd] at hp
    simp only [Progress, hd] at h ⊢
    rcases FirmwareFSM.getter_own_step firmware ht hl hp with
      ⟨pc, pc'⟩ | ⟨rfl, pc, pc'⟩ | ⟨v, pc, pc'⟩
    · rw [pc'] at *
      rw [pc] at h
      rcases observe_firmware c m with ho | ⟨u, rfl, hu, -⟩
      · simpa [ho, own] using h
      · cases ht; rw [pc] at hu; cases hu
    · rw [pc] at h
      rw [pc']
      simp only at h
      subst h
      simp only [observe, pc, FirmwareFSM.get, List.nil_append]
      exact own_self rfl
    · rw [pc] at h
      rw [pc']
      rcases observe_firmware c m with ho | ⟨u, rfl, hu, -⟩
      · rw [ho]
        cases v <;> simpa [own] using h
      · cases ht; rw [pc] at hu; cases hu
  · rw [observe_firmware_eq_nil hi ht hd]
    unfold Progress at h ⊢
    cases hf : c.frame t <;> simp_all [own]

theorem progress_own {c c' : Config} {l : Label} (hi : Inv c) (hs : step c l = some c') {t : Tid}
    (ht : l.thread = some t) (hl : l ≠ .reply t) {r : Request} {es : List Event}
    (h : Progress c t r es) : Progress c' t r (es ++ own t (observe c l)) := by
  cases step_cases hs with
  | firmware inner firmware => exact progress_firmware hi inner firmware ht h
  | reply => cases ht; exact absurd rfl hl
  | request frame => cases ht; simp [Progress, frame] at h
  | lock frame =>
    cases ht
    simp only [Progress, frame] at h
    simpa [Progress, Config.goto, observe, frame, own] using h
  | @refuse u r' procName frame guard acquired =>
    cases ht
    simp only [Progress, frame] at h
    obtain ⟨rfl, rfl⟩ := h
    cases r' <;> simp_all [Progress, Config.goto, observe, own, Settled, Request.guard]
  | @pass u r' op frame guarded free =>
    cases ht
    simp only [Progress, frame] at h
    obtain ⟨rfl, rfl⟩ := h
    cases r' <;> simp_all [Progress, Config.goto, observe, own, Settled, Request.op]
  | disconnect frame acquired =>
    cases ht
    simp only [Progress, frame] at h
    obtain ⟨rfl, rfl⟩ := h
    simp only [Progress, Config.goto, Function.update_self, Settled, observe, frame, acquired]
    exact own_self rfl
  | notAcquired frame free =>
    cases ht
    simp only [Progress, frame] at h
    obtain ⟨rfl, rfl⟩ := h
    simp [Progress, Config.goto, observe, frame, free, own, Settled]
  | @call u f k f' fw frame calls firmware =>
    cases ht
    cases FirmwareFSM.step_cases firmware with
    | call pc =>
      cases calls with
      | status | connect =>
        simp only [Progress, frame] at h
        obtain ⟨rfl, rfl⟩ := h
        simp [Progress, Config.goto, FirmwareFSM.Config.goto, FirmwareFSM.Call.entry, observe,
          frame, own]
      | port | enter =>
        simp only [Progress, frame] at h
        simpa [Progress, Config.goto, observe, frame, own] using h
  | @ret u f v f' fw frame pc returns firmware =>
    cases ht
    simp only [Progress, frame, pc] at h
    cases returns with
    | returned =>
      obtain ⟨hr, rfl⟩ := h
      simp [Progress, Config.goto, observe, frame, own, Settled, effect_empty hr]
    | _ => simp_all [Progress, Config.goto, observe, own, Settled]
  | fill frame =>
    cases ht
    simp only [Progress, frame] at h
    simpa [Progress, Config.goto, observe, frame, own, Settled] using h
  | cleared frame =>
    cases ht
    simp only [Progress, frame] at h
    simpa [Progress, Config.goto, observe, frame, own] using h
  | clearFail frame =>
    cases ht
    simp only [Progress, frame] at h
    simp [Progress, Config.goto, observe, own, Settled, h.2]
  | store frame =>
    cases ht
    simp only [Progress, frame] at h
    obtain ⟨rfl, rfl⟩ := h
    simp only [Progress, Config.goto, Function.update_self, Settled, observe, frame, effect]
    exact own_self rfl
  | @unlock u n frame =>
    cases ht
    simp only [Progress, frame] at h
    cases n <;> simpa [Progress, Config.goto, Next.frame, observe, frame, own] using h

theorem progress_step {c c' : Config} {l : Label} (hi : Inv c) (hs : step c l = some c') {t : Tid}
    (hl : l ≠ .reply t) {r : Request} {es : List Event} (h : Progress c t r es) :
    Progress c' t r (es ++ own t (observe c l)) := by
  by_cases ht : l.thread = some t
  · exact progress_own hi hs ht hl h
  · exact progress_of_other hi hs ht h

/-! ## Runs -/

theorem Reachable.untaken {port : Text} {c : Config} (h : Reachable port c) : Untaken c := by
  obtain ⟨ls, hls⟩ := h
  have := Lts.run_invariant (P := fun c => Inv c ∧ Untaken c)
    ⟨inv_init port, fun _ ht => absurd rfl ht⟩
    (fun _ _ _ hi hs => ⟨inv_step hi.1 hs, untaken_step hi.1 hi.2 hs⟩) hls
  exact this.2

/-- **The handler refines the arbiter.** -/
theorem refines {port : Text} {ls : List Label} {c : Config}
    (h : Lts.run step (Config.init port) ls = some c) :
    Lts.run Arbiter.step (Arbiter.State.init ([], -1)) (trace port ls) = some c.arbiter := by
  refine Lts.run_induction (P := fun ls c =>
    Lts.run Arbiter.step (Arbiter.State.init ([], -1)) (trace port ls) = some c.arbiter) rfl
    (fun ls c l c' hls ih hs => ?_) h
  rw [trace, Lts.history_snoc hls]
  exact (Lts.run_append ih _).trans (arbiter_step (Reachable.untaken ⟨ls, hls⟩) hs)

/-- What the arbiter says about a run and its last state. -/
structure Sequential (port : Text) (ls : List Label) (c : Config) : Prop where
  alternate : (Arbiter.changes (trace port ls)).IsChain (· ≠ ·)
  connectFirst : (Arbiter.changes (trace port ls)).head? ≠ some false
  acquired : c.acquired = (Arbiter.changes (trace port ls)).getLast?.getD false
  user : (c.userName, c.userPid) = (Arbiter.notes (trace port ls)).getLast?.getD ([], -1)

/-- What the answer `rep` to the request `r` says about the run: `r` came from `t` after `pre`, and
`mid` has been played since. -/
structure Answered (port : Text) (pre mid : List Label) (t : Tid) (r : Request) (rep : Reply) :
    Prop where
  /-- The request takes effect exactly as its answer says, between its arrival and its answer. -/
  effect : ∃ es, trace port (pre ++ .request t r :: mid) = trace port pre ++ es ∧
    own t es = effect t r rep
  /-- A status held all at once at some moment of the call. -/
  snapshot : ∀ d a name pid, rep = .status d a name pid →
    ∃ before after m, mid = before ++ after ∧
      Lts.run step (Config.init port) (pre ++ .request t r :: before) = some m ∧
      m.firmware.getStateDescription = d ∧ m.acquired = a ∧ m.userName = name ∧
      m.userPid = pid ∧ Sequential port (pre ++ .request t r :: before) m
  /-- A request that throws changes nothing itself. -/
  unchanged : ∀ e, rep = .threw e →
    ∀ before l after m m', mid = before ++ l :: after → l.thread = some t →
      Lts.run step (Config.init port) (pre ++ .request t r :: before) = some m →
      step m l = some m' →
      m'.acquired = m.acquired ∧ m'.userName = m.userName ∧ m'.userPid = m.userPid

theorem sequential {port : Text} {ls : List Label} {c : Config}
    (h : Lts.run step (Config.init port) ls = some c) : Sequential port ls c where
  alternate := (Arbiter.alternate (refines h)).1
  connectFirst := (Arbiter.alternate (refines h)).2
  acquired := Arbiter.held_iff (refines h)
  user := Arbiter.note_eq (refines h)

/-- From the arrival of a request on its thread makes progress on it. -/
theorem progress_run {port : Text} {pre mid : List Label} {t : Tid} {r : Request} {c₀ c : Config}
    (hpre : Lts.run step (Config.init port) (pre ++ [.request t r]) = some c₀)
    (h : Lts.run step c₀ mid = some c) (open_ : Label.reply t ∉ mid) :
    Progress c t r (own t (Lts.history step observe c₀ mid)) := by
  have hstart : Progress c₀ t r [] := by
    obtain ⟨m, -, hs⟩ := Lts.run_snoc_inv hpre
    cases step_cases hs with
    | request frame => cases r <;> simp [Progress, Config.goto, Request.entry, Settled]
  refine Lts.run_induction (P := fun ls c =>
    Label.reply t ∉ ls → Progress c t r (own t (Lts.history step observe c₀ ls)))
    (fun _ => hstart) (fun ls c l c' hls ih hs hl => ?_) h open_
  simp only [List.mem_append, List.mem_singleton, not_or] at hl
  have hi : Inv c := Reachable.inv ⟨_, (Lts.run_append hpre ls).trans hls⟩
  have := progress_step hi hs (Ne.symm hl.2) (ih hl.1)
  rw [Lts.history_snoc hls, own, List.filter_append]
  exact this

theorem answered {port : Text} {pre mid : List Label} {t : Tid} {r : Request} {c : Config}
    (h : Lts.run step (Config.init port) (pre ++ .request t r :: mid) = some c)
    (open_ : Label.reply t ∉ mid) {rep : Reply} (frame : c.frame t = .reply rep) :
    Answered port pre mid t r rep := by
  have hcons : ∀ ms, pre ++ .request t r :: ms = pre ++ [.request t r] ++ ms := by simp
  rw [hcons] at h
  obtain ⟨c₀, hpre, hmid⟩ := Lts.run_append_inv h
  have hown : own t (Lts.history step observe c₀ mid) = effect t r rep := by
    have := progress_run hpre hmid open_
    simpa only [Progress, frame, Settled] using this
  refine ⟨⟨Lts.history step observe c₀ mid, ?_, hown⟩, ?_, ?_⟩
  · obtain ⟨m, hm, -⟩ := Lts.run_snoc_inv hpre
    rw [hcons, trace, Lts.history_append hpre, Lts.history_snoc hm]
    simp [observe, trace]
  · rintro d a name pid rfl
    have hlook : Arbiter.Event.look t a (name, pid) d ∈ Lts.history step observe c₀ mid := by
      have : Arbiter.Event.look t a (name, pid) d ∈ own t (Lts.history step observe c₀ mid) := by
        rw [hown, effect_status]; exact List.mem_singleton.2 rfl
      exact (List.mem_filter.1 this).1
    obtain ⟨before, l, after, m, rfl, hm, hobs⟩ := Lts.history_mem hmid hlook
    have hrun : Lts.run step (Config.init port) (pre ++ .request t r :: before) = some m := by
      rw [hcons, Lts.run_append hpre, hm]
    refine ⟨before, l :: after, m, rfl, hrun, ?_⟩
    have hl : ∃ n, l = .firmware n := by
      cases l with
      | firmware n => exact ⟨n, rfl⟩
      | step u =>
        simp only [observe] at hobs
        split at hobs
        · simp at hobs
        · split at hobs <;> simp at hobs
        · cases hobs
      | _ => cases hobs
    obtain ⟨n, rfl⟩ := hl
    rcases observe_firmware m n with ho | ⟨u, -, -, ho⟩
    · rw [ho] at hobs; cases hobs
    · rw [ho, List.mem_singleton] at hobs
      cases hobs
      exact ⟨rfl, rfl, rfl, rfl, sequential hrun⟩
  · rintro e rfl before l after m m' rfl hl hm hs
    rw [hcons, Lts.run_append hpre] at hm
    have hobs : observe m l = [] := by
      rw [effect_threw, Lts.history_append hm] at hown
      simp only [Lts.history, hs, own, List.filter_append, List.append_eq_nil_iff] at hown
      refine List.eq_nil_iff_forall_not_mem.2 fun e he => ?_
      refine List.filter_eq_nil_iff.1 hown.2.1 e he ?_
      rw [observe_client he] at hl
      simpa using hl
    have := arbiter_eq hs hobs
    simpa [Config.arbiter] using this

/-- **The requests are linearizable.** In every run successful `Connect`s and `Disconnect`s
alternate and the fields are what the last of them left; each request takes effect between its
arrival and its answer as its answer says, a status held all at once, and what throws changes
nothing. -/
theorem linearizable {port : Text} {ls : List Label} {c : Config}
    (h : Lts.run step (Config.init port) ls = some c) :
    Sequential port ls c ∧
      ∀ pre t r mid rep, ls = pre ++ .request t r :: mid → Label.reply t ∉ mid →
        c.frame t = .reply rep → Answered port pre mid t r rep := by
  refine ⟨sequential h, ?_⟩
  rintro pre t r mid rep rfl open_ frame
  exact answered h open_ frame

/-- Thread `t` asks for the status, from its entry to its answer. -/
def statusRun (t : Tid) : List Label :=
  [.step t, .step t, .firmware (.step t), .firmware (.step t), .firmware (.step t), .step t,
    .step t, .step t]

theorem linearizable_status :
    Answered [] (startRun ++ connectRun 1) (statusRun 2) 2 .getStatus
      (.status "Running" true [] 7) := by
  have h : (Lts.run step (Config.init [])
      (startRun ++ connectRun 1 ++ .request 2 .getStatus :: statusRun 2)).isSome := rfl
  exact (linearizable (Option.some_get h).symm).2 _ _ _ _ _ rfl (by simp [statusRun]) rfl

end HandlerImpl

end MbDaemon
