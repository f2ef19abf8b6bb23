import MbDaemon.HandlerImpl.Steps

/-!
# The two locks and progress

`GetStatus` and `Connect` take the firmware's mutex with the handler's mutex held, no operation
takes them the other way round, and the hardware actions run with both free. So whoever holds the
firmware's mutex can go on, whoever holds the handler's waits for nothing but the firmware's
(`progress`), and no thread that waits for either mutex waits in vain (`no_deadlock`).
-/

namespace MbDaemon

open HwUtils

namespace FirmwareFSM

def Pc.waits : Pc → Bool
  | .lock _ | .setLock _ _ | .getLock _ => true
  | _ => false

variable {c : Config} {t : Tid}

theorem Pc.not_holds_of_waits {p : Pc} (h : p.waits = true) : p.holds = false := by
  cases p <;> first | rfl | cases h

theorem step_of_holds (h : (c.pc t).holds = true) : ∃ c', step c (.step t) = some c' := by
  show ∃ c', c.next t = some c'
  unfold Config.next
  cases pc : c.pc t with
  | check op => simp only; split <;> exact ⟨_, rfl⟩
  | unlock op ok => exact ⟨_, rfl⟩
  | setWork op e => exact ⟨_, rfl⟩
  | setUnlock op e => exact ⟨_, rfl⟩
  | getWork g => exact ⟨_, rfl⟩
  | getUnlock v => exact ⟨_, rfl⟩
  | _ => rw [pc] at h; cases h

theorem step_of_waits (h : (c.pc t).waits = true) (free : c.mutex = none) :
    ∃ c', step c (.step t) = some c' := by
  show ∃ c', c.next t = some c'
  unfold Config.next
  cases pc : c.pc t with
  | lock op => exact ⟨_, if_pos free⟩
  | setLock op e => exact ⟨_, if_pos free⟩
  | getLock g => exact ⟨_, if_pos free⟩
  | _ => rw [pc] at h; cases h

/-- In front of the mutex: the thread itself can go on, or the one inside. -/
theorem waits_progress (ho : Mutex.Owned Pc.holds c.pc c.mutex) (h : (c.pc t).waits = true) :
    ∃ u c', step c (.step u) = some c' ∧ (u = t ∨ c.mutex = some u) := by
  cases hm : c.mutex with
  | none =>
    obtain ⟨c', hs⟩ := step_of_waits h hm
    exact ⟨t, c', hs, .inl rfl⟩
  | some u =>
    obtain ⟨c', hs⟩ := step_of_holds ((ho u).2 hm)
    exact ⟨u, c', hs, .inr rfl⟩

/-- `t` waits for its child, which has not ended yet. -/
def AwaitsChild (c : Config) (t : Tid) : Prop :=
  ∃ op own, c.pc t = .wait op own ∧ c.children = [⟨own, none⟩]

/-- `t` can take a step of its own inside the call it is in. -/
def CanStep (c : Config) (t : Tid) : Prop :=
  ∃ l c', l.thread = some t ∧ HandlerImpl.internal l = true ∧ step c l = some c'

theorem CanStep.of_step (h : ∃ c', step c (.step t) = some c') : CanStep c t := by
  obtain ⟨c', hs⟩ := h
  exact ⟨_, c', rfl, rfl, hs⟩

theorem wait_progress (hp : Phase c) {op : Op} {own : Pid} (pc : c.pc t = .wait op own) :
    CanStep c t ∨ AwaitsChild c t := by
  obtain ⟨status, hchildren⟩ := hp.children_of_wait pc
  cases status with
  | none => exact .inr ⟨op, own, pc, hchildren⟩
  | some status =>
    refine .inl ⟨.wait t own, { c.goto t (.setLock op (checkStatus status)) with
      children := c.children.filter (·.pid ≠ own) }, rfl, rfl, ?_⟩
    simp [step, pc, hchildren, reapable]

/-- Inside a call a thread is in front of the mutex, or it is done, or it can take a step, or its
action is still running. -/
theorem serves_progress (hp : Phase c) {k : Call} (h : Serves k (c.pc t)) :
    (c.pc t).waits = true ∨ (∃ v, c.pc t = .done v) ∨ CanStep c t ∨ AwaitsChild c t := by
  cases pc : c.pc t with
  | idle => rw [pc] at h; exact absurd h (not_serves_idle k)
  | lock op | setLock op e | getLock g => exact .inl rfl
  | check op | unlock op ok | setWork op e | setUnlock op e | getWork g | getUnlock v =>
    exact .inr (.inr (.inl (.of_step (step_of_holds (by rw [pc]; rfl)))))
  | reject op =>
    refine .inr (.inr (.inl (.of_step ?_)))
    show ∃ c', c.next t = some c'
    unfold Config.next
    rw [pc]
    exact ⟨_, rfl⟩
  | act op =>
    -- `fork` answers, and be it with an error
    refine .inr (.inr (.inl ⟨.fork t (.error ⟨11, []⟩),
      c.goto t (.setLock op (some (.fork ⟨11, []⟩))), rfl, rfl, ?_⟩))
    simp only [step, pc]
  | wait op own => exact .inr (.inr (wait_progress hp pc))
  | done v => exact .inr (.inl ⟨v, rfl⟩)

end FirmwareFSM

namespace HandlerImpl

def CanStep (c : Config) (t : Tid) : Prop :=
  ∃ l c', l.thread = some t ∧ (∀ r, l ≠ .request t r) ∧ step c l = some c'

def WaitsHandler (c : Config) (t : Tid) : Prop := ∃ r, c.frame t = .lock r

def WaitsFirmware (c : Config) (t : Tid) : Prop := (c.firmware.pc t).waits = true

variable {c : Config} {t : Tid}

theorem CanStep.of_next (h : ∃ c', c.next t = some c') : CanStep c t := by
  obtain ⟨c', hs⟩ := h
  exact ⟨.step t, c', rfl, fun _ e => (by cases e), hs⟩

theorem CanStep.of_firmware (h : FirmwareFSM.CanStep c.firmware t) : CanStep c t := by
  obtain ⟨l, fw, ht, inner, hs⟩ := h
  refine ⟨.firmware l, { c with firmware := fw }, ht, fun _ e => (by cases e), ?_⟩
  simp only [step, inner, hs, if_true]

/-! ## `Start` and the handler's mutex -/

/-- `Start` does not take the handler's mutex. -/
def Frame.locksFor : Frame → Option Request
  | .lock r | .held r => some r
  | _ => none

/-- No thread takes the handler's mutex for `Start`. -/
def NoStart (c : Config) : Prop := ∀ t, (c.frame t).locksFor ≠ some .start

theorem Request.entry_locksFor (r : Request) : r.entry.locksFor ≠ some .start := by
  cases r <;> simp [Request.entry, Frame.locksFor]

theorem Calls.locksFor {f f' : Frame} {k : FirmwareFSM.Call} (h : Calls c f k f') :
    f'.locksFor = none := by
  cases h <;> rfl

theorem Returns.locksFor {f f' : Frame} {v : FirmwareFSM.Result} (h : Returns f v f') :
    f'.locksFor = none := by
  cases h <;> rfl

theorem Next.frame_locksFor (n : Next) : n.frame.locksFor = none := by cases n <;> rfl

theorem NoStart.goto {c' : Config} (h : NoStart c) {f : Frame}
    (hframe : c'.frame = Function.update c.frame t f) (hf : f.locksFor ≠ some .start) :
    NoStart c' := by
  intro u
  rw [hframe]
  by_cases hu : u = t
  · subst hu; rwa [Function.update_self]
  · rw [Function.update_of_ne hu]; exact h u

theorem noStart_step {c' : Config} {l : Label} (h : NoStart c) (hs : step c l = some c') :
    NoStart c' := by
  cases step_cases hs with
  | request => exact h.goto rfl (Request.entry_locksFor _)
  | @lock t r frame free =>
    refine h.goto rfl ?_
    have := h t
    rw [frame] at this
    exact this
  | call _ calls => exact h.goto rfl (by rw [calls.locksFor]; simp)
  | ret _ _ returns => exact h.goto rfl (by rw [returns.locksFor]; simp)
  | unlock => exact h.goto rfl (by rw [Next.frame_locksFor]; simp)
  | firmware => exact h
  | _ => exact h.goto rfl (by simp [Frame.locksFor])

theorem Reachable.noStart {port : Text} (h : Reachable port c) : NoStart c := by
  obtain ⟨ls, hls⟩ := h
  exact Lts.run_invariant (P := NoStart) (fun _ => by simp [Config.init, Frame.locksFor])
    (fun _ _ _ hn hs => noStart_step hn hs) hls

/-! ## Progress -/

theorem call_enabled (hpc : c.firmware.pc t = .idle) (k : FirmwareFSM.Call) (f : Frame) :
    ∃ c', c.call t k f = some c' := by
  simp [Config.call, FirmwareFSM.step, hpc]

theorem ret_enabled {v : FirmwareFSM.Result} (hpc : c.firmware.pc t = .done v) (f : Frame) :
    ∃ c', c.ret t f = some c' := by
  simp [Config.ret, FirmwareFSM.step, hpc]

theorem section_enabled (hpc : c.firmware.pc t = .idle) {r : Request} (hr : r ≠ .start) :
    ∃ c', c.enterSection t r = some c' := by
  cases r with
  | start => exact absurd rfl hr
  | getStatus => exact call_enabled hpc _ _
  | flash path => simp only [Config.enterSection]; split <;> exact ⟨_, rfl⟩
  | reset => simp only [Config.enterSection]; split <;> exact ⟨_, rfl⟩
  | connect name pid =>
    simp only [Config.enterSection]
    split
    · exact ⟨_, rfl⟩
    · exact call_enabled hpc _ _
  | disconnect => simp only [Config.enterSection]; split <;> exact ⟨_, rfl⟩

theorem done_enabled {k : FirmwareFSM.Call} (hcall : (c.frame t).call = some k)
    (hserves : FirmwareFSM.Serves k (c.firmware.pc t)) {v : FirmwareFSM.Result}
    (hpc : c.firmware.pc t = .done v) : ∃ c', c.next t = some c' := by
  rw [hpc] at hserves
  unfold Config.next
  cases hframe : c.frame t with
  | describing =>
    rw [hframe] at hcall
    cases hcall
    obtain h | h | ⟨w, hw, h | h⟩ := hserves <;> cases h
    cases w with
    | description d => simp only [hpc]; exact ret_enabled hpc _
    | state s => cases hw
    | port p => cases hw
  | stateCheck name pid =>
    rw [hframe] at hcall
    cases hcall
    obtain h | h | ⟨w, hw, h | h⟩ := hserves <;> cases h
    cases w with
    | state s => simp only [hpc]; split <;> exact ret_enabled hpc _
    | description d => cases hw
    | port p => cases hw
  | portRead name pid =>
    rw [hframe] at hcall
    cases hcall
    obtain h | h | ⟨w, hw, h | h⟩ := hserves <;> cases h
    cases w with
    | port p => simp only [hpc]; exact ret_enabled hpc _
    | state s => cases hw
    | description d => cases hw
  | firmware op =>
    rw [hframe] at hcall
    cases hcall
    obtain h | h | ⟨e, h⟩ := hserves
    · cases h
    · cases h; simp only [hpc]; exact ret_enabled hpc _
    · cases h; simp only [hpc]; exact ret_enabled hpc _
  | _ => rw [hframe] at hcall; cases hcall

/-- **Inside a request** a thread can take a step, or it is in front of a mutex that another thread
may hold, or the script of its action is still running. -/
theorem progress (h : Inv c) (hn : NoStart c) (hin : c.frame t ≠ .idle) :
    CanStep c t ∨ WaitsHandler c t ∨ WaitsFirmware c t ∨ FirmwareFSM.AwaitsChild c.firmware t := by
  have hplaced := h.placed t
  unfold Placed at hplaced
  cases hcall : (c.frame t).call with
  | some k =>
    rw [hcall] at hplaced
    rcases FirmwareFSM.serves_progress h.firmware.phase hplaced with hw | ⟨v, hv⟩ | hstep | hchild
    · exact .inr (.inr (.inl hw))
    · exact .inl (.of_next (done_enabled hcall hplaced hv))
    · exact .inl (.of_firmware hstep)
    · exact .inr (.inr (.inr hchild))
  | none =>
    rw [hcall] at hplaced
    cases hframe : c.frame t with
    | idle => exact absurd hframe hin
    | lock r => exact .inr (.inl ⟨r, hframe⟩)
    | held r =>
      refine .inl (.of_next ?_)
      have hr : r ≠ .start := by
        intro e
        have := hn t
        rw [hframe, e] at this
        exact this rfl
      unfold Config.next
      rw [hframe]
      exact section_enabled hplaced hr
    | clearPort name pid path =>
      -- `ClearPort` comes to an end
      refine .inl ⟨.clearPort t (.ok ()), c.goto t (.store name pid path), rfl,
        fun _ e => (by cases e), ?_⟩
      simp only [step, hframe]
    | reply r =>
      refine .inl ⟨.reply t, c.goto t .idle, rfl, fun _ e => (by cases e), ?_⟩
      simp only [step, hframe]
    | getPort name pid =>
      refine .inl (.of_next ?_)
      unfold Config.next
      rw [hframe]
      exact call_enabled hplaced _ _
    | enter op =>
      refine .inl (.of_next ?_)
      unfold Config.next
      rw [hframe]
      exact call_enabled hplaced _ _
    | fill d | store name pid path | unlock n =>
      refine .inl (.of_next ?_)
      unfold Config.next
      rw [hframe]
      exact ⟨_, rfl⟩
    | describing | stateCheck name pid | portRead name pid | firmware op =>
      rw [hframe] at hcall
      cases hcall

/-! ## No deadlock -/

theorem holder_call {k : FirmwareFSM.Call} (hholds : (c.frame t).holds = true)
    (hcall : (c.frame t).call = some k) : ∃ g, k = .getter g := by
  cases hframe : c.frame t with
  | describing | stateCheck name pid | portRead name pid =>
    rw [hframe] at hcall
    cases hcall
    exact ⟨_, rfl⟩
  | firmware op => rw [hframe] at hholds; cases hholds
  | _ => rw [hframe] at hcall; cases hcall

theorem getter_not_awaits {g : FirmwareFSM.Getter}
    (h : FirmwareFSM.Serves (.getter g) (c.firmware.pc t)) :
    ¬ FirmwareFSM.AwaitsChild c.firmware t := by
  rintro ⟨op, own, pc, -⟩
  rw [pc] at h
  obtain h | h | ⟨v, -, h | h⟩ := h <;> cases h

theorem firmware_progress (h : Inv c) (hw : WaitsFirmware c t) :
    ∃ u, CanStep c u ∧ (u = t ∨ c.firmware.mutex = some u) := by
  obtain ⟨u, fw, hs, hu⟩ := FirmwareFSM.waits_progress h.firmware.owned hw
  exact ⟨u, .of_firmware (.of_step ⟨fw, hs⟩), hu⟩

/-- Who holds the handler's mutex can go on, or the one inside the firmware's mutex can. -/
theorem holder_progress (h : Inv c) (hn : NoStart c) (hm : c.mutex = some t) :
    ∃ u, CanStep c u ∧ (u = t ∨ c.firmware.mutex = some u) := by
  have hholds := (h.owned t).2 hm
  have hin : c.frame t ≠ .idle := by
    intro e
    rw [e] at hholds
    cases hholds
  rcases progress h hn hin with hstep | ⟨r, hlock⟩ | hw | hchild
  · exact ⟨t, hstep, .inl rfl⟩
  · rw [hlock] at hholds
    cases hholds
  · exact firmware_progress h hw
  · -- the calls under the handler's mutex are getters
    exfalso
    have hplaced := h.placed t
    unfold Placed at hplaced
    cases hcall : (c.frame t).call with
    | none =>
      rw [hcall] at hplaced
      obtain ⟨op, own, pc, -⟩ := hchild
      rw [hplaced] at pc
      cases pc
    | some k =>
      rw [hcall] at hplaced
      obtain ⟨g, rfl⟩ := holder_call hholds hcall
      exact getter_not_awaits hplaced hchild

theorem handler_progress (h : Inv c) (hn : NoStart c) (hw : WaitsHandler c t) :
    ∃ u, CanStep c u ∧ (u = t ∨ c.mutex = some u ∨ c.firmware.mutex = some u) := by
  cases hm : c.mutex with
  | none =>
    obtain ⟨r, hframe⟩ := hw
    refine ⟨t, .of_next ?_, .inl rfl⟩
    unfold Config.next
    rw [hframe]
    exact ⟨_, if_pos hm⟩
  | some u =>
    obtain ⟨v, hv, he | he⟩ := holder_progress h hn hm
    · exact ⟨v, hv, .inr (.inl (by rw [he]))⟩
    · exact ⟨v, hv, .inr (.inr he)⟩

theorem not_handler (h : Inv c) (hf : (c.frame t).holds = false) : c.mutex ≠ some t := by
  intro hm
  have := (h.owned t).2 hm
  rw [hf] at this
  cases this

theorem not_firmware (h : Inv c) (hp : (c.firmware.pc t).holds = false) :
    c.firmware.mutex ≠ some t := by
  intro hm
  have := (h.firmware.owned t).2 hm
  rw [hp] at this
  cases this

theorem not_firmware_outside (h : Inv c) (hcall : (c.frame t).call = none) :
    c.firmware.mutex ≠ some t := by
  have hplaced := h.placed t
  unfold Placed at hplaced
  rw [hcall] at hplaced
  exact not_firmware h (by rw [hplaced]; rfl)

/-- **No deadlock.** In every reachable configuration: for a thread that waits for either mutex the
thread itself, the holder of that mutex, or the one the holder waits for can take a step; a thread
inside a request waits for a mutex, or for its script, or can take a step. Nobody waits for the
handler's mutex with either mutex held, nor for the firmware's with the firmware's held, and where a
request has returned or thrown, its thread holds neither. -/
theorem no_deadlock {port : Text} (h : Reachable port c) :
    (∀ t, WaitsHandler c t ∨ WaitsFirmware c t →
      ∃ u, CanStep c u ∧ (u = t ∨ c.mutex = some u ∨ c.firmware.mutex = some u)) ∧
    (∀ t, c.frame t ≠ .idle → CanStep c t ∨ WaitsHandler c t ∨ WaitsFirmware c t ∨
      FirmwareFSM.AwaitsChild c.firmware t) ∧
    (∀ t, WaitsHandler c t → c.mutex ≠ some t ∧ c.firmware.mutex ≠ some t) ∧
    (∀ t, WaitsFirmware c t → c.firmware.mutex ≠ some t) ∧
    (∀ t r, c.frame t = .reply r → c.mutex ≠ some t ∧ c.firmware.mutex ≠ some t) := by
  have hinv := h.inv
  have hn := h.noStart
  refine ⟨fun t hw => ?_, fun t hin => progress hinv hn hin, fun t hw => ?_, fun t hw => ?_,
    fun t r hreply => ?_⟩
  · rcases hw with hw | hw
    · exact handler_progress hinv hn hw
    · obtain ⟨u, hu, he | he⟩ := firmware_progress hinv hw
      · exact ⟨u, hu, .inl he⟩
      · exact ⟨u, hu, .inr (.inr he)⟩
  · obtain ⟨r, hlock⟩ := hw
    exact ⟨not_handler hinv (by rw [hlock]; rfl), not_firmware_outside hinv (by rw [hlock]; rfl)⟩
  · exact not_firmware hinv (FirmwareFSM.Pc.not_holds_of_waits hw)
  · exact ⟨not_handler hinv (by rw [hreply]; rfl), not_firmware_outside hinv (by rw [hreply]; rfl)⟩

/-- Thread 0 is inside `GetStatus`, in front of the firmware's mutex that thread 1's `Start` has
taken; thread 2's `Reset` waits for the handler's mutex. -/
def contendedRun : List Label :=
  [.request 0 .getStatus, .step 0, .step 0, .request 1 .start, .step 1, .firmware (.step 1),
    .request 2 .reset]

theorem no_deadlock_contended :
    ∃ c, Lts.run step (Config.init []) contendedRun = some c ∧ WaitsHandler c 2 ∧
      WaitsFirmware c 0 ∧ c.mutex = some 0 ∧ c.firmware.mutex = some 1 ∧
      (∃ u, CanStep c u ∧ (u = 2 ∨ c.mutex = some u ∨ c.firmware.mutex = some u)) :=
  ⟨_, rfl, ⟨.reset, rfl⟩, rfl, rfl, rfl,
    (@no_deadlock _ [] ⟨contendedRun, rfl⟩).1 2 (.inl ⟨.reset, rfl⟩)⟩

end HandlerImpl

end MbDaemon
