import MbDaemon.Daemon.Ledger

/-!
# Scripts behind the actions

What a script does is outside the daemon, which sees its exit status and no more. `scripts` are the
children of a run in the order of their forking, each with the thread that waits for it, and their
places in this list are their numbers. `Scripted` is the assumption that a script that is waited for
ends as it can: `R n op status` says how the script of number `n` does. An action that has succeeded
in such a run has had a script of its own that ended with 0 (`succeeded_ended`), whatever else the
daemon did meanwhile.
-/

namespace MbDaemon

open HwUtils
open scoped List

namespace FirmwareFSM

/-- The script that a step forks, and the thread that will wait for it. -/
def forks (c : Config) : Label → List (Tid × Op)
  | .fork t (.ok _) =>
    match c.pc t with
    | .act op => [(t, op)]
    | _ => []
  | _ => []

theorem shows_forked (t : Tid) (c : Config) (l : Label) :
    shows t c .forked l = ((forks c l).filter (·.1 = t)).map (·.2) := by
  cases l with
  | fork u answer =>
    cases answer with
    | error _ => rfl
    | ok pid =>
      by_cases e : u = t
      · subst e
        cases hpc : c.pc u <;> simp [shows, forks, hpc]
      · cases hpc : c.pc u <;> simp [shows, forks, hpc, e]
  | _ => rfl

variable {R : Nat → Op → WaitStatus → Prop} {c c' : Config} {l : Label} {scripts : List (Tid × Op)}

/-- The child that ends, if it is waited for, is the script forked last, and ends as this can. -/
def Scripted (R : Nat → Op → WaitStatus → Prop) (c : Config) (scripts : List (Tid × Op))
    (l : Label) : Prop :=
  ∀ t op pid status before, l = .exit pid status → c.pc t = .wait op pid →
    scripts = before ++ [(t, op)] → R before.length op status

/-- The script that is waited for is the one forked last, and if it has ended, then as it can. -/
def Waits (R : Nat → Op → WaitStatus → Prop) (c : Config) (scripts : List (Tid × Op)) : Prop :=
  ∀ t op pid, c.pc t = .wait op pid → ∃ before, scripts = before ++ [(t, op)] ∧
    ∀ status, ⟨pid, some status⟩ ∈ c.children → R before.length op status

theorem waits_init (port : Text) : Waits R (Config.init port) [] := by
  intro t op pid hpc
  cases hpc

/-- A thread that moves and does not fork, and leaves no new children. -/
theorem Waits.goto (h : Waits R c scripts) {t : Tid} {q : Pc}
    (hpc : c'.pc = Function.update c.pc t q) (hq : ∀ op pid, q ≠ .wait op pid)
    (hchildren : ∀ ch ∈ c'.children, ch ∈ c.children) : Waits R c' (scripts ++ []) := by
  intro u op pid hu
  rw [hpc] at hu
  by_cases e : u = t
  · rw [e, Function.update_self] at hu
    exact absurd hu (hq op pid)
  · rw [Function.update_of_ne e] at hu
    obtain ⟨before, hlast, hended⟩ := h u op pid hu
    exact ⟨before, by rw [List.append_nil, hlast], fun status hmem => hended status (hchildren _ hmem)⟩

theorem waits_step (hi : Inv c) (h : Waits R c scripts) (hs : step c l = some c')
    (hl : Scripted R c scripts l) : Waits R c' (scripts ++ forks c l) := by
  cases step_cases hs with
  | @fork t op pid pc fresh =>
    intro u op' pid' hu
    by_cases e : u = t
    · subst e
      simp only [Config.goto, Function.update_self] at hu
      cases hu
      refine ⟨scripts, by simp [forks, pc], fun status hmem => ?_⟩
      have hold : ⟨pid, some status⟩ ∈ c.children := by simpa using hmem
      exact absurd (List.mem_map.2 ⟨_, hold, rfl⟩) fresh
    · -- nobody waits while another thread is about to fork
      have hactive : (c.pc t).active = some op := by rw [pc]; rfl
      have halone := (hi.phase.of_active hactive).1 u e
      have hu' : c.pc u = .wait op' pid' := by simpa [Config.goto, e] using hu
      rw [hu'] at halone
      cases halone
  | @exit pid status alive =>
    intro u op pid' hu
    obtain ⟨before, hlast, hended⟩ := h u op pid' hu
    refine ⟨before, by simpa [forks] using hlast, fun status' hmem => ?_⟩
    obtain ⟨ch, hch, heq⟩ := List.mem_map.1 hmem
    split at heq
    · simp only [Child.mk.injEq, Option.some.injEq] at heq
      obtain ⟨rfl, rfl⟩ := heq
      exact hl u op pid status before rfl hu hlast
    · subst heq
      exact hended status' hch
  | @call t k => cases k <;> exact h.goto rfl (by rintro op pid ⟨⟩) fun ch hch => hch
  | @unlock t op ok => cases ok <;> exact h.goto rfl (by rintro op pid ⟨⟩) fun ch hch => hch
  | lock | accept | refuse | reject | forkFail | waitFail | setLock | setWork | setUnlock | getLock
  | getWork | getUnlock | ret => exact h.goto rfl (by rintro op pid ⟨⟩) fun ch hch => hch
  | wait => exact h.goto rfl (by rintro op pid ⟨⟩) fun ch hch => (List.mem_filter.1 hch).1

theorem exited_of_checkStatus {status : WaitStatus} (h : checkStatus status = none) :
    status = .exited 0 := by
  cases status with
  | signaled _ => cases h
  | exited code =>
    by_cases hcode : code = 0
    · rw [hcode]
    · rw [checkStatus, if_pos hcode] at h
      cases h

theorem mem_of_reapable {children : List Child} {pid : Pid} {status : WaitStatus}
    (h : reapable children pid = some status) : ⟨pid, some status⟩ ∈ children := by
  obtain ⟨⟨pid', st⟩, hfind, hst⟩ := Option.bind_eq_some_iff.1 h
  have hmatch := List.find?_some hfind
  simp only [Bool.and_eq_true, beq_iff_eq] at hmatch
  have hmem := List.mem_of_find?_eq_some hfind
  rwa [hmatch.1, show st = some status from hst] at hmem

/-- An action succeeds where its thread reaps its own child, which has ended with 0. -/
theorem wait_of_shows {t : Tid} {op : Op} (h : op ∈ shows t c .succeeded l) :
    ∃ own, c.pc t = .wait op own ∧ ⟨own, some (.exited 0)⟩ ∈ c.children := by
  cases l with
  | wait u pid =>
    simp only [shows] at h
    split at h
    · split at h
      · rename_i op' own status pc ended
        split at h
        · obtain rfl := List.mem_singleton.1 h
          obtain ⟨rfl, hstatus⟩ := ‹pid = own ∧ checkStatus status = none›
          rw [exited_of_checkStatus hstatus] at ended
          exact ⟨pid, pc, mem_of_reapable ended⟩
        · cases h
      · cases h
    · cases h
  | _ => cases h

end FirmwareFSM

namespace HandlerImpl

def forks (c : Config) : Label → List (Tid × FirmwareFSM.Op)
  | .firmware l => FirmwareFSM.forks c.firmware l
  | _ => []

theorem waits_step {R : Nat → FirmwareFSM.Op → WaitStatus → Prop} {c c' : Config} {l : Label}
    {scripts : List (Tid × FirmwareFSM.Op)} (hi : Inv c)
    (h : FirmwareFSM.Waits R c.firmware scripts) (hs : step c l = some c')
    (hl : ∀ m, l = .firmware m → FirmwareFSM.Scripted R c.firmware scripts m) :
    FirmwareFSM.Waits R c'.firmware (scripts ++ forks c l) := by
  have hquiet : ∀ {m : FirmwareFSM.Label}, (∀ pid status, m ≠ .exit pid status) →
      FirmwareFSM.Scripted R c.firmware scripts m :=
    fun hm t op pid status before e => absurd e (hm pid status)
  cases step_cases hs with
  | firmware _ firmware => exact FirmwareFSM.waits_step hi.firmware h firmware (hl _ rfl)
  | call _ _ firmware =>
    exact FirmwareFSM.waits_step hi.firmware h firmware (hquiet fun pid status e => by cases e)
  | ret _ _ _ firmware =>
    exact FirmwareFSM.waits_step hi.firmware h firmware (hquiet fun pid status e => by cases e)
  | _ => simpa [forks, Config.goto] using h

end HandlerImpl

namespace Daemon

variable {R : Nat → FirmwareFSM.Op → WaitStatus → Prop} {port : Text} {ls : List Label} {c : Config}

def forks (c : Config) : Label → List (Tid × FirmwareFSM.Op)
  | .handler l => HandlerImpl.forks c.handler l
  | _ => []

/-- The scripts that a run has forked, in order, with the sessions they are for. -/
def scripts (port : Text) (ls : List Label) : List (Tid × FirmwareFSM.Op) :=
  Lts.history step forks (Config.init port) ls

/-- What is executed for a session is its share of the scripts. -/
theorem executed_scripts (port : Text) (t : Tid) (ls : List Label) :
    executed port t ls = ((scripts port ls).filter (·.1 = t)).map (·.2) := by
  refine Lts.history_hom (fun xs : List (Tid × FirmwareFSM.Op) => (xs.filter (·.1 = t)).map (·.2))
    rfl (fun xs ys => by simp) (fun c l => ?_) _ ls
  cases l with
  | handler l =>
    cases l with
    | firmware l => exact FirmwareFSM.shows_forked t c.handler.firmware l
    | _ => rfl
  | _ => rfl

theorem scripts_of_executed {t : Tid} {op : FirmwareFSM.Op} (h : executed port t ls = [op]) :
    (scripts port ls).filter (·.1 = t) = [(t, op)] := by
  rw [executed_scripts] at h
  obtain ⟨⟨u, op'⟩, hshare, rfl⟩ := List.map_eq_singleton_iff.1 h
  have hmem : (u, op') ∈ (scripts port ls).filter (·.1 = t) := hshare ▸ List.mem_singleton_self _
  obtain rfl : u = t := by simpa using (List.mem_filter.1 hmem).2
  exact hshare

/-- The scripts of a run end as they can. -/
def Scripted (R : Nat → FirmwareFSM.Op → WaitStatus → Prop) (port : Text) (ls : List Label) : Prop :=
  ∀ pre l post c, ls = pre ++ .handler (.firmware l) :: post →
    Lts.run step (Config.init port) pre = some c →
    FirmwareFSM.Scripted R c.handler.firmware (scripts port pre) l

theorem Scripted.of_append {ms : List Label} (h : Scripted R port (ls ++ ms)) :
    Scripted R port ls :=
  fun pre l post c e => h pre l (post ++ ms) c (by rw [e]; simp)

def statuses (ls : List Label) : List WaitStatus :=
  ls.filterMap fun l => match l with
    | .handler (.firmware (.exit _ status)) => some status
    | _ => none

theorem scripted_of_statuses (h : ∀ status ∈ statuses ls, ∀ n op, R n op status) :
    Scripted R port ls := by
  rintro pre l post c e - t op pid status before rfl - -
  refine h status ?_ before.length op
  rw [e, statuses, List.filterMap_append, List.filterMap_cons]
  simp

theorem waits_step {c' : Config} {l : Label} {scripts : List (Tid × FirmwareFSM.Op)}
    (hi : HandlerImpl.Inv c.handler) (h : FirmwareFSM.Waits R c.handler.firmware scripts)
    (hs : step c l = some c')
    (hl : ∀ m, l = .handler (.firmware m) → FirmwareFSM.Scripted R c.handler.firmware scripts m) :
    FirmwareFSM.Waits R c'.handler.firmware (scripts ++ forks c l) := by
  cases step_cases hs with
  | accept | answer | own => simpa [forks, Config.put] using h
  | request _ _ hstep => exact HandlerImpl.waits_step hi h hstep fun m e => by cases e
  | handler _ hstep => exact HandlerImpl.waits_step hi h hstep fun m e => hl m (by rw [e])
  | reply _ _ _ hstep => exact HandlerImpl.waits_step hi h hstep fun m e => by cases e

theorem waits_run (h : Lts.run step (Config.init port) ls = some c) (hscripted : Scripted R port ls) :
    FirmwareFSM.Waits R c.handler.firmware (scripts port ls) := by
  refine Lts.run_induction (P := fun ls c => Scripted R port ls →
    FirmwareFSM.Waits R c.handler.firmware (scripts port ls)) ?_ ?_ h hscripted
  · exact fun _ => FirmwareFSM.waits_init port
  · intro ls c l c' hrun ih hs hscripted
    have hstep := waits_step (ledger_run hrun 0).1 (ih hscripted.of_append) hs fun m e =>
      hscripted ls m [] c (by rw [e]) hrun
    rwa [scripts, Lts.history_snoc hrun]

/-- **An action that has succeeded** has had a script of its own, which ended with 0 as it can. -/
theorem succeeded_ended (h : Lts.run step (Config.init port) ls = some c)
    (hscripted : Scripted R port ls) {t : Tid} {op : FirmwareFSM.Op}
    (hop : op ∈ succeeded port t ls) :
    ∃ n, (scripts port ls)[n]? = some (t, op) ∧ R n op (.exited 0) := by
  obtain ⟨pre, l, post, c', rfl, hpre, hshown⟩ := Lts.history_mem h hop
  have hwaits := waits_run hpre hscripted.of_append
  cases l with
  | handler l =>
    cases l with
    | firmware l =>
      obtain ⟨own, pc, hended⟩ := FirmwareFSM.wait_of_shows hshown
      obtain ⟨before, hlast, hR⟩ := hwaits t op own pc
      refine ⟨before.length, ?_, hR _ hended⟩
      rw [scripts, Lts.history_append hpre, show Lts.history step forks _ pre = _ from hlast]
      simp
    | _ => cases hshown
  | _ => cases hshown

end Daemon

end MbDaemon
