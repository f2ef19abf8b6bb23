import MbDaemon.FirmwareFSM.Exclusion
import MbDaemon.Scripts.BootloaderStart

/-!
# The search for the boards

The list of ports is read once, in front of the loop, so that with ports that always behave in the
same way every round of the search is like the first. It ends after that round, or not at all: where
a board is missing and no port raises when it is opened for good, the script never ends
(`discovers_iff`), and the thread that waits for it leaves the machine in `Transition`
(`stays_in_transition`).
-/

namespace MbDaemon

open Python HwUtils

namespace BootloaderStart

/-- Ports that behave in every round as in the first. -/
def World.fixed (w : World) : World :=
  { w with probe := fun _ => w.probe 0, reopen := fun _ => w.reopen 0 }

def Name.pcbName : Name → Str
  | .motherboard => Motherboard_PCB_Name
  | .blueCoin => BlueCoin_PCB_Name

/-- A port answers with the board's name. -/
def Present (w : World) (board : Name) : Prop :=
  ∃ i < w.COM_List.length, w.probe 0 i = some board.pcbName

/-- The port names a board and cannot be opened again. -/
def RefusesAt (w : World) (round i : Nat) : Prop :=
  (∃ board : Name, w.probe round i = some board.pcbName) ∧ w.reopen round i = none

/-- The search ends after so many rounds. -/
def EndsWithin (w : World) (fuel : Nat) : Prop := ∀ s, search w fuel 0 .start ≠ .error .searching s

/-- The search ends, and the script leaves with an error when a board is missing. -/
structure Discovers (w : World) : Prop where
  ends : ∃ fuel, EndsWithin w fuel
  missing : ∀ board, ¬ Present w board →
    ∃ fuel code, exitStatus (script w fuel .start) = some code ∧ code ≠ 0

/-! ## A round -/

/-- The variables after a board's port has been opened for good. -/
def Vars.found (s : Vars) (port : Option Port) : Name → Vars
  | .motherboard => { s with COM_Motherboard := port }
  | .blueCoin => { s with COM_BlueCoin := port }

theorem reopen_some (board : Name) (port : Option Port) (u : Unit) (s : Vars) :
    reopen board port (some u) s = .ok () (s.found port board) := by
  cases board <;> rfl

theorem com_found (s : Vars) (port : Option Port) (board other : Name) :
    (s.found port board).com other = if other = board then port else s.com other := by
  cases board <;> cases other <;> rfl

theorem pcbName_inj {board other : Name} (h : board.pcbName = other.pcbName) : board = other := by
  revert h
  cases board <;> cases other <;> decide

variable {w : World}

theorem tryPort_named {round i : Nat} {board : Name} (h : w.probe round i = some board.pcbName) :
    tryPort w round i = reopen board w.COM_List[i]? (w.reopen round i) := by
  funext s
  unfold tryPort
  rw [h]
  cases board with
  | motherboard =>
    simp only [Name.pcbName, if_pos]
    cases w.reopen round i <;> rfl
  | blueCoin =>
    simp only [Name.pcbName, if_pos]
    cases w.reopen round i <;> rfl

theorem tryPort_other {round i : Nat} (h : ∀ board : Name, w.probe round i ≠ some board.pcbName) :
    tryPort w round i = pure () := by
  unfold tryPort
  cases hprobe : w.probe round i with
  | none => rfl
  | some response =>
    rw [hprobe] at h
    have hmb : response ≠ Motherboard_PCB_Name := fun e => h .motherboard (congrArg _ e)
    have hbc : response ≠ BlueCoin_PCB_Name := fun e => h .blueCoin (congrArg _ e)
    simp only [if_neg hmb, if_neg hbc]
    rfl

/-- An iteration: it raises where the port refuses, else the board that it names has its port. -/
theorem tryPort_cases {round i : Nat} (hi : i < w.COM_List.length) (s : Vars) :
    (RefusesAt w round i ∧ tryPort w round i s = .error .raised s) ∨
    (¬ RefusesAt w round i ∧ ∃ s', tryPort w round i s = .ok () s' ∧ ∀ board : Name,
      s'.com board ≠ none ↔ s.com board ≠ none ∨ w.probe round i = some board.pcbName) := by
  by_cases hnamed : ∃ board : Name, w.probe round i = some board.pcbName
  · obtain ⟨board, hboard⟩ := hnamed
    rw [tryPort_named hboard]
    cases hreopen : w.reopen round i with
    | none => exact .inl ⟨⟨⟨board, hboard⟩, hreopen⟩, by cases board <;> rfl⟩
    | some u =>
      refine .inr ⟨fun h => ?_, _, reopen_some _ _ u s, fun other => ?_⟩
      · have := h.2
        rw [hreopen] at this
        cases this
      · rw [com_found, hboard]
        by_cases he : other = board
        · simp [he, hi]
        · have hne : board.pcbName ≠ other.pcbName := fun h => he (pcbName_inj h).symm
          simp [he, hne]
  · rw [not_exists] at hnamed
    rw [tryPort_other hnamed]
    exact .inr ⟨fun h => h.1.elim hnamed, s, rfl, fun board => by simp [hnamed board]⟩

/-- **A round**: it raises where a port refuses, else the boards that are named have their ports,
and the others keep what they had. -/
theorem round_cases {round : Nat} (is : List Nat) : ∀ s, (∀ i ∈ is, i < w.COM_List.length) →
    ((∃ i ∈ is, RefusesAt w round i) ∧ ∃ s', forM is (tryPort w round) s = .error .raised s') ∨
    ((∀ i ∈ is, ¬ RefusesAt w round i) ∧ ∃ s', forM is (tryPort w round) s = .ok () s' ∧
      ∀ board : Name, s'.com board ≠ none ↔
        s.com board ≠ none ∨ ∃ i ∈ is, w.probe round i = some board.pcbName) := by
  induction is with
  | nil => exact fun s _ => .inr ⟨by simp, s, rfl, by simp⟩
  | cons i is ih =>
    intro s hlen
    have hstep : forM (i :: is) (tryPort w round) s =
        (tryPort w round i >>= fun _ => forM is (tryPort w round)) s := rfl
    have hrest := fun j hj => hlen j (List.mem_cons_of_mem i hj)
    rw [hstep]
    simp only [bind, EStateM.bind]
    rcases tryPort_cases (hlen i List.mem_cons_self) s with ⟨hrefuses, hrun⟩ | ⟨hno, s₁, hrun, hcom⟩
    · rw [hrun]
      exact .inl ⟨⟨i, List.mem_cons_self, hrefuses⟩, s, rfl⟩
    · rw [hrun]
      rcases ih s₁ hrest with ⟨⟨j, hj, hrefuses⟩, hend⟩ | ⟨hnone, s', hend, hcom'⟩
      · exact .inl ⟨⟨j, List.mem_cons_of_mem i hj, hrefuses⟩, hend⟩
      · refine .inr ⟨?_, s', hend, fun board => ?_⟩
        · rw [List.forall_mem_cons]
          exact ⟨hno, hnone⟩
        · rw [hcom', hcom, List.exists_mem_cons_iff, or_assoc]

/-! ## The rounds -/

theorem search_succ (w : World) (fuel round : Nat) (s : Vars) :
    search w (fuel + 1) round s =
      if s.COM_Motherboard = none ∨ s.COM_BlueCoin = none then
        (forM (List.range w.COM_List.length) (tryPort w round) >>= fun _ =>
          search w fuel (round + 1)) s
      else .ok () s := by
  rw [search]
  simp only [bind, EStateM.bind, get, getThe, MonadStateOf.get, EStateM.get]
  split <;> rfl

theorem missing_iff (s : Vars) :
    (s.COM_Motherboard = none ∨ s.COM_BlueCoin = none) ↔ ∃ board : Name, s.com board = none := by
  constructor
  · rintro (h | h)
    · exact ⟨.motherboard, h⟩
    · exact ⟨.blueCoin, h⟩
  · rintro ⟨board, h⟩
    cases board with
    | motherboard => exact .inl h
    | blueCoin => exact .inr h

theorem search_round {fuel round : Nat} {s : Vars} (hmissing : ∃ board : Name, s.com board = none) :
    ((∃ i < w.COM_List.length, RefusesAt w round i) ∧
      ∃ s', search w (fuel + 1) round s = .error .raised s') ∨
    ((∀ i < w.COM_List.length, ¬ RefusesAt w round i) ∧
      ∃ s', search w (fuel + 1) round s = search w fuel (round + 1) s' ∧
        ∀ board : Name, s'.com board ≠ none ↔ s.com board ≠ none ∨
          ∃ i < w.COM_List.length, w.probe round i = some board.pcbName) := by
  have hround := @round_cases w round (List.range w.COM_List.length) s
    fun i hi => List.mem_range.1 hi
  simp only [List.mem_range] at hround
  rw [search_succ, if_pos ((missing_iff s).2 hmissing)]
  simp only [bind, EStateM.bind]
  rcases hround with ⟨hrefuses, s', hrun⟩ | ⟨hno, s', hrun, hcom⟩
  · rw [hrun]
    exact .inl ⟨hrefuses, s', rfl⟩
  · rw [hrun]
    exact .inr ⟨hno, s', rfl, hcom⟩

/-- **The search does not end** once a round has passed without a board and without an
exception. -/
theorem search_stuck {board : Name} (habsent : ¬ Present w board)
    (hno : ∀ i < w.COM_List.length, ¬ RefusesAt w 0 i) (fuel : Nat) : ∀ round s,
    s.com board = none → ∃ s', search w.fixed fuel round s = .error .searching s' := by
  induction fuel with
  | zero => exact fun round s _ => ⟨s, rfl⟩
  | succ fuel ih =>
    intro round s hs
    have hround := @search_round w.fixed fuel round s ⟨board, hs⟩
    rcases hround with ⟨⟨i, hi, hrefuses⟩, -⟩ | ⟨-, s', hrun, hcom⟩
    · exact absurd hrefuses (hno i hi)
    · rw [hrun]
      refine ih (round + 1) s' (by_contra fun hfound => ?_)
      rcases (hcom board).1 hfound with h | h
      · exact h hs
      · exact habsent h

/-- **The search ends as it should** iff both boards are among the ports, or one of them answers and
cannot be opened again. -/
theorem discovers_iff (w : World) :
    Discovers w.fixed ↔
      (∀ board, Present w board) ∨ ∃ i < w.COM_List.length, RefusesAt w 0 i := by
  constructor
  · intro h
    by_contra hno
    rw [not_or, not_forall] at hno
    obtain ⟨⟨board, habsent⟩, hnone⟩ := hno
    obtain ⟨fuel, hends⟩ := h.ends
    obtain ⟨s, hs⟩ := search_stuck habsent (fun i hi hr => hnone ⟨i, hi, hr⟩) fuel 0 .start
      (by cases board <;> rfl)
    exact hends s hs
  · intro h
    have hstart : ∃ board : Name, Vars.start.com board = none := ⟨.motherboard, rfl⟩
    by_cases hrefuses : ∃ i < w.COM_List.length, RefusesAt w 0 i
    · obtain ⟨s, hs⟩ : ∃ s, search w.fixed 1 0 .start = .error .raised s := by
        rcases @search_round w.fixed 0 0 _ hstart with ⟨-, h⟩ | ⟨hno, -⟩
        · exact h
        · obtain ⟨i, hi, hr⟩ := hrefuses
          exact absurd hr (hno i hi)
      have hcode : exitStatus (script w.fixed 1 .start) = some 1 := by rw [script_error hs]; rfl
      refine ⟨⟨1, fun t ht => ?_⟩, fun board _ => ⟨1, 1, hcode, by decide⟩⟩
      rw [hs] at ht
      cases ht
    · have hpresent := h.resolve_right hrefuses
      refine ⟨⟨2, fun t ht => ?_⟩, fun board habsent => absurd (hpresent board) habsent⟩
      rcases @search_round w.fixed 1 0 _ hstart with ⟨hr, -⟩ | ⟨-, s', hrun, hcom⟩
      · exact hrefuses hr
      · have hfound : ¬ (s'.COM_Motherboard = none ∨ s'.COM_BlueCoin = none) := by
          rw [missing_iff]
          rintro ⟨board, hboard⟩
          exact (hcom board).2 (.inr (hpresent board)) hboard
        rw [hrun, search_succ, if_neg hfound] at ht
        cases ht

def nobody : World where
  COM_List := []
  probe := fun _ _ => none
  reopen := fun _ _ => none
  motherboard := ⟨none, none, none, none⟩
  blueCoin := ⟨none, none, none, none⟩

/-- **Without ports the loop is empty** and goes round for ever. -/
theorem nobody_stuck :
    (∀ fuel, exitStatus (script nobody.fixed fuel .start) = none) ∧ ¬ Discovers nobody.fixed := by
  have habsent : ¬ Present nobody .motherboard := by
    rintro ⟨i, hi, -⟩
    exact absurd hi (Nat.not_lt_zero i)
  have hstuck := fun fuel => search_stuck habsent (fun i hi => absurd hi (Nat.not_lt_zero i)) fuel 0
    Vars.start rfl
  refine ⟨fun fuel => ?_, fun h => ?_⟩
  · obtain ⟨s, hs⟩ := hstuck fuel
    rw [script_error hs]
    rfl
  · obtain ⟨fuel, hends⟩ := h.ends
    obtain ⟨s, hs⟩ := hstuck fuel
    exact hends s hs

/-! ## The machine -/

/-- A child that runs the script ends with the script. -/
def EndsWith (w : World) (status : WaitStatus) : Prop :=
  ∃ fuel code, exitStatus (script w fuel .start) = some code ∧ status = .exited code

/-- **A start request without a board** leaves the machine in `Transition`, whatever the threads do:
every routine is turned away, resetting included. -/
theorem stays_in_transition {w : World} {board : Name} (habsent : ¬ Present w board)
    (hno : ∀ i < w.COM_List.length, ¬ RefusesAt w 0 i) {port : Text} {c c' : FirmwareFSM.Config}
    (h : FirmwareFSM.Reachable port c) {t : Tid} {pid : Pid}
    (pc : c.pc t = .wait .startFirmware pid) (running : ⟨pid, none⟩ ∈ c.children)
    {ls : List FirmwareFSM.Label} (hrun : Lts.run FirmwareFSM.step c ls = some c')
    (hchild : ∀ status, FirmwareFSM.Label.exit pid status ∈ ls → EndsWith w.fixed status) :
    c'.state = .transition ∧
      ∀ op : FirmwareFSM.Op, c'.checkState op.routine.expectedStates = false := by
  refine (FirmwareFSM.waits_for_child h pc running hrun fun status hmem => ?_).2
  obtain ⟨fuel, code, hcode, -⟩ := hchild status hmem
  obtain ⟨s, hs⟩ := search_stuck habsent hno fuel 0 .start (by cases board <;> rfl)
  rw [script_error hs] at hcode
  cases hcode

end BootloaderStart

end MbDaemon
