import Mathlib

/-!
# Command trees

A tool that reads its arguments one by one walks down a tree: each word leads to the next node, to a
command, or nowhere. `parse` gives the command, or why the walk ended and how many words it had read.
The command lines are the words on a way to a command (`Line`), and words are `Viable` when they
begin one. Where no way down is a dead end (`Live`), the walk ends with the command whose line the
words begin with, if there is one, and otherwise with the first word that leads away from all lines,
or at the end of the words (`parse_ok_iff`, `parse_error_iff`).
-/

namespace CommandTree

inductive Tree (T C : Type) where
  | command (c : C)
  | unknown
  | next (on : T → Tree T C)

/-- Why a walk ended without a command. -/
inductive Error where
  | unexpectedEnd
  | unknownWord
  deriving DecidableEq, Repr

variable {T C : Type}

/-- The command, or the error with the number of words read. -/
def parse : Tree T C → List T → Except (Error × Nat) C
  | .command c, _ => .ok c
  | .unknown, _ => .error (.unknownWord, 0)
  | .next _, [] => .error (.unexpectedEnd, 0)
  | .next on, t :: ts =>
    match parse (on t) ts with
    | .ok c => .ok c
    | .error (e, n) => .error (e, n + 1)

inductive Line : Tree T C → List T → C → Prop where
  | command (c : C) : Line (.command c) [] c
  | next {on : T → Tree T C} {t : T} {ts : List T} {c : C} :
      Line (on t) ts c → Line (.next on) (t :: ts) c

def Viable (tree : Tree T C) (ts : List T) : Prop := ∃ line c, Line tree line c ∧ ts <+: line

/-- The words do not begin with a command line. -/
def Incomplete (tree : Tree T C) (ts : List T) : Prop := ∀ line c, Line tree line c → ¬ line <+: ts

/-- Every node that can be reached leads on. -/
def Live : Tree T C → Prop
  | .command _ => True
  | .unknown => True
  | .next on => (∃ t, on t ≠ .unknown) ∧ ∀ t, Live (on t)

/-- Where the walk ends, and why. -/
inductive Stops (tree : Tree T C) (ts : List T) : Error → Nat → Prop where
  | unexpectedEnd (viable : Viable tree ts) (incomplete : Incomplete tree ts) :
      Stops tree ts .unexpectedEnd ts.length
  | unknownWord {before rest : List T} {t : T} (words : ts = before ++ t :: rest)
      (viable : Viable tree before) (unknown : ¬ Viable tree (before ++ [t]))
      (incomplete : Incomplete tree ts) : Stops tree ts .unknownWord (before.length + 1)

variable {tree : Tree T C} {ts : List T} {c : C}

theorem Viable.of_prefix {ts' : List T} (h : Viable tree ts) (hpre : ts' <+: ts) :
    Viable tree ts' := by
  obtain ⟨line, c, hline, hts⟩ := h
  exact ⟨line, c, hline, hpre.trans hts⟩

theorem viable_cons {on : T → Tree T C} {t : T} :
    Viable (.next on) (t :: ts) ↔ Viable (on t) ts := by
  constructor
  · rintro ⟨line, c, hline, hts⟩
    cases hline with
    | next h =>
      obtain ⟨rfl, htail⟩ := List.cons_prefix_cons.1 hts
      exact ⟨_, c, h, htail⟩
  · rintro ⟨line, c, hline, hts⟩
    exact ⟨t :: line, c, .next hline, List.cons_prefix_cons.2 ⟨rfl, hts⟩⟩

theorem incomplete_cons {on : T → Tree T C} {t : T} :
    Incomplete (.next on) (t :: ts) ↔ Incomplete (on t) ts := by
  constructor
  · intro h line c hline hpre
    exact h (t :: line) c (.next hline) (List.cons_prefix_cons.2 ⟨rfl, hpre⟩)
  · rintro h line c hline hpre
    cases hline with
    | next hline =>
      obtain ⟨rfl, htail⟩ := List.cons_prefix_cons.1 hpre
      exact h _ c hline htail

theorem Live.line (h : Live tree) (hne : tree ≠ .unknown) : ∃ line c, Line tree line c := by
  induction tree with
  | command c => exact ⟨[], c, .command c⟩
  | unknown => exact absurd rfl hne
  | next on ih =>
    obtain ⟨⟨t, ht⟩, hall⟩ := h
    obtain ⟨line, c, hline⟩ := ih t (hall t) ht
    exact ⟨t :: line, c, .next hline⟩

theorem live_ite {p : Prop} [Decidable p] {tree' : Tree T C} (h : Live tree) (h' : Live tree') :
    Live (if p then tree else tree') := by
  split
  · exact h
  · exact h'

theorem viable_nil (h : Live tree) : Viable tree [] ↔ tree ≠ .unknown := by
  constructor
  · rintro ⟨line, c, hline, -⟩ rfl
    cases hline
  · intro hne
    obtain ⟨line, c, hline⟩ := h.line hne
    exact ⟨line, c, hline, List.nil_prefix⟩

/-- **The walk comes to a command** iff the words begin with its line. -/
theorem parse_ok_iff : parse tree ts = .ok c ↔ ∃ line, Line tree line c ∧ line <+: ts := by
  induction tree generalizing ts with
  | command d =>
    constructor
    · intro h
      cases h
      exact ⟨[], .command _, List.nil_prefix⟩
    · rintro ⟨line, hline, -⟩
      cases hline
      rfl
  | unknown => exact ⟨fun h => (by cases h), fun ⟨line, hline, _⟩ => (by cases hline)⟩
  | next on ih =>
    cases ts with
    | nil =>
      refine ⟨fun h => (by cases h), fun ⟨line, hline, hpre⟩ => ?_⟩
      cases hline with
      | next hline => cases List.prefix_nil.1 hpre
    | cons t ts =>
      have hstep : parse (.next on) (t :: ts) = .ok c ↔ parse (on t) ts = .ok c := by
        simp only [parse]
        cases parse (on t) ts with
        | ok d => rfl
        | error e => exact ⟨fun h => (by cases h), fun h => (by cases h)⟩
      rw [hstep, ih]
      constructor
      · rintro ⟨line, hline, hpre⟩
        exact ⟨t :: line, .next hline, List.cons_prefix_cons.2 ⟨rfl, hpre⟩⟩
      · rintro ⟨line, hline, hpre⟩
        cases hline with
        | next hline =>
          obtain ⟨rfl, htail⟩ := List.cons_prefix_cons.1 hpre
          exact ⟨_, hline, htail⟩

theorem Stops.cons {on : T → Tree T C} {t : T} {e : Error} {n : Nat} (h : Stops (on t) ts e n) :
    Stops (.next on) (t :: ts) e (n + 1) := by
  cases h with
  | unexpectedEnd viable incomplete =>
    exact .unexpectedEnd (viable_cons.2 viable) (incomplete_cons.2 incomplete)
  | @unknownWord before rest u words viable unknown incomplete =>
    have hwords : t :: ts = t :: before ++ u :: rest := by rw [words]; rfl
    exact .unknownWord hwords (viable_cons.2 viable) (fun hv => unknown (viable_cons.1 hv))
      (incomplete_cons.2 incomplete)

theorem stops_of_parse (hl : Live tree) (hne : tree ≠ .unknown) {e : Error} {n : Nat}
    (h : parse tree ts = .error (e, n)) : Stops tree ts e n := by
  induction tree generalizing ts n with
  | command d => cases h
  | unknown => exact absurd rfl hne
  | next on ih =>
    cases ts with
    | nil =>
      cases h
      refine .unexpectedEnd ((viable_nil hl).2 hne) fun line c hline hpre => ?_
      cases hline with
      | next hline => cases List.prefix_nil.1 hpre
    | cons t ts =>
      simp only [parse] at h
      by_cases hu : on t = .unknown
      · rw [hu] at h
        cases h
        have hwords : t :: ts = [] ++ t :: ts := rfl
        refine .unknownWord hwords ((viable_nil hl).2 hne) (fun hv => ?_) ?_
        · exact (viable_nil (hl.2 t)).1 (viable_cons.1 hv) hu
        · refine incomplete_cons.2 fun line c hline => ?_
          rw [hu] at hline
          cases hline
      · cases hparse : parse (on t) ts with
        | ok d => rw [hparse] at h; cases h
        | error en =>
          obtain ⟨e', m⟩ := en
          rw [hparse] at h
          cases h
          exact (ih t (hl.2 t) hu hparse).cons

theorem Stops.incomplete {e : Error} {n : Nat} (h : Stops tree ts e n) : Incomplete tree ts := by
  cases h with
  | unexpectedEnd _ incomplete => exact incomplete
  | unknownWord _ _ _ incomplete => exact incomplete

/-- A word that leads away is not behind another one that does. -/
theorem length_le_of_viable {before rest before' rest' : List T} {t t' : T}
    (words : before ++ t :: rest = before' ++ t' :: rest') (viable : Viable tree before')
    (unknown : ¬ Viable tree (before ++ [t])) : before'.length ≤ before.length := by
  by_contra hlt
  refine unknown (viable.of_prefix ?_)
  have hlonger : before ++ [t] <+: before ++ t :: rest := ⟨rest, by simp⟩
  have hbefore : before' <+: before ++ t :: rest := by
    rw [words]
    exact List.prefix_append _ _
  refine List.prefix_of_prefix_length_le hlonger hbefore ?_
  simp only [List.length_append, List.length_singleton]
  omega

theorem Stops.unique {e e' : Error} {n n' : Nat} (h : Stops tree ts e n)
    (h' : Stops tree ts e' n') : e = e' ∧ n = n' := by
  cases h with
  | unexpectedEnd viable incomplete =>
    cases h' with
    | unexpectedEnd => exact ⟨rfl, rfl⟩
    | @unknownWord before rest t words _ unknown =>
      exact absurd (viable.of_prefix ⟨rest, by simp [words]⟩) unknown
  | @unknownWord before rest t words viable unknown incomplete =>
    cases h' with
    | unexpectedEnd viable' => exact absurd (viable'.of_prefix ⟨rest, by simp [words]⟩) unknown
    | unknownWord words' viable' unknown' =>
      have hle := length_le_of_viable (words.symm.trans words') viable' unknown
      have hge := length_le_of_viable (words'.symm.trans words) viable unknown'
      exact ⟨rfl, by omega⟩

/-- **The walk ends without a command** where the words first lead away from all lines, or at their
end. -/
theorem parse_error_iff (hl : Live tree) (hne : tree ≠ .unknown) {e : Error} {n : Nat} :
    parse tree ts = .error (e, n) ↔ Stops tree ts e n := by
  refine ⟨stops_of_parse hl hne, fun h => ?_⟩
  cases hparse : parse tree ts with
  | ok c =>
    obtain ⟨line, hline, hpre⟩ := parse_ok_iff.1 hparse
    exact absurd hpre (h.incomplete line c hline)
  | error en =>
    obtain ⟨rfl, rfl⟩ := h.unique (stops_of_parse hl hne hparse)
    rfl

end CommandTree
