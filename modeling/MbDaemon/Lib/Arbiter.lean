import MbDaemon.Lib.Lts
import Mathlib

/-!
# A sequential arbiter

One thing that clients take and give back, with a note about who took it last. Any client may give
the thing back. `step` is the sequential object: a take is legal when the thing is free, a give when
it is taken, and a look when it sees what there is. For a legal sequence of these events takes and
gives alternate (`alternate`), the state is what the last of them left (`held_iff`, `note_eq`), and
between two takes there is a give (`give_between`).
-/

namespace Arbiter

variable {Client Note Aside : Type}

/-- Who did what. `aside` is what a look sees of something else at the same moment. -/
inductive Event (Client Note Aside : Type) where
  | take (c : Client) (note : Note)
  | give (c : Client)
  | look (c : Client) (held : Bool) (note : Note) (aside : Aside)

structure State (Note : Type) where
  held : Bool
  note : Note

def State.init (note : Note) : State Note := ⟨false, note⟩

def Event.client : Event Client Note Aside → Client
  | take c _ | give c | look c _ _ _ => c

/-- Whether the event takes the thing or gives it back; a look does neither. -/
def Event.change : Event Client Note Aside → Option Bool
  | take _ _ => some true
  | give _ => some false
  | look _ _ _ _ => none

def Event.noted : Event Client Note Aside → Option Note
  | take _ note => some note
  | _ => none

def changes (es : List (Event Client Note Aside)) : List Bool := es.filterMap Event.change

def notes (es : List (Event Client Note Aside)) : List Note := es.filterMap Event.noted

/-- What the event makes of the state, legal or not. -/
def State.after (s : State Note) : Event Client Note Aside → State Note
  | .take _ note => ⟨true, note⟩
  | .give _ => { s with held := false }
  | .look _ _ _ _ => s

section

variable [DecidableEq Note]

/-- The sequential object. -/
def step (s : State Note) (e : Event Client Note Aside) : Option (State Note) :=
  match e with
  | .take _ _ => if s.held then none else some (s.after e)
  | .give _ => if s.held then some (s.after e) else none
  | .look _ held note _ => if s.held = held ∧ s.note = note then some s else none

variable {s s' : State Note} {es : List (Event Client Note Aside)} {note₀ : Note}

theorem step_eq {e : Event Client Note Aside} (h : step s e = some s') :
    s' = s.after e ∧ e.change ≠ some s.held := by
  cases e with
  | take c note => cases hs : s.held <;> simp_all [step, Event.change]
  | give c => cases hs : s.held <;> simp_all [step, Event.change]
  | look c held note aside => simp_all [step, State.after, Event.change]

theorem held_iff (h : Lts.run step (State.init note₀) es = some s) :
    s.held = ((changes es).getLast?.getD false) := by
  refine Lts.run_induction (P := fun es s => s.held = ((changes es).getLast?.getD false)) rfl
    (fun es s e s' _ ih hs => ?_) h
  obtain ⟨rfl, -⟩ := step_eq hs
  cases e <;> simp_all [changes, State.after, Event.change]

theorem note_eq (h : Lts.run step (State.init note₀) es = some s) :
    s.note = (notes es).getLast?.getD note₀ := by
  refine Lts.run_induction (P := fun es s => s.note = (notes es).getLast?.getD note₀) rfl
    (fun es s e s' _ ih hs => ?_) h
  obtain ⟨rfl, -⟩ := step_eq hs
  cases e <;> simp_all [notes, State.after, Event.noted]

/-- **Takes and gives strictly alternate, a take first.** -/
theorem alternate (h : Lts.run step (State.init note₀) es = some s) :
    (changes es).IsChain (· ≠ ·) ∧ (changes es).head? ≠ some false := by
  refine Lts.run_induction
    (P := fun es _ => (changes es).IsChain (· ≠ ·) ∧ (changes es).head? ≠ some false)
    ⟨List.IsChain.nil, by simp [changes]⟩ (fun es s e s' hes ih hs => ?_) h
  have hlast := held_iff hes
  obtain ⟨-, hne⟩ := step_eq hs
  have hsnoc : changes (es ++ [e]) = changes es ++ e.change.toList := by
    cases e <;> simp [changes, Event.change]
  rw [hsnoc]
  cases hc : e.change with
  | none => simpa using ih
  | some b =>
    rw [hc, hlast] at hne
    refine ⟨?_, ?_⟩
    · refine List.isChain_append.2 ⟨ih.1, List.isChain_singleton b, fun x hx y hy => ?_⟩
      rw [Option.mem_def] at hx
      simp only [hx, Option.getD_some] at hne
      have hby : b = y := by simpa using hy
      subst hby
      exact fun hxb => hne (by rw [hxb])
    · rw [List.head?_append]
      cases hh : (changes es).head? with
      | some x => rw [hh] at ih; simpa using ih.2
      | none => simp_all

/-- **Between two takes somebody gives the thing back.** -/
theorem give_between {x y : Client} {i j : Note} {a b c : List (Event Client Note Aside)}
    (h : Lts.run step (State.init note₀) (a ++ .take x i :: (b ++ .take y j :: c)) = some s) :
    ∃ v b₁ b₂, b = b₁ ++ .give v :: b₂ := by
  have hchain := (alternate h).1
  by_contra hno
  have hb : ∀ e ∈ b, e.change ≠ some false := by
    intro e he hc
    cases e with
    | give v =>
      obtain ⟨b₁, b₂, rfl⟩ := List.append_of_mem he
      exact hno ⟨v, b₁, b₂, rfl⟩
    | take | look => cases hc
  -- the changes from the first take on are all takes, and there are at least two of them
  have htrue : ∀ z ∈ changes b, z = true := by
    intro z hz
    obtain ⟨e, he, hez⟩ := List.mem_filterMap.1 hz
    have := hb e he
    rw [hez] at this
    simpa using this
  have hsplit : changes (a ++ .take x i :: (b ++ .take y j :: c)) =
      changes a ++ true :: (changes b ++ true :: changes c) := by
    simp [changes, Event.change]
  rw [hsplit] at hchain
  have hright := (List.isChain_append.1 hchain).2.1
  cases hcb : changes b with
  | nil =>
    rw [hcb] at hright
    exact (List.isChain_cons_cons.1 hright).1 rfl
  | cons z zs =>
    rw [hcb] at hright
    exact (List.isChain_cons_cons.1 hright).1 (htrue z (by simp [hcb])).symm

/-- A client that has taken the thing and not given it back since lost it to a third party, if
another client takes it behind that. -/
theorem first_loses {x y : Client} {i j : Note} {a b m b' : List (Event Client Note Aside)}
    (h : Lts.run step (State.init note₀) (a ++ .take x i :: b) = some s) (hxy : x ≠ y)
    (hm : .take x i :: b = m ++ .take y j :: b') (hg : .give x ∉ b) :
    ∃ v m₂ m₃, v ≠ x ∧ b = m₂ ++ .give v :: (m₃ ++ .take y j :: b') := by
  cases m with
  | nil =>
    simp only [List.nil_append, List.cons.injEq, Event.take.injEq] at hm
    exact absurd hm.1.1 hxy
  | cons e m =>
    simp only [List.cons_append, List.cons.injEq] at hm
    obtain ⟨rfl, rfl⟩ := hm
    obtain ⟨v, m₂, m₃, rfl⟩ := give_between h
    refine ⟨v, m₂, m₃, ?_, by rw [List.append_assoc, List.cons_append]⟩
    rintro rfl
    exact hg (by simp)

/-- Of two clients that have taken the thing and have not given it back since, the first lost it to
a third party: between the takes they have not given back somebody else gave it back. -/
theorem two_takers {x y : Client} {i j : Note} {a b a' b' : List (Event Client Note Aside)}
    (h : Lts.run step (State.init note₀) es = some s) (hxy : x ≠ y)
    (hx : es = a ++ .take x i :: b) (hy : es = a' ++ .take y j :: b')
    (hgx : .give x ∉ b) (hgy : .give y ∉ b') :
    ∃ p q k l v m₁ m₂ m₃ m₄, (p = x ∧ q = y ∨ p = y ∧ q = x) ∧ v ≠ p ∧
      es = m₁ ++ .take p k :: (m₂ ++ .give v :: (m₃ ++ .take q l :: m₄)) ∧
      .give p ∉ m₂ ++ .give v :: (m₃ ++ .take q l :: m₄) ∧ .give q ∉ m₄ := by
  have heq : a ++ .take x i :: b = a' ++ .take y j :: b' := hx.symm.trans hy
  rcases List.append_eq_append_iff.1 heq with ⟨m, rfl, hm⟩ | ⟨m, rfl, hm⟩
  · obtain ⟨v, m₂, m₃, hv, rfl⟩ := first_loses (hx ▸ h) hxy hm hgx
    exact ⟨x, y, i, j, v, a, m₂, m₃, b', .inl ⟨rfl, rfl⟩, hv, hx, hgx, hgy⟩
  · obtain ⟨v, m₂, m₃, hv, rfl⟩ := first_loses (hy ▸ h) hxy.symm hm hgy
    exact ⟨y, x, j, i, v, a', m₂, m₃, b, .inr ⟨rfl, rfl⟩, hv, hy, hgy, hgx⟩

end

end Arbiter
