import Mathlib

/-!
# Runs of a labelled step function

`step s l` is the successor of `s` under the label `l`, if `l` is enabled in `s`. `run step s ls`
plays a list of labels from `s`; because a label determines its successor, a prefix of the labels
determines the state in between, and `run` of that prefix names it. `history` collects what an
observer sees along the run. `run_induction` is the invariant rule for runs, with the labels played
so far at hand; `Along` says that every step of a run is taken in a state that permits it. `Leads` is
a run with labels of one kind, and `leads_of_descent` the rule that a measure gives for reaching a
state by such a run.
-/

namespace Lts

variable {S L E : Type}

/-- The state the labels lead to, if each of them is enabled when its turn comes. -/
def run (step : S → L → Option S) : S → List L → Option S
  | s, [] => some s
  | s, l :: ls =>
    match step s l with
    | some s' => run step s' ls
    | none => none

/-- What an observer sees along a run: `obs` says what each step shows. -/
def history (step : S → L → Option S) (obs : S → L → List E) : S → List L → List E
  | _, [] => []
  | s, l :: ls =>
    obs s l ++
      match step s l with
      | some s' => history step obs s' ls
      | none => []

section

variable {step : S → L → Option S} {obs : S → L → List E}

@[simp] theorem run_nil (s : S) : run step s [] = some s := rfl

/-- A run tried out: it goes through, and ends in a state with the property. -/
theorem run_reaches {P : S → Prop} [DecidablePred P] {s : S} {ls : List L}
    (h : (run step s ls).any (fun t => decide (P t)) = true) :
    ∃ t, run step s ls = some t ∧ P t := by
  obtain ⟨t, ht, hp⟩ := (Option.any_eq_true _ _).1 h
  exact ⟨t, ht, of_decide_eq_true hp⟩

theorem run_cons {s s' : S} {l : L} {ls : List L} (h : step s l = some s') :
    run step s (l :: ls) = run step s' ls := by
  simp [run, h]

theorem run_append {s t : S} {ls : List L} (h : run step s ls = some t) (ms : List L) :
    run step s (ls ++ ms) = run step t ms := by
  induction ls generalizing s with
  | nil => cases h; rfl
  | cons l ls ih =>
    simp only [run, List.cons_append] at h ⊢
    cases hl : step s l with
    | none => rw [hl] at h; cases h
    | some s' => rw [hl] at h; exact ih h

theorem run_append_inv {s t : S} {ls ms : List L} (h : run step s (ls ++ ms) = some t) :
    ∃ m, run step s ls = some m ∧ run step m ms = some t := by
  induction ls generalizing s with
  | nil => exact ⟨s, rfl, h⟩
  | cons l ls ih =>
    simp only [run, List.cons_append] at h ⊢
    cases hl : step s l with
    | none => rw [hl] at h; cases h
    | some s' => rw [hl] at h; exact ih h

theorem run_snoc {s t : S} {ls : List L} (h : run step s ls = some t) (l : L) :
    run step s (ls ++ [l]) = step t l := by
  rw [run_append h]
  simp only [run]
  cases step t l <;> rfl

theorem run_snoc_inv {s t : S} {ls : List L} {l : L} (h : run step s (ls ++ [l]) = some t) :
    ∃ m, run step s ls = some m ∧ step m l = some t := by
  obtain ⟨m, hm, -⟩ := run_append_inv h
  exact ⟨m, hm, by rw [← run_snoc hm, h]⟩

/-- **The invariant rule.** What holds before the first step and is carried over by each step holds
of every run, with the labels played so far at hand. -/
theorem run_induction {s₀ : S} {P : List L → S → Prop} (init : P [] s₀)
    (next : ∀ ls s l s', run step s₀ ls = some s → P ls s → step s l = some s' →
      P (ls ++ [l]) s') :
    ∀ {ls s}, run step s₀ ls = some s → P ls s := by
  intro ls
  induction ls using List.reverseRecOn with
  | nil => intro s h; cases h; exact init
  | append_singleton ls l ih =>
    intro s h
    obtain ⟨m, hm, hl⟩ := run_snoc_inv h
    exact next ls m l s hm (ih hm) hl

theorem run_invariant {s₀ : S} {P : S → Prop} (init : P s₀)
    (next : ∀ s l s', P s → step s l = some s' → P s') {ls : List L} {s : S}
    (h : run step s₀ ls = some s) : P s :=
  run_induction (P := fun _ s => P s) init (fun _ s l s' _ hs hl => next s l s' hs hl) h

theorem history_append {s t : S} {ls : List L} (h : run step s ls = some t) (ms : List L) :
    history step obs s (ls ++ ms) = history step obs s ls ++ history step obs t ms := by
  induction ls generalizing s with
  | nil => cases h; rfl
  | cons l ls ih =>
    simp only [run, history, List.cons_append] at h ⊢
    cases hl : step s l with
    | none => rw [hl] at h; cases h
    | some s' => rw [hl] at h; simp only [ih h, List.append_assoc]

theorem history_snoc {s t : S} {ls : List L} (h : run step s ls = some t) (l : L) :
    history step obs s (ls ++ [l]) = history step obs s ls ++ obs t l := by
  rw [history_append h]
  simp only [history]
  cases step t l <;> simp

/-- An observer who sees a part of what another one does, step by step, sees it along every run. -/
theorem history_hom {F : Type} {obs' : S → L → List F} (f : List E → List F) (hnil : f [] = [])
    (happend : ∀ xs ys, f (xs ++ ys) = f xs ++ f ys) (hobs : ∀ s l, obs' s l = f (obs s l)) (s : S)
    (ls : List L) : history step obs' s ls = f (history step obs s ls) := by
  induction ls generalizing s with
  | nil => exact hnil.symm
  | cons l ls ih =>
    rw [history, history, happend, hobs]
    congr 1
    cases step s l with
    | none => exact hnil.symm
    | some s' => exact ih s'

theorem history_mem {s t : S} {ls : List L} (h : run step s ls = some t) {e : E}
    (he : e ∈ history step obs s ls) :
    ∃ pre l post m, ls = pre ++ l :: post ∧ run step s pre = some m ∧ e ∈ obs m l := by
  induction ls generalizing s with
  | nil => cases he
  | cons l ls ih =>
    simp only [run] at h
    cases hl : step s l with
    | none => rw [hl] at h; cases h
    | some s' =>
      rw [hl] at h
      simp only [history, hl, List.mem_append] at he
      rcases he with he | he
      · exact ⟨[], l, ls, s, rfl, rfl, he⟩
      · obtain ⟨pre, l', post, m, rfl, hm, hobs⟩ := ih h he
        exact ⟨l :: pre, l', post, m, rfl, by rw [run_cons hl, hm], hobs⟩

/-- Every step of the run is taken in a state that permits it. -/
def Along (step : S → L → Option S) (permits : S → L → Prop) (s₀ : S) (ls : List L) : Prop :=
  ∀ pre l post, ls = pre ++ l :: post → ∀ s, run step s₀ pre = some s → permits s l

theorem Along.of_snoc {permits : S → L → Prop} {s₀ : S} {ls : List L} {l : L}
    (h : Along step permits s₀ (ls ++ [l])) :
    Along step permits s₀ ls ∧ ∀ s, run step s₀ ls = some s → permits s l := by
  refine ⟨fun pre l' post e s hs => ?_, h ls l [] rfl⟩
  exact h pre l' (post ++ [l]) (by simp [e]) s hs

/-- `Along`, tried out on the labels one by one. -/
def permitted (step : S → L → Option S) (permits : S → L → Prop)
    [∀ s l, Decidable (permits s l)] : S → List L → Bool
  | _, [] => true
  | s, l :: ls =>
    decide (permits s l) &&
      match step s l with
      | some s' => permitted step permits s' ls
      | none => true

theorem Along.nil {permits : S → L → Prop} {s₀ : S} : Along step permits s₀ [] :=
  fun pre l post e => by simp at e

theorem Along.cons {permits : S → L → Prop} {s s' : S} {l : L} {ls : List L}
    (hs : step s l = some s') (h : Along step permits s' ls) (hl : permits s l) :
    Along step permits s (l :: ls) := by
  intro pre l' post e t ht
  cases pre with
  | nil => cases e; cases ht; exact hl
  | cons x pre =>
    obtain ⟨rfl, e'⟩ := List.cons_eq_cons.1 e
    rw [run_cons hs] at ht
    exact h pre l' post e' t ht

theorem Along.of_permitted {permits : S → L → Prop} [∀ s l, Decidable (permits s l)] {s : S}
    {ls : List L} (h : permitted step permits s ls = true) : Along step permits s ls := by
  induction ls generalizing s with
  | nil => exact Along.nil
  | cons l ls ih =>
    simp only [permitted, Bool.and_eq_true, decide_eq_true_eq] at h
    obtain ⟨hl, hrest⟩ := h
    cases hs : step s l with
    | some s' => rw [hs] at hrest; exact Along.cons hs (ih hrest) hl
    | none =>
      intro pre x post e t ht
      cases pre with
      | nil => cases e; cases ht; exact hl
      | cons y pre =>
        obtain ⟨rfl, -⟩ := List.cons_eq_cons.1 e
        simp only [run, hs] at ht
        cases ht

theorem Along.snoc {permits : S → L → Prop} {s₀ s : S} {ls : List L} {l : L}
    (h : Along step permits s₀ ls) (hs : run step s₀ ls = some s) (hl : permits s l) :
    Along step permits s₀ (ls ++ [l]) := by
  intro pre l' post e t ht
  induction post using List.reverseRecOn with
  | nil =>
    obtain ⟨rfl, e'⟩ := List.append_inj' e rfl
    cases e'
    rw [hs] at ht
    cases ht
    exact hl
  | append_singleton post x _ =>
    rw [← List.cons_append, ← List.append_assoc] at e
    obtain ⟨e', -⟩ := List.append_inj' e rfl
    exact h pre l' post e' t ht

/-- The invariant rule for the runs whose every step is permitted. -/
theorem run_invariant_along {permits : S → L → Prop} {s₀ : S} {P : S → Prop} (init : P s₀)
    (next : ∀ s l s', P s → permits s l → step s l = some s' → P s') {ls : List L} {s : S}
    (h : run step s₀ ls = some s) (ha : Along step permits s₀ ls) : P s := by
  refine run_induction (P := fun ls s => Along step permits s₀ ls → P s)
    (fun _ => init) (fun ls s l s' hs ih hl ha => ?_) h ha
  obtain ⟨hpre, hlast⟩ := ha.of_snoc
  exact next s l s' (ih hpre) (hlast s hs) hl

/-- A property that a step keeps exactly where it is permitted holds of every state of a run iff
every step of the run is permitted. -/
theorem always_iff_along {permits : S → L → Prop} {s₀ : S} {P : S → Prop} (init : P s₀)
    (next : ∀ ls s l s', run step s₀ ls = some s → P s → step s l = some s' →
      (P s' ↔ permits s l)) :
    ∀ {ls t}, run step s₀ ls = some t →
      ((∀ pre s, pre <+: ls → run step s₀ pre = some s → P s) ↔ Along step permits s₀ ls) := by
  refine run_induction (P := fun ls _ => (∀ pre s, pre <+: ls → run step s₀ pre = some s → P s) ↔
    Along step permits s₀ ls) ?_ fun ls s l s' hs ih hl => ?_
  · refine iff_of_true (fun pre s hpre hrun => ?_) Along.nil
    cases List.prefix_nil.1 hpre
    cases hrun
    exact init
  have hlast : run step s₀ (ls ++ [l]) = some s' := by rw [run_snoc hs, hl]
  constructor
  · intro h
    have hbefore : Along step permits s₀ ls :=
      ih.1 fun pre t hpre => h pre t (hpre.trans (List.prefix_append _ _))
    refine hbefore.snoc hs ((next ls s l s' hs ?_ hl).1 (h _ s' (List.prefix_refl _) hlast))
    exact h ls s (List.prefix_append _ _) hs
  · intro ha pre t hpre hrun
    obtain ⟨hbefore, hpermits⟩ := ha.of_snoc
    rcases List.prefix_concat_iff.1 hpre with rfl | hpre
    · rw [hlast] at hrun
      cases hrun
      have hP : P s := ih.2 hbefore ls s (List.prefix_refl _) hs
      exact (next ls s l s' hs hP hl).2 (hpermits s hs)
    · exact ih.2 hbefore pre t hpre hrun

/-- Labels of one kind lead from a state to another. -/
def Leads (step : S → L → Option S) (own : L → Prop) (s t : S) : Prop :=
  ∃ ls, (∀ l ∈ ls, own l) ∧ run step s ls = some t

theorem Leads.refl {own : L → Prop} (s : S) : Leads step own s s := ⟨[], by simp, rfl⟩

theorem Leads.one {own : L → Prop} {s t : S} {l : L} (hl : own l) (h : step s l = some t) :
    Leads step own s t :=
  ⟨[l], by simpa using hl, run_cons h⟩

theorem Leads.trans {own : L → Prop} {s t u : S} (hst : Leads step own s t)
    (htu : Leads step own t u) : Leads step own s u := by
  obtain ⟨ls, hls, hs⟩ := hst
  obtain ⟨ms, hms, ht⟩ := htu
  refine ⟨ls ++ ms, fun l hl => ?_, by rw [run_append hs, ht]⟩
  rcases List.mem_append.1 hl with hl | hl
  · exact hls l hl
  · exact hms l hl

/-- **The descent rule.** If every state short of the goal has a step of the kind that goes down in a
well-founded order, such steps lead to the goal. -/
theorem leads_of_descent {own : L → Prop} {P goal : S → Prop} {α : Type} [Preorder α]
    [WellFoundedLT α] (rank : S → α)
    (next : ∀ s, P s → ¬ goal s → ∃ l s', own l ∧ step s l = some s' ∧ P s' ∧ rank s' < rank s)
    (s : S) (hs : P s) : ∃ t, Leads step own s t ∧ P t ∧ goal t := by
  induction s using (InvImage.wf rank (wellFounded_lt (α := α))).induction with
  | _ s ih =>
    by_cases hg : goal s
    · exact ⟨s, .refl s, hs, hg⟩
    · obtain ⟨l, s', hl, hstep, hs', hlt⟩ := next s hs hg
      obtain ⟨t, hlead, ht⟩ := ih s' hlt hs'
      exact ⟨t, (Leads.one hl hstep).trans hlead, ht⟩

end

end Lts
