import MbDaemon.Lib.Lts

/-!
# Owners of tokens

Owners hold at most one token each, and some tokens are out. `Exclusive` says that the tokens that
are out are the ones that are held, each by one owner. `Change` lists what may happen: an owner that
holds nothing takes a token that is not out, the owners trade what they hold, and an owner gives its
token back. A system whose steps are changes keeps its tokens exclusive, gives back only tokens that
are out, and each as often as it has been taken (`Simulates.exclusive`, `.returns`, `.balance`).
-/

namespace Ownership

variable {ι τ : Type}

inductive Event (τ : Type) where
  | taken (t : τ)
  | returned (t : τ)
  deriving DecidableEq, Repr

/-- The tokens that are out are held, each by one owner. -/
structure Exclusive (holds : ι → Option τ) (out : Finset τ) : Prop where
  held : ∀ t ∈ out, ∃ i, holds i = some t
  out : ∀ {i t}, holds i = some t → t ∈ out
  unique : ∀ {i j t}, holds i = some t → holds j = some t → i = j

theorem Exclusive.existsUnique {holds : ι → Option τ} {out : Finset τ} (h : Exclusive holds out)
    {t : τ} (ht : t ∈ out) : ∃! i, holds i = some t := by
  obtain ⟨i, hi⟩ := h.held t ht
  exact ⟨i, hi, fun j hj => h.unique hj hi⟩

theorem Exclusive.out_eq_empty {holds : ι → Option τ} {out : Finset τ} (h : Exclusive holds out)
    (hnone : ∀ i, holds i = none) : out = ∅ := by
  rw [Finset.eq_empty_iff_forall_notMem]
  intro t ht
  obtain ⟨i, hi⟩ := h.held t ht
  rw [hnone i] at hi
  cases hi

/-- Trading keeps every token with one owner. -/
theorem Exclusive.trade {holds : ι → Option τ} {out : Finset τ} (h : Exclusive holds out)
    (σ : Equiv.Perm ι) : Exclusive (holds ∘ σ) out where
  held t ht := by
    obtain ⟨i, hi⟩ := h.held t ht
    exact ⟨σ.symm i, by rw [Function.comp_apply, Equiv.apply_symm_apply, hi]⟩
  out hi := h.out hi
  unique hi hj := σ.injective (h.unique hi hj)

/-- Who holds a token after one owner's hands have changed. -/
theorem update_eq_some [DecidableEq ι] {holds : ι → Option τ} {i j : ι} {o : Option τ} {t : τ} :
    Function.update holds i o j = some t ↔ j = i ∧ o = some t ∨ j ≠ i ∧ holds j = some t := by
  by_cases hji : j = i
  · subst hji
    simp
  · simp [hji]

section

variable [DecidableEq ι] [DecidableEq τ] {holds holds' : ι → Option τ} {out out' : Finset τ}

theorem Exclusive.take (h : Exclusive holds out) {i : ι} {t : τ} (empty : holds i = none)
    (fresh : t ∉ out) : Exclusive (Function.update holds i (some t)) (insert t out) where
  held u hu := by
    rcases Finset.mem_insert.1 hu with rfl | hu
    · exact ⟨i, update_eq_some.2 (.inl ⟨rfl, rfl⟩)⟩
    · obtain ⟨j, hj⟩ := h.held u hu
      have hji : j ≠ i := by
        rintro rfl
        rw [empty] at hj
        cases hj
      exact ⟨j, update_eq_some.2 (.inr ⟨hji, hj⟩)⟩
  out {j u} hj := by
    rcases update_eq_some.1 hj with ⟨-, htu⟩ | ⟨-, hj⟩
    · cases htu
      exact Finset.mem_insert_self _ _
    · exact Finset.mem_insert_of_mem (h.out hj)
  unique {j k u} hj hk := by
    rcases update_eq_some.1 hj with ⟨hji, htu⟩ | ⟨-, hj⟩ <;>
      rcases update_eq_some.1 hk with ⟨hki, htu'⟩ | ⟨-, hk⟩
    · exact hji.trans hki.symm
    · cases htu
      exact absurd (h.out hk) fresh
    · cases htu'
      exact absurd (h.out hj) fresh
    · exact h.unique hj hk

theorem Exclusive.giveBack (h : Exclusive holds out) {i : ι} {t : τ} (hi : holds i = some t) :
    Exclusive (Function.update holds i none) (out.erase t) where
  held u hu := by
    obtain ⟨hne, hout⟩ := Finset.mem_erase.1 hu
    obtain ⟨j, hj⟩ := h.held u hout
    have hji : j ≠ i := by
      rintro rfl
      rw [hi] at hj
      exact hne (Option.some.inj hj).symm
    exact ⟨j, update_eq_some.2 (.inr ⟨hji, hj⟩)⟩
  out {j u} hj := by
    rcases update_eq_some.1 hj with ⟨-, hnone⟩ | ⟨hji, hj⟩
    · cases hnone
    · refine Finset.mem_erase.2 ⟨?_, h.out hj⟩
      rintro rfl
      exact hji (h.unique hj hi)
  unique {j k u} hj hk := by
    rcases update_eq_some.1 hj with ⟨-, hnone⟩ | ⟨-, hj⟩
    · cases hnone
    · rcases update_eq_some.1 hk with ⟨-, hnone⟩ | ⟨-, hk⟩
      · cases hnone
      · exact h.unique hj hk

/-- What may happen to the tokens. -/
inductive Change (holds : ι → Option τ) (out : Finset τ) :
    List (Event τ) → (ι → Option τ) → Finset τ → Prop where
  | take {i : ι} {t : τ} (empty : holds i = none) (fresh : t ∉ out) :
      Change holds out [.taken t] (Function.update holds i (some t)) (insert t out)
  | trade (σ : Equiv.Perm ι) : Change holds out [] (holds ∘ σ) out
  | giveBack {i : ι} {t : τ} (held : holds i = some t) :
      Change holds out [.returned t] (Function.update holds i none) (out.erase t)

variable {es : List (Event τ)}

theorem Change.swap (holds : ι → Option τ) (out : Finset τ) (i j : ι) :
    Change holds out [] (Function.update (Function.update holds i (holds j)) j (holds i)) out := by
  have hswap : Function.update (Function.update holds i (holds j)) j (holds i) =
      holds ∘ Equiv.swap i j := by
    funext k
    by_cases hkj : k = j
    · subst hkj
      rw [Function.update_self, Function.comp_apply, Equiv.swap_apply_right]
    · by_cases hki : k = i
      · subst hki
        rw [Function.update_of_ne hkj, Function.update_self, Function.comp_apply,
          Equiv.swap_apply_left]
      · rw [Function.update_of_ne hkj, Function.update_of_ne hki, Function.comp_apply,
          Equiv.swap_apply_of_ne_of_ne hki hkj]
  rw [hswap]
  exact .trade _

theorem Change.exclusive (h : Change holds out es holds' out') (he : Exclusive holds out) :
    Exclusive holds' out' := by
  cases h with
  | take empty fresh => exact he.take empty fresh
  | trade σ => exact he.trade σ
  | giveBack held => exact he.giveBack held

/-- Only a token that is out is given back. -/
theorem Change.returns (h : Change holds out es holds' out') (he : Exclusive holds out) {t : τ}
    (ht : .returned t ∈ es) : t ∈ out := by
  cases h with
  | take => simp at ht
  | trade => cases ht
  | giveBack held =>
    cases List.mem_singleton.1 ht
    exact he.out held

/-- 1 for a token that is out. -/
def owed (out : Finset τ) (t : τ) : Nat := if t ∈ out then 1 else 0

theorem Change.balance (h : Change holds out es holds' out') (he : Exclusive holds out) (t : τ) :
    owed out t + es.count (.taken t) = es.count (.returned t) + owed out' t := by
  cases h with
  | @take i u empty fresh =>
    by_cases htu : t = u
    · subst htu
      simp [owed, fresh]
    · simp [owed, htu, Ne.symm htu]
  | trade => simp
  | @giveBack i u held =>
    by_cases htu : t = u
    · subst htu
      simp [owed, he.out held]
    · simp [owed, htu, Ne.symm htu]

/-! ## Runs -/

variable {S L : Type} {step : S → L → Option S} {holdsOf : S → ι → Option τ} {outOf : S → Finset τ}
variable {obs : S → L → List (Event τ)} {s₀ s : S} {ls : List L}

/-- Every step of the system is a change. -/
def Simulates (step : S → L → Option S) (holdsOf : S → ι → Option τ) (outOf : S → Finset τ)
    (obs : S → L → List (Event τ)) : Prop :=
  ∀ s l s', step s l = some s' → Change (holdsOf s) (outOf s) (obs s l) (holdsOf s') (outOf s')

/-- **The tokens that are out stay with one owner each.** -/
theorem Simulates.exclusive (h : Simulates step holdsOf outOf obs)
    (init : Exclusive (holdsOf s₀) (outOf s₀)) (hrun : Lts.run step s₀ ls = some s) :
    Exclusive (holdsOf s) (outOf s) :=
  Lts.run_invariant (P := fun s => Exclusive (holdsOf s) (outOf s)) init
    (fun s l s' he hs => (h s l s' hs).exclusive he) hrun

/-- **Only tokens that are out are given back.** -/
theorem Simulates.returns (h : Simulates step holdsOf outOf obs)
    (init : Exclusive (holdsOf s₀) (outOf s₀)) (hrun : Lts.run step s₀ ls = some s) :
    Lts.Along step (fun m l => ∀ t, .returned t ∈ obs m l → t ∈ outOf m) s₀ ls := by
  rintro pre l post rfl m hm t ht
  obtain ⟨m', hm', hrest⟩ := Lts.run_append_inv hrun
  rw [hm] at hm'
  cases hm'
  cases hl : step m l with
  | none => simp only [Lts.run, hl] at hrest; cases hrest
  | some m' => exact (h m l m' hl).returns (h.exclusive init hm) ht

/-- **The books balance**: what was out and what was taken is what was given back and what is
out. -/
theorem Simulates.balance (h : Simulates step holdsOf outOf obs)
    (init : Exclusive (holdsOf s₀) (outOf s₀)) (hrun : Lts.run step s₀ ls = some s) (t : τ) :
    owed (outOf s₀) t + (Lts.history step obs s₀ ls).count (.taken t) =
      (Lts.history step obs s₀ ls).count (.returned t) + owed (outOf s) t := by
  refine Lts.run_induction (P := fun ls s =>
    owed (outOf s₀) t + (Lts.history step obs s₀ ls).count (.taken t) =
      (Lts.history step obs s₀ ls).count (.returned t) + owed (outOf s) t)
    (by simp [Lts.history]) (fun ls m l m' hm ih hl => ?_) hrun
  have hstep := (h m l m' hl).balance (h.exclusive init hm) t
  rw [Lts.history_snoc hm, List.count_append, List.count_append]
  omega

end

end Ownership
