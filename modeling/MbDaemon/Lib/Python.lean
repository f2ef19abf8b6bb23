import Mathlib

/-!
# Python lists and loops

Items of a list by an `int` index, which counts from the end where it is negative, and `for` loops
over `range(n)` with the variables as a state. An index out of range raises. `forRange_ok` is the
invariant rule of the loop: it also says that the loop comes to its end.
-/

namespace Python

inductive Error where
  | indexError
  deriving DecidableEq, Repr

abbrev Str := List Char

variable {α σ : Type}

def position (len : Nat) (i : Int) : Except Error Nat :=
  if 0 ≤ i ∧ i < len then .ok i.toNat
  else if -len ≤ i ∧ i < 0 then .ok (i + len).toNat
  else .error .indexError

/-- `xs[i]`. -/
def getItem (xs : List α) (i : Int) : Except Error α := do
  let n ← position xs.length i
  match xs[n]? with
  | some x => pure x
  | none => throw .indexError

/-- `xs[i] = x`. -/
def setItem (xs : List α) (i : Int) (x : α) : Except Error (List α) := do
  let n ← position xs.length i
  pure (xs.set n x)

def forRange (n : Nat) (body : σ → Nat → Except Error σ) (s : σ) : Except Error σ :=
  (List.range n).foldlM body s

/-- `hex(n)`. -/
def hex (n : Nat) : Str := '0' :: 'x' :: Nat.toDigits 16 n

/-- `s.zfill(k)`, of a text without a sign. -/
def zfill (k : Nat) (s : Str) : Str := List.replicate (k - s.length) '0' ++ s

/-- `s.upper()`, of ASCII text. -/
def upper (s : Str) : Str := s.map Char.toUpper

theorem position_nat {len n : Nat} (h : n < len) : position len n = .ok n := by
  unfold position
  rw [if_pos ⟨by omega, by omega⟩]
  rfl

theorem getItem_nat {xs : List α} {n : Nat} {x : α} (h : xs[n]? = some x) :
    getItem xs n = .ok x := by
  have hlt := (List.getElem?_eq_some_iff.1 h).1
  simp only [getItem, position_nat hlt, bind, Except.bind, h]
  rfl

theorem setItem_nat {xs : List α} {n : Nat} (x : α) (h : n < xs.length) :
    setItem xs n x = .ok (xs.set n x) := by
  simp only [setItem, position_nat h, bind, Except.bind]
  rfl

theorem setItem_past {xs : List α} {n : Nat} (x : α) (h : xs.length ≤ n) :
    setItem xs n x = .error .indexError := by
  have hpos : position xs.length (n : Int) = .error .indexError := by
    unfold position
    rw [if_neg (by omega), if_neg (by omega)]
  simp only [setItem, hpos, bind, Except.bind]

theorem forRange_zero (body : σ → Nat → Except Error σ) (s : σ) : forRange 0 body s = .ok s := rfl

theorem forRange_succ (n : Nat) (body : σ → Nat → Except Error σ) (s : σ) :
    forRange (n + 1) body s = forRange n body s >>= fun s' => body s' n := by
  unfold forRange
  rw [List.range_succ, List.foldlM_append]
  simp only [List.foldlM_cons, List.foldlM_nil, bind_pure]

theorem forRange_error {body : σ → Nat → Except Error σ} {s : σ} {e : Error} {k n : Nat}
    (hkn : k ≤ n) (h : forRange k body s = .error e) : forRange n body s = .error e := by
  induction n, hkn using Nat.le_induction with
  | base => exact h
  | succ n _ ih => rw [forRange_succ, ih]; rfl

/-- **The invariant rule for loops.** -/
theorem forRange_ok {body : σ → Nat → Except Error σ} {s : σ} {P : Nat → σ → Prop} {n : Nat}
    (init : P 0 s)
    (next : ∀ i s, i < n → P i s → ∃ s', body s i = .ok s' ∧ P (i + 1) s') :
    ∃ s', forRange n body s = .ok s' ∧ P n s' := by
  induction n with
  | zero => exact ⟨s, rfl, init⟩
  | succ n ih =>
    obtain ⟨m, hrun, hm⟩ := ih fun i s hi => next i s (by omega)
    obtain ⟨s', hbody, hs'⟩ := next n m (by omega) hm
    refine ⟨s', ?_, hs'⟩
    rw [forRange_succ, hrun]
    exact hbody

end Python
