import Mathlib

/-!
# Cells and programs that read them

A memory is a function from addresses to cells. `store` writes a list of cells from an address on,
`load` reads one back. `Load` is a program that reads cells one at a time and computes with what it
has read; `reads` is the list of the addresses it looks at, and what it returns depends on these
alone (`Load.run_congr`).
-/

namespace Memory

variable {β α γ : Type}

/-- Writes `bs` from the address `a` on. -/
def store (m : Nat → β) (a : Nat) (bs : List β) : Nat → β :=
  fun i => if a ≤ i then (bs[i - a]?).getD (m i) else m i

/-- The `n` cells from the address `a` on. -/
def load (m : Nat → β) (a n : Nat) : List β := (List.range n).map fun i => m (a + i)

@[simp] theorem length_load (m : Nat → β) (a n : Nat) : (load m a n).length = n := by
  simp [load]

@[simp] theorem load_zero (m : Nat → β) (a : Nat) : load m a 0 = [] := rfl

@[simp] theorem store_nil (m : Nat → β) (a : Nat) : store m a [] = m := by
  funext i; simp [store]

theorem load_succ (m : Nat → β) (a n : Nat) : load m a (n + 1) = m a :: load m (a + 1) n := by
  simp only [load, List.range_succ_eq_map, List.map_cons, List.map_map, Nat.add_zero]
  congr 1
  refine List.map_congr_left fun i _ => ?_
  simp only [Function.comp_apply]
  congr 1
  omega

theorem load_add (m : Nat → β) (a n k : Nat) :
    load m a (n + k) = load m a n ++ load m (a + n) k := by
  induction n generalizing a with
  | zero => simp
  | succ n ih =>
    rw [show n + 1 + k = (n + k) + 1 by omega, load_succ, load_succ, ih, List.cons_append]
    rw [show a + 1 + n = a + (n + 1) by omega]

theorem drop_load (m : Nat → β) (a : Nat) {n k : Nat} (h : k ≤ n) :
    (load m a n).drop k = load m (a + k) (n - k) := by
  obtain ⟨j, rfl⟩ := Nat.exists_eq_add_of_le h
  rw [load_add, Nat.add_sub_cancel_left]
  exact List.drop_left' (length_load m a k)

theorem take_load {m : Nat → β} {a n k : Nat} (h : k ≤ n) : (load m a n).take k = load m a k := by
  obtain ⟨j, rfl⟩ := Nat.exists_eq_add_of_le h
  rw [load_add, List.take_left' (length_load m a k)]

theorem load_congr {m m' : Nat → β} {a n : Nat} (h : ∀ i < n, m (a + i) = m' (a + i)) :
    load m a n = load m' a n :=
  List.map_congr_left fun i hi => h i (List.mem_range.1 hi)

theorem getElem?_load (m : Nat → β) (a : Nat) {n i : Nat} (h : i < n) :
    (load m a n)[i]? = some (m (a + i)) := by
  simp [load, h]

theorem load_inj {m m' : Nat → β} {a n : Nat} (h : load m a n = load m' a n) {i : Nat}
    (hi : i < n) : m (a + i) = m' (a + i) := by
  have hcell := congrArg (·[i]?) h
  simp only [getElem?_load _ _ hi] at hcell
  exact Option.some.inj hcell

theorem store_append (m : Nat → β) (a : Nat) (bs cs : List β) :
    store m a (bs ++ cs) = store (store m a bs) (a + bs.length) cs := by
  funext i
  unfold store
  by_cases h : a ≤ i
  · rw [if_pos h, if_pos h]
    by_cases h' : a + bs.length ≤ i
    · rw [if_pos h', List.getElem?_append_right (by omega),
        List.getElem?_eq_none (l := bs) (by omega)]
      rw [show i - a - bs.length = i - (a + bs.length) by omega]
      rfl
    · rw [if_neg h', List.getElem?_append_left (by omega)]
  · rw [if_neg h, if_neg (by omega), if_neg h]

/-- Two consecutive parts of a list, written one after the other. -/
theorem store_take_add (m : Nat → β) (a : Nat) {bs : List β} {n : Nat} (hn : n ≤ bs.length)
    (k : Nat) :
    store (store m a (bs.take n)) (a + n) ((bs.drop n).take k) = store m a (bs.take (n + k)) := by
  have hlen : (bs.take n).length = n := by simp [hn]
  rw [List.take_add, store_append, hlen]

theorem load_store (m : Nat → β) (a : Nat) (bs : List β) : load (store m a bs) a bs.length = bs := by
  refine List.ext_getElem? fun i => ?_
  by_cases h : i < bs.length
  · rw [getElem?_load _ _ h, List.getElem?_eq_getElem h]
    simp [store, h]
  · rw [List.getElem?_eq_none (by simpa using h), List.getElem?_eq_none (by omega)]

/-- What stands behind an end mark `z` is not part of the text. -/
theorem takeWhile_mark [DecidableEq β] (z : β) (bs rest : List β) :
    (bs ++ [z] ++ rest).takeWhile (· ≠ z) = bs.takeWhile (· ≠ z) := by
  induction bs with
  | nil => simp
  | cons b bs ih =>
    by_cases hb : b = z
    · simp [hb]
    · simp only [List.cons_append, List.takeWhile_cons, ne_eq, hb, not_false_eq_true, decide_true,
        if_true]
      exact congrArg (b :: ·) ih

/-- **A text that is ended by a mark** is read back up to its first mark. -/
theorem takeWhile_terminated [DecidableEq β] (m : Nat → β) (z : β) {bs : List β} {n : Nat}
    (h : bs.length < n) :
    (load (store (store m 0 bs) bs.length [z]) 0 n).takeWhile (· ≠ z) = bs.takeWhile (· ≠ z) := by
  have happ := store_append m 0 bs [z]
  rw [Nat.zero_add] at happ
  obtain ⟨k, rfl⟩ := Nat.exists_eq_add_of_le (show bs.length + 1 ≤ n by omega)
  have hload : load (store m 0 (bs ++ [z])) 0 (bs.length + 1) = bs ++ [z] := by
    have := load_store m 0 (bs ++ [z])
    rwa [List.length_append] at this
  rw [← happ, load_add, hload]
  exact takeWhile_mark z bs _

end Memory

/-- A program that reads cells: it returns, or reads a cell and goes on with what it holds. -/
inductive Load (β α : Type) where
  | pure (a : α)
  | read (addr : Nat) (k : β → Load β α)

namespace Load

variable {β α γ : Type}

def bind : Load β α → (α → Load β γ) → Load β γ
  | .pure a, f => f a
  | .read addr k, f => .read addr fun b => (k b).bind f

instance : Monad (Load β) where
  pure := .pure
  bind := Load.bind

def cell (addr : Nat) : Load β β := .read addr .pure

def cells (addr : Nat) : Nat → Load β (List β)
  | 0 => .pure []
  | n + 1 => .read addr fun b => (cells (addr + 1) n).bind fun bs => .pure (b :: bs)

def run : Load β α → (Nat → β) → α
  | .pure a, _ => a
  | .read addr k, m => (k (m addr)).run m

def reads : Load β α → (Nat → β) → List Nat
  | .pure _, _ => []
  | .read addr k, m => addr :: (k (m addr)).reads m

variable (m : Nat → β)

@[simp] theorem run_pure (a : α) : (Pure.pure a : Load β α).run m = a := rfl

@[simp] theorem reads_pure (a : α) : (Pure.pure a : Load β α).reads m = [] := rfl

@[simp] theorem run_bind (l : Load β α) (f : α → Load β γ) :
    (l >>= f).run m = (f (l.run m)).run m := by
  induction l with
  | pure a => rfl
  | read addr k ih => exact ih (m addr)

@[simp] theorem reads_bind (l : Load β α) (f : α → Load β γ) :
    (l >>= f).reads m = l.reads m ++ (f (l.run m)).reads m := by
  induction l with
  | pure a => rfl
  | read addr k ih => exact congrArg (addr :: ·) (ih (m addr))

@[simp] theorem run_cell (addr : Nat) : (cell addr : Load β β).run m = m addr := rfl

@[simp] theorem reads_cell (addr : Nat) : (cell addr : Load β β).reads m = [addr] := rfl

@[simp] theorem run_cells (addr n : Nat) : (cells addr n).run m = Memory.load m addr n := by
  induction n generalizing addr with
  | zero => rfl
  | succ n ih =>
    rw [Memory.load_succ, ← ih (addr + 1)]
    exact run_bind m (cells (addr + 1) n) fun bs => .pure (m addr :: bs)

@[simp] theorem reads_cells (addr n : Nat) :
    (cells addr n).reads m = (List.range n).map (addr + ·) := by
  induction n generalizing addr with
  | zero => rfl
  | succ n ih =>
    have hb := reads_bind m (cells (addr + 1) n) fun bs => .pure (m addr :: bs)
    have hcons : (cells addr (n + 1)).reads m = addr :: ((cells (addr + 1) n).reads m ++ []) :=
      congrArg (addr :: ·) hb
    rw [hcons, List.append_nil, ih, List.range_succ_eq_map, List.map_cons, List.map_map]
    congr 1
    refine List.map_congr_left fun i _ => ?_
    simp only [Function.comp_apply]
    omega

/-- **A program depends on what it reads**, and on nothing else. -/
theorem run_congr {m m' : Nat → β} (l : Load β α) (h : ∀ a ∈ l.reads m, m a = m' a) :
    l.run m' = l.run m := by
  induction l with
  | pure a => rfl
  | read addr k ih =>
    have hhead : m addr = m' addr := h addr (by simp [reads])
    have htail := ih (m addr) fun a ha => h a (by simp [reads, ha])
    simp only [run]
    rw [← hhead, htail]

end Load
