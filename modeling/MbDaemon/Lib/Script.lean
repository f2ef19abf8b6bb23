import Mathlib

/-!
# Runs of a script

A run of a script is what it does to the outside, in order, and how it ends: it comes to the end of
a block with a value, raises, or leaves through `sys.exit`, which raises as well, so that a bare
`except` takes both. `Quiet p` is the rule for the parts that do only what `p` allows and do not
leave with success; `Run.bind_cases` goes from one part to the next.
-/

namespace Python

/-- Why a script does not come to the end of a block. -/
inductive Exit where
  | raised
  | exit (code : UInt8)
  deriving DecidableEq, Repr

structure Run (ε α : Type) where
  log : List ε
  result : Except Exit α

namespace Run

variable {ε α β : Type}

def bind (x : Run ε α) (f : α → Run ε β) : Run ε β :=
  match x.result with
  | .ok a => { log := x.log ++ (f a).log, result := (f a).result }
  | .error e => { log := x.log, result := .error e }

instance : Monad (Run ε) where
  pure a := { log := [], result := .ok a }
  bind := bind

def emit (e : ε) : Run ε Unit := { log := [e], result := .ok () }

def raise : Run ε α := { log := [], result := .error .raised }

def ofOption : Option α → Run ε α
  | some a => pure a
  | none => raise

/-- `sys.exit(code)`. -/
def exit (code : UInt8) : Run ε α := { log := [], result := .error (.exit code) }

/-- `try` with a bare `except`. -/
def tryExcept (x : Run ε α) (handler : Run ε α) : Run ε α :=
  match x.result with
  | .ok _ => x
  | .error _ => { log := x.log ++ handler.log, result := handler.result }

/-- The exit status of the process: an exception that nothing takes leaves with 1. -/
def status (x : Run ε α) : UInt8 :=
  match x.result with
  | .ok _ => 0
  | .error .raised => 1
  | .error (.exit code) => code

@[simp] theorem ok_bind (a : α) (f : α → Except Exit β) : (Except.ok a >>= f) = f a := rfl

@[simp] theorem error_bind (e : Exit) (f : α → Except Exit β) :
    (Except.error e >>= f) = .error e := rfl

@[simp] theorem result_emit (e : ε) : (emit e).result = .ok () := rfl

@[simp] theorem result_raise : (raise : Run ε α).result = .error .raised := rfl

@[simp] theorem result_exit (code : UInt8) :
    (exit code : Run ε α).result = .error (.exit code) := rfl

@[simp] theorem log_pure (a : α) : (pure a : Run ε α).log = [] := rfl

@[simp] theorem result_pure (a : α) : (pure a : Run ε α).result = .ok a := rfl

@[simp] theorem pure_bind (a : α) (f : α → Run ε β) : (pure a >>= f) = f a := rfl

@[simp] theorem result_bind (x : Run ε α) (f : α → Run ε β) :
    (x >>= f).result = x.result >>= fun a => (f a).result := by
  show (Run.bind x f).result = _
  unfold Run.bind
  cases x.result <;> rfl

theorem bind_ok {x : Run ε α} {a : α} (h : x.result = .ok a) (f : α → Run ε β) :
    x >>= f = { log := x.log ++ (f a).log, result := (f a).result } := by
  show Run.bind x f = _
  unfold Run.bind
  rw [h]

theorem bind_error {x : Run ε α} {e : Exit} (h : x.result = .error e) (f : α → Run ε β) :
    x >>= f = { log := x.log, result := .error e } := by
  show Run.bind x f = _
  unfold Run.bind
  rw [h]

/-- What follows a part that comes to its end, and what does not follow one that ends the script. -/
theorem bind_cases (x : Run ε α) (f : α → Run ε β) :
    (∃ a, x.result = .ok a ∧
      x >>= f = { log := x.log ++ (f a).log, result := (f a).result }) ∨
    ∃ e, x.result = .error e ∧ x >>= f = { log := x.log, result := .error e } := by
  cases h : x.result with
  | ok a => exact .inl ⟨a, rfl, bind_ok h f⟩
  | error e => exact .inr ⟨e, rfl, bind_error h f⟩

/-- A part of a script that does only what `p` allows and does not leave with success. -/
structure Quiet (p : ε → Prop) (x : Run ε α) : Prop where
  log : ∀ e ∈ x.log, p e
  result : x.result ≠ .error (.exit 0)

variable {p : ε → Prop}

theorem Quiet.pure (a : α) : Quiet p (pure a : Run ε α) where
  log e he := by cases he
  result h := by cases h

theorem Quiet.raise : Quiet p (raise : Run ε α) where
  log e he := by cases he
  result h := by cases h

theorem Quiet.exit {code : UInt8} (hcode : code ≠ 0) : Quiet p (exit code : Run ε α) where
  log e he := by cases he
  result h := by cases h; exact hcode rfl

theorem Quiet.emit {e : ε} (he : p e) : Quiet p (emit e) where
  log e' he' := by cases List.mem_singleton.1 he'; exact he
  result h := by cases h

theorem Quiet.bind {x : Run ε α} {f : α → Run ε β} (hx : Quiet p x) (hf : ∀ a, Quiet p (f a)) :
    Quiet p (x >>= f) := by
  rcases bind_cases x f with ⟨a, -, hrun⟩ | ⟨e, he, hrun⟩
  · rw [hrun]
    exact ⟨fun e he => (List.mem_append.1 he).elim (hx.log e) ((hf a).log e), (hf a).result⟩
  · rw [hrun]
    refine ⟨hx.log, fun h => ?_⟩
    cases h
    exact hx.result he

theorem Quiet.tryExcept {x handler : Run ε α} (hx : ∀ e ∈ x.log, p e) (hh : Quiet p handler) :
    Quiet p (tryExcept x handler) := by
  unfold Run.tryExcept
  split
  · rename_i a ha
    exact ⟨hx, fun h => by rw [ha] at h; cases h⟩
  · exact ⟨fun e he => (List.mem_append.1 he).elim (hx e) (hh.log e), hh.result⟩

/-- A quiet part that does not come to its end leaves with an error. -/
theorem Quiet.status {x : Run ε α} (hx : Quiet p x) (h : ∀ a, x.result ≠ .ok a) : x.status ≠ 0 := by
  unfold Run.status
  cases hr : x.result with
  | ok a => exact absurd hr (h a)
  | error e =>
    cases e with
    | raised => show (1 : UInt8) ≠ 0; decide
    | exit code => exact fun hcode => hx.result (by rw [hr]; exact congrArg _ (congrArg _ hcode))

/-- Where a quiet part ends the script, nothing follows and the script does not succeed. -/
theorem Quiet.cut {x : Run ε α} (hx : Quiet p x) {e : Exit} (he : x.result = .error e)
    (f : α → Run ε β) : (∀ e ∈ (x >>= f).log, p e) ∧ (x >>= f).status ≠ 0 := by
  have hcut := bind_error he f
  have hquiet : Quiet p (x >>= f) := by
    rw [hcut]
    exact ⟨hx.log, fun h => hx.result (by cases h; exact he)⟩
  exact ⟨hquiet.log, hquiet.status fun b hb => by rw [hcut] at hb; cases hb⟩

end Run

/-! ## Searching a list -/

/-- An element of a list, with all elements before it passed over: it stands at the front, or behind
a front that is passed over. -/
theorem passed_cons {α : Type} {p : α → Prop} {a x : α} {xs : List α} :
    (∃ before after, x :: xs = before ++ a :: after ∧ ∀ y ∈ before, p y) ↔
      a = x ∨ p x ∧ ∃ before after, xs = before ++ a :: after ∧ ∀ y ∈ before, p y := by
  constructor
  · rintro ⟨before, after, hxs, hbefore⟩
    rcases before with _ | ⟨y, before⟩
    · cases hxs
      exact .inl rfl
    · cases hxs
      exact .inr ⟨hbefore x List.mem_cons_self, before, after, rfl,
        fun z hz => hbefore z (List.mem_cons_of_mem _ hz)⟩
  · rintro (rfl | ⟨hx, before, after, rfl, hbefore⟩)
    · exact ⟨[], xs, rfl, fun y hy => (by cases hy)⟩
    · refine ⟨x :: before, after, rfl, fun y hy => ?_⟩
      rcases List.mem_cons.1 hy with rfl | hy
      · exact hx
      · exact hbefore y hy

end Python
