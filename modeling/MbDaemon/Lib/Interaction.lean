import Mathlib

/-!
# Programs that ask their environment

`Prog Q A α` is a program that asks questions `q : Q`, goes on with whatever answer in `A q` it
gets, and ends in an `α`. `Trace` says what it may have asked and been answered up to some moment,
for any environment. A `track` follows the questions and answers with a state of its own and may
object to one; `Meets` is the program logic for it: the track never objects, and the program ends as
the postcondition says. `Routine` are the programs that also have a state and can stop with an
error.
-/

namespace Interaction

inductive Prog (Q : Type) (A : Q → Type) (α : Type) where
  | pure (a : α)
  | ask (q : Q) (next : A q → Prog Q A α)

variable {Q : Type} {A : Q → Type} {α β ε σ T : Type}

def Prog.bind : Prog Q A α → (α → Prog Q A β) → Prog Q A β
  | .pure a, f => f a
  | .ask q next, f => .ask q fun a => (next a).bind f

/-- `Trace p es r`: up to now `p` has been through `es`, and it has ended with `r`, if it has. -/
inductive Trace : Prog Q A α → List ((q : Q) × A q) → Option α → Prop where
  | now (p : Prog Q A α) : Trace p [] none
  | pure (a : α) : Trace (.pure a) [] (some a)
  | ask {q : Q} {next : A q → Prog Q A α} {a : A q} {es : List ((q : Q) × A q)} {r : Option α}
      (h : Trace (next a) es r) : Trace (.ask q next) (⟨q, a⟩ :: es) r

theorem Trace.bind {p : Prog Q A α} {f : α → Prog Q A β} {es fs : List ((q : Q) × A q)} {a : α}
    {r : Option β} (h : Trace p es (some a)) (h' : Trace (f a) fs r) :
    Trace (p.bind f) (es ++ fs) r := by
  generalize hr : some a = r' at h
  induction h with
  | now p => cases hr
  | pure b => cases hr; exact h'
  | ask _ ih => exact .ask (ih hr)

/-! ## The logic of a track -/

/-- The state of the track after the events, if it has not objected. -/
def trackAll (track : T → (q : Q) → A q → Option T) : T → List ((q : Q) × A q) → Option T
  | t, [] => some t
  | t, ⟨q, a⟩ :: es => (track t q a).bind fun t' => trackAll track t' es

section

variable {track : T → (q : Q) → A q → Option T}

theorem trackAll_append {es fs : List ((q : Q) × A q)} {t : T} :
    trackAll track t (es ++ fs) = (trackAll track t es).bind fun t' => trackAll track t' fs := by
  induction es generalizing t with
  | nil => rfl
  | cons e es ih =>
    simp only [List.cons_append, trackAll, Option.bind_assoc]
    congr 1
    funext t'
    exact ih

/-- Started in `t`, the track does not object to `p`, and `p` ends as `post` says. -/
def Meets (track : T → (q : Q) → A q → Option T) (t : T) : Prog Q A α → (α → T → Prop) → Prop
  | .pure a, post => post a t
  | .ask q next, post => ∀ a, ∃ t', track t q a = some t' ∧ Meets track t' (next a) post

theorem Meets.mono {p : Prog Q A α} {t : T} {post post' : α → T → Prop} (h : Meets track t p post)
    (weaken : ∀ a t, post a t → post' a t) : Meets track t p post' := by
  induction p generalizing t with
  | pure a => exact weaken a t h
  | ask q next ih =>
    intro a
    obtain ⟨t', ht, hnext⟩ := h a
    exact ⟨t', ht, ih a hnext⟩

theorem Meets.bind {p : Prog Q A α} {f : α → Prog Q A β} {t : T} {mid : α → T → Prop}
    {post : β → T → Prop} (h : Meets track t p mid)
    (next : ∀ a t, mid a t → Meets track t (f a) post) : Meets track t (p.bind f) post := by
  induction p generalizing t with
  | pure a => exact next a t h
  | ask q cont ih =>
    intro a
    obtain ⟨t', ht, hcont⟩ := h a
    exact ⟨t', ht, ih a hcont⟩

/-- **Soundness.** At no moment of any run has the track objected, and a run that has ended has
ended as the postcondition says. -/
theorem Meets.sound {p : Prog Q A α} {t : T} {post : α → T → Prop} (h : Meets track t p post)
    {es : List ((q : Q) × A q)} {r : Option α} (hr : Trace p es r) :
    ∃ t', trackAll track t es = some t' ∧ ∀ a, r = some a → post a t' := by
  induction hr generalizing t with
  | now p => exact ⟨t, rfl, fun a e => by cases e⟩
  | pure a => exact ⟨t, rfl, fun b e => by cases e; exact h⟩
  | @ask q next a es r _ ih =>
    obtain ⟨t₁, ht, hnext⟩ := h a
    obtain ⟨t', hall, hpost⟩ := ih hnext
    exact ⟨t', by rw [trackAll, ht]; exact hall, hpost⟩

/-- One question further on, the track follows and what is left of the program still meets. -/
theorem Meets.answered {q : Q} {next : A q → Prog Q A α} {t₀ t : T} {es : List ((q : Q) × A q)}
    {post : α → T → Prop} (hall : trackAll track t₀ es = some t)
    (h : Meets track t (.ask q next) post) (a : A q) :
    ∃ t', trackAll track t₀ (es ++ [⟨q, a⟩]) = some t' ∧ Meets track t' (next a) post := by
  obtain ⟨t', ht, hnext⟩ := h a
  refine ⟨t', ?_, hnext⟩
  rw [trackAll_append, hall]
  simp [trackAll, ht]

end

/-! ## State and errors -/

/-- A program with a state, that returns or stops with an error. -/
def Routine (Q : Type) (A : Q → Type) (ε σ α : Type) : Type := σ → Prog Q A (EStateM.Result ε σ α)

namespace Routine

instance : Monad (Routine Q A ε σ) where
  pure a := fun s => .pure (.ok a s)
  bind x f := fun s => (x s).bind fun
    | .ok a s' => f a s'
    | .error e s' => .pure (.error e s')

instance : MonadStateOf σ (Routine Q A ε σ) where
  get := fun s => .pure (.ok s s)
  set s' := fun _ => .pure (.ok () s')
  modifyGet f := fun s => .pure (.ok (f s).1 (f s).2)

instance : MonadExceptOf ε (Routine Q A ε σ) where
  throw e := fun s => .pure (.error e s)
  tryCatch x clause := fun s => (x s).bind fun
    | .ok a s' => .pure (.ok a s')
    | .error e s' => clause e s'

def ask (q : Q) : Routine Q A ε σ (A q) := fun s => .ask q fun a => .pure (.ok a s)

section

variable {track : T → (q : Q) → A q → Option T} {t : T} {s : σ} {x : Routine Q A ε σ α}
  {f : α → Routine Q A ε σ β} {post : EStateM.Result ε σ β → T → Prop}

theorem get_bind {f : σ → Routine Q A ε σ β} : (get >>= f) s = f s s := rfl

theorem meets_bind {mid : EStateM.Result ε σ α → T → Prop} (h : Meets track t (x s) mid)
    (ok : ∀ a s' t', mid (.ok a s') t' → Meets track t' (f a s') post)
    (error : ∀ e s' t', mid (.error e s') t' → post (.error e s') t') :
    Meets track t ((x >>= f) s) post := by
  refine Meets.bind h fun r t' hr => ?_
  cases r with
  | ok a s' => exact ok a s' t' hr
  | error e s' => exact error e s' t' hr

end

end Routine

end Interaction
