import Mathlib

/-!
# Lock discipline

A mutex is the thread that holds it, if any. Each thread is at a program point, and `holds` says at
which points a thread is inside the critical section. `Owned` says that the points and the mutex
agree; taking the lock, giving it back and moving on without touching it keep the agreement, and
under it at most one thread is inside.
-/

namespace Mutex

variable {T P : Type} {holds : P → Bool} {pc : T → P} {m : Option T}

/-- The threads inside the critical section are exactly the holder of the mutex. -/
def Owned (holds : P → Bool) (pc : T → P) (m : Option T) : Prop :=
  ∀ t, holds (pc t) = true ↔ m = some t

theorem Owned.unique (h : Owned holds pc m) {t u : T} (ht : holds (pc t) = true)
    (hu : holds (pc u) = true) : t = u := by
  have e := (h t).1 ht
  rw [(h u).1 hu] at e
  exact (Option.some.inj e).symm

variable [DecidableEq T]

theorem Owned.acquire (h : Owned holds pc none) (t : T) {p : P} (hp : holds p = true) :
    Owned holds (Function.update pc t p) (some t) := by
  intro u
  by_cases hu : u = t
  · subst hu; simp [hp]
  · rw [Function.update_of_ne hu]
    have := h u
    simp only [reduceCtorEq, iff_false] at this
    simp [this, Ne.symm hu]

theorem Owned.release (h : Owned holds pc m) {t : T} (ht : holds (pc t) = true) {p : P}
    (hp : holds p = false) : Owned holds (Function.update pc t p) none := by
  intro u
  by_cases hu : u = t
  · subst hu; simp [hp]
  · rw [Function.update_of_ne hu]
    simp only [reduceCtorEq, iff_false]
    exact fun h' => hu (h.unique h' ht)

theorem Owned.keep (h : Owned holds pc m) {t : T} {p : P} (hp : holds p = holds (pc t)) :
    Owned holds (Function.update pc t p) m := by
  intro u
  by_cases hu : u = t
  · subst hu; rw [Function.update_self, hp]; exact h u
  · rw [Function.update_of_ne hu]; exact h u

end Mutex
