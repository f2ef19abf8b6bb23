import Mathlib

/-!
# The roster of handler threads

What the server's bookkeeping is for, without the threads that do it: ids are handed out, a handler
is made under an id and entered, it reports its end by queueing its id, and the ids in the queue are
taken one by one to join and strike off the handler. `Roster.Ok` is what holds of the books whatever
the order of these steps.
-/

namespace MbDaemon

namespace Threads

/-- How far a handler has come. -/
inductive Stage where
  | absent
  | running
  | pushed
  | joined
  deriving DecidableEq, Repr

/-- What the front of the queue is being taken for: it has been read, it has been found in the
books, its handler has been joined. -/
inductive Taking where
  | idle
  | front (id : Nat)
  | found (id : Nat)
  | joined (id : Nat)
  deriving DecidableEq, Repr

/-- The id at the front while it is being taken. -/
def Taking.id : Taking → Option Nat
  | .idle => none
  | .front id | .found id | .joined id => some id

/-- `handlers` are the books and `joinables` is the queue. `taken` has been handed out for a handler
still to be made, and `created` is a handler still to be entered. -/
structure Roster where
  handlers : List Nat
  joinables : List Nat
  currentId : Nat
  stage : Nat → Stage
  taken : Option Nat
  created : Option Nat
  taking : Taking

namespace Roster

inductive Step (r : Roster) : Roster → Prop where
  | take (free : r.taken = none) :
      Step r { r with taken := some r.currentId, currentId := r.currentId + 1 }
  | drop : Step r { r with taken := none }
  | create {id} (taken : r.taken = some id) (free : r.created = none) :
      Step r { r with
        taken := none, created := some id, stage := Function.update r.stage id .running }
  | insert {id handlers} (created : r.created = some id) (perm : handlers.Perm (id :: r.handlers)) :
      Step r { r with created := none, handlers := handlers }
  | push {id} (running : r.stage id = .running) :
      Step r { r with
        joinables := r.joinables ++ [id], stage := Function.update r.stage id .pushed }
  | look {id} (idle : r.taking = .idle) (front : r.joinables.head? = some id) :
      Step r { r with taking := .front id }
  | miss {id} (looked : r.taking = .front id) (gone : id ∉ r.handlers) :
      Step r { r with taking := .idle }
  | find {id} (looked : r.taking = .front id) (known : id ∈ r.handlers) :
      Step r { r with taking := .found id }
  | join {id} (found : r.taking = .found id) :
      Step r { r with taking := .joined id, stage := Function.update r.stage id .joined }
  | erase {id} (joined : r.taking = .joined id) :
      Step r { r with
        taking := .idle, handlers := r.handlers.erase id, joinables := r.joinables.tail }

/-- Every id in the books is that of a handler that is still to be joined, and every such handler is
in the books or about to be entered; the queue holds the handlers that have reported their end. -/
structure Ok (r : Roster) : Prop where
  fresh : ∀ i, r.currentId ≤ i → r.stage i = .absent
  taken : ∀ i, r.taken = some i → i < r.currentId ∧ r.stage i = .absent
  created : ∀ i, r.created = some i → i ∉ r.handlers ∧ r.stage i ≠ .absent ∧ r.stage i ≠ .joined
  keys : ∀ i ∈ r.handlers, r.stage i ≠ .absent ∧ (r.stage i = .joined → r.taking = .joined i)
  known : ∀ i, r.stage i = .running ∨ r.stage i = .pushed → i ∈ r.handlers ∨ r.created = some i
  queue : ∀ i, i ∈ r.joinables ↔ r.stage i = .pushed ∨ r.taking = .joined i
  handlersNodup : r.handlers.Nodup
  joinablesNodup : r.joinables.Nodup
  front : ∀ i, r.taking.id = some i → r.joinables.head? = some i
  found : ∀ i, r.taking = .found i → i ∈ r.handlers
  joined : ∀ i, r.taking = .joined i → i ∈ r.handlers ∧ r.stage i = .joined

variable {r r' : Roster} {id : Nat}

theorem Ok.not_mem_of_absent (h : Ok r) (hid : r.stage id = .absent) :
    id ∉ r.handlers ∧ id ∉ r.joinables := by
  refine ⟨fun hm => (h.keys id hm).1 hid, fun hm => ?_⟩
  rcases (h.queue id).1 hm with hp | hj
  · rw [hid] at hp; cases hp
  · rw [(h.joined id hj).2] at hid; cases hid

theorem Ok.not_queued_of_running (h : Ok r) (hid : r.stage id = .running) : id ∉ r.joinables := by
  intro hm
  rcases (h.queue id).1 hm with hp | hj
  · rw [hid] at hp; cases hp
  · rw [(h.joined id hj).2] at hid; cases hid

theorem Ok.pushed_of_front (h : Ok r) (ht : r.taking = .front id ∨ r.taking = .found id) :
    r.stage id = .pushed := by
  have hfront : r.taking.id = some id := by rcases ht with ht | ht <;> rw [ht] <;> rfl
  have hm : id ∈ r.joinables := List.mem_of_head? (h.front id hfront)
  rcases (h.queue id).1 hm with hp | hj
  · exact hp
  · rcases ht with ht | ht <;> rw [ht] at hj <;> cases hj

theorem ok_create (h : Ok r) (taken : r.taken = some id) (free : r.created = none) :
    Ok { r with
      taken := none, created := some id, stage := Function.update r.stage id .running } := by
  obtain ⟨hlt, habsent⟩ := h.taken id taken
  obtain ⟨hnh, hnj⟩ := h.not_mem_of_absent habsent
  obtain ⟨fresh, -, -, keys, known, queue, hnd, jnd, front, found, joined⟩ := h
  constructor <;> grind [Function.update_apply]

theorem ok_insert (h : Ok r) {handlers : List Nat} (created : r.created = some id)
    (perm : handlers.Perm (id :: r.handlers)) :
    Ok { r with created := none, handlers := handlers } := by
  obtain ⟨hnew, habsent, hjoined⟩ := h.created id created
  have hmem : ∀ i, i ∈ handlers ↔ i = id ∨ i ∈ r.handlers := fun i => by
    rw [perm.mem_iff, List.mem_cons]
  have hnodup : handlers.Nodup := perm.nodup_iff.2 (List.nodup_cons.2 ⟨hnew, h.handlersNodup⟩)
  obtain ⟨fresh, taken, -, keys, known, queue, -, jnd, front, found, joined⟩ := h
  constructor <;> grind

theorem ok_push (h : Ok r) (running : r.stage id = .running) :
    Ok { r with
      joinables := r.joinables ++ [id], stage := Function.update r.stage id .pushed } := by
  have hnew := h.not_queued_of_running running
  obtain ⟨fresh, taken, created, keys, known, queue, hnd, jnd, front, found, joined⟩ := h
  constructor <;> grind [Function.update_apply]

theorem ok_join (h : Ok r) (hf : r.taking = .found id) :
    Ok { r with taking := .joined id, stage := Function.update r.stage id .joined } := by
  have hpushed := h.pushed_of_front (.inr hf)
  have hknown := h.found id hf
  obtain ⟨fresh, taken, created, keys, known, queue, hnd, jnd, front, found, joined⟩ := h
  constructor <;> grind [Function.update_apply, Taking.id]

theorem ok_erase (h : Ok r) (hj : r.taking = .joined id) :
    Ok { r with
      taking := .idle, handlers := r.handlers.erase id, joinables := r.joinables.tail } := by
  obtain ⟨rest, hrest⟩ : ∃ rest, r.joinables = id :: rest :=
    List.head?_eq_some_iff.1 (h.front id (by rw [hj]; rfl))
  have hmem : ∀ i, i ∈ r.handlers.erase id ↔ i ≠ id ∧ i ∈ r.handlers :=
    fun i => h.handlersNodup.mem_erase_iff
  have hnodup := h.handlersNodup.erase id
  obtain ⟨hnj, hnd⟩ := List.nodup_cons.1 (hrest ▸ h.joinablesNodup)
  obtain ⟨fresh, taken, created, keys, known, queue, -, -, front, found, joined⟩ := h
  simp only [hrest, List.tail_cons]
  constructor <;> grind [Taking.id]

/-- **Every step keeps the books.** -/
theorem ok_step (h : Ok r) (hs : Step r r') : Ok r' := by
  cases hs with
  | create taken free => exact ok_create h taken free
  | insert created perm => exact ok_insert h created perm
  | push running => exact ok_push h running
  | join found => exact ok_join h found
  | erase joined => exact ok_erase h joined
  | take free =>
    obtain ⟨fresh, taken, created, keys, known, queue, hnd, jnd, front, found, joined⟩ := h
    constructor <;> grind
  | drop => exact { h with taken := fun i hi => by cases hi }
  | _ =>
    -- the steps that move `taking` alone
    obtain ⟨fresh, taken, created, keys, known, queue, hnd, jnd, front, found, joined⟩ := h
    constructor <;> grind [Taking.id]

end Roster

end Threads

end MbDaemon
