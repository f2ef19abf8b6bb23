import Mathlib

/-!
# Stop and wait

A sender puts messages on a line one after the other, each only once the one before has been
answered with the acknowledgement; it stops at the first other answer, or where an operation fails.
`Transfer` is the dialogue. What follows from it is stated of dialogues with more before and behind
the transfer, as long as that is `Apart` from it: whatever else is sent is not one of the messages
(`Orderly`).
-/

namespace StopAndWait

variable {α β : Type}

/-- What happens on the line: a message goes out, an answer comes in, or an operation fails. -/
inductive Event (α β : Type) where
  | send (m : α)
  | answer (r : β)
  | raised
  deriving DecidableEq, Repr

/-- The transfer of messages with the given acknowledgement. The flag says whether all of them have
been sent and acknowledged. -/
inductive Transfer (ack : β) : List α → List (Event α β) → Bool → Prop where
  | done : Transfer ack [] [] true
  | idle (ms : List α) : Transfer ack ms [] false
  | next {m : α} {ms : List α} {es : List (Event α β)} {all : Bool} :
      Transfer ack ms es all → Transfer ack (m :: ms) (.send m :: .answer ack :: es) all
  | refused {m : α} {ms : List α} {r : β} : r ≠ ack →
      Transfer ack (m :: ms) [.send m, .answer r] false
  | failed {m : α} {ms : List α} : Transfer ack (m :: ms) [.send m, .raised] false

def acked (ack : β) (m : α) : List (Event α β) := [.send m, .answer ack]

/-- The messages sent, of those that `p` looks at. -/
def sent (p : α → Bool) : List (Event α β) → List α
  | [] => []
  | .send m :: es => if p m then m :: sent p es else sent p es
  | _ :: es => sent p es

def Apart (p : α → Bool) (e : Event α β) : Prop := ∀ m, e = .send m → p m = false

variable {p : α → Bool} {ack : β} {ms : List α} {es : List (Event α β)} {all : Bool}

theorem sent_append (es es' : List (Event α β)) : sent p (es ++ es') = sent p es ++ sent p es' := by
  induction es with
  | nil => rfl
  | cons e es ih =>
    cases e with
    | send m =>
      simp only [List.cons_append, sent]
      split
      · rw [ih, List.cons_append]
      · exact ih
    | answer r => exact ih
    | raised => exact ih

theorem sent_apart (h : ∀ e ∈ es, Apart p e) : sent p es = [] := by
  induction es with
  | nil => rfl
  | cons e es ih =>
    have htail := ih fun e he => h e (List.mem_cons_of_mem _ he)
    cases e with
    | send m =>
      have hm : p m = false := h (.send m) List.mem_cons_self m rfl
      simp only [sent, hm, htail]
      rfl
    | answer r => exact htail
    | raised => exact htail

namespace Transfer

/-- The messages go out in order, each at most once. -/
theorem sent_prefix (h : Transfer ack ms es all) (hp : ∀ m ∈ ms, p m = true) :
    sent p es <+: ms := by
  induction h with
  | done => exact List.prefix_rfl
  | idle ms => exact List.nil_prefix
  | @next m ms es all _ ih =>
    have hm := hp m List.mem_cons_self
    simp only [sent, hm, if_true]
    exact (List.prefix_cons_inj m).2 (ih fun m hm => hp m (List.mem_cons_of_mem _ hm))
  | @refused m ms r _ =>
    simp only [sent, hp m List.mem_cons_self, if_true]
    exact ⟨ms, rfl⟩
  | @failed m ms =>
    simp only [sent, hp m List.mem_cons_self, if_true]
    exact ⟨ms, rfl⟩

/-- All messages have gone out, each of them acknowledged. -/
theorem complete (h : Transfer ack ms es true) : es = ms.flatMap (acked ack) := by
  generalize hall : true = all at h
  induction h with
  | done => rfl
  | next _ ih => rw [List.flatMap_cons, ← ih hall]; rfl
  | idle | refused | failed => cases hall

/-- **What goes before a message** are the ones before it, each with its acknowledgement. -/
theorem waits (h : Transfer ack ms es all) {before after : List (Event α β)} {m : α}
    (he : es = before ++ .send m :: after) :
    ∃ k : Nat, ms[k]? = some m ∧ before = (ms.take k).flatMap (acked ack) := by
  induction h generalizing before with
  | done | idle => cases before <;> cases he
  | @next m' ms es all _ ih =>
    rcases before with _ | ⟨e, before⟩
    · cases he
      exact ⟨0, rfl, rfl⟩
    rcases before with _ | ⟨e', before⟩
    · cases he
    simp only [List.cons_append, List.cons.injEq] at he
    obtain ⟨rfl, rfl, he⟩ := he
    obtain ⟨k, hk, rfl⟩ := ih he
    exact ⟨k + 1, hk, rfl⟩
  | refused _ | failed =>
    rcases before with _ | ⟨e, _ | ⟨e', before⟩⟩
    · cases he
      exact ⟨0, rfl, rfl⟩
    · cases he
    · cases before <;> cases he

/-- After a message that is not answered with the acknowledgement nothing happens any more. -/
theorem stops (h : Transfer ack ms es all) {before after : List (Event α β)} {m : α}
    {e : Event α β} (he : es = before ++ .send m :: e :: after) (hne : e ≠ .answer ack) :
    after = [] := by
  induction h generalizing before with
  | done | idle => cases before <;> cases he
  | @next m' ms es all _ ih =>
    rcases before with _ | ⟨e', before⟩
    · cases he
      exact absurd rfl hne
    rcases before with _ | ⟨e'', before⟩
    · cases he
    simp only [List.cons_append, List.cons.injEq] at he
    exact ih he.2.2
  | refused _ | failed =>
    rcases before with _ | ⟨e', _ | ⟨e'', before⟩⟩
    · cases he
      rfl
    · cases he
    · cases before <;> cases he

end Transfer

/-- A dialogue around a transfer: nothing else that is sent is a message of its kind. -/
def Around (p : α → Bool) (ack : β) (ms : List α) (trace : List (Event α β)) (all : Bool) : Prop :=
  ∃ before es after, trace = before ++ (es ++ after) ∧ Transfer ack ms es all ∧
    (∀ e ∈ before, Apart p e) ∧ ∀ e ∈ after, Apart p e

/-- Of the messages that `p` looks at, a dialogue has sent the first ones in order; whenever it
sends one, those before it have been sent and acknowledged; and after one that is not acknowledged
it sends no other. -/
structure Orderly (p : α → Bool) (ack : β) (ms : List α) (trace : List (Event α β)) : Prop where
  ordered : sent p trace <+: ms
  waits : ∀ before m after, trace = before ++ .send m :: after → p m = true →
    ∃ (k : Nat) (earlier : List (Event α β)), ms[k]? = some m ∧
      before = earlier ++ (ms.take k).flatMap (acked ack) ∧ sent p earlier = []
  stops : ∀ before m e after, trace = before ++ .send m :: e :: after → p m = true →
    e ≠ .answer ack → sent p after = []

/-- All messages have been sent, each followed by its acknowledgement. -/
def Complete (p : α → Bool) (ack : β) (ms : List α) (trace : List (Event α β)) : Prop :=
  sent p trace = ms ∧ ∀ m ∈ ms, acked ack m <:+: trace

/-- A message of the transfer is sent in it. -/
theorem locate {before es after left right : List (Event α β)} {m : α} (hm : p m = true)
    (hbefore : ∀ e ∈ before, Apart p e) (hafter : ∀ e ∈ after, Apart p e)
    (h : before ++ (es ++ after) = left ++ .send m :: right) :
    ∃ left' right', left = before ++ left' ∧ es = left' ++ .send m :: right' ∧
      right = right' ++ after := by
  have hmem : ∀ es' : List (Event α β), (∀ e ∈ es', Apart p e) → .send m ∉ es' := by
    intro es' hes' hin
    have := hes' _ hin m rfl
    rw [hm] at this
    cases this
  rcases List.append_eq_append_iff.1 h with ⟨left', rfl, htail⟩ | ⟨c, rfl, htail⟩
  · rcases List.append_eq_append_iff.1 htail with ⟨c, -, hc⟩ | ⟨c, rfl, hc⟩
    · exact absurd (by rw [hc]; simp) (hmem after hafter)
    · rcases c with _ | ⟨e, c⟩
      · rw [List.nil_append] at hc
        exact absurd (by rw [← hc]; simp) (hmem after hafter)
      · cases hc
        exact ⟨left', c, rfl, rfl, rfl⟩
  · rcases c with _ | ⟨e, c⟩
    · rw [List.nil_append] at htail
      rcases es with _ | ⟨e, es⟩
      · exact absurd (by rw [← show _ = after from htail]; simp) (hmem after hafter)
      · cases htail
        exact ⟨[], es, by simp, rfl, rfl⟩
    · cases htail
      exact absurd (by simp) (hmem _ hbefore)

theorem Around.sent_eq {trace : List (Event α β)} (h : Around p ack ms trace all) :
    ∃ es, Transfer ack ms es all ∧ sent p trace = sent p es := by
  obtain ⟨before, es, after, rfl, htransfer, hbefore, hafter⟩ := h
  refine ⟨es, htransfer, ?_⟩
  rw [sent_append, sent_append, sent_apart hbefore, sent_apart hafter, List.nil_append,
    List.append_nil]

theorem sent_acked (hp : ∀ m ∈ ms, p m = true) : sent p (ms.flatMap (acked ack)) = ms := by
  induction ms with
  | nil => rfl
  | cons m ms ih =>
    have hm := hp m List.mem_cons_self
    have htail := ih fun m hm => hp m (List.mem_cons_of_mem _ hm)
    simp only [List.flatMap_cons, acked, List.cons_append, List.nil_append, sent, hm, if_true]
    exact congrArg (m :: ·) htail

/-- **A dialogue around a transfer is orderly.** -/
theorem Around.orderly {trace : List (Event α β)} (h : Around p ack ms trace all)
    (hp : ∀ m ∈ ms, p m = true) : Orderly p ack ms trace where
  ordered := by
    obtain ⟨es, htransfer, hsent⟩ := h.sent_eq
    rw [hsent]
    exact htransfer.sent_prefix hp
  waits left m right htrace hm := by
    obtain ⟨before, es, after, rfl, htransfer, hbefore, hafter⟩ := h
    obtain ⟨left', right', rfl, hes, -⟩ := locate hm hbefore hafter htrace
    obtain ⟨k, hk, rfl⟩ := htransfer.waits hes
    exact ⟨k, before, hk, rfl, sent_apart hbefore⟩
  stops left m e right htrace hm hne := by
    obtain ⟨before, es, after, rfl, htransfer, hbefore, hafter⟩ := h
    obtain ⟨left', right', rfl, hes, hright⟩ := locate hm hbefore hafter htrace
    rcases right' with _ | ⟨e', right'⟩
    · rw [List.nil_append] at hright
      exact sent_apart fun e he => hafter e (by rw [← hright]; exact List.mem_cons_of_mem _ he)
    · cases hright
      rw [htransfer.stops hes hne]
      exact sent_apart hafter

theorem Around.complete {trace : List (Event α β)} (h : Around p ack ms trace true)
    (hp : ∀ m ∈ ms, p m = true) : Complete p ack ms trace := by
  obtain ⟨es, htransfer, hsent⟩ := h.sent_eq
  refine ⟨by rw [hsent, htransfer.complete, sent_acked hp], fun m hm => ?_⟩
  obtain ⟨before, es, after, rfl, htransfer, -, -⟩ := h
  rw [htransfer.complete]
  obtain ⟨earlier, later, rfl⟩ := List.append_of_mem hm
  refine ⟨before ++ earlier.flatMap (acked ack), later.flatMap (acked ack) ++ after, ?_⟩
  simp only [List.flatMap_append, List.flatMap_cons, List.append_assoc]

theorem Around.prepend {trace before : List (Event α β)} (h : Around p ack ms trace all)
    (hbefore : ∀ e ∈ before, Apart p e) : Around p ack ms (before ++ trace) all := by
  obtain ⟨before', es, after, rfl, htransfer, hbefore', hafter⟩ := h
  refine ⟨before ++ before', es, after, by rw [List.append_assoc], htransfer, fun e he => ?_, hafter⟩
  exact (List.mem_append.1 he).elim (hbefore e) (hbefore' e)

theorem Around.idle {trace : List (Event α β)} (ms : List α) (h : ∀ e ∈ trace, Apart p e) :
    Around p ack ms trace false :=
  ⟨trace, [], [], by simp, .idle ms, h, fun e he => by cases he⟩

/-! ## The receiver -/

/-- The other end of the line: its state, and the message that it has got and not answered. -/
structure Receiver (σ α : Type) where
  state : σ
  pending : Option α

section

variable {σ : Type} [DecidableEq β] (carry : σ → α → σ)

/-- A receiver that carries out what it acknowledges. -/
def Receiver.see (ack : β) (r : Receiver σ α) : Event α β → Receiver σ α
  | .send m => { r with pending := some m }
  | .answer a => { state := if a = ack then r.pending.elim r.state (carry r.state) else r.state,
                   pending := none }
  | .raised => { r with pending := none }

/-- The message it has got is none of the transfer. -/
def Receiver.Apart (p : α → Bool) (r : Receiver σ α) : Prop := ∀ m, r.pending = some m → p m = false

variable {carry} {r : Receiver σ α}

theorem Receiver.see_apart (ack : β) (hinert : ∀ s m, p m = false → carry s m = s) (hr : r.Apart p)
    {e : Event α β} (he : StopAndWait.Apart p e) :
    (r.see carry ack e).state = r.state ∧ (r.see carry ack e).Apart p := by
  cases e with
  | send m =>
    refine ⟨rfl, fun m' hm' => ?_⟩
    cases hm'
    exact he m rfl
  | answer a =>
    refine ⟨?_, fun m hm => by cases hm⟩
    simp only [Receiver.see]
    split
    · cases hm : r.pending with
      | none => rfl
      | some m => exact hinert r.state m (hr m hm)
    · rfl
  | raised => exact ⟨rfl, fun m hm => by cases hm⟩

theorem Receiver.foldl_apart (ack : β) (hinert : ∀ s m, p m = false → carry s m = s) (hr : r.Apart p)
    (hes : ∀ e ∈ es, StopAndWait.Apart p e) :
    (es.foldl (Receiver.see carry ack) r).state = r.state ∧
      (es.foldl (Receiver.see carry ack) r).Apart p := by
  induction es generalizing r with
  | nil => exact ⟨rfl, hr⟩
  | cons e es ih =>
    obtain ⟨hstate, hpending⟩ := r.see_apart ack hinert hr (hes e List.mem_cons_self)
    obtain ⟨hstate', hpending'⟩ := ih hpending fun e he => hes e (List.mem_cons_of_mem _ he)
    exact ⟨hstate'.trans hstate, hpending'⟩

theorem prefix_two {γ : Type} {a b : γ} {xs ys : List γ} (h : xs <+: a :: b :: ys) :
    xs = [] ∨ xs = [a] ∨ ∃ zs, xs = a :: b :: zs ∧ zs <+: ys := by
  match xs, h with
  | [], _ => exact .inl rfl
  | [x], h => exact .inr (.inl (congrArg (fun x => [x]) (List.cons_prefix_cons.1 h).1))
  | x :: y :: zs, h =>
    obtain ⟨hx, h⟩ := List.cons_prefix_cons.1 h
    obtain ⟨hy, h⟩ := List.cons_prefix_cons.1 h
    exact .inr (.inr ⟨zs, by rw [hx, hy], h⟩)

/-- At every moment of a transfer the receiver has carried out the first messages, in order. -/
theorem Transfer.received (carry : σ → α → σ) (h : Transfer ack ms es all) :
    ∀ {r : Receiver σ α} {es' : List (Event α β)}, r.Apart p → es' <+: es →
      ∃ k ≤ ms.length, (es'.foldl (Receiver.see carry ack) r).state = (ms.take k).foldl carry r.state ∧
        (es' = es → (all = true → k = ms.length) ∧ (es'.foldl (Receiver.see carry ack) r).Apart p) := by
  have hnone : ∀ s : σ, (⟨s, none⟩ : Receiver σ α).Apart p := fun s m hm => by cases hm
  induction h with
  | done =>
    intro r es' hr hes
    rw [List.prefix_nil.1 hes]
    exact ⟨0, Nat.le_refl _, rfl, fun _ => ⟨fun _ => rfl, hr⟩⟩
  | idle ms =>
    intro r es' hr hes
    rw [List.prefix_nil.1 hes]
    exact ⟨0, Nat.zero_le _, rfl, fun _ => ⟨fun h => (by cases h), hr⟩⟩
  | @next m ms es all _ ih =>
    intro r es' hr hes
    rcases prefix_two hes with rfl | rfl | ⟨es', rfl, hes'⟩
    · exact ⟨0, Nat.zero_le _, rfl, fun h => by cases h⟩
    · exact ⟨0, Nat.zero_le _, rfl, fun h => by cases h⟩
    · obtain ⟨k, hk, hstate, hend⟩ := ih (hnone (carry r.state m)) hes'
      have hstep : (.send m :: .answer ack :: es' : List (Event α β)).foldl
          (Receiver.see carry ack) r =
          es'.foldl (Receiver.see carry ack) ⟨carry r.state m, none⟩ := by
        simp [Receiver.see]
      rw [hstep]
      refine ⟨k + 1, Nat.succ_le_succ hk, hstate, fun h => ?_⟩
      obtain ⟨hall, hpending⟩ := hend (by simpa using h)
      exact ⟨fun h => congrArg (· + 1) (hall h), hpending⟩
  | @refused m ms a ha =>
    intro r es' hr hes
    rcases prefix_two hes with rfl | rfl | ⟨es', rfl, hes'⟩
    · exact ⟨0, Nat.zero_le _, rfl, fun h => by cases h⟩
    · exact ⟨0, Nat.zero_le _, rfl, fun h => by cases h⟩
    · rw [List.prefix_nil.1 hes']
      refine ⟨0, Nat.zero_le _, ?_, fun _ => ⟨fun h => (by cases h), hnone _⟩⟩
      simp [Receiver.see, ha]
  | failed =>
    intro r es' hr hes
    rcases prefix_two hes with rfl | rfl | ⟨es', rfl, hes'⟩
    · exact ⟨0, Nat.zero_le _, rfl, fun h => by cases h⟩
    · exact ⟨0, Nat.zero_le _, rfl, fun h => by cases h⟩
    · rw [List.prefix_nil.1 hes']
      exact ⟨0, Nat.zero_le _, rfl, fun _ => ⟨fun h => (by cases h), hnone _⟩⟩

/-- **At every moment of a dialogue around a transfer** a receiver that carries out what it
acknowledges has carried out the first messages, in order; at the end of a complete one, all. -/
theorem Around.received {trace trace' : List (Event α β)} (h : Around p ack ms trace all)
    (hinert : ∀ s m, p m = false → carry s m = s) (hr : r.Apart p) (htrace : trace' <+: trace) :
    ∃ k ≤ ms.length, (trace'.foldl (Receiver.see carry ack) r).state = (ms.take k).foldl carry r.state ∧
      (trace' = trace → all = true → k = ms.length) := by
  obtain ⟨before, es, after, rfl, htransfer, hbefore, hafter⟩ := h
  obtain ⟨hstate₀, hpending₀⟩ := Receiver.foldl_apart ack hinert hr hbefore
  obtain ⟨rest, hrest⟩ := htrace
  rcases List.append_eq_append_iff.1 hrest with ⟨left, rfl, hleft⟩ | ⟨mid, rfl, hmid⟩
  · -- not at the transfer yet
    obtain ⟨hstate, -⟩ := Receiver.foldl_apart ack hinert hr
      fun e (he : e ∈ trace') => hbefore e (List.mem_append_left _ he)
    refine ⟨0, Nat.zero_le _, hstate, fun htrace' hall => ?_⟩
    have hnil : es = [] := by
      have hlen := congrArg List.length htrace'
      simp only [List.length_append] at hlen
      exact List.length_eq_zero_iff.1 (by omega)
    subst hnil
    cases htransfer with
    | done => rfl
    | idle => cases hall
  rw [List.foldl_append]
  rcases List.append_eq_append_iff.1 hmid.symm with ⟨left, rfl, -⟩ | ⟨last, rfl, hlast⟩
  · -- in the middle of it
    obtain ⟨k, hk, hstate, hend⟩ := htransfer.received carry hpending₀
      (List.prefix_append mid left)
    rw [hstate₀] at hstate
    refine ⟨k, hk, hstate, fun htrace' => (hend ?_).1⟩
    have hlen := congrArg List.length htrace'
    simp only [List.length_append] at hlen
    rw [List.length_eq_zero_iff.1 (show left.length = 0 by omega), List.append_nil]
  · -- behind it
    obtain ⟨k, hk, hstate, hend⟩ := htransfer.received carry hpending₀ List.prefix_rfl
    obtain ⟨hall, hpending⟩ := hend rfl
    rw [hstate₀] at hstate
    have hlast' : ∀ e ∈ last, Apart p e := fun e he => hafter e (by rw [hlast]; simp [he])
    obtain ⟨hstate', -⟩ := Receiver.foldl_apart ack hinert hpending hlast'
    rw [List.foldl_append]
    exact ⟨k, hk, hstate'.trans hstate, fun _ => hall⟩

end

end StopAndWait
