import Mathlib

/-!
# Hexadecimal text

`digits k n` is `n` in `k` upper-case digits, `encode` writes bytes with two digits each, and
`decode` reads them back. `upper_zfill` is the way text is formatted in scripts: the digits of the
number, filled up with zeros on the left, in upper case.
-/

namespace Hex

def digit (d : Nat) : Char := (Nat.digitChar d).toUpper

def digits : Nat → Nat → List Char
  | 0, _ => []
  | k + 1, n => digits k (n / 16) ++ [digit (n % 16)]

def value (c : Char) : Option Nat :=
  if '0' ≤ c ∧ c ≤ '9' then some (c.toNat - '0'.toNat)
  else if 'A' ≤ c ∧ c ≤ 'F' then some (c.toNat - 'A'.toNat + 10)
  else none

def encode (bs : List UInt8) : List Char := bs.flatMap fun b => digits 2 b.toNat

/-- Two digits for each byte. -/
def decode : List Char → Option (List UInt8)
  | [] => some []
  | [_] => none
  | a :: b :: rest => do
    let x ← value a
    let y ← value b
    let bs ← decode rest
    pure (UInt8.ofNat (16 * x + y) :: bs)

@[simp] theorem length_digits (k n : Nat) : (digits k n).length = k := by
  induction k generalizing n with
  | zero => rfl
  | succ k ih => simp [digits, ih]

theorem digits_zero (k : Nat) : digits k 0 = List.replicate k '0' := by
  induction k with
  | zero => rfl
  | succ k ih => rw [digits, Nat.zero_div, ih, List.replicate_succ']; rfl

theorem value_digit {d : Nat} (h : d < 16) : value (digit d) = some d := by
  interval_cases d <;> rfl

theorem digits_inj {k n m : Nat} (hn : n < 16 ^ k) (hm : m < 16 ^ k) (h : digits k n = digits k m) :
    n = m := by
  induction k generalizing n m with
  | zero => omega
  | succ k ih =>
    obtain ⟨hinit, hlast⟩ := List.append_inj' h rfl
    rw [Nat.pow_succ] at hn hm
    have hdiv := ih (by omega) (by omega) hinit
    have hvalue := congrArg value (List.singleton_inj.1 hlast)
    rw [value_digit (by omega), value_digit (by omega), Option.some.injEq] at hvalue
    omega

/-- The number's own digits, filled up with zeros. -/
theorem upper_zfill {k n : Nat} (hk : 0 < k) (h : n < 16 ^ k) :
    (List.replicate (k - (Nat.toDigits 16 n).length) '0' ++ Nat.toDigits 16 n).map Char.toUpper =
      digits k n := by
  induction k generalizing n with
  | zero => omega
  | succ k ih =>
    rw [Nat.toDigits_eq_if (by decide)]
    by_cases hn : n < 16
    · rw [if_pos hn, digits, Nat.div_eq_of_lt hn, Nat.mod_eq_of_lt hn, digits_zero]
      simp only [List.map_append, List.map_replicate, List.map_cons, List.map_nil, List.length_cons,
        List.length_nil, Nat.add_sub_cancel]
      rfl
    · have hk' : 0 < k := by
        rcases Nat.eq_zero_or_pos k with rfl | hpos
        · simp only [Nat.zero_add, Nat.pow_one] at h; omega
        · exact hpos
      have hdiv : n / 16 < 16 ^ k := by
        rw [Nat.pow_succ] at h
        omega
      rw [if_neg hn, digits, ← ih hk' hdiv]
      simp only [List.length_append, List.length_singleton, Nat.add_sub_add_right, List.map_append,
        List.append_assoc, List.map_cons, List.map_nil]
      rfl

def number (cs : List Char) : Option Nat := cs.foldlM (fun n c => (value c).map (16 * n + ·)) 0

theorem number_digits {k n : Nat} (h : n < 16 ^ k) : number (digits k n) = some n := by
  induction k generalizing n with
  | zero =>
    rw [Nat.pow_zero] at h
    obtain rfl : n = 0 := by omega
    rfl
  | succ k ih =>
    rw [Nat.pow_succ] at h
    have hinit : number (digits k (n / 16)) = some (n / 16) := ih (by omega)
    have hlast : 16 * (n / 16) + n % 16 = n := by omega
    unfold number at hinit ⊢
    rw [digits, List.foldlM_append, hinit]
    simp [value_digit (show n % 16 < 16 by omega), hlast]

theorem length_encode (bs : List UInt8) : (encode bs).length = 2 * bs.length := by
  induction bs with
  | nil => rfl
  | cons b bs ih =>
    have hcons : encode (b :: bs) = digits 2 b.toNat ++ encode bs := rfl
    rw [hcons, List.length_append, length_digits, ih, List.length_cons]
    omega

theorem encode_append (as bs : List UInt8) : encode (as ++ bs) = encode as ++ encode bs :=
  List.flatMap_append

theorem decode_encode (bs : List UInt8) : decode (encode bs) = some bs := by
  induction bs with
  | nil => rfl
  | cons b bs ih =>
    have hb := b.toNat_lt
    have hcons : encode (b :: bs) = digit (b.toNat / 16 % 16) :: digit (b.toNat % 16) :: encode bs :=
      rfl
    rw [hcons, decode, value_digit (by omega), value_digit (by omega), ih]
    have hbyte : 16 * (b.toNat / 16 % 16) + b.toNat % 16 = b.toNat := by omega
    simp only [Option.bind_eq_bind, Option.bind_some, hbyte, UInt8.ofNat_toNat]
    rfl

theorem value_encode (bs : List UInt8) : ∀ c ∈ encode bs, (value c).isSome = true := by
  intro c hc
  obtain ⟨b, -, hb⟩ := List.mem_flatMap.1 hc
  have hlt := b.toNat_lt
  have hmem : c ∈ [digit (b.toNat / 16 % 16), digit (b.toNat % 16)] := hb
  rcases List.mem_pair.1 hmem with rfl | rfl
  · rw [value_digit (by omega)]; rfl
  · rw [value_digit (by omega)]; rfl

end Hex
