import Mathlib

/-!
# Helpers

The small shared vocabulary: bytes and C++ strings, and the texts of the daemon's exceptions
(`Helpers.hpp`, `Helpers.cpp`).
-/

namespace MbDaemon

abbrev Byte := UInt8

abbrev Text := List Byte

/-- The bytes of a string literal of the source. -/
def ascii (s : String) : Text := s.toList.map fun c => UInt8.ofNat c.toNat

@[simp] theorem length_ascii (s : String) : (ascii s).length = s.length := by
  simp [ascii, String.length_toList]

/-- `c_str()`, as a callee that reads up to the first NUL sees it. -/
def cStr (s : Text) : Text := s.takeWhile (· ≠ 0)

theorem cStr_of_not_mem {s : Text} (h : 0 ∉ s) : cStr s = s := by
  apply List.takeWhile_eq_self_iff.mpr
  intro b hb
  exact decide_eq_true fun h0 => h (h0 ▸ hb)

theorem length_cStr_le (s : Text) : (cStr s).length ≤ s.length :=
  (List.takeWhile_prefix _).length_le

/-- `errno` after a failed call, with what `strerror` says for it. -/
structure Errno where
  code : Nat
  strerror : Text
  deriving DecidableEq, Repr

/-- `ErrnoException`: the text it is built with, and the error. -/
def errnoWhat (msg : Text) (e : Errno) : Text :=
  msg ++ ascii ": " ++ ascii "errno #" ++ ascii (toString e.code) ++ ascii ": " ++ e.strerror

theorem length_errnoWhat (msg : Text) (e : Errno) :
    (errnoWhat msg e).length =
      msg.length + 11 + (toString e.code).length + e.strerror.length := by
  have hpunct : (ascii ": ").length = 2 := rfl
  have herrno : (ascii "errno #").length = 7 := rfl
  simp only [errnoWhat, List.length_append, hpunct, herrno, length_ascii]
  omega

/-- `FEXCEPT`: the name of the throwing function in front of the text. -/
def fexcept (func : String) (what : Text) : Text := ascii func ++ ascii ": " ++ what

theorem length_fexcept (func : String) (what : Text) :
    (fexcept func what).length = func.length + 2 + what.length := by
  have hpunct : (ascii ": ").length = 2 := rfl
  simp only [fexcept, List.length_append, hpunct, length_ascii]

end MbDaemon
