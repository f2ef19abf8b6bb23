import MbDaemon.HwUtils
import MbDaemon.RPC.Signedness

/-!
# The output of a child

`FillStringFromFd` reads the output of `BootloaderFind.py` chunk by chunk into a local buffer, ends
the text there at the number of bytes read so far, and inserts it at the position `dst.back()`: the
last character of the destination, taken as a number. The destination is empty to begin with and has
no last character, so that the function does what it is for only where there is no output at all
(`fills_iff`). `front` is the byte in front of an empty string's characters, where reading it does
not end the program.
-/

namespace MbDaemon

namespace HwUtils

def FILLSTRINGFROMFD_BUFSIZE : Nat := 64

/-- `sizeof(buf)`. -/
def fillCapacity : Nat := FILLSTRINGFROMFD_BUFSIZE + 1

/-- What one `read()` into the buffer returns. -/
structure Chunk where
  bytes : List Byte
  nonempty : bytes ≠ []
  fits : bytes.length ≤ fillCapacity

/-- How `FillStringFromFd` ends when it does not return: `read()` fails, `insert` throws
`std::out_of_range`, or the program reads or writes where it must not. -/
inductive FillError where
  | read (e : Errno)
  | outOfRange
  | outsideBuffer
  | emptyBack
  deriving DecidableEq, Repr

abbrev Fill := Except FillError

/-- `buf[i] = 0`. -/
def terminate (buf : Nat → Byte) (i : Nat) : Fill (Nat → Byte) :=
  if i < fillCapacity then .ok (Memory.store buf i [0]) else .error .outsideBuffer

/-- `dst.back()`. -/
def back (front : Option Byte) (dst : Text) : Fill Byte :=
  match dst.getLast?, front with
  | some b, _ => .ok b
  | none, some b => .ok b
  | none, none => .error .emptyBack

/-- `dst.insert(pos, str)`. -/
def insert (dst : Text) (pos : Nat) (str : Text) : Fill Text :=
  if pos ≤ dst.length then .ok (dst.take pos ++ str ++ dst.drop pos) else .error .outOfRange

def fillText (buf : Nat → Byte) : Text := (Memory.load buf 0 fillCapacity).takeWhile (· ≠ 0)

section

variable (c : CharType) (front : Option Byte) (failure : Option Errno)

/-- The loop of `FillStringFromFd`: what the calls of `read()` return, and how the last one fails if
it does not return 0. -/
def fillLoop : List Chunk → (Nat → Byte) → Nat → Text → Fill Text
  | [], _, _, dst =>
    match failure with
    | none => .ok dst
    | some e => .error (.read e)
  | chunk :: chunks, buf, nRead, dst => do
    let buf := Memory.store buf 0 chunk.bytes
    let nRead := nRead + chunk.bytes.length
    let buf ← terminate buf nRead
    let last ← back front dst
    let dst ← insert dst (toSize (c.toInt last)) (fillText buf)
    fillLoop chunks buf nRead dst

def fillStringFromFd (chunks : List Chunk) (dst : Text) : Fill Text :=
  fillLoop c front failure chunks (fun _ => 0) 0 dst

end

/-- The output that the chunks are cut from. -/
def output (chunks : List Chunk) : Text := chunks.flatMap (·.bytes)

/-- The destination ends as the output, nothing outside the buffer or in an empty string is touched,
and only a failing `read()` is thrown, whatever stands in front of an empty string. -/
def Fills (chunks : List Chunk) : Prop :=
  ∀ (c : CharType) (front : Option Byte) (failure : Option Errno),
    match fillStringFromFd c front failure chunks [] with
    | .ok dst => failure = none ∧ (0 ∉ output chunks → dst = output chunks)
    | .error e => ∃ errno, failure = some errno ∧ e = .read errno

/-! ## An iteration -/

theorem terminate_ok {buf : Nat → Byte} {i : Nat} (h : i < fillCapacity) :
    terminate buf i = .ok (Memory.store buf i [0]) := if_pos h

theorem terminate_error {buf : Nat → Byte} {i : Nat} (h : fillCapacity ≤ i) :
    terminate buf i = .error .outsideBuffer := if_neg (by omega)

theorem fillLoop_outside {c : CharType} {front : Option Byte} {failure : Option Errno}
    {chunk : Chunk} {chunks : List Chunk} {buf : Nat → Byte} {nRead : Nat} {dst : Text}
    (h : fillCapacity ≤ nRead + chunk.bytes.length) :
    fillLoop c front failure (chunk :: chunks) buf nRead dst = .error .outsideBuffer := by
  simp only [fillLoop, terminate_error h, bind, Except.bind]

theorem fillLoop_misplaced {c : CharType} {front : Option Byte} {failure : Option Errno}
    {chunk : Chunk} {chunks : List Chunk} {buf : Nat → Byte} {nRead : Nat} {dst : Text} {last : Byte}
    (hin : nRead + chunk.bytes.length < fillCapacity) (hback : back front dst = .ok last)
    (h : dst.length < toSize (c.toInt last)) :
    fillLoop c front failure (chunk :: chunks) buf nRead dst = .error .outOfRange := by
  have hinsert : ∀ str, insert dst (toSize (c.toInt last)) str = .error .outOfRange :=
    fun str => if_neg (by omega)
  simp only [fillLoop, terminate_ok hin, hback, hinsert, bind, Except.bind]

/-- Any chunk makes the loop read the last character of an empty destination. -/
theorem fillLoop_empty {c : CharType} {failure : Option Errno} {chunk : Chunk} {chunks : List Chunk}
    {buf : Nat → Byte} {nRead : Nat} (hin : nRead + chunk.bytes.length < fillCapacity) :
    fillLoop c none failure (chunk :: chunks) buf nRead [] = .error .emptyBack := by
  simp only [fillLoop, terminate_ok hin, back, List.getLast?_nil, bind, Except.bind]

/-- A loop that returns has counted no further than the last place of the buffer. -/
theorem fillLoop_short {c : CharType} {front : Option Byte} {failure : Option Errno}
    {chunks : List Chunk} : ∀ {buf : Nat → Byte} {nRead : Nat} {dst r : Text},
    nRead ≤ FILLSTRINGFROMFD_BUFSIZE → fillLoop c front failure chunks buf nRead dst = .ok r →
    nRead + (output chunks).length ≤ FILLSTRINGFROMFD_BUFSIZE := by
  induction chunks with
  | nil => exact fun hle _ => hle
  | cons chunk chunks ih =>
    intro buf nRead dst r hle hrun
    by_cases hin : nRead + chunk.bytes.length < fillCapacity
    · have hnext : nRead + chunk.bytes.length ≤ FILLSTRINGFROMFD_BUFSIZE := Nat.le_of_lt_succ hin
      simp only [fillLoop, terminate_ok hin, bind, Except.bind] at hrun
      cases hback : back front dst with
      | error e => rw [hback] at hrun; cases hrun
      | ok last =>
        simp only [hback] at hrun
        split at hrun
        · cases hrun
        · have hrest := ih hnext hrun
          have hlen : (output (chunk :: chunks)).length =
              chunk.bytes.length + (output chunks).length := by
            simp only [output, List.flatMap_cons, List.length_append]
          omega
    · rw [fillLoop_outside (by omega)] at hrun
      cases hrun

/-- **A return has read at most 64 bytes**, in whatever chunks. -/
theorem fill_short {c : CharType} {front : Option Byte} {failure : Option Errno}
    {chunks : List Chunk} {dst r : Text} (h : fillStringFromFd c front failure chunks dst = .ok r) :
    (output chunks).length ≤ FILLSTRINGFROMFD_BUFSIZE := by
  have hcount := fillLoop_short (Nat.zero_le _) h
  rwa [Nat.zero_add] at hcount

/-! ## Where a NUL stands in front of an empty string -/

theorem le_toSize (c : CharType) (b : Byte) : b.toNat ≤ toSize (c.toInt b) := by
  have hlt := b.toNat_lt
  cases c with
  | unsigned => simp only [CharType.toInt, toSize]; omega
  | signed =>
    simp only [CharType.toInt, toSize]
    split <;> omega

theorem fillText_store {bs : List Byte} (hfits : bs.length < fillCapacity) (hnul : 0 ∉ bs)
    (m : Nat → Byte) : fillText (Memory.store (Memory.store m 0 bs) bs.length [0]) = bs := by
  unfold fillText
  rw [Memory.takeWhile_terminated m 0 hfits, List.takeWhile_eq_self_iff]
  intro b hb
  exact decide_eq_true fun h0 => hnul (h0 ▸ hb)

theorem fillLoop_first {c : CharType} {failure : Option Errno} {chunk : Chunk} {chunks : List Chunk}
    (hfits : chunk.bytes.length ≤ FILLSTRINGFROMFD_BUFSIZE) (hnul : 0 ∉ chunk.bytes) :
    ∃ buf, fillStringFromFd c (some 0) failure (chunk :: chunks) [] =
      fillLoop c (some 0) failure chunks buf chunk.bytes.length chunk.bytes := by
  have hin : 0 + chunk.bytes.length < fillCapacity := by
    rw [Nat.zero_add]
    exact Nat.lt_succ_of_le hfits
  have hfront : toSize (c.toInt 0) = 0 := by cases c <;> rfl
  have htext := fillText_store (Nat.lt_succ_of_le hfits) hnul fun _ => 0
  refine ⟨Memory.store (Memory.store (fun _ => 0) 0 chunk.bytes) chunk.bytes.length [0], ?_⟩
  unfold fillStringFromFd
  simp only [fillLoop, terminate_ok hin, back, List.getLast?_nil, bind, Except.bind]
  simp only [hfront, Nat.zero_add, htext, insert, Nat.zero_le, if_true, List.take_nil,
    List.drop_nil, List.nil_append, List.append_nil]

/-- **One chunk of at most 64 bytes arrives**, by luck. -/
theorem fill_single (c : CharType) {chunk : Chunk}
    (hfits : chunk.bytes.length ≤ FILLSTRINGFROMFD_BUFSIZE) (hnul : 0 ∉ chunk.bytes) :
    fillStringFromFd c (some 0) none [chunk] [] = .ok chunk.bytes := by
  obtain ⟨buf, hrun⟩ := @fillLoop_first c none chunk [] hfits hnul
  rw [hrun]
  rfl

/-- **A second chunk does not**, where the first one ends with a character whose code is larger than
its length. -/
theorem fill_second (c : CharType) {failure : Option Errno} {first second : Chunk}
    {chunks : List Chunk} {last : Byte} (hnul : 0 ∉ first.bytes)
    (hlast : first.bytes.getLast? = some last) (h : first.bytes.length < last.toNat) :
    ∃ e, fillStringFromFd c (some 0) failure (first :: second :: chunks) [] = .error e ∧
      (e = .outOfRange ∨ e = .outsideBuffer) := by
  by_cases hfits : first.bytes.length ≤ FILLSTRINGFROMFD_BUFSIZE
  · obtain ⟨buf, hrun⟩ := @fillLoop_first c failure first (second :: chunks) hfits hnul
    rw [hrun]
    by_cases hin : first.bytes.length + second.bytes.length < fillCapacity
    · have hback : back (some 0) first.bytes = .ok last := by
        unfold back
        rw [hlast]
      have hpos := le_toSize c last
      exact ⟨_, fillLoop_misplaced hin hback (by omega), .inl rfl⟩
    · exact ⟨_, fillLoop_outside (by omega), .inr rfl⟩
  · refine ⟨_, fillLoop_outside ?_, .inr rfl⟩
    rw [Nat.zero_add]
    exact Nat.lt_of_not_le hfits

/-! ## The function -/

/-- **The function does what it is for** iff the child writes nothing. -/
theorem fills_iff (chunks : List Chunk) : Fills chunks ↔ chunks = [] := by
  constructor
  · intro h
    cases chunks with
    | nil => rfl
    | cons chunk chunks =>
      have hrun := h .unsigned none none
      unfold fillStringFromFd at hrun
      by_cases hin : 0 + chunk.bytes.length < fillCapacity
      · rw [fillLoop_empty hin] at hrun
        obtain ⟨e, he, -⟩ := hrun
        cases he
      · rw [fillLoop_outside (by omega)] at hrun
        obtain ⟨e, he, -⟩ := hrun
        cases he
  · rintro rfl c front failure
    cases failure with
    | none => exact ⟨rfl, fun _ => rfl⟩
    | some e => exact ⟨e, rfl, rfl⟩

def Chunk.ofText (s : Text) (hne : s ≠ []) (hfits : s.length ≤ fillCapacity) : Chunk :=
  ⟨s, hne, hfits⟩

/-- The path of a port is lost in one chunk, by reading in front of the destination, and in two, by
`std::out_of_range`. -/
theorem port_path_lost :
    ¬ Fills [.ofText (ascii "/dev/ttyUSB0") (by decide) (by decide)] ∧
    fillStringFromFd .unsigned none none [.ofText (ascii "/dev/ttyUSB0") (by decide) (by decide)] [] =
      .error .emptyBack ∧
    fillStringFromFd .unsigned (some 0) none
      [.ofText (ascii "/dev/tty") (by decide) (by decide), .ofText (ascii "USB0") (by decide) (by decide)]
      [] = .error .outOfRange := by
  refine ⟨fun h => ?_, by decide, by decide⟩
  cases (fills_iff _).1 h

end HwUtils

end MbDaemon
