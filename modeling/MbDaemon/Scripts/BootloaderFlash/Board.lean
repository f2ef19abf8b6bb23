import MbDaemon.Lib.Memory
import MbDaemon.Scripts.BootloaderFlash.Erase

/-!
# What the board holds

A board that carries out the `CMD:WRITE` lines it acknowledges, and no others: it reads offset, size
and data out of a line, turns the words round and stores the bytes. Whatever the world does to the
script, at every moment such a board holds the first pages of the padded image and is untouched
behind them, and all of it once the script has left with success (`board_holds_image`).
-/

namespace MbDaemon

open Python

namespace BootloaderFlash

/-- What a line tells the board to store, and where. -/
def readWrite (cmd : Str) : Option (Nat × List Byte) := do
  let rest ← cmd.dropPrefix? "CMD:WRITE:".toList
  let offset ← Hex.number (rest.take 8)
  let rest ← (rest.drop 8).dropPrefix? ":".toList
  let size ← Hex.number (rest.take 8)
  let rest ← (rest.drop 8).dropPrefix? ">".toList
  let bytes ← Hex.decode (rest.take (2 * size))
  if rest.drop (2 * size) = "\r\n".toList ∧ bytes.length = size then some (offset, swapWords bytes)
  else none

/-- The memory after a line has been carried out. -/
def carryOut (m : Nat → Byte) (cmd : Str) : Nat → Byte :=
  match readWrite cmd with
  | some (offset, bytes) => Memory.store m offset bytes
  | none => m

/-- The memory of a board, `m` to begin with, after what has happened on the line. -/
def memory (m : Nat → Byte) (es : List Event) : Nat → Byte :=
  (es.foldl (StopAndWait.Receiver.see carryOut Acknowledge) ⟨m, none⟩).state

/-! ## A line -/

theorem dropPrefix?_append (xs ys : Str) : (xs ++ ys).dropPrefix? xs = some ys :=
  List.dropPrefix?_append_of_beq ys (by simp)

theorem readWrite_other {cmd : Str} (h : isPackage cmd = false) : readWrite cmd = none := by
  have hnone : cmd.dropPrefix? "CMD:WRITE:".toList = none := by
    cases hdrop : cmd.dropPrefix? "CMD:WRITE:".toList with
    | none => rfl
    | some rest =>
      obtain ⟨front, rfl, hfront⟩ := List.dropPrefix?_eq_some_iff.1 hdrop
      obtain rfl := eq_of_beq hfront
      rw [isPackage, List.isPrefixOf_iff_prefix.2 (List.prefix_append _ _)] at h
      cases h
  unfold readWrite
  rw [hnone]
  rfl

/-- **A line is read back**, offset and data. -/
theorem readWrite_writeCmd (bin : List Byte) {i : Nat} (h : i < 4096) :
    readWrite (writeCmd (1024 * i) (data bin i)) =
      some (1024 * i, (List.range 1024).map fun j => padded bin (1024 * i + j)) := by
  have hnum : Hex.number (Hex.digits 8 (1024 * i)) = some (1024 * i) :=
    Hex.number_digits (by omega)
  have hsize : Hex.number "00000400".toList = some 1024 := by decide
  have hlen := length_data bin i
  have hbytes : Hex.decode (data bin i) = some (pageWords bin (1024 * i) 256) := Hex.decode_encode _
  have hcolon : ":00000400>".toList = ":".toList ++ ("00000400".toList ++ ">".toList) := rfl
  have hdigits : (Hex.digits 8 (1024 * i)).length = 8 := Hex.length_digits _ _
  have hzeros : "00000400".toList.length = 8 := rfl
  rw [writeCmd_eq h, hcolon]
  simp only [List.append_assoc]
  unfold readWrite
  simp only [dropPrefix?_append, Option.bind_eq_bind, Option.bind_some, List.take_left' hdigits,
    List.drop_left' hdigits, hnum, List.take_left' hzeros, List.drop_left' hzeros, hsize,
    List.take_left' hlen, List.drop_left' hlen, hbytes, length_pageWords]
  simp [swapWords_pageWords]

/-! ## The memory -/

/-- A memory with the first `k` pages of the padded image in front. -/
def written (bin : List Byte) (m : Nat → Byte) (k : Nat) : Nat → Byte :=
  fun j => if j < 1024 * k then padded bin j else m j

theorem written_zero (bin : List Byte) (m : Nat → Byte) : written bin m 0 = m := by
  funext j
  simp [written]

theorem carryOut_written (bin : List Byte) (m : Nat → Byte) {i : Nat} (h : i < 4096) :
    carryOut (written bin m i) (writeCmd (1024 * i) (data bin i)) = written bin m (i + 1) := by
  unfold carryOut
  rw [readWrite_writeCmd bin h]
  funext j
  simp only [Memory.store, written]
  by_cases hlow : j < 1024 * i
  · rw [if_neg (by omega), if_pos hlow, if_pos (by omega)]
  rw [if_pos (by omega), if_neg hlow]
  by_cases hpage : j < 1024 * (i + 1)
  · have hj : 1024 * i + (j - 1024 * i) = j := by omega
    rw [if_pos hpage, List.getElem?_map, List.getElem?_range (by omega)]
    simp [hj]
  · rw [if_neg hpage, List.getElem?_eq_none (by simp; omega)]
    rfl

theorem foldl_packages {bin : List Byte} (hbin : bin.length ≤ 4096 * 1024) (m : Nat → Byte) {k : Nat}
    (hk : k ≤ numParts bin.length) :
    ((packages bin).take k).foldl carryOut m = written bin m k := by
  have hparts : numParts bin.length ≤ 4096 := by rw [numParts_eq]; omega
  induction k with
  | zero => rw [written_zero]; rfl
  | succ k ih =>
    have hlast : (packages bin)[k]? = some (writeCmd (1024 * k) (data bin k)) := by
      unfold packages
      rw [List.getElem?_map, List.getElem?_range (by omega)]
      rfl
    rw [List.take_add_one, List.foldl_append, ih (by omega), hlast]
    exact carryOut_written bin m (by omega)

theorem carryOut_other (m : Nat → Byte) (cmd : Str) (h : isPackage cmd = false) :
    carryOut m cmd = m := by
  unfold carryOut
  rw [readWrite_other h]

/-- Of an image that is too large no page goes out. -/
theorem apart_of_long {w : World} (h : ∀ bin ∈ w.image, 4096 * 1024 < bin.length) :
    ∀ e ∈ (script w).log, StopAndWait.Apart isPackage e := by
  have hflash : ∀ e ∈ (flash w).log, StopAndWait.Apart isPackage e := by
    rcases flash_cases w with ⟨⟨bin, hbin, hfits, -⟩, -⟩ | ⟨-, hlog, -⟩
    · have := h bin hbin
      omega
    · exact hlog
  rcases script_cases w with ⟨-, hlog, -⟩ | ⟨-, -, -, hscript⟩
  · exact hlog
  · rw [hscript]
    exact fun e he => (List.mem_append.1 he).elim (apart_erasing w e) (hflash e)

/-- At every moment of the script the first pages have been written, and all at its end if it leaves
with success. -/
theorem memory_written (w : World) (m : Nat → Byte) {es : List Event} (hes : es <+: (script w).log) :
    ∃ k ≤ numParts (w.image.getD []).length, memory m es = written (w.image.getD []) m k ∧
      (es = (script w).log → (script w).status = 0 → k = numParts (w.image.getD []).length) := by
  have hinert : ∀ (m : Nat → Byte) cmd, isPackage cmd = false → carryOut m cmd = m := carryOut_other
  have hnone : (⟨m, none⟩ : StopAndWait.Receiver (Nat → Byte) Str).Apart isPackage :=
    fun _ h => by cases h
  obtain ⟨all, haround, hstatus⟩ := delivers_script w
  by_cases hfits : (w.image.getD []).length ≤ 4096 * 1024
  · obtain ⟨k, hk, hstate, hend⟩ := haround.received hinert hnone hes
    rw [length_packages] at hk hend
    exact ⟨k, hk, hstate.trans (foldl_packages hfits m hk), fun h hzero => hend h (hstatus hzero)⟩
  · have hlong : ∀ bin ∈ w.image, 4096 * 1024 < bin.length := by
      intro bin hbin
      rw [Option.mem_def.1 hbin] at hfits
      exact Nat.lt_of_not_le hfits
    have hapart := apart_of_long hlong
    have hsame := (StopAndWait.Receiver.foldl_apart Acknowledge hinert hnone
      fun e he => hapart e (hes.subset he)).1
    refine ⟨0, Nat.zero_le _, by rw [written_zero]; exact hsame, fun _ hzero => ?_⟩
    obtain rfl := hstatus hzero
    have hsent := (haround.complete (isPackage_packages _)).1
    rw [StopAndWait.sent_apart hapart] at hsent
    rw [← length_packages, ← hsent]
    rfl

/-- **The board holds the image.** Whatever the ports, the files and the board do, at every moment of
the script the memory begins with whole pages of the image padded with `0xFF` and is what it was
behind them; when the script leaves with 0 these are all pages. -/
theorem board_holds_image (w : World) (m : Nat → Byte) :
    (∀ es, es <+: (script w).log → ∃ k ≤ numParts (w.image.getD []).length,
      ∀ j, memory m es j = if j < 1024 * k then (w.image.getD []).getD j 0xFF else m j) ∧
    ((script w).status = 0 → ∀ j, memory m (script w).log j =
      if j < 1024 * numParts (w.image.getD []).length then (w.image.getD []).getD j 0xFF else m j) := by
  refine ⟨fun es hes => ?_, fun hzero => ?_⟩
  · obtain ⟨k, hk, hmemory, -⟩ := memory_written w m hes
    exact ⟨k, hk, fun j => by rw [hmemory]; rfl⟩
  · obtain ⟨k, -, hmemory, hend⟩ := memory_written w m List.prefix_rfl
    obtain rfl := hend rfl hzero
    exact fun j => by rw [hmemory]; rfl

end BootloaderFlash

end MbDaemon
