import MbDaemon.Helpers
import MbDaemon.Lib.Hex
import MbDaemon.Lib.Python

/-!
# The flashing script

`BootloaderFlash.py` cuts a firmware image into packages of 1024 bytes, each a line of text with the
page's bytes as 256 words in hexadecimal. Its index into the image is the package's number plus an
offset that grows by 4 with each word and shrinks by 1 with each package; the two cancel
(`nextWord_ok`), and the packages hold the image, padded with `0xFF` (`packages_hold_image`).
-/

namespace MbDaemon

open Python

namespace BootloaderFlash

/-- `str(hex(n)[2:].zfill(k).upper())`. -/
def hexField (k n : Nat) : Str := upper (zfill k ((hex n).drop 2))

structure Locals where
  value : Str
  curr_offset : Int
  bin_OFFSET : Nat
  current_value : List Byte
  cmd_list : List (Option Str)

def blankWord (current_value : List Byte) : Except Error (List Byte) :=
  forRange current_value.length (fun current_value n => setItem current_value n 0xFF) current_value

/-- An iteration of the loop over the bytes of a word; `w` is the length of the word. -/
def nextByte (BIN_bytes : List Byte) (i : Nat) (curr_offset : Int) (w : Nat)
    (current_value : List Byte) (k : Nat) : Except Error (List Byte) := do
  let index : Int := i + curr_offset + (w - (k + 1))
  if index ≥ BIN_bytes.length then setItem current_value k 0xFF
  else
    let b ← getItem BIN_bytes index
    setItem current_value k b

def readWord (BIN_bytes : List Byte) (i : Nat) (curr_offset : Int) (current_value : List Byte) :
    Except Error (List Byte) :=
  let w := current_value.length
  forRange w (nextByte BIN_bytes i curr_offset w) current_value

def wordText (current_value : List Byte) : Except Error Str := do
  let b0 ← getItem current_value 0
  let b1 ← getItem current_value 1
  let b2 ← getItem current_value 2
  let b3 ← getItem current_value 3
  pure (hexField 2 b0.toNat ++ hexField 2 b1.toNat ++ hexField 2 b2.toNat ++ hexField 2 b3.toNat)

/-- An iteration of the loop over the words. -/
def nextWord (BIN_bytes : List Byte) (i : Nat) (s : Locals) (_q : Nat) : Except Error Locals := do
  let current_value ← blankWord s.current_value
  let current_value ← readWord BIN_bytes i s.curr_offset current_value
  let text ← wordText current_value
  pure { s with
    current_value := current_value, value := s.value ++ text, curr_offset := s.curr_offset + 4 }

/-- The line of a package. -/
def writeCmd (offset : Nat) (value : Str) : Str :=
  "CMD:WRITE:".toList ++ hexField 8 offset ++ ":".toList ++ hexField 8 1024 ++ ">".toList ++ value ++
    "\r\n".toList

/-- An iteration of the loop over the packages. -/
def nextPackage (BIN_bytes : List Byte) (s : Locals) (i : Nat) : Except Error Locals := do
  let offset := s.bin_OFFSET
  let s ← forRange 256 (nextWord BIN_bytes i) s
  let cmd_list ← setItem s.cmd_list i (some (writeCmd offset s.value))
  pure { s with
    bin_OFFSET := s.bin_OFFSET + 1024, cmd_list := cmd_list, value := [],
    curr_offset := s.curr_offset - 1 }

/-- `int(bin_SIZE / 1024)`, which is exact below 2^53, and one more for a rest. -/
def numParts (bin_SIZE : Nat) : Nat :=
  if bin_SIZE % 1024 > 0 then bin_SIZE / 1024 + 1 else bin_SIZE / 1024

/-- The variables in front of the loops. -/
def Locals.start : Locals where
  value := []
  curr_offset := 0
  bin_OFFSET := 0
  current_value := [0xFF, 0xFF, 0xFF, 0xFF]
  cmd_list := List.replicate 4096 none

def buildPackages (BIN_bytes : List Byte) : Except Error (List (Option Str)) := do
  let s ← forRange (numParts BIN_bytes.length) (nextPackage BIN_bytes) .start
  pure s.cmd_list

/-! ## What a package says -/

/-- The byte at an address of the padded image. -/
def padded (BIN_bytes : List Byte) (j : Nat) : Byte := BIN_bytes.getD j 0xFF

/-- The bytes of each word in reverse. -/
def swapWords : List Byte → List Byte
  | a :: b :: c :: d :: rest => d :: c :: b :: a :: swapWords rest
  | rest => rest

/-- The bytes of a page in the order in which a package lists them. -/
def pageWords (BIN_bytes : List Byte) (base n : Nat) : List Byte :=
  (List.range n).flatMap fun q =>
    [padded BIN_bytes (base + 4 * q + 3), padded BIN_bytes (base + 4 * q + 2),
      padded BIN_bytes (base + 4 * q + 1), padded BIN_bytes (base + 4 * q)]

/-- The hexadecimal text of the `i`-th package. -/
def data (BIN_bytes : List Byte) (i : Nat) : Str := Hex.encode (pageWords BIN_bytes (1024 * i) 256)

theorem hexField_eq {k n : Nat} (hk : 0 < k) (h : n < 16 ^ k) : hexField k n = Hex.digits k n :=
  Hex.upper_zfill hk h

/-! ## A word -/

theorem blankWord_ok {cur : List Byte} (h : cur.length = 4) :
    blankWord cur = .ok [0xFF, 0xFF, 0xFF, 0xFF] := by
  obtain ⟨a, b, c, d, rfl⟩ : ∃ a b c d, cur = [a, b, c, d] := by
    match cur, h with
    | [a, b, c, d], _ => exact ⟨a, b, c, d, rfl⟩
  rfl

/-- The branch on the size of the image reads the padded image. -/
theorem nextByte_ok {bin cur : List Byte} {i k base : Nat} {curr_offset : Int}
    (hbase : (i : Int) + curr_offset = base) (hk : k < 4) (hcur : cur.length = 4) :
    nextByte bin i curr_offset 4 cur k = .ok (cur.set k (padded bin (base + 3 - k))) := by
  have hindex : (i : Int) + curr_offset + ((4 : Nat) - ((k : Int) + 1)) = (base + 3 - k : Nat) := by
    omega
  unfold nextByte
  simp only [hindex]
  by_cases hj : ((base + 3 - k : Nat) : Int) ≥ bin.length
  · have hnone : bin[base + 3 - k]? = none := List.getElem?_eq_none (by omega)
    rw [if_pos hj, setItem_nat _ (by omega)]
    simp [padded, List.getD_eq_getElem?_getD, hnone]
  · have hsome : bin[base + 3 - k]? = some bin[base + 3 - k] := List.getElem?_eq_getElem (by omega)
    rw [if_neg hj, getItem_nat hsome]
    simp only [bind, Except.bind, setItem_nat _ (show k < cur.length by omega)]
    simp [padded, List.getD_eq_getElem?_getD, hsome]

theorem readWord_ok (bin : List Byte) {i base : Nat} {curr_offset : Int}
    (h : (i : Int) + curr_offset = base) :
    readWord bin i curr_offset [0xFF, 0xFF, 0xFF, 0xFF] =
      .ok [padded bin (base + 3), padded bin (base + 2), padded bin (base + 1), padded bin base] := by
  have hstep : ∀ k cur, k < 4 → cur.length = 4 →
      nextByte bin i curr_offset 4 cur k = .ok (cur.set k (padded bin (base + 3 - k))) :=
    fun k cur hk hcur => nextByte_ok h hk hcur
  show forRange 4 (nextByte bin i curr_offset 4) [0xFF, 0xFF, 0xFF, 0xFF] = _
  rw [forRange_succ, forRange_succ, forRange_succ, forRange_succ, forRange_zero]
  simp only [bind, Except.bind]
  rw [hstep 0 _ (by decide) rfl]
  simp only
  rw [hstep 1 _ (by decide) rfl]
  simp only
  rw [hstep 2 _ (by decide) rfl]
  simp only
  rw [hstep 3 _ (by decide) rfl]
  rfl

theorem wordText_ok (b0 b1 b2 b3 : Byte) :
    wordText [b0, b1, b2, b3] = .ok (Hex.encode [b0, b1, b2, b3]) := by
  have hfield : ∀ b : Byte, hexField 2 b.toNat = Hex.digits 2 b.toNat := by
    intro b
    have := b.toNat_lt
    exact hexField_eq (by decide) (by omega)
  have hrun : wordText [b0, b1, b2, b3] =
      .ok (hexField 2 b0.toNat ++ hexField 2 b1.toNat ++ hexField 2 b2.toNat ++
        hexField 2 b3.toNat) := rfl
  rw [hrun]
  simp only [hfield, Hex.encode, List.flatMap_cons, List.flatMap_nil, List.append_nil,
    List.append_assoc]

/-- **A word**: the bytes at the number of the package plus the offset, the last one first. -/
theorem nextWord_ok (bin : List Byte) {i base q : Nat} {s : Locals}
    (hbase : (i : Int) + s.curr_offset = base) (hcur : s.current_value.length = 4) :
    nextWord bin i s q = .ok { s with
      current_value := [padded bin (base + 3), padded bin (base + 2), padded bin (base + 1),
        padded bin base]
      value := s.value ++ Hex.encode [padded bin (base + 3), padded bin (base + 2),
        padded bin (base + 1), padded bin base]
      curr_offset := s.curr_offset + 4 } := by
  unfold nextWord
  simp only [bind, Except.bind, blankWord_ok hcur, readWord_ok bin hbase, wordText_ok]
  rfl

/-! ## A package -/

structure AtPackage (bin : List Byte) (i : Nat) (s : Locals) : Prop where
  value : s.value = []
  offset : (i : Int) + s.curr_offset = (1024 * i : Nat)
  bin_OFFSET : s.bin_OFFSET = 1024 * i
  current_value : s.current_value.length = 4
  length : s.cmd_list.length = 4096
  done : ∀ j < i, s.cmd_list[j]? = some (some (writeCmd (1024 * j) (data bin j)))
  rest : ∀ j, i ≤ j → j < 4096 → s.cmd_list[j]? = some none

theorem pageWords_succ (bin : List Byte) (base n : Nat) :
    pageWords bin base (n + 1) = pageWords bin base n ++
      [padded bin (base + 4 * n + 3), padded bin (base + 4 * n + 2), padded bin (base + 4 * n + 1),
        padded bin (base + 4 * n)] := by
  simp [pageWords, List.range_succ]

/-- The variables between the words of the package that begins at `s`. -/
structure AtWord (bin : List Byte) (i : Nat) (s : Locals) (q : Nat) (t : Locals) : Prop where
  value : t.value = Hex.encode (pageWords bin (1024 * i) q)
  offset : t.curr_offset = s.curr_offset + 4 * q
  current_value : t.current_value.length = 4
  bin_OFFSET : t.bin_OFFSET = s.bin_OFFSET
  cmd_list : t.cmd_list = s.cmd_list

theorem words_ok {bin : List Byte} {i : Nat} {s : Locals} (h : AtPackage bin i s) :
    ∃ t, forRange 256 (nextWord bin i) s = .ok t ∧ AtWord bin i s 256 t := by
  refine forRange_ok ⟨h.value, by simp, h.current_value, rfl, rfl⟩ fun q t _ ht => ?_
  have hbase : (i : Int) + t.curr_offset = (1024 * i + 4 * q : Nat) := by
    have := h.offset
    have := ht.offset
    omega
  refine ⟨_, nextWord_ok bin hbase ht.current_value, ?_, ?_, rfl, ht.bin_OFFSET, ht.cmd_list⟩
  · rw [pageWords_succ, Hex.encode_append, ← ht.value]
  · rw [ht.offset]
    push_cast
    omega

/-- **A package** lists its page, and leaves the offset where the next one needs it. -/
theorem nextPackage_ok {bin : List Byte} {i : Nat} {s : Locals} (h : AtPackage bin i s)
    (hi : i < 4096) : ∃ s', nextPackage bin s i = .ok s' ∧ AtPackage bin (i + 1) s' := by
  obtain ⟨t, hrun, hval, hoff, hcur, hbin, hlist⟩ := words_ok h
  change t.value = data bin i at hval
  have hlen : i < t.cmd_list.length := by rw [hlist, h.length]; exact hi
  refine ⟨{ t with bin_OFFSET := t.bin_OFFSET + 1024,
                   cmd_list := t.cmd_list.set i (some (writeCmd (1024 * i) (data bin i))),
                   value := [], curr_offset := t.curr_offset - 1 }, ?_, ?_⟩
  · unfold nextPackage
    simp only [bind, Except.bind, hrun, hval, setItem_nat _ hlen, h.bin_OFFSET]
    rfl
  · constructor
    · rfl
    · have := h.offset
      simp only
      push_cast
      omega
    · simp only [hbin, h.bin_OFFSET]
      omega
    · exact hcur
    · rw [List.length_set, hlist, h.length]
    · intro j hj
      by_cases e : j = i
      · subst e
        rw [List.getElem?_set_self hlen]
      · rw [List.getElem?_set_ne (fun e' => e e'.symm), hlist]
        exact h.done j (by omega)
    · intro j hj hj'
      rw [List.getElem?_set_ne (by omega), hlist]
      exact h.rest j (by omega) hj'

theorem atPackage_start (bin : List Byte) : AtPackage bin 0 .start where
  value := rfl
  offset := rfl
  bin_OFFSET := rfl
  current_value := rfl
  length := List.length_replicate
  done := fun j hj => absurd hj (Nat.not_lt_zero j)
  rest := fun j _ hj => by
    show (List.replicate 4096 none)[j]? = some none
    rw [List.getElem?_replicate, if_pos hj]

theorem numParts_eq (n : Nat) : numParts n = (n + 1023) / 1024 := by
  unfold numParts
  split <;> omega

theorem buildPackages_ok {bin : List Byte} (h : bin.length ≤ 4096 * 1024) :
    ∃ cmd_list, buildPackages bin = .ok cmd_list ∧ cmd_list.length = 4096 ∧
      (∀ i < numParts bin.length,
        cmd_list[i]? = some (some (writeCmd (1024 * i) (data bin i)))) ∧
      (∀ i, numParts bin.length ≤ i → i < 4096 → cmd_list[i]? = some none) := by
  have hparts : numParts bin.length ≤ 4096 := by rw [numParts_eq]; omega
  have hnext : ∀ i s, i < numParts bin.length → AtPackage bin i s →
      ∃ s', nextPackage bin s i = .ok s' ∧ AtPackage bin (i + 1) s' :=
    fun i s hi hs => nextPackage_ok hs (hi.trans_le hparts)
  obtain ⟨s, hrun, hs⟩ := forRange_ok (atPackage_start bin) hnext
  refine ⟨s.cmd_list, ?_, hs.length, hs.done, hs.rest⟩
  unfold buildPackages
  simp only [bind, Except.bind, hrun]
  rfl

/-- An image with more packages than the list has places. -/
theorem buildPackages_error {bin : List Byte} (h : 4096 * 1024 < bin.length) :
    buildPackages bin = .error .indexError := by
  obtain ⟨s, hrun, hs⟩ := forRange_ok (n := 4096) (atPackage_start bin) fun i s hi hs =>
    nextPackage_ok hs hi
  obtain ⟨t, hwords, -, -, -, -, hlist⟩ := words_ok hs
  have hlen : t.cmd_list.length ≤ 4096 := by rw [hlist, hs.length]
  have hnext : nextPackage bin s 4096 = .error .indexError := by
    unfold nextPackage
    simp only [bind, Except.bind, hwords]
    rw [setItem_past _ hlen]
  have hloop : forRange (numParts bin.length) (nextPackage bin) .start = .error .indexError := by
    refine forRange_error (k := 4096 + 1) (by rw [numParts_eq]; omega) ?_
    rw [forRange_succ, hrun]
    exact hnext
  unfold buildPackages
  simp only [bind, Except.bind, hloop]

/-! ## The image in the packages -/

theorem range_flatMap {β : Type} (f : Nat → β) (m n : Nat) :
    ((List.range n).flatMap fun i => (List.range m).map fun j => f (m * i + j)) =
      (List.range (m * n)).map f := by
  induction n with
  | zero => rfl
  | succ n ih =>
    rw [List.range_succ, List.flatMap_append, ih, Nat.mul_succ, List.range_add, List.map_append]
    simp only [List.flatMap_cons, List.flatMap_nil, List.append_nil, List.map_map]
    rfl

/-- Swapping the words of a page puts its bytes in order. -/
theorem swapWords_pageWords (bin : List Byte) (base n : Nat) :
    swapWords (pageWords bin base n) = (List.range (4 * n)).map fun j => padded bin (base + j) := by
  have hswap : ∀ qs : List Nat, swapWords (qs.flatMap fun q =>
      [padded bin (base + 4 * q + 3), padded bin (base + 4 * q + 2), padded bin (base + 4 * q + 1),
        padded bin (base + 4 * q)]) =
      qs.flatMap fun q => (List.range 4).map fun j => padded bin (base + (4 * q + j)) := by
    intro qs
    induction qs with
    | nil => rfl
    | cons q qs ih =>
      simp only [List.flatMap_cons, List.cons_append, List.nil_append, swapWords, ih]
      rfl
  rw [pageWords, hswap]
  exact range_flatMap (fun j => padded bin (base + j)) 4 n

theorem range_padded {bin : List Byte} {n : Nat} (h : bin.length ≤ n) :
    (List.range n).map (padded bin) = bin ++ List.replicate (n - bin.length) 0xFF := by
  refine List.ext_getElem? fun j => ?_
  by_cases hj : j < bin.length
  · rw [List.getElem?_append_left hj, List.getElem?_map, List.getElem?_range (by omega)]
    simp [padded, List.getD_eq_getElem?_getD, List.getElem?_eq_getElem hj]
  · rw [List.getElem?_append_right (by omega), List.getElem?_map, List.getElem?_replicate]
    by_cases hn : j < n
    · rw [List.getElem?_range hn, if_pos (by omega)]
      simp [padded, List.getD_eq_getElem?_getD, List.getElem?_eq_none (show bin.length ≤ j by omega)]
    · rw [List.getElem?_eq_none (by simpa using hn), if_neg (by omega)]
      rfl

theorem length_pageWords (bin : List Byte) (base n : Nat) :
    (pageWords bin base n).length = 4 * n := by
  induction n with
  | zero => rfl
  | succ n ih => rw [pageWords_succ, List.length_append, ih]; rfl

theorem length_data (bin : List Byte) (i : Nat) : (data bin i).length = 2048 := by
  rw [data, Hex.length_encode, length_pageWords]

theorem writeCmd_eq {i : Nat} (h : i < 4096) (value : Str) :
    writeCmd (1024 * i) value =
      "CMD:WRITE:".toList ++ Hex.digits 8 (1024 * i) ++ ":00000400>".toList ++ value ++
        "\r\n".toList := by
  have hoffset : hexField 8 (1024 * i) = Hex.digits 8 (1024 * i) :=
    hexField_eq (by decide) (by omega)
  have hsize : ":".toList ++ (hexField 8 1024 ++ ">".toList) = ":00000400>".toList := by
    rw [hexField_eq (by decide) (by decide)]
    rfl
  unfold writeCmd
  rw [hoffset, ← hsize]
  simp only [List.append_assoc]

/-- The pages of the packages, one after the other, are the padded image. -/
theorem pages_flatMap {bin : List Byte} {n : Nat} (h : bin.length ≤ 1024 * n) :
    (((List.range n).map fun i => pageWords bin (1024 * i) 256).flatMap swapWords) =
      bin ++ List.replicate (1024 * n - bin.length) 0xFF := by
  rw [List.flatMap_map]
  simp only [swapWords_pageWords]
  rw [← range_padded h]
  exact range_flatMap (padded bin) 1024 n

/-- **The packages hold the image.** For an image of up to 4096 pages no index is out of range;
there are as many packages as the image has pages, the last one perhaps in part, each with its
offset, its size and 2048 digits; and the words of all packages, each turned round, are the image
padded with `0xFF`. -/
theorem packages_hold_image {bin : List Byte} (h : bin.length ≤ 4096 * 1024) :
    ∃ (cmd_list : List (Option Str)) (texts : Nat → Str) (pages : List (List Byte)),
      buildPackages bin = .ok cmd_list ∧ cmd_list.length = 4096 ∧
      numParts bin.length = (bin.length + 1023) / 1024 ∧
      (∀ i < numParts bin.length,
        cmd_list[i]? = some (some ("CMD:WRITE:".toList ++ Hex.digits 8 (1024 * i) ++
          ":00000400>".toList ++ texts i ++ "\r\n".toList)) ∧
        (texts i).length = 2048 ∧ ∀ c ∈ texts i, (Hex.value c).isSome = true) ∧
      (∀ i, numParts bin.length ≤ i → i < 4096 → cmd_list[i]? = some none) ∧
      ((List.range (numParts bin.length)).mapM fun i => Hex.decode (texts i)) = some pages ∧
      pages.flatMap swapWords =
        bin ++ List.replicate (1024 * numParts bin.length - bin.length) 0xFF := by
  obtain ⟨cmd_list, hrun, hlen, hdone, hrest⟩ := buildPackages_ok h
  have hparts : numParts bin.length ≤ 4096 := by rw [numParts_eq]; omega
  refine ⟨cmd_list, data bin, (List.range (numParts bin.length)).map fun i =>
    pageWords bin (1024 * i) 256, hrun, hlen, numParts_eq _, fun i hi => ?_, hrest, ?_, ?_⟩
  · rw [hdone i hi, writeCmd_eq (hi.trans_le hparts)]
    exact ⟨rfl, length_data bin i, Hex.value_encode _⟩
  · simp only [data, Hex.decode_encode]
    exact List.mapM_pure
  · exact pages_flatMap (by rw [numParts_eq]; omega)

/-- An image of five bytes takes one package. -/
theorem packages_hold_image_five :
    ∃ (cmd_list : List (Option Str)) (texts : Nat → Str) (pages : List (List Byte)),
      buildPackages [1, 2, 3, 4, 5] = .ok cmd_list ∧
      cmd_list[0]? = some (some ("CMD:WRITE:".toList ++ Hex.digits 8 (1024 * 0) ++
        ":00000400>".toList ++ texts 0 ++ "\r\n".toList)) ∧
      ((List.range 1).mapM fun i => Hex.decode (texts i)) = some pages ∧
      pages.flatMap swapWords = [1, 2, 3, 4, 5] ++ List.replicate 1019 0xFF := by
  obtain ⟨cmd_list, texts, pages, hrun, -, -, hcmd, -, hdecode, hpages⟩ :=
    @packages_hold_image [1, 2, 3, 4, 5] (by decide)
  exact ⟨cmd_list, texts, pages, hrun, (hcmd 0 (by decide)).1, hdecode, hpages⟩

end BootloaderFlash

end MbDaemon
