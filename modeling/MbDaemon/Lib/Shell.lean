import Mathlib

/-!
# Command lines of a POSIX shell

What `sh -c line` makes of a line, as far as recognising its words goes: quoting, blanks,
operators, comments, and the bytes that begin an expansion. A line of words is one simple command.
What an expansion, a tilde or a pattern stands for is not the line's to say, and the environment
decides it.

`splice_iff` is what the verification uses: putting an argument behind the words of a command runs
that command on that argument, whatever the environment, exactly if the argument is a bare word.
-/

namespace Shell

/-- What an unquoted byte is to the shell. -/
inductive Kind where
  | plain
  | blank
  | operator
  | hash
  | backslash
  | singleQuote
  | doubleQuote
  | expansion
  deriving DecidableEq, Repr

def newline : UInt8 := 0x0a
def space : UInt8 := 0x20
def bang : UInt8 := 0x21
def slash : UInt8 := 0x2f

/-- Operators begin with a newline or one of `&`, `(`, `)`, `;`, `<`, `>`, `|`; expansions with
`$` or a grave accent. -/
def kind (b : UInt8) : Kind :=
  if b = 0x09 ∨ b = space then .blank
  else if b ∈ [newline, 0x26, 0x28, 0x29, 0x3b, 0x3c, 0x3e, 0x7c] then .operator
  else if b = 0x23 then .hash
  else if b = 0x5c then .backslash
  else if b = 0x27 then .singleQuote
  else if b = 0x22 then .doubleQuote
  else if b = 0x24 ∨ b = 0x60 then .expansion
  else .plain

/-- A byte of a word, and whether it was quoted. -/
structure Sym where
  byte : UInt8
  quoted : Bool
  deriving DecidableEq, Repr

abbrev Word := List Sym

inductive Token where
  | word (w : Word)
  | operator (b : UInt8)
  deriving DecidableEq, Repr

def Token.word? : Token → Option Word
  | .word w => some w
  | .operator _ => none

/-- What the next byte stands in. -/
inductive Mode where
  | unquoted
  | escape
  | single
  | double
  | doubleEscape
  | comment
  deriving DecidableEq, Repr

/-- The line read so far: its tokens, the word that is open, and whether an expansion began. -/
structure State where
  tokens : List Token
  word : Option Word
  mode : Mode
  expands : Bool
  deriving DecidableEq, Repr

def start : State := ⟨[], none, .unquoted, false⟩

namespace State

def extend (s : State) (w : Word) : State := { s with word := some (s.word.getD [] ++ w) }

def push (s : State) (b : UInt8) (quoted : Bool) : State := s.extend [⟨b, quoted⟩]

/-- A quotation mark opens a word, if none is open: `''` is a word. -/
def openWord (s : State) : State := { s with word := some (s.word.getD []) }

def delimit (s : State) : State :=
  { s with tokens := s.tokens ++ (s.word.map Token.word).toList, word := none }

def operator (s : State) (b : UInt8) : State :=
  { s.delimit with tokens := s.delimit.tokens ++ [.operator b] }

def enter (s : State) (m : Mode) : State := { s with mode := m }

def expand (s : State) : State := { s with expands := true }

def unquoted (s : State) (b : UInt8) : State :=
  match kind b with
  | .plain => s.push b false
  | .blank => s.delimit
  | .operator => s.operator b
  | .hash => if s.word = none then s.enter .comment else s.push b false
  | .backslash => s.enter .escape
  | .singleQuote => s.openWord.enter .single
  | .doubleQuote => s.openWord.enter .double
  | .expansion => s.expand

def double (s : State) (b : UInt8) : State :=
  match kind b with
  | .backslash => s.enter .doubleEscape
  | .doubleQuote => s.enter .unquoted
  | .expansion => s.expand
  | _ => s.push b true

/-- A byte behind a backslash between double quotes: the backslash stands for itself unless it
quotes one of the bytes that are special there. -/
def doubleEscape (s : State) (b : UInt8) : State :=
  match kind b with
  | .backslash | .doubleQuote | .expansion => s.push b true
  | _ => (s.push 0x5c true).push b true

def step (s : State) (b : UInt8) : State :=
  match s.mode with
  | .unquoted => s.unquoted b
  | .escape => if b = newline then s.enter .unquoted else (s.push b true).enter .unquoted
  | .single => if kind b = .singleQuote then s.enter .unquoted else s.push b true
  | .double => s.double b
  | .doubleEscape => if b = newline then s.enter .double else (s.doubleEscape b).enter .double
  | .comment => if b = newline then (s.operator b).enter .unquoted else s

end State

def scan (s : State) (line : List UInt8) : State := line.foldl State.step s

/-! ### Words that are not only themselves -/

def Sym.isUnquoted (c : Sym) (b : UInt8) : Bool := c.byte = b && !c.quoted

/-- The home directory of some user: a tilde, no byte of whose prefix is quoted. -/
def tilde : Word → Bool
  | [] => false
  | c :: w => c.isUnquoted 0x7e && (w.takeWhile (·.byte ≠ slash)).all (!·.quoted)

/-- A closing bracket comes, and before a slash. -/
def closes : Word → Bool
  | [] => false
  | c :: w => c.isUnquoted 0x5d || (c.byte ≠ slash && closes w)

/-- What stands behind an opening bracket: one byte at least, after a `!` if there is one, and the
closing bracket. -/
def bracket : Word → Bool
  | [] => false
  | c :: w =>
    if c.isUnquoted bang then
      match w with
      | [] => false
      | d :: w => d.byte ≠ slash && closes w
    else c.byte ≠ slash && closes w

/-- An asterisk, a question mark and an opening bracket, where patterns begin. -/
def patternBytes : List UInt8 := [0x2a, 0x3f, 0x5b]

/-- The word holds an asterisk, a question mark or a bracket expression. -/
def pattern : Word → Bool
  | [] => false
  | c :: w =>
    c.isUnquoted 0x2a || c.isUnquoted 0x3f || (c.isUnquoted 0x5b && bracket w) || pattern w

def active (w : Word) : Bool := tilde w || pattern w

def Token.active : Token → Bool
  | .word w => Shell.active w
  | .operator _ => false

/-! ### Running a line -/

/-- What a line runs: a simple command of the words `argv`, or something made of several tokens that
operators or reserved words put together, or nothing, a quotation being left open. -/
inductive Outcome where
  | simple (argv : List (List UInt8))
  | compound (tokens : List Token)
  | unterminated
  deriving DecidableEq, Repr

def text (s : String) : List UInt8 := s.toList.map fun c => UInt8.ofNat c.toNat

def reserved : List (List UInt8) :=
  [[bang], [0x7b], [0x7d], text "case", text "do", text "done", text "elif", text "else",
    text "esac", text "fi", text "for", text "if", text "in", text "then", text "until",
    text "while"]

def bytes (w : Word) : List UInt8 := w.map Sym.byte

def unquotedWord (bs : List UInt8) : Word := bs.map (⟨·, false⟩)

/-- The outcome for the tokens of a line that holds no expansion. -/
def outcome (tokens : List Token) : Outcome :=
  match tokens.mapM Token.word? with
  | some (w :: ws) =>
    if ∃ r ∈ reserved, w = unquotedWord r then .compound tokens
    else .simple ((w :: ws).map bytes)
  | _ => .compound tokens

/-- The environment decides what the line cannot: what an expansion is replaced by, what a tilde or
a pattern stands for, and a backslash with nothing behind it. -/
def run (env : List UInt8 → Outcome) (line : List UInt8) : Outcome :=
  let s := scan start line
  let tokens := s.delimit.tokens
  if s.expands ∨ s.mode = .escape then env line
  else if s.mode ≠ .unquoted ∧ s.mode ≠ .comment then .unterminated
  else if ∃ t ∈ tokens, t.active then env line
  else outcome tokens

/-! ### What scanning adds -/

@[simp] theorem scan_nil (s : State) : scan s [] = s := rfl

@[simp] theorem scan_cons (s : State) (b : UInt8) (bs : List UInt8) :
    scan s (b :: bs) = scan (s.step b) bs := rfl

theorem scan_append (s : State) (xs ys : List UInt8) :
    scan s (xs ++ ys) = scan (scan s xs) ys := List.foldl_append

def Token.size : Token → Nat
  | .word w => w.length
  | .operator _ => 0

namespace State

def held (s : State) : Nat := (s.tokens.map Token.size).sum + (s.word.getD []).length

@[simp] theorem held_push (s : State) (b : UInt8) (q : Bool) :
    (s.push b q).held = s.held + 1 := by
  simp [held, push, extend, Nat.add_assoc]

@[simp] theorem held_openWord (s : State) : s.openWord.held = s.held := by
  simp [held, openWord]

@[simp] theorem held_delimit (s : State) : s.delimit.held = s.held := by
  cases h : s.word <;> simp [held, delimit, h, Token.size]

@[simp] theorem held_operator (s : State) (b : UInt8) : (s.operator b).held = s.held := by
  have h := held_delimit s
  simp only [held] at h
  simp [held, operator, Token.size, h]

@[simp] theorem held_enter (s : State) (m : Mode) : (s.enter m).held = s.held := rfl

@[simp] theorem held_expand (s : State) : s.expand.held = s.held := rfl

@[simp] theorem mode_extend (s : State) (w : Word) : (s.extend w).mode = s.mode := rfl

@[simp] theorem extend_extend (s : State) (v w : Word) :
    (s.extend v).extend w = s.extend (v ++ w) := by
  simp [extend]

theorem extend_nil {s : State} (h : s.word ≠ none) : s.extend [] = s := by
  obtain ⟨v, hv⟩ := Option.ne_none_iff_exists'.mp h
  rw [extend, List.append_nil, hv, Option.getD_some, ← hv]

@[simp] theorem mode_push (s : State) (b : UInt8) (q : Bool) : (s.push b q).mode = s.mode := rfl

@[simp] theorem mode_delimit (s : State) : s.delimit.mode = s.mode := rfl

@[simp] theorem mode_operator (s : State) (b : UInt8) : (s.operator b).mode = s.mode := rfl

@[simp] theorem mode_openWord (s : State) : s.openWord.mode = s.mode := rfl

@[simp] theorem mode_expand (s : State) : s.expand.mode = s.mode := rfl

@[simp] theorem mode_enter (s : State) (m : Mode) : (s.enter m).mode = m := rfl

/-- The bytes of all words, the backslash that may still become one included. -/
def size (s : State) : Nat := s.held + if s.mode = .doubleEscape then 1 else 0

theorem size_unquoted {s : State} (hs : s.mode = .unquoted) (b : UInt8) :
    (s.unquoted b).size ≤ s.size + 1 ∧
      ((s.unquoted b).size = s.size + 1 → s.unquoted b = s.push b false) := by
  unfold unquoted
  split
  case h_4 => split <;> simp [size, hs]
  all_goals simp [size, hs]

theorem size_double {s : State} (hs : s.mode = .double) (b : UInt8) :
    (s.double b).size ≤ s.size + 1 := by
  unfold double
  split <;> simp [size, hs]

theorem held_doubleEscape (s : State) (b : UInt8) :
    (s.doubleEscape b).held ≤ s.held + 2 := by
  unfold doubleEscape
  split <;> simp

theorem size_step (s : State) (b : UInt8) : (s.step b).size ≤ s.size + 1 := by
  cases hs : s.mode with
  | unquoted => simpa only [step, hs] using (size_unquoted hs b).1
  | double => simpa only [step, hs] using size_double hs b
  | doubleEscape =>
    have h := held_doubleEscape s b
    simp only [step, hs]
    split
    · simp [size, hs, Nat.add_assoc]
    · simpa [size, hs, Nat.add_assoc] using h
  | escape | single | comment =>
    simp only [step, hs]
    split <;> simp [size, hs]

end State

theorem size_scan (s : State) (bs : List UInt8) : (scan s bs).size ≤ s.size + bs.length := by
  induction bs generalizing s with
  | nil => simp
  | cons b bs ih =>
    have hstep := s.size_step b
    have hrest := ih (s.step b)
    rw [scan_cons, List.length_cons]
    omega

/-! ### Bare words -/

/-- A word that stands for itself as it is: no byte of it is special where it stands. -/
def Bare (w : List UInt8) : Prop :=
  w.head?.map kind = some .plain ∧ (∀ b ∈ w, kind b = .plain ∨ kind b = .hash) ∧
    active (unquotedWord w) = false

instance (w : List UInt8) : Decidable (Bare w) :=
  @instDecidableAnd _ _ inferInstance (@instDecidableAnd _ _ (List.decidableBAll _ w) inferInstance)

theorem bytes_unquotedWord (w : List UInt8) : bytes (unquotedWord w) = w := by
  simp [bytes, unquotedWord, Function.comp_def]

theorem unquotedWord_inj {v w : List UInt8} (h : unquotedWord v = unquotedWord w) : v = w := by
  simpa only [bytes_unquotedWord] using congrArg bytes h

theorem unquotedWord_cons (b : UInt8) (bs : List UInt8) :
    unquotedWord (b :: bs) = [⟨b, false⟩] ++ unquotedWord bs := rfl

theorem step_plain {s : State} (hs : s.mode = .unquoted) {b : UInt8} (hb : kind b = .plain) :
    s.step b = s.push b false := by
  simp [State.step, State.unquoted, hs, hb]

theorem step_hash {s : State} (hs : s.mode = .unquoted) (hv : s.word ≠ none) {b : UInt8}
    (hb : kind b = .hash) : s.step b = s.push b false := by
  simp [State.step, State.unquoted, hs, hb, hv]

theorem pattern_eq_false {w : List UInt8} (h : ∀ b ∈ w, b ∉ patternBytes) :
    pattern (unquotedWord w) = false := by
  induction w with
  | nil => rfl
  | cons b w ih =>
    have hb := h b List.mem_cons_self
    simp only [patternBytes, List.mem_cons, List.not_mem_nil, or_false, not_or] at hb
    have hw := ih fun c hc => h c (List.mem_cons_of_mem _ hc)
    simpa [unquotedWord, pattern, Sym.isUnquoted, hb] using hw

/-- A sufficient check: plain bytes, none of which begins a pattern or, in front, a tilde. -/
theorem bare_cons {b : UInt8} {w : List UInt8} (htilde : b ≠ 0x7e)
    (h : ∀ c ∈ b :: w, kind c = .plain ∧ c ∉ patternBytes) : Bare (b :: w) := by
  have hpattern := pattern_eq_false fun c hc => (h c hc).2
  refine ⟨congrArg some (h b List.mem_cons_self).1, fun c hc => .inl (h c hc).1, ?_⟩
  rw [active, hpattern, Bool.or_false]
  simp [unquotedWord, tilde, Sym.isUnquoted, htilde]

/-- Inside a word, plain bytes and hashes are read as they are. -/
theorem scan_literal {s : State} (hs : s.mode = .unquoted) (hv : s.word ≠ none)
    {bs : List UInt8} (h : ∀ b ∈ bs, kind b = .plain ∨ kind b = .hash) :
    scan s bs = s.extend (unquotedWord bs) := by
  induction bs generalizing s with
  | nil => exact (State.extend_nil hv).symm
  | cons b bs ih =>
    have hstep : s.step b = s.push b false := by
      rcases h b List.mem_cons_self with hb | hb
      · exact step_plain hs hb
      · exact step_hash hs hv hb
    have hmode : (s.push b false).mode = .unquoted := (State.mode_push ..).trans hs
    have hopen : (s.push b false).word ≠ none := Option.some_ne_none _
    have hrest : ∀ c ∈ bs, kind c = .plain ∨ kind c = .hash :=
      fun c hc => h c (List.mem_cons_of_mem _ hc)
    rw [scan_cons, hstep, ih hmode hopen hrest, unquotedWord_cons, State.push,
      State.extend_extend]

theorem scan_word {s : State} (hs : s.mode = .unquoted) {w : List UInt8}
    (hhead : w.head?.map kind = some .plain) (h : ∀ b ∈ w, kind b = .plain ∨ kind b = .hash) :
    scan s w = s.extend (unquotedWord w) := by
  cases w with
  | nil => cases hhead
  | cons b bs =>
    have hstep : s.step b = s.push b false := step_plain hs (Option.some.inj hhead)
    have hmode : (s.push b false).mode = .unquoted := (State.mode_push ..).trans hs
    have hopen : (s.push b false).word ≠ none := Option.some_ne_none _
    have hrest : ∀ c ∈ bs, kind c = .plain ∨ kind c = .hash :=
      fun c hc => h c (List.mem_cons_of_mem _ hc)
    rw [scan_cons, hstep, scan_literal hmode hopen hrest, unquotedWord_cons, State.push,
      State.extend_extend]

/-- The words of a command, each with a blank behind it. -/
def spaced (ws : List (List UInt8)) : List UInt8 := ws.flatMap (· ++ [space])

def wordTokens (ws : List (List UInt8)) : List Token := ws.map fun w => .word (unquotedWord w)

theorem scan_spaced {ws : List (List UInt8)} (h : ∀ w ∈ ws, Bare w) {s : State}
    (hs : s.mode = .unquoted) (hv : s.word = none) :
    scan s (spaced ws) = { s with tokens := s.tokens ++ wordTokens ws } := by
  induction ws generalizing s with
  | nil => simp [spaced, wordTokens]
  | cons w ws ih =>
    have hw := h w List.mem_cons_self
    have hread := scan_word hs hw.1 hw.2.1
    have hblank : (s.extend (unquotedWord w)).step space =
        { s with tokens := s.tokens ++ [.word (unquotedWord w)] } := by
      simp [State.step, hs, State.unquoted, kind, State.delimit, State.extend, hv]
    have hline : spaced (w :: ws) = w ++ space :: spaced ws := by simp [spaced]
    have hrest := ih (fun v hv => h v (List.mem_cons_of_mem _ hv))
      (s := { s with tokens := s.tokens ++ [.word (unquotedWord w)] }) hs hv
    rw [hline, scan_append, hread, scan_cons, hblank, hrest]
    simp [wordTokens]

/-! ### Lines of bare words -/

theorem mapM_wordTokens (ws : List (List UInt8)) :
    (wordTokens ws).mapM Token.word? = some (ws.map unquotedWord) := by
  induction ws with
  | nil => rfl
  | cons w ws ih =>
    simp only [wordTokens, List.map_cons, List.mapM_cons] at ih ⊢
    simp [ih, Token.word?]

theorem outcome_wordTokens {c : List UInt8} (hc : c ∉ reserved) (ws : List (List UInt8)) :
    outcome (wordTokens (c :: ws)) = .simple (c :: ws) := by
  have hres : ¬∃ r ∈ reserved, unquotedWord c = unquotedWord r := by
    rintro ⟨r, hr, h⟩
    exact hc (unquotedWord_inj h ▸ hr)
  simp only [outcome, mapM_wordTokens, List.map_cons, if_neg hres, bytes_unquotedWord]
  simp [List.map_map, Function.comp_def, bytes_unquotedWord]

theorem inert_wordTokens {ws : List (List UInt8)} (h : ∀ w ∈ ws, Bare w) :
    ¬∃ t ∈ wordTokens ws, t.active = true := by
  rintro ⟨t, ht, hact⟩
  obtain ⟨w, hw, rfl⟩ := List.mem_map.mp ht
  simp [Token.active, (h w hw).2.2] at hact

/-- A line in which no environment has a say: all quotations closed, no expansion, tilde or
pattern. -/
def Inert (line : List UInt8) : Prop :=
  (scan start line).mode = .unquoted ∧ (scan start line).expands = false ∧
    ¬∃ t ∈ (scan start line).delimit.tokens, t.active = true

instance (line : List UInt8) : Decidable (Inert line) := inferInstanceAs (Decidable (_ ∧ _))

theorem run_of_inert {line : List UInt8} {o : Outcome}
    (h : Inert line ∧ outcome (scan start line).delimit.tokens = o) (env : List UInt8 → Outcome) :
    run env line = o := by
  obtain ⟨⟨hmode, hexp, hinert⟩, ho⟩ := h
  simp [run, hmode, hexp, hinert, ho]

/-- A line that reads as bare words, the first of them not reserved, is that simple command. -/
theorem run_of_scan {c : List UInt8} {ws : List (List UInt8)} {line : List UInt8}
    (hc : c ∉ reserved) (h : ∀ w ∈ c :: ws, Bare w)
    (hmode : (scan start line).mode = .unquoted) (hexp : (scan start line).expands = false)
    (htok : (scan start line).delimit.tokens = wordTokens (c :: ws))
    (env : List UInt8 → Outcome) : run env line = .simple (c :: ws) := by
  have hinert := inert_wordTokens h
  rw [← htok] at hinert
  refine run_of_inert ⟨⟨hmode, hexp, hinert⟩, ?_⟩ env
  rw [htok, outcome_wordTokens hc]

/-- What has been read once the words `ws` and the blank behind them have. -/
def lead (ws : List (List UInt8)) : State := ⟨wordTokens ws, none, .unquoted, false⟩

theorem scan_lead {ws : List (List UInt8)} (h : ∀ w ∈ ws, Bare w) (arg : List UInt8) :
    scan start (spaced ws ++ arg) = scan (lead ws) arg := by
  rw [scan_append, scan_spaced h rfl rfl]
  rfl

theorem run_spaced {c : List UInt8} {ws : List (List UInt8)} (hc : c ∉ reserved)
    (h : ∀ w ∈ c :: ws, Bare w) (env : List UInt8 → Outcome) :
    run env (spaced (c :: ws)) = .simple (c :: ws) := by
  have hscan : scan start (spaced (c :: ws)) = lead (c :: ws) := by
    simpa using scan_lead h []
  apply run_of_scan hc h <;> rw [hscan]
  · rfl
  · rfl
  · simp [lead, State.delimit]

/-- Behind the words of a command, a literal word becomes the last one. -/
theorem delimit_scan_lead {ws : List (List UInt8)} {arg : List UInt8}
    (hhead : arg.head?.map kind = some .plain)
    (h : ∀ b ∈ arg, kind b = .plain ∨ kind b = .hash) :
    (scan (lead ws) arg).delimit.tokens = wordTokens (ws ++ [arg]) := by
  rw [scan_word rfl hhead h]
  simp [lead, State.extend, State.delimit, wordTokens]

theorem run_splice {c : List UInt8} {ws : List (List UInt8)} (hc : c ∉ reserved)
    (h : ∀ w ∈ c :: ws, Bare w) {arg : List UInt8} (harg : Bare arg)
    (env : List UInt8 → Outcome) :
    run env (spaced (c :: ws) ++ arg) = .simple (c :: ws ++ [arg]) := by
  have hall : ∀ w ∈ c :: (ws ++ [arg]), Bare w := by
    intro w hw
    rcases List.mem_append.mp (show w ∈ c :: ws ++ [arg] from hw) with hw | hw
    · exact h w hw
    · rwa [List.mem_singleton.mp hw]
  apply run_of_scan hc hall
  · rw [scan_lead h, scan_word rfl harg.1 harg.2.1]
    rfl
  · rw [scan_lead h, scan_word rfl harg.1 harg.2.1]
    rfl
  · rw [scan_lead h, delimit_scan_lead harg.1 harg.2.1]
    rfl

/-! ### Nothing but bare words -/

/-- A line is one simple command in every environment only if none has a say in it. -/
theorem outcome_of_forall {line : List UInt8} {argv : List (List UInt8)}
    (h : ∀ env, run env line = .simple argv) :
    (¬∃ t ∈ (scan start line).delimit.tokens, t.active = true) ∧
      outcome (scan start line).delimit.tokens = .simple argv := by
  have hrun := h fun _ => .unterminated
  simp only [run] at hrun
  split_ifs at hrun with _ _ hact
  exact ⟨hact, hrun⟩

theorem words_of_mapM {tokens : List Token} {ws : List Word}
    (h : tokens.mapM Token.word? = some ws) : tokens = ws.map .word := by
  induction tokens generalizing ws with
  | nil =>
    cases h
    rfl
  | cons t ts ih =>
    cases t with
    | operator b => simp [Token.word?] at h
    | word w =>
      simp only [List.mapM_cons, Token.word?, Option.bind_eq_bind, Option.bind_some,
        Option.bind_eq_some_iff, Option.pure_def, Option.some.injEq] at h
      obtain ⟨vs, hvs, rfl⟩ := h
      rw [ih hvs, List.map_cons]

theorem argv_of_outcome {tokens : List Token} {argv : List (List UInt8)}
    (h : outcome tokens = .simple argv) :
    ∃ ws, tokens = List.map Token.word ws ∧ argv = ws.map bytes := by
  unfold outcome at h
  split at h
  case h_1 w ws hws =>
    split_ifs at h
    exact ⟨w :: ws, words_of_mapM hws, (Outcome.simple.inj h).symm⟩
  case h_2 => cases h

theorem argv_size {line : List UInt8} {argv : List (List UInt8)}
    (h : ∀ env, run env line = .simple argv) :
    (argv.map List.length).sum ≤ (scan start line).size := by
  obtain ⟨ws, htok, rfl⟩ := argv_of_outcome (outcome_of_forall h).2
  have hheld : (scan start line).delimit.held = ((ws.map bytes).map List.length).sum := by
    simp only [State.held, htok, List.map_map]
    simp [State.delimit, Function.comp_def, Token.size, bytes]
  rw [State.held_delimit] at hheld
  rw [← hheld, State.size]
  omega

theorem size_lead (ws : List (List UInt8)) : (lead ws).size = (ws.map List.length).sum := by
  simp [State.size, State.held, lead, wordTokens, Token.size, Function.comp_def, unquotedWord]

theorem size_of_spliced {ws : List (List UInt8)} (hws : ∀ w ∈ ws, Bare w) {arg x : List UInt8}
    (h : ∀ env, run env (spaced ws ++ arg) = .simple (ws ++ [x])) :
    (lead ws).size + x.length ≤ (scan (lead ws) arg).size := by
  have hsize := argv_size h
  rw [scan_lead hws] at hsize
  simpa [size_lead] using hsize

theorem length_of_spliced {ws : List (List UInt8)} (hws : ∀ w ∈ ws, Bare w) {arg x : List UInt8}
    (h : ∀ env, run env (spaced ws ++ arg) = .simple (ws ++ [x])) : x.length ≤ arg.length := by
  have hx := size_of_spliced hws h
  have harg := size_scan (lead ws) arg
  omega

/-- An unquoted byte that becomes a byte of a word is plain, or a hash inside the word. -/
theorem literal_of_size {s : State} (hs : s.mode = .unquoted) {b : UInt8}
    (h : (s.step b).size = s.size + 1) :
    s.step b = s.push b false ∧ (kind b = .plain ∨ kind b = .hash ∧ s.word ≠ none) := by
  have hpush : s.step b = s.push b false := by
    simp only [State.step, hs] at h ⊢
    exact (s.size_unquoted hs b).2 h
  refine ⟨hpush, ?_⟩
  simp only [State.step, hs, State.unquoted] at h
  split at h
  case h_1 hb => exact .inl hb
  case h_4 hb =>
    split_ifs at h with hword
    · simp [State.size, hs] at h
    · exact .inr ⟨hb, hword⟩
  all_goals simp [State.size, hs] at h

theorem literals_of_size {s : State} (hs : s.mode = .unquoted) {bs : List UInt8}
    (h : s.size + bs.length ≤ (scan s bs).size) :
    (∀ b ∈ bs, kind b = .plain ∨ kind b = .hash) ∧
      (s.word = none → bs ≠ [] → bs.head?.map kind = some .plain) := by
  induction bs generalizing s with
  | nil => simp
  | cons b bs ih =>
    have hb := s.size_step b
    have hrest := size_scan (s.step b) bs
    rw [scan_cons, List.length_cons] at h
    obtain ⟨hpush, hkind⟩ := literal_of_size hs (b := b) (by omega)
    have hmode : (s.step b).mode = .unquoted := by rw [hpush, State.mode_push, hs]
    have htail := (ih hmode (by omega)).1
    constructor
    · intro c hc
      rcases List.mem_cons.mp hc with rfl | hc
      · exact hkind.imp_right And.left
      · exact htail c hc
    · intro hword _
      rcases hkind with hkind | ⟨_, hne⟩
      · exact congrArg some hkind
      · exact absurd hword hne

/-- Putting `arg` behind the words of a command runs that command on exactly `arg`, whatever the
environment, if and only if `arg` is a bare word. -/
theorem splice_iff {c : List UInt8} {ws : List (List UInt8)} (hc : c ∉ reserved)
    (hws : ∀ w ∈ c :: ws, Bare w) (arg : List UInt8) :
    (∀ env, run env (spaced (c :: ws) ++ arg) = .simple (c :: ws ++ [arg])) ↔ Bare arg := by
  constructor
  · intro h
    have hsize := size_of_spliced hws h
    obtain ⟨hlit, hhead⟩ := literals_of_size rfl hsize
    have hne : arg ≠ [] := by
      rintro rfl
      have hrun := h fun _ => .unterminated
      rw [List.append_nil, run_spaced hc hws] at hrun
      have hlen := congrArg List.length (Outcome.simple.inj hrun)
      simp at hlen
    refine ⟨hhead rfl hne, hlit, ?_⟩
    have hinert := (outcome_of_forall h).1
    rw [scan_lead hws, delimit_scan_lead (hhead rfl hne) hlit] at hinert
    by_contra hact
    refine hinert ⟨.word (unquotedWord arg), ?_, by simpa [Token.active] using hact⟩
    simp [wordTokens]
  · intro harg env
    exact run_splice hc hws harg env

end Shell
