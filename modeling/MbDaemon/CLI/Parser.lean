import MbDaemon.Helpers
import MbDaemon.Lib.CommandTree

/-!
# The command line

`DaemonCLI::Run` takes the arguments one by one and compares each with the words that may stand
there. It walks down a tree (`run_eq`), so it comes to a command exactly when the arguments begin with
a line that `DoHelp` prints, and otherwise names the first argument with which they cease to begin
one (`run_iff`).
-/

namespace MbDaemon

open CommandTree

/-- `DaemonCLI`. `PrevToken` is not initialized by the constructor. -/
structure DaemonCLI where
  Tokens : List Text
  CurrentToken : Nat
  PrevToken : Nat

namespace DaemonCLI

namespace KeyWords

def daemon : Text := ascii "daemon"
def chip : Text := ascii "chip"
def flash : Text := ascii "flash"
def start : Text := ascii "start"
def stop : Text := ascii "stop"
def status : Text := ascii "status"
def help : Text := ascii "help"
def debug : Text := ascii "debug"
def block : Text := ascii "block"
def throw : Text := ascii "throw"
def connect : Text := ascii "connect"
def disconnect : Text := ascii "disconnect"
def kill : Text := ascii "kill"
def logs : Text := ascii "logs"

end KeyWords

inductive Command where
  | chipStart
  | chipStop
  | chipFlash (path : Text)
  | chipStatus
  | daemonStart
  | daemonStop
  | daemonStatus
  | daemonKill
  | daemonLogs
  | debugStart
  | debugThrow
  | debugBlock
  | debugConnect
  | debugDisconnect
  | help
  deriving DecidableEq, Repr

structure SyntaxException where
  TokenIndex : Nat
  msg : Text
  deriving DecidableEq, Repr

abbrev Cli := EStateM SyntaxException DaemonCLI

/-- The constructor, with what `PrevToken` happens to hold. -/
def construct (tokens : List Text) (garbage : Nat) : DaemonCLI := ⟨tokens, 0, garbage⟩

def getNextToken : Cli Text := do
  let cli ← get
  if cli.CurrentToken = cli.Tokens.length then
    throw { TokenIndex := cli.PrevToken, msg := ascii "Unexpected end of command" }
  set { cli with PrevToken := cli.CurrentToken, CurrentToken := cli.CurrentToken + 1 }
  pure (cli.Tokens.getD cli.CurrentToken [])

def unknownToken : Cli Command := do
  let cli ← get
  throw { TokenIndex := cli.PrevToken, msg := ascii "Unknown token" }

def runChip : Cli Command := do
  let cmd ← getNextToken
  if cmd = KeyWords.start then pure .chipStart
  else if cmd = KeyWords.stop then pure .chipStop
  else if cmd = KeyWords.flash then do
    let path ← getNextToken
    pure (.chipFlash path)
  else if cmd = KeyWords.status then pure .chipStatus
  else unknownToken

def runDaemon : Cli Command := do
  let cmd ← getNextToken
  if cmd = KeyWords.start then pure .daemonStart
  else if cmd = KeyWords.stop then pure .daemonStop
  else if cmd = KeyWords.status then pure .daemonStatus
  else if cmd = KeyWords.kill then pure .daemonKill
  else if cmd = KeyWords.logs then pure .daemonLogs
  else unknownToken

def runDebug : Cli Command := do
  let cmd ← getNextToken
  if cmd = KeyWords.start then pure .debugStart
  else if cmd = KeyWords.throw then pure .debugThrow
  else if cmd = KeyWords.block then pure .debugBlock
  else if cmd = KeyWords.connect then pure .debugConnect
  else if cmd = KeyWords.disconnect then pure .debugDisconnect
  else unknownToken

/-- `Run` up to the call of the command. -/
def run : Cli Command := do
  let _ ← getNextToken
  let cmd ← getNextToken
  if cmd = KeyWords.chip then runChip
  else if cmd = KeyWords.daemon then runDaemon
  else if cmd = KeyWords.debug then runDebug
  else if cmd = KeyWords.help then pure .help
  else unknownToken

/-- A line of `DoHelp`: what `PutDescription` is given. -/
structure Description where
  tokens : List Text
  description : Text
  lead : Text
  deriving DecidableEq, Repr

def descriptions : List Description :=
  [⟨[KeyWords.daemon, KeyWords.start], ascii "Starts daemon", ascii "sudo -E "⟩,
    ⟨[KeyWords.daemon, KeyWords.stop], ascii "Stops daemon", []⟩,
    ⟨[KeyWords.daemon, KeyWords.status], ascii "Prints status info on daemon", []⟩,
    ⟨[KeyWords.daemon, KeyWords.logs], ascii "Prints daemon logs", []⟩,
    ⟨[KeyWords.daemon, KeyWords.kill], ascii "Forcefully kills daemon", []⟩,
    ⟨[KeyWords.chip, KeyWords.start], ascii "Starts firmware", []⟩,
    ⟨[KeyWords.chip, KeyWords.stop], ascii "Stops firmware", []⟩,
    ⟨[KeyWords.chip, KeyWords.flash, ascii "<PATH>"], ascii "Flashes selected firmware", []⟩,
    ⟨[KeyWords.chip, KeyWords.status], ascii "Prints status info on firmware", []⟩,
    ⟨[KeyWords.help], ascii "Prints this text", []⟩,
    ⟨[KeyWords.debug, KeyWords.start], ascii "Launches daemon in this session", []⟩,
    ⟨[KeyWords.debug, KeyWords.block], ascii "Performs blocking request on daemon", []⟩,
    ⟨[KeyWords.debug, KeyWords.throw], ascii "Performs throwing request on daemon", []⟩,
    ⟨[KeyWords.debug, KeyWords.connect], ascii "Marks motherboard port acquired", []⟩,
    ⟨[KeyWords.debug, KeyWords.disconnect], ascii "Frees motherboard port", []⟩]

/-- `PutDescription`; `executable` is `CLI_EXECUTABLE`. -/
def putDescription (executable : Text) (d : Description) : Text :=
  ascii " - \"" ++ d.lead ++ executable ++ ascii " " ++
    (d.tokens.dropLast.flatMap fun token => token ++ ascii " ") ++ d.tokens.getLastD [] ++
    ascii "\": " ++ d.description ++ ascii "\n"

def printUsage (executable : Text) : Text :=
  ascii "Usage: " ++ executable ++ ascii " <COMMAND> <ARGS>\n"

namespace TermTools

def makeRed : Text := 27 :: ascii "[91m"
def makeDefault : Text := 27 :: ascii "[39m"

end TermTools

/-- The loop of `MakeSyntaxErrorMessage`. -/
def putTokens (tokenInd : Nat) (tokens : List Text) : Text :=
  tokens.zipIdx.flatMap fun (token, i) =>
    (if i = tokenInd then TermTools.makeRed ++ ascii "=> " else []) ++ token ++
      (if i = tokenInd then ascii " <=" ++ TermTools.makeDefault else []) ++ ascii " "

def makeSyntaxErrorMessage (executable : Text) (tokens : List Text) (e : SyntaxException) : Text :=
  ascii "Syntax error: " ++ e.msg ++ ascii "\nReason: " ++ putTokens e.TokenIndex tokens ++
    ascii "\n" ++ printUsage executable ++ ascii "See \"" ++ executable ++ ascii " " ++
    KeyWords.help ++ ascii "\"\n"

/-! ## The tree -/

def chipTree : Tree Text Command :=
  .next fun cmd =>
    if cmd = KeyWords.start then .command .chipStart
    else if cmd = KeyWords.stop then .command .chipStop
    else if cmd = KeyWords.flash then .next fun path => .command (.chipFlash path)
    else if cmd = KeyWords.status then .command .chipStatus
    else .unknown

def daemonTree : Tree Text Command :=
  .next fun cmd =>
    if cmd = KeyWords.start then .command .daemonStart
    else if cmd = KeyWords.stop then .command .daemonStop
    else if cmd = KeyWords.status then .command .daemonStatus
    else if cmd = KeyWords.kill then .command .daemonKill
    else if cmd = KeyWords.logs then .command .daemonLogs
    else .unknown

def debugTree : Tree Text Command :=
  .next fun cmd =>
    if cmd = KeyWords.start then .command .debugStart
    else if cmd = KeyWords.throw then .command .debugThrow
    else if cmd = KeyWords.block then .command .debugBlock
    else if cmd = KeyWords.connect then .command .debugConnect
    else if cmd = KeyWords.disconnect then .command .debugDisconnect
    else .unknown

/-- The tree behind the name of the program. -/
def argsTree : Tree Text Command :=
  .next fun cmd =>
    if cmd = KeyWords.chip then chipTree
    else if cmd = KeyWords.daemon then daemonTree
    else if cmd = KeyWords.debug then debugTree
    else if cmd = KeyWords.help then .command .help
    else .unknown

def Command.line : Command → List Text
  | .chipStart => [KeyWords.chip, KeyWords.start]
  | .chipStop => [KeyWords.chip, KeyWords.stop]
  | .chipFlash path => [KeyWords.chip, KeyWords.flash, path]
  | .chipStatus => [KeyWords.chip, KeyWords.status]
  | .daemonStart => [KeyWords.daemon, KeyWords.start]
  | .daemonStop => [KeyWords.daemon, KeyWords.stop]
  | .daemonStatus => [KeyWords.daemon, KeyWords.status]
  | .daemonKill => [KeyWords.daemon, KeyWords.kill]
  | .daemonLogs => [KeyWords.daemon, KeyWords.logs]
  | .debugStart => [KeyWords.debug, KeyWords.start]
  | .debugThrow => [KeyWords.debug, KeyWords.throw]
  | .debugBlock => [KeyWords.debug, KeyWords.block]
  | .debugConnect => [KeyWords.debug, KeyWords.connect]
  | .debugDisconnect => [KeyWords.debug, KeyWords.disconnect]
  | .help => [KeyWords.help]

def text : Error → Text
  | .unexpectedEnd => ascii "Unexpected end of command"
  | .unknownWord => ascii "Unknown token"

/-- What `Run` throws where a walk ends that began at token `k`. -/
def outcome (k : Nat) : Except (Error × Nat) Command → Except SyntaxException Command
  | .ok c => .ok c
  | .error (e, n) => .error { TokenIndex := k + n - 1, msg := text e }

def result {α : Type} : EStateM.Result SyntaxException DaemonCLI α → Except SyntaxException α
  | .ok a _ => .ok a
  | .error e _ => .error e

/-! ## The walk -/

/-- `ts` are the tokens left, and the last one read is number `k - 1`. -/
structure At (cli : DaemonCLI) (k : Nat) (ts : List Text) : Prop where
  tokens : ∃ before, cli.Tokens = before ++ ts ∧ before.length = k
  current : cli.CurrentToken = k
  previous : cli.PrevToken + 1 = k

/-- A part of `Run` walks down the tree. -/
def Walks (m : Cli Command) (tree : Tree Text Command) : Prop :=
  ∀ cli k ts, At cli k ts → result (m cli) = outcome k (parse tree ts)

theorem getNextToken_end {cli : DaemonCLI} (h : cli.CurrentToken = cli.Tokens.length) :
    getNextToken cli =
      .error { TokenIndex := cli.PrevToken, msg := ascii "Unexpected end of command" } cli := by
  simp [getNextToken, bind, EStateM.bind, get, getThe, MonadStateOf.get, EStateM.get, h, throw,
    throwThe, MonadExceptOf.throw, EStateM.throw]

theorem getNextToken_token {cli : DaemonCLI} {before ts : List Text} {t : Text}
    (tokens : cli.Tokens = before ++ t :: ts) (current : cli.CurrentToken = before.length) :
    getNextToken cli = .ok t
      { cli with PrevToken := before.length, CurrentToken := before.length + 1 } := by
  have hne : ¬ cli.CurrentToken = cli.Tokens.length := by
    rw [tokens, current]
    simp
  have hget : cli.Tokens.getD cli.CurrentToken [] = t := by
    rw [tokens, current]
    simp
  simp only [getNextToken, bind, EStateM.bind, get, getThe, MonadStateOf.get, EStateM.get]
  rw [if_neg hne, hget, current]
  rfl

theorem walks_pure (c : Command) : Walks (pure c) (.command c) := fun _ _ _ _ => rfl

theorem walks_unknown : Walks unknownToken .unknown := by
  intro cli k ts h
  have hprevious := h.previous
  show Except.error _ = Except.error _
  congr 2
  omega

theorem walks_next {f : Text → Cli Command} {on : Text → Tree Text Command}
    (h : ∀ t, Walks (f t) (on t)) : Walks (getNextToken >>= f) (.next on) := by
  intro cli k ts hat
  obtain ⟨⟨before, htokens, hlen⟩, hcurrent, hprevious⟩ := hat
  cases ts with
  | nil =>
    have hend : cli.CurrentToken = cli.Tokens.length := by simp [htokens, hcurrent, hlen]
    simp only [bind, EStateM.bind, getNextToken_end hend]
    show Except.error _ = Except.error _
    congr 2
    omega
  | cons t ts =>
    have hnext := h t { cli with PrevToken := before.length, CurrentToken := before.length + 1 }
      (k + 1) ts ⟨⟨before ++ [t], by simp [htokens], by simp [hlen]⟩, by simp [hlen], by simp [hlen]⟩
    simp only [bind, EStateM.bind, getNextToken_token htokens (hcurrent.trans hlen.symm), parse]
    rw [hnext]
    cases parse (on t) ts with
    | ok c => rfl
    | error en =>
      show Except.error _ = Except.error _
      congr 2
      omega

theorem walks_ite {p : Prop} [Decidable p] {m m' : Cli Command} {tree tree' : Tree Text Command}
    (h : Walks m tree) (h' : Walks m' tree') :
    Walks (if p then m else m') (if p then tree else tree') := by
  split
  · exact h
  · exact h'

theorem walks_chip : Walks runChip chipTree :=
  walks_next fun _ => walks_ite (walks_pure _) <| walks_ite (walks_pure _) <|
    walks_ite (walks_next fun _ => walks_pure _) <| walks_ite (walks_pure _) walks_unknown

theorem walks_daemon : Walks runDaemon daemonTree :=
  walks_next fun _ => walks_ite (walks_pure _) <| walks_ite (walks_pure _) <|
    walks_ite (walks_pure _) <| walks_ite (walks_pure _) <| walks_ite (walks_pure _) walks_unknown

theorem walks_debug : Walks runDebug debugTree :=
  walks_next fun _ => walks_ite (walks_pure _) <| walks_ite (walks_pure _) <|
    walks_ite (walks_pure _) <| walks_ite (walks_pure _) <| walks_ite (walks_pure _) walks_unknown

theorem walks_args : Walks (getNextToken >>= fun cmd =>
    if cmd = KeyWords.chip then runChip
    else if cmd = KeyWords.daemon then runDaemon
    else if cmd = KeyWords.debug then runDebug
    else if cmd = KeyWords.help then pure .help
    else unknownToken) argsTree :=
  walks_next fun _ => walks_ite walks_chip <| walks_ite walks_daemon <| walks_ite walks_debug <|
    walks_ite (walks_pure _) walks_unknown

/-- **`Run` walks down the tree**, from the token behind the name of the program. -/
theorem run_eq (name : Text) (args : List Text) (garbage : Nat) :
    result (run (construct (name :: args) garbage)) = outcome 1 (parse argsTree args) := by
  have hname : getNextToken (construct (name :: args) garbage) =
      .ok name ⟨name :: args, 1, 0⟩ := by
    have htokens : (construct (name :: args) garbage).Tokens = [] ++ name :: args := rfl
    exact getNextToken_token htokens rfl
  have hrun : run (construct (name :: args) garbage) =
      (getNextToken >>= fun cmd =>
        if cmd = KeyWords.chip then runChip
        else if cmd = KeyWords.daemon then runDaemon
        else if cmd = KeyWords.debug then runDebug
        else if cmd = KeyWords.help then pure .help
        else unknownToken) ⟨name :: args, 1, 0⟩ := by
    conv_lhs => unfold run
    simp only [bind, EStateM.bind, hname]
  rw [hrun]
  exact walks_args _ 1 args ⟨⟨[name], rfl, rfl⟩, rfl, rfl⟩

/-! ## The lines -/

theorem live_chip : Live chipTree :=
  ⟨⟨KeyWords.start, by simp⟩, fun _ => live_ite trivial <| live_ite trivial <|
    live_ite ⟨⟨[], nofun⟩, fun _ => trivial⟩ <| live_ite trivial trivial⟩

theorem live_daemon : Live daemonTree :=
  ⟨⟨KeyWords.start, by simp⟩, fun _ => live_ite trivial <| live_ite trivial <|
    live_ite trivial <| live_ite trivial <| live_ite trivial trivial⟩

theorem live_debug : Live debugTree :=
  ⟨⟨KeyWords.start, by simp⟩, fun _ => live_ite trivial <| live_ite trivial <|
    live_ite trivial <| live_ite trivial <| live_ite trivial trivial⟩

theorem live_args : Live argsTree :=
  ⟨⟨KeyWords.chip, by simp [chipTree]⟩, fun _ => live_ite live_chip <| live_ite live_daemon <|
    live_ite live_debug <| live_ite trivial trivial⟩

theorem line_chip {ts : List Text} {c : Command} (h : Line chipTree ts c) :
    KeyWords.chip :: ts = c.line := by
  cases h with
  | next h =>
    beta_reduce at h
    split at h
    · cases h; subst_vars; rfl
    split at h
    · cases h; subst_vars; rfl
    split at h
    · cases h with
      | next h => cases h; subst_vars; rfl
    split at h
    · cases h; subst_vars; rfl
    · cases h

theorem line_daemon {ts : List Text} {c : Command} (h : Line daemonTree ts c) :
    KeyWords.daemon :: ts = c.line := by
  cases h with
  | next h =>
    beta_reduce at h
    split at h
    · cases h; subst_vars; rfl
    split at h
    · cases h; subst_vars; rfl
    split at h
    · cases h; subst_vars; rfl
    split at h
    · cases h; subst_vars; rfl
    split at h
    · cases h; subst_vars; rfl
    · cases h

theorem line_debug {ts : List Text} {c : Command} (h : Line debugTree ts c) :
    KeyWords.debug :: ts = c.line := by
  cases h with
  | next h =>
    beta_reduce at h
    split at h
    · cases h; subst_vars; rfl
    split at h
    · cases h; subst_vars; rfl
    split at h
    · cases h; subst_vars; rfl
    split at h
    · cases h; subst_vars; rfl
    split at h
    · cases h; subst_vars; rfl
    · cases h

theorem line_args {ts : List Text} {c : Command} (h : Line argsTree ts c) : ts = c.line := by
  cases h with
  | next h =>
    beta_reduce at h
    split at h
    · subst_vars; exact line_chip h
    split at h
    · subst_vars; exact line_daemon h
    split at h
    · subst_vars; exact line_debug h
    split at h
    · cases h; subst_vars; rfl
    · cases h

theorem parse_line (c : Command) : parse argsTree c.line = .ok c := by
  cases c with
  | chipFlash path =>
    have hflash : ¬ KeyWords.flash = KeyWords.start ∧ ¬ KeyWords.flash = KeyWords.stop := by decide
    simp only [Command.line, argsTree, chipTree, parse, if_true, if_neg hflash.1, if_neg hflash.2]
  | _ => decide

theorem line_iff {ts : List Text} {c : Command} : Line argsTree ts c ↔ ts = c.line := by
  refine ⟨line_args, ?_⟩
  rintro rfl
  obtain ⟨line, hline, -⟩ := parse_ok_iff.1 (parse_line c)
  rwa [line_args hline] at hline

/-! ## What `Run` makes of the arguments -/

/-- The commands in the order of `DoHelp`. -/
def helpedCommands : List Command :=
  [.daemonStart, .daemonStop, .daemonStatus, .daemonLogs, .daemonKill, .chipStart, .chipStop,
    .chipFlash (ascii "<PATH>"), .chipStatus, .help, .debugStart, .debugBlock, .debugThrow,
    .debugConnect, .debugDisconnect]

theorem line_injective : Function.Injective Command.line := by
  intro c c' h
  have hparse := parse_line c
  rw [h, parse_line c'] at hparse
  cases hparse
  rfl

theorem tokens_descriptions : descriptions.map (·.tokens) = helpedCommands.map Command.line := rfl

/-- **`Run` and `DoHelp` agree.** Whatever the arguments behind the name of the program are, `Run`
comes to a command iff they begin with its line, and throws iff they begin with none: at the first
argument with which they cease to begin a line, or at the last one where they end within a line. The
lines are those that `DoHelp` prints, and it prints no others. -/
theorem run_iff (name : Text) (args : List Text) (garbage : Nat) :
    (∀ c, result (run (construct (name :: args) garbage)) = .ok c ↔ c.line <+: args) ∧
    (∀ e, result (run (construct (name :: args) garbage)) = .error e ↔
      ∃ why, Stops argsTree args why e.TokenIndex ∧ e.msg = text why) ∧
    (∀ c : Command, c.line ∈ descriptions.map (·.tokens) ↔
      ∀ path, c = .chipFlash path → path = ascii "<PATH>") ∧
    ∀ d ∈ descriptions, ∃ c : Command, d.tokens = c.line := by
  refine ⟨fun c => ?_, fun e => ?_, fun c => ?_, fun d hd => ?_⟩
  · rw [run_eq]
    have hok : outcome 1 (parse argsTree args) = .ok c ↔ parse argsTree args = .ok c := by
      cases parse argsTree args with
      | ok d => exact ⟨fun h => by cases h; rfl, fun h => by cases h; rfl⟩
      | error en => exact ⟨nofun, nofun⟩
    rw [hok, parse_ok_iff]
    simp only [line_iff, exists_eq_left]
  · rw [run_eq]
    constructor
    · intro h
      cases hparse : parse argsTree args with
      | ok d => rw [hparse] at h; cases h
      | error en =>
        obtain ⟨why, n⟩ := en
        rw [hparse] at h
        have hstops := (parse_error_iff live_args nofun).1 hparse
        cases h
        exact ⟨why, by simpa using hstops, rfl⟩
    · rintro ⟨why, hstops, hmsg⟩
      rw [(parse_error_iff live_args nofun).2 hstops]
      simp only [outcome, ← hmsg, Nat.add_sub_cancel_left]
  · rw [tokens_descriptions, List.mem_map_of_injective line_injective]
    cases c with
    | chipFlash path => simp [helpedCommands]
    | _ => exact iff_of_true (by decide) nofun
  · have hline : d.tokens ∈ helpedCommands.map Command.line :=
      tokens_descriptions ▸ List.mem_map_of_mem hd
    obtain ⟨c, -, hc⟩ := List.mem_map.1 hline
    exact ⟨c, hc.symm⟩

/-! ## The error message -/

theorem putTokens_other {k n : Nat} {tokens : List Text} (h : ∀ i < tokens.length, n + i ≠ k) :
    ((tokens.zipIdx n).flatMap fun (token, i) =>
      (if i = k then TermTools.makeRed ++ ascii "=> " else []) ++ token ++
        (if i = k then ascii " <=" ++ TermTools.makeDefault else []) ++ ascii " ") =
      tokens.flatMap (· ++ ascii " ") := by
  induction tokens generalizing n with
  | nil => rfl
  | cons t ts ih =>
    have hhead : n ≠ k := h 0 (by simp)
    have htail := ih (n := n + 1) fun i hi => by
      have := h (i + 1) (by simpa using hi)
      omega
    rw [List.zipIdx_cons, List.flatMap_cons, htail, List.flatMap_cons]
    simp [hhead]

theorem putTokens_mark (before after : List Text) (t : Text) :
    putTokens before.length (before ++ t :: after) =
      before.flatMap (· ++ ascii " ") ++
        (TermTools.makeRed ++ ascii "=> " ++ t ++ ascii " <=" ++ TermTools.makeDefault ++
          ascii " ") ++ after.flatMap (· ++ ascii " ") := by
  have hbefore := @putTokens_other before.length 0 before fun i hi => by omega
  have hafter := @putTokens_other before.length (before.length + 1) after fun i hi => by omega
  unfold putTokens
  rw [List.zipIdx_append, List.zipIdx_cons, List.flatMap_append, List.flatMap_cons, hbefore,
    Nat.zero_add, hafter]
  simp

/-- **Every syntax error marks a token**: the one that `run_iff` says it is about. -/
theorem marks_token {name : Text} {args : List Text} {garbage : Nat} {e : SyntaxException}
    (h : result (run (construct (name :: args) garbage)) = .error e) :
    ∃ before t after, name :: args = before ++ t :: after ∧ before.length = e.TokenIndex ∧
      putTokens e.TokenIndex (name :: args) = before.flatMap (· ++ ascii " ") ++
        (TermTools.makeRed ++ ascii "=> " ++ t ++ ascii " <=" ++ TermTools.makeDefault ++
          ascii " ") ++ after.flatMap (· ++ ascii " ") := by
  rw [run_eq] at h
  have hlt : e.TokenIndex < (name :: args).length := by
    cases hparse : parse argsTree args with
    | ok d => rw [hparse] at h; cases h
    | error en =>
      obtain ⟨why, n⟩ := en
      rw [hparse] at h
      cases h
      cases (parse_error_iff live_args nofun).1 hparse with
      | unexpectedEnd => simp
      | unknownWord words =>
        subst words
        simp
  obtain ⟨before, t, after, hsplit, hlen⟩ : ∃ before t after,
      name :: args = before ++ t :: after ∧ before.length = e.TokenIndex :=
    ⟨(name :: args).take e.TokenIndex, _, (name :: args).drop (e.TokenIndex + 1),
      by rw [List.getElem_cons_drop hlt, List.take_append_drop],
      by rw [List.length_take]; omega⟩
  refine ⟨before, t, after, hsplit, hlen, ?_⟩
  rw [hsplit, ← hlen]
  exact putTokens_mark before after t

end DaemonCLI

end MbDaemon
