import MbDaemon.FirmwareFSM
import MbDaemon.Lib.Python

/-!
# The start script

`BootloaderStart.py` looks for the two boards among the serial ports and sends `CMD:START_FW` to
both, first to the Motherboard, then to the BlueCoin. The daemon learns nothing but the exit status
(`HwUtils::Execute`). An exception on the Motherboard's port ends the script with status 1; the four
operations on the BlueCoin's port are in `try` blocks of their own, and each `except` leaves with
`quit()`, whose status is 0 (`reports_start_iff`).
-/

namespace MbDaemon

open Python HwUtils

namespace BootloaderStart

abbrev Port := Str

def Motherboard_PCB_Name : Str := "PCB_NAME = MOTHERBOARD-V.1.0\r\n".toList
def BlueCoin_PCB_Name : Str := "PCB_NAME = BlueCoin-V.1.0\r\n".toList
def GET_CONNECTION_STATE : Str := "CMD:GET_CONNECTION_STATE\r\n".toList
def START_FW : Str := "CMD:START_FW\r\n".toList

/-- How the operations on a board's port go, once the port is found: `none` where one raises, else
the line that is read, which is empty after a timeout. -/
structure Board where
  writeState : Option Unit
  readState : Option Str
  writeStart : Option Unit
  readStart : Option Str

/-- Everything outside the script. `probe` is what opening a port, asking for the name and reading
the answer comes to, by the round of the search and the index of the port; `reopen` is the second
opening of a port that has answered with a name. -/
structure World where
  COM_List : List Port
  probe : Nat → Nat → Option Str
  reopen : Nat → Nat → Option Unit
  motherboard : Board
  blueCoin : Board

inductive Name where
  | motherboard
  | blueCoin
  deriving DecidableEq, Repr

/-- What has been said to a board after the search. -/
inductive Event where
  | write (board : Name) (cmd : Str)
  | readline (board : Name) (line : Str)
  deriving DecidableEq

structure Vars where
  COM_Motherboard : Option Port
  COM_BlueCoin : Option Port
  trace : List Event

/-- Why the script does not come to its last line. -/
inductive Exit where
  | raised
  | quit
  | searching
  deriving DecidableEq, Repr

abbrev Script := EStateM Exit Vars

def Vars.start : Vars where
  COM_Motherboard := none
  COM_BlueCoin := none
  trace := []

/-- `serial.Serial(...)` of a port that has answered with a board's name. -/
def reopen (board : Name) (port : Option Port) (answer : Option Unit) : Script Unit :=
  match answer, board with
  | some (), .motherboard => modify fun s => { s with COM_Motherboard := port }
  | some (), .blueCoin => modify fun s => { s with COM_BlueCoin := port }
  | none, _ => throw .raised

/-- An iteration of the loop over the ports. -/
def tryPort (w : World) (round COM_Index : Nat) : Script Unit :=
  match w.probe round COM_Index with
  | none => pure ()
  | some response => do
    (if response = Motherboard_PCB_Name then
      reopen .motherboard w.COM_List[COM_Index]? (w.reopen round COM_Index) else pure ())
    (if response = BlueCoin_PCB_Name then
      reopen .blueCoin w.COM_List[COM_Index]? (w.reopen round COM_Index) else pure ())

/-- `while (COM_Motherboard is None or COM_BlueCoin is None)`. -/
def search (w : World) : Nat → Nat → Script Unit
  | 0, _ => throw .searching
  | fuel + 1, round => do
    let s ← get
    if s.COM_Motherboard = none ∨ s.COM_BlueCoin = none then
      forM (List.range w.COM_List.length) (tryPort w round)
      search w fuel (round + 1)
    else pure ()

def Vars.com (s : Vars) : Name → Option Port
  | .motherboard => s.COM_Motherboard
  | .blueCoin => s.COM_BlueCoin

/-- `write` on a board's port; `None` has no such method. -/
def write (board : Name) (cmd : Str) (answer : Option Unit) : Script Unit := do
  let s ← get
  match s.com board, answer with
  | some _, some () => set { s with trace := s.trace ++ [Event.write board cmd] }
  | _, _ => throw .raised

/-- `readline().decode()` on a board's port. -/
def readline (board : Name) (answer : Option Str) : Script Str := do
  let s ← get
  match s.com board, answer with
  | some _, some line => do
    set { s with trace := s.trace ++ [Event.readline board line] }
    pure line
  | _, _ => throw .raised

/-- `try` with `except Exception`, which logs the exception and quits. -/
def orQuit {α : Type} (x : Script α) : Script α := fun s =>
  match x s with
  | .ok a s' => .ok a s'
  | .error .raised s' => .error .quit s'
  | .error e s' => .error e s'

/-- The script from the end of the search to the first `try`. -/
def startMotherboard (b : Board) : Script Unit := do
  write .motherboard GET_CONNECTION_STATE b.writeState
  let _ ← readline .motherboard b.readState
  write .motherboard START_FW b.writeStart
  let _ ← readline .motherboard b.readStart

/-- The four `try` blocks. -/
def startBlueCoin (b : Board) : Script Unit := do
  orQuit (write .blueCoin GET_CONNECTION_STATE b.writeState)
  let _ ← orQuit (readline .blueCoin b.readState)
  orQuit (write .blueCoin START_FW b.writeStart)
  let _ ← orQuit (readline .blueCoin b.readStart)

def script (w : World) (fuel : Nat) : Script Unit := do
  search w fuel 0
  startMotherboard w.motherboard
  startBlueCoin w.blueCoin

/-- The exit status of the process: `quit()` leaves with 0, an exception with 1. -/
def exitStatus : EStateM.Result Exit Vars Unit → Option Byte
  | .ok _ _ => some 0
  | .error .quit _ => some 0
  | .error .raised _ => some 1
  | .error .searching _ => none

def finalVars : EStateM.Result Exit Vars Unit → Vars
  | .ok _ s => s
  | .error _ s => s

/-! ## What the status should say -/

/-- The line read from a board right after `CMD:START_FW` was written to it. -/
def startReply (board : Name) : List Event → Option Str
  | .write b cmd :: .readline b' line :: rest =>
    if b = board ∧ b' = board ∧ cmd = START_FW then some line
    else startReply board (.readline b' line :: rest)
  | _ :: rest => startReply board rest
  | [] => none

/-- The board was told to start, and a line that counts as a reply was read from it. -/
def Started (counts : Str → Prop) (board : Name) (trace : List Event) : Prop :=
  ∃ line, startReply board trace = some line ∧ counts line

/-- Where the machine is `Running` after the script, both boards were started. -/
def ReportsStart (counts : Str → Prop) (w : World) (fuel : Nat) : Prop :=
  ∀ code, exitStatus (script w fuel .start) = some code →
    FirmwareFSM.newState .startFirmware (checkStatus (.exited code)) = .running →
    Started counts .motherboard (finalVars (script w fuel .start)).trace ∧
      Started counts .blueCoin (finalVars (script w fuel .start)).trace

def Board.Answers (b : Board) : Prop :=
  b.writeState ≠ none ∧ b.readState ≠ none ∧ b.writeStart ≠ none ∧ b.readStart ≠ none

/-- The last line read from the board counts as a reply. -/
def Board.Replies (counts : Str → Prop) (b : Board) : Prop := ∀ line ∈ b.readStart, counts line

theorem running_iff (code : Byte) :
    FirmwareFSM.newState .startFirmware (checkStatus (.exited code)) = .running ↔ code = 0 := by
  unfold checkStatus
  by_cases h : code = 0
  · simp [h, FirmwareFSM.newState, FirmwareFSM.Op.routine, FirmwareFSM.startFirmware]
  · simp [h, FirmwareFSM.newState]

/-! ## The search -/

/-- A part of the script that says nothing to the boards and does not quit. -/
def Silent {α : Type} (x : Script α) : Prop :=
  ∀ s, match x s with
    | .ok _ s' => s'.trace = s.trace
    | .error e _ => e ≠ .quit

theorem Silent.pure {α : Type} (a : α) : Silent (Pure.pure a : Script α) := fun _ => rfl

theorem Silent.bind {α β : Type} {x : Script α} {f : α → Script β} (hx : Silent x)
    (hf : ∀ a, Silent (f a)) : Silent (x >>= f) := by
  intro s
  have hs := hx s
  simp only [Bind.bind, EStateM.bind]
  cases hrun : x s with
  | error e s' => rw [hrun] at hs; exact hs
  | ok a s' =>
    rw [hrun] at hs
    have hs' := hf a s'
    simp only
    cases hrun' : f a s' with
    | error e s'' => rw [hrun'] at hs'; exact hs'
    | ok b s'' => rw [hrun'] at hs'; exact hs'.trans hs

theorem silent_reopen (board : Name) (port : Option Port) (answer : Option Unit) :
    Silent (reopen board port answer) := by
  intro s
  cases answer with
  | none => show Exit.raised ≠ .quit; decide
  | some _ => cases board <;> rfl

theorem silent_tryPort (w : World) (round COM_Index : Nat) : Silent (tryPort w round COM_Index) := by
  unfold tryPort
  split
  · exact .pure ()
  · refine .bind ?_ fun _ => ?_ <;> split
    · exact silent_reopen _ _ _
    · exact .pure ()
    · exact silent_reopen _ _ _
    · exact .pure ()

theorem silent_forM {α : Type} {f : α → Script Unit} (h : ∀ a, Silent (f a)) (xs : List α) :
    Silent (forM xs f) := by
  induction xs with
  | nil => exact .pure ()
  | cons x xs ih => rw [List.forM_cons]; exact (h x).bind fun _ => ih

theorem silent_search (w : World) (fuel : Nat) : ∀ round, Silent (search w fuel round) := by
  induction fuel with
  | zero => exact fun round s => by show Exit.searching ≠ .quit; decide
  | succ fuel ih =>
    intro round
    unfold search
    refine .bind (fun _ => rfl) fun s => ?_
    split
    · exact (silent_forM (silent_tryPort w round) _).bind fun _ => ih (round + 1)
    · exact .pure ()

theorem search_found (w : World) (fuel : Nat) : ∀ round s s',
    search w fuel round s = .ok () s' → ∀ board, s'.com board ≠ none := by
  induction fuel with
  | zero => intro round s s' h; cases h
  | succ fuel ih =>
    intro round s s' h
    simp only [search, bind, EStateM.bind, get, getThe, MonadStateOf.get, EStateM.get] at h
    split at h
    · simp only [EStateM.bind] at h
      split at h
      · exact ih _ _ _ h
      · cases h
    · rename_i hfound
      cases h
      rw [not_or] at hfound
      intro board
      cases board with
      | motherboard => exact hfound.1
      | blueCoin => exact hfound.2

/-! ## The boards -/

def Vars.say (s : Vars) (events : List Event) : Vars := { s with trace := s.trace ++ events }

@[simp] theorem com_say (s : Vars) (events : List Event) : (s.say events).com = s.com := by
  funext board
  cases board <;> rfl

@[simp] theorem say_say (s : Vars) (es es' : List Event) : (s.say es).say es' = s.say (es ++ es') := by
  simp [Vars.say]

theorem say_nil (s : Vars) : s.say [] = s := by
  simp [Vars.say]

section

variable {s : Vars} {board : Name} (h : s.com board ≠ none)

include h

theorem write_some (cmd : Str) (u : Unit) :
    write board cmd (some u) s = .ok () (s.say [.write board cmd]) := by
  obtain ⟨port, hport⟩ := Option.ne_none_iff_exists'.1 h
  simp only [write, bind, EStateM.bind, get, getThe, MonadStateOf.get, EStateM.get, hport]
  rfl

theorem readline_some (line : Str) :
    readline board (some line) s = .ok line (s.say [.readline board line]) := by
  obtain ⟨port, hport⟩ := Option.ne_none_iff_exists'.1 h
  simp only [readline, bind, EStateM.bind, get, getThe, MonadStateOf.get, EStateM.get, hport]
  rfl

end

theorem write_none (s : Vars) (board : Name) (cmd : Str) :
    write board cmd none s = .error .raised s := by
  simp only [write, bind, EStateM.bind, get, getThe, MonadStateOf.get, EStateM.get]
  cases s.com board <;> rfl

theorem readline_none (s : Vars) (board : Name) :
    readline board none s = .error .raised s := by
  simp only [readline, bind, EStateM.bind, get, getThe, MonadStateOf.get, EStateM.get]
  cases s.com board <;> rfl

/-- What is said to a board that answers everything. -/
def dialogue (board : Name) (state line : Str) : List Event :=
  [.write board GET_CONNECTION_STATE, .readline board state, .write board START_FW,
    .readline board line]

/-- The four operations on a board, without the `try` blocks. -/
def talk (board : Name) (b : Board) : Script Unit := do
  write board GET_CONNECTION_STATE b.writeState
  let _ ← readline board b.readState
  write board START_FW b.writeStart
  let _ ← readline board b.readStart

theorem talk_cases {s : Vars} {board : Name} (h : s.com board ≠ none) (b : Board) :
    (b.Answers ∧ ∃ state line, b.readStart = some line ∧
      talk board b s = .ok () (s.say (dialogue board state line))) ∨
    (¬ b.Answers ∧ ∃ state line k, k < 4 ∧
      talk board b s = .error .raised (s.say ((dialogue board state line).take k))) := by
  obtain ⟨writeState, readState, writeStart, readStart⟩ := b
  unfold talk
  cases writeState with
  | none =>
    refine .inr ⟨fun hb => hb.1 rfl, [], [], 0, by decide, ?_⟩
    simp only [bind, EStateM.bind, write_none, List.take_zero, say_nil]
  | some _ =>
    cases readState with
    | none =>
      refine .inr ⟨fun hb => hb.2.1 rfl, [], [], 1, by decide, ?_⟩
      simp only [bind, EStateM.bind, write_some h, readline_none]
      rfl
    | some state =>
      cases writeStart with
      | none =>
        refine .inr ⟨fun hb => hb.2.2.1 rfl, state, [], 2, by decide, ?_⟩
        simp [bind, EStateM.bind, write_some, readline_some, write_none, h, dialogue]
      | some _ =>
        cases readStart with
        | none =>
          refine .inr ⟨fun hb => hb.2.2.2 rfl, state, [], 3, by decide, ?_⟩
          simp [bind, EStateM.bind, write_some, readline_some, readline_none, h, dialogue]
        | some line =>
          refine .inl ⟨by simp [Board.Answers], state, line, rfl, ?_⟩
          simp [bind, EStateM.bind, write_some, readline_some, h, dialogue]
          rfl

theorem orQuit_ok {α : Type} {x : Script α} {s s' : Vars} {a : α} (h : x s = .ok a s') :
    orQuit x s = .ok a s' := by
  unfold orQuit
  rw [h]

theorem orQuit_raised {α : Type} {x : Script α} {s s' : Vars} (h : x s = .error .raised s') :
    orQuit x s = .error .quit s' := by
  unfold orQuit
  rw [h]

theorem orQuit_bind {α β : Type} (x : Script α) (f : α → Script β) :
    orQuit (x >>= f) = (do let a ← orQuit x; orQuit (f a)) := by
  funext s
  simp only [orQuit, bind, EStateM.bind]
  cases x s with
  | ok a s' => rfl
  | error e s' => cases e <;> rfl

/-- The four `try` blocks are as good as one. -/
theorem startBlueCoin_eq (b : Board) : startBlueCoin b = orQuit (talk .blueCoin b) := by
  unfold talk
  simp only [orQuit_bind]
  rfl

/-! ## The exit status -/

theorem startReply_motherboard {state line : Str} (rest : List Event) :
    startReply .motherboard (dialogue .motherboard state line ++ rest) = some line := rfl

/-- The BlueCoin's reply comes with the last event of its dialogue. -/
theorem startReply_blueCoin {state line state' line' : Str} {k : Nat} (h : k < 4) :
    startReply .blueCoin (dialogue .motherboard state line ++
      (dialogue .blueCoin state' line').take k) = none := by
  interval_cases k <;> rfl

theorem startReply_both {state line state' line' : Str} :
    startReply .blueCoin (dialogue .motherboard state line ++ dialogue .blueCoin state' line') =
      some line' := rfl

theorem script_found {w : World} {fuel : Nat} {s : Vars}
    (h : search w fuel 0 .start = .ok () s) :
    script w fuel .start = (do talk .motherboard w.motherboard
                               orQuit (talk .blueCoin w.blueCoin) : Script Unit) s := by
  have hbind : script w fuel = (do search w fuel 0
                                   talk .motherboard w.motherboard
                                   startBlueCoin w.blueCoin) := rfl
  rw [hbind, startBlueCoin_eq]
  simp only [bind, EStateM.bind, h]

/-- The exit status is 0 when the Motherboard has answered, whatever the BlueCoin does. -/
theorem script_cases {w : World} {fuel : Nat} {s : Vars}
    (h : search w fuel 0 .start = .ok () s) :
    (¬ w.motherboard.Answers ∧ exitStatus (script w fuel .start) = some 1) ∨
    (w.motherboard.Answers ∧ exitStatus (script w fuel .start) = some 0 ∧
      startReply .motherboard (finalVars (script w fuel .start)).trace = w.motherboard.readStart ∧
      ((¬ w.blueCoin.Answers ∧
          startReply .blueCoin (finalVars (script w fuel .start)).trace = none) ∨
        (w.blueCoin.Answers ∧ startReply .blueCoin (finalVars (script w fuel .start)).trace =
          w.blueCoin.readStart))) := by
  have hfound := search_found w fuel 0 .start s h
  have htrace : s.trace = [] := by
    have := silent_search w fuel 0 .start
    rw [h] at this
    exact this
  rw [script_found h]
  simp only [bind, EStateM.bind]
  rcases talk_cases (hfound .motherboard) w.motherboard with
    ⟨hmb, state, line, hline, hrun⟩ | ⟨hmb, state, line, k, -, hrun⟩
  · rw [hrun]
    simp only
    have hbc : (s.say (dialogue .motherboard state line)).com .blueCoin ≠ none := by
      rw [com_say]
      exact hfound .blueCoin
    rcases talk_cases hbc w.blueCoin with
      ⟨hanswers, state', line', hline', hrun'⟩ | ⟨hanswers, state', line', k, hk, hrun'⟩
    · rw [orQuit_ok hrun', say_say, hline, hline']
      refine .inr ⟨hmb, rfl, ?_⟩
      simp only [finalVars, Vars.say, htrace, List.nil_append]
      exact ⟨startReply_motherboard _, .inr ⟨hanswers, startReply_both⟩⟩
    · rw [orQuit_raised hrun', say_say, hline]
      refine .inr ⟨hmb, rfl, ?_⟩
      simp only [finalVars, Vars.say, htrace, List.nil_append]
      exact ⟨startReply_motherboard _, .inl ⟨hanswers, startReply_blueCoin hk⟩⟩
  · rw [hrun]
    exact .inl ⟨hmb, rfl⟩

theorem script_error {w : World} {fuel : Nat} {e : Exit} {s : Vars}
    (h : search w fuel 0 .start = .error e s) : script w fuel .start = .error e s := by
  unfold script
  simp only [bind, EStateM.bind, h]

/-- The script does not report a start without having searched. -/
theorem script_not_found {w : World} {fuel : Nat} {e : Exit} {s : Vars}
    (h : search w fuel 0 .start = .error e s) : exitStatus (script w fuel .start) ≠ some 0 := by
  have hsilent := silent_search w fuel 0 .start
  rw [h] at hsilent
  rw [script_error h]
  cases e with
  | quit => exact absurd rfl hsilent
  | raised => simp [exitStatus]
  | searching => simp [exitStatus]

/-- **A started machine**: the script reports a start exactly when it was one, unless the search
ends, the Motherboard answers everything, and then a reply of either board is none or an operation
on the BlueCoin raises. -/
theorem reports_start_iff (counts : Str → Prop) (w : World) (fuel : Nat) :
    ReportsStart counts w fuel ↔
      ∀ s, search w fuel 0 .start = .ok () s → w.motherboard.Answers →
        w.motherboard.Replies counts ∧ w.blueCoin.Answers ∧ w.blueCoin.Replies counts := by
  constructor
  · intro hreports s hs hmb
    rcases script_cases hs with ⟨hno, -⟩ | ⟨-, hcode, hreply, hbc⟩
    · exact absurd hmb hno
    obtain ⟨⟨line, hline, hcounts⟩, line', hline', hcounts'⟩ :=
      hreports 0 hcode ((running_iff 0).2 rfl)
    rw [hreply] at hline
    rcases hbc with ⟨-, hnone⟩ | ⟨hanswers, hreply'⟩
    · rw [hnone] at hline'
      cases hline'
    · rw [hreply'] at hline'
      refine ⟨fun l hl => ?_, hanswers, fun l hl => ?_⟩
      · rw [hline] at hl
        cases hl
        exact hcounts
      · rw [hline'] at hl
        cases hl
        exact hcounts'
  · intro hcond code hcode hrunning
    obtain rfl := (running_iff code).1 hrunning
    cases hs : search w fuel 0 .start with
    | error e s => exact absurd hcode (script_not_found hs)
    | ok _ s =>
      rcases script_cases hs with ⟨-, hone⟩ | ⟨hmb, -, hreply, hbc⟩
      · rw [hone] at hcode
        cases hcode
      obtain ⟨hreplies, hanswers, hreplies'⟩ := hcond s hs hmb
      rcases hbc with ⟨hno, -⟩ | ⟨-, hreply'⟩
      · exact absurd hanswers hno
      obtain ⟨line, hline⟩ := Option.ne_none_iff_exists'.1 hmb.2.2.2
      obtain ⟨line', hline'⟩ := Option.ne_none_iff_exists'.1 hanswers.2.2.2
      exact ⟨⟨line, hreply.trans hline, hreplies line hline⟩, line', hreply'.trans hline',
        hreplies' line' hline'⟩

/-- A Motherboard that answers, and a BlueCoin whose port raises at the first write. -/
def halfBroken : World where
  COM_List := ["/dev/ttyUSB0".toList, "/dev/ttyUSB1".toList]
  probe := fun _ i => some (if i = 0 then Motherboard_PCB_Name else BlueCoin_PCB_Name)
  reopen := fun _ _ => some ()
  motherboard := ⟨some (), some "OK\r\n".toList, some (), some "OK\r\n".toList⟩
  blueCoin := ⟨none, none, none, none⟩

/-- **The BlueCoin was never told to start**, and the machine is `Running`. -/
theorem reports_start_half :
    exitStatus (script halfBroken 2 .start) = some 0 ∧
      FirmwareFSM.newState .startFirmware (checkStatus (.exited 0)) = .running ∧
      Event.write .blueCoin START_FW ∉ (finalVars (script halfBroken 2 .start)).trace ∧
      ¬ ReportsStart (fun _ => True) halfBroken 2 := by
  have hcode : exitStatus (script halfBroken 2 .start) = some 0 := rfl
  have hreply : startReply .blueCoin (finalVars (script halfBroken 2 .start)).trace = none := rfl
  refine ⟨hcode, rfl, by decide, fun h => ?_⟩
  obtain ⟨-, line, hline, -⟩ := h 0 hcode ((running_iff 0).2 rfl)
  rw [hreply] at hline
  cases hline

end BootloaderStart

end MbDaemon
