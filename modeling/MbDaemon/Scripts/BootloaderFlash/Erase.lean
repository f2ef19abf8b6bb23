import MbDaemon.Scripts.BootloaderFlash.Session

/-!
# The answer to the erase

The script reads up to twelve lines after `CMD:ERASE` and goes on in the same way whether one of
them was the report or not. `ErasedFirst` says what the report is for: no package goes out without
it, and the script does not succeed without it. That is so in all worlds but those that come
through the twelve lines and to a package (`erased_first_iff`).
-/

namespace MbDaemon

open Python HwUtils

namespace BootloaderFlash

/-- The board reports the end of an erase: the line comes while `CMD:ERASE` is the last command. -/
def reportsErase : Bool → List Event → Bool
  | _, [] => false
  | _, .send cmd :: es => reportsErase (cmd = ERASE) es
  | erasing, .answer line :: es => (erasing && line = Full_Erase) || reportsErase erasing es
  | erasing, .raised :: es => reportsErase erasing es

/-- No package goes out before the board has reported the end of the erase, and without the report
the script fails and the machine does not go back to `Boot`. -/
structure ErasedFirst (w : World) : Prop where
  packages : ∀ before cmd after, (script w).log = before ++ .send cmd :: after →
    isPackage cmd = true → reportsErase false before = true
  status : reportsErase false (script w).log = false → (script w).status ≠ 0
  boot : ∀ firmware, FirmwareFSM.newState (.flashBootlader firmware)
    (checkStatus (.exited (script w).status)) = .boot → reportsErase false (script w).log = true

/-! ## The world -/

/-- What a port that opens answers to the question for its name. -/
def Port.answer (port : Port) : Option Str := port.write.bind fun _ => port.readline

/-- The Motherboard is found: all ports before it open and answer something else or nothing. -/
def Finds (ports : List Port) : Prop :=
  ∃ before port after, ports = before ++ port :: after ∧
    (∀ p ∈ before, p.opens ≠ none ∧ p.answer ≠ some PCB_Name) ∧
    port.opens ≠ none ∧ port.answer = some PCB_Name ∧ port.reopens ≠ none

/-- The script comes to the erase. -/
structure Connects (w : World) : Prop where
  argv : w.argv.length = 2
  openFile : w.openFile ≠ none
  found : Finds w.COM_List
  restart : w.restart ≠ none
  hello : w.hello ≠ none

/-- All lines that the script reads after `CMD:ERASE` come, and none of them is the report. -/
def Unreported (w : World) : Prop :=
  ∀ i < Sector_Num + 1, ∃ line, w.erased i = some line ∧ line ≠ Full_Erase

/-- The script comes from the erase to a package, or to its end where the image has none. -/
def Proceeds (w : World) : Prop :=
  ∃ bin, w.image = some bin ∧ bin.length ≤ 4096 * 1024 ∧ w.setSize ≠ none ∧ w.sizeReply ≠ none ∧
    (bin ≠ [] ∨ w.final ≠ none)

/-! ## The search -/

section

variable {α : Type} (cmd : Str)

@[simp] theorem result_operation_none : (operation (none : Option α)).result = .error .raised := rfl

@[simp] theorem result_operation_some (a : α) : (operation (some a)).result = .ok a := rfl

@[simp] theorem result_write_none : (write cmd none).result = .error .raised := rfl

@[simp] theorem result_write_some (u : Unit) : (write cmd (some u)).result = .ok () := rfl

@[simp] theorem result_readline_none : (readline none).result = .error .raised := rfl

@[simp] theorem result_readline_some (line : Str) : (readline (some line)).result = .ok line := rfl

end

theorem result_askName (port : Port) : (askName port).result = .ok port.answer := by
  obtain ⟨opens, write, readline, reopens⟩ := port
  cases write with
  | none => rfl
  | some _ => cases readline <;> rfl

theorem finds_iff {ports : List Port} :
    Finds ports ↔ ∃ port, (∃ before after, ports = before ++ port :: after ∧
      ∀ p ∈ before, p.opens ≠ none ∧ p.answer ≠ some PCB_Name) ∧
        port.opens ≠ none ∧ port.answer = some PCB_Name ∧ port.reopens ≠ none := by
  constructor
  · rintro ⟨before, port, after, hports, hbefore, hport⟩
    exact ⟨port, ⟨before, after, hports, hbefore⟩, hport⟩
  · rintro ⟨port, ⟨before, after, hports, hbefore⟩, hport⟩
    exact ⟨before, port, after, hports, hbefore, hport⟩

theorem finds_cons (port : Port) (rest : List Port) :
    Finds (port :: rest) ↔ port.opens ≠ none ∧
      (port.answer = some PCB_Name ∧ port.reopens ≠ none ∨
        port.answer ≠ some PCB_Name ∧ Finds rest) := by
  simp only [finds_iff, passed_cons]
  constructor
  · rintro ⟨found, rfl | ⟨⟨hopens, hother⟩, hbefore⟩, hfound⟩
    · exact ⟨hfound.1, .inl hfound.2⟩
    · exact ⟨hopens, .inr ⟨hother, found, hbefore, hfound⟩⟩
  · rintro ⟨hopens, hfound | ⟨hother, found, hbefore, hfound⟩⟩
    · exact ⟨port, .inl rfl, hopens, hfound⟩
    · exact ⟨found, .inr ⟨⟨hopens, hother⟩, hbefore⟩, hfound⟩

theorem not_finds_nil : ¬ Finds [] := by
  rintro ⟨before, port, after, h, -⟩
  simp at h

theorem findMotherboard_ok (ports : List Port) :
    (findMotherboard ports).result = .ok true ↔ Finds ports := by
  induction ports with
  | nil => exact ⟨fun h => (by cases h), fun h => absurd h not_finds_nil⟩
  | cons port rest ih =>
    rw [finds_cons]
    simp only [findMotherboard, Run.result_bind, result_askName]
    cases port.opens with
    | none => simp
    | some _ =>
      cases port.answer with
      | none => simp [ih]
      | some response =>
        by_cases hname : response = PCB_Name
        · subst hname
          cases port.reopens <;> simp
        · by_cases hrest : rest = []
          · subst hrest
            simp [hname, not_finds_nil]
          · simp [hname, hrest, ih]

theorem restartBoard_ok (w : World) (found : Bool) :
    (restartBoard w found).result = .ok () ↔ found = true ∧ w.restart ≠ none ∧ w.hello ≠ none := by
  cases found with
  | false => simp [restartBoard]
  | true => cases hr : w.restart <;> cases hh : w.hello <;> simp [restartBoard, hr, hh]

theorem connect_ok (w : World) : (connect w).result = .ok () ↔ Connects w := by
  have hparts : Connects w ↔ w.argv.length = 2 ∧ w.openFile ≠ none ∧ Finds w.COM_List ∧
      w.restart ≠ none ∧ w.hello ≠ none := by
    refine ⟨fun h => ⟨h.argv, h.openFile, h.found, h.restart, h.hello⟩, ?_⟩
    rintro ⟨argv, openFile, found, restart, hello⟩
    exact ⟨argv, openFile, found, restart, hello⟩
  rw [hparts, ← findMotherboard_ok]
  simp only [connect, Run.result_bind, checkArgv]
  by_cases hargv : w.argv.length = 2
  · cases w.openFile with
    | none => simp [hargv]
    | some _ =>
      cases hfind : (findMotherboard w.COM_List).result with
      | error e => simp [hargv]
      | ok found => simp [hargv, restartBoard_ok]
  · simp [hargv]

/-! ## The report -/

theorem reportsErase_before {es : List Event} (h : ∀ e ∈ es, Before e) (es' : List Event) :
    reportsErase false (es ++ es') = reportsErase false es' := by
  induction es with
  | nil => rfl
  | cons e es ih =>
    have htail := ih fun e he => h e (List.mem_cons_of_mem _ he)
    cases e with
    | send m =>
      have hm : m ≠ ERASE := (h (.send m) List.mem_cons_self m rfl).2
      simp only [List.cons_append, reportsErase, hm, decide_false]
      exact htail
    | answer line =>
      simp only [List.cons_append, reportsErase, Bool.false_and, Bool.false_or]
      exact htail
    | raised => exact htail

theorem reportsErase_append {es : List Event} : ∀ {erasing : Bool}, reportsErase erasing es = true →
    ∀ es', reportsErase erasing (es ++ es') = true := by
  induction es with
  | nil => intro erasing h; cases h
  | cons e es ih =>
    intro erasing h es'
    cases e with
    | send m => exact ih h es'
    | answer line =>
      simp only [List.cons_append, reportsErase, Bool.or_eq_true] at h ⊢
      exact h.imp id fun h => ih h es'
    | raised => exact ih h es'

theorem reportsErase_send {es : List Event} (h : ∀ e ∈ es, ∀ m, e ≠ .send m) (cmd : Str)
    (es' : List Event) :
    reportsErase true (es ++ .send cmd :: es') =
      (reportsErase true es || reportsErase (cmd = ERASE) es') := by
  induction es with
  | nil => rfl
  | cons e es ih =>
    have htail := ih fun e he => h e (List.mem_cons_of_mem _ he)
    cases e with
    | send m => exact absurd rfl (h _ List.mem_cons_self m)
    | answer line =>
      simp only [List.cons_append, reportsErase, htail, Bool.or_assoc]
    | raised => exact htail

/-- The loop ends with the report, with an exception, or with its last line. -/
theorem awaitErase_cases (w : World) (n : Nat) : ∀ i,
    ((∀ j, i ≤ j → j < i + n → ∃ line, w.erased j = some line ∧ line ≠ Full_Erase) ∧
      (awaitErase w n i).result = .ok () ∧ reportsErase true (awaitErase w n i).log = false) ∨
    (¬ (∀ j, i ≤ j → j < i + n → ∃ line, w.erased j = some line ∧ line ≠ Full_Erase) ∧
      ((awaitErase w n i).result = .error .raised ∨
        (awaitErase w n i).result = .ok () ∧ reportsErase true (awaitErase w n i).log = true)) := by
  induction n with
  | zero => exact fun i => .inl ⟨fun j h h' => by omega, rfl, rfl⟩
  | succ n ih =>
    intro i
    have hstep : awaitErase w (n + 1) i = (do
        let sector ← readline (w.erased i)
        if sector = Full_Erase then pure () else awaitErase w n (i + 1)) := rfl
    cases hline : w.erased i with
    | none =>
      refine .inr ⟨fun h => ?_, .inl ?_⟩
      · obtain ⟨line, h, -⟩ := h i (Nat.le_refl i) (by omega)
        rw [hline] at h
        cases h
      · simp [hstep, hline]
    | some line =>
      have hrun := Run.bind_ok (x := readline (some line)) rfl fun sector =>
        if sector = Full_Erase then pure () else awaitErase w n (i + 1)
      rw [hline, hrun] at hstep
      by_cases hfull : line = Full_Erase
      · refine .inr ⟨fun h => ?_, .inr ?_⟩
        · obtain ⟨line', h, hne⟩ := h i (Nat.le_refl i) (by omega)
          rw [hline] at h
          cases h
          exact hne hfull
        · subst hfull
          rw [hstep]
          exact ⟨rfl, rfl⟩
      · simp only [if_neg hfull] at hstep
        have hlog : (awaitErase w (n + 1) i).log =
            .answer line :: (awaitErase w n (i + 1)).log := by rw [hstep]; rfl
        have hreports : reportsErase true (awaitErase w (n + 1) i).log =
            reportsErase true (awaitErase w n (i + 1)).log := by
          rw [hlog]
          simp [reportsErase, hfull]
        have hresult : (awaitErase w (n + 1) i).result = (awaitErase w n (i + 1)).result := by
          rw [hstep]
        rw [hreports, hresult]
        rcases ih (i + 1) with ⟨hall, hend⟩ | ⟨hall, hend⟩
        · refine .inl ⟨fun j hj hj' => ?_, hend⟩
          rcases Nat.eq_or_lt_of_le hj with rfl | hj
          · exact ⟨line, hline, hfull⟩
          · exact hall j hj (by omega)
        · exact .inr ⟨fun h => hall fun j hj hj' => h j (by omega) (by omega), hend⟩

/-! ## After the erase -/

/-- What the script does after the erase where it proceeds. -/
structure Unchecked (w : World) (n : Nat) (line : Str) (rest : List Event) : Prop where
  log : (flash w).log = .send (sizeCmd n) :: .answer line :: rest
  goes : (∃ cmd after, rest = .send cmd :: after ∧ isPackage cmd = true) ∨
    ((∀ e ∈ rest, ∀ m, e ≠ .send m) ∧ (flash w).status = 0)

theorem transfer_head (w : World) {bin : List Byte} {cmd_list : List (Option Str)} (hbin : bin ≠ [])
    (h : ∀ (i : Nat) cmd, (packages bin)[i]? = some cmd → cmd_list[i]? = some (some cmd)) :
    ∃ cmd after, isPackage cmd = true ∧
      (transfer w cmd_list (numParts bin.length) 0).log = .send cmd :: after := by
  have hpos : 0 < bin.length := List.length_pos_iff.2 hbin
  obtain ⟨n, hn⟩ : ∃ n, numParts bin.length = n + 1 :=
    ⟨numParts bin.length - 1, by rw [numParts_eq]; omega⟩
  obtain ⟨cmd, hcmd⟩ : ∃ cmd, (packages bin)[0]? = some cmd := by
    rw [packages, hn, List.range_succ_eq_map]
    exact ⟨_, rfl⟩
  have hpackage := isPackage_packages bin cmd (List.mem_of_getElem? hcmd)
  have hstep : transfer w cmd_list (n + 1) 0 =
      (sendPackage w cmd_list 0 >>= fun _ => transfer w cmd_list n 1) := rfl
  rw [hn, hstep]
  have hhead : ∃ after, (sendPackage w cmd_list 0).log = .send cmd :: after := by
    rcases sendPackage_cases w (h 0 cmd hcmd) with hok | ⟨-, hlog | ⟨r, after, -, -, hlog⟩⟩
    · exact ⟨_, by rw [hok]; rfl⟩
    · exact ⟨_, hlog⟩
    · exact ⟨_, hlog⟩
  obtain ⟨after, hlog⟩ := hhead
  rcases Run.bind_cases (sendPackage w cmd_list 0) (fun _ => transfer w cmd_list n 1) with
    ⟨_, -, hrun⟩ | ⟨_, -, hrun⟩
  · exact ⟨cmd, _, hpackage, by rw [hrun, hlog]; rfl⟩
  · exact ⟨cmd, _, hpackage, by rw [hrun, hlog]⟩

theorem sendSize_some (w : World) (n : Nat) {u : Unit} {line : Str} (hset : w.setSize = some u)
    (hreply : w.sizeReply = some line) :
    sendSize w n = { log := [.send (sizeCmd n), .answer line], result := .ok () } := by
  unfold sendSize
  rw [hset, hreply]
  rfl

theorem sendSize_error (w : World) (n : Nat) (h : w.setSize = none ∨ w.sizeReply = none) :
    (sendSize w n).result = .error .raised := by
  cases hset : w.setSize with
  | none => simp [sendSize, hset]
  | some _ =>
    rw [hset] at h
    simp [sendSize, hset, h.resolve_left (by simp)]

/-- The end of the script, when the size has been sent. -/
theorem unchecked_of_sent {w : World} {bin : List Byte} {cmd_list : List (Option Str)} {line : Str}
    (hentries : ∀ (i : Nat) cmd, (packages bin)[i]? = some cmd → cmd_list[i]? = some (some cmd))
    (hflash : flash w = ({ log := [.send (sizeCmd bin.length), .answer line], result := .ok () } >>=
      fun _ => do
        transfer w cmd_list (numParts bin.length) 0
        let _ ← readline w.final
        Run.exit 0)) :
    ((bin ≠ [] ∨ w.final ≠ none) ∧ ∃ n line rest, Unchecked w n line rest) ∨
    (¬ (bin ≠ [] ∨ w.final ≠ none) ∧ (∀ e ∈ (flash w).log, StopAndWait.Apart isPackage e) ∧
      (flash w).status ≠ 0) := by
  rw [Run.bind_ok rfl] at hflash
  by_cases hbin : bin = []
  · subst hbin
    cases hfinal : w.final with
    | none =>
      rw [hfinal] at hflash
      refine .inr ⟨by simp, ?_⟩
      have hlog : (flash w).log = [.send (sizeCmd 0), .answer line, .raised] := by rw [hflash]; rfl
      have hstatus : (flash w).status = 1 := by rw [hflash]; rfl
      rw [hlog, hstatus]
      refine ⟨fun e he => ?_, by decide⟩
      rcases List.mem_cons.1 he with rfl | he
      · exact apart_send (isPackage_sizeCmd 0)
      · exact apart_of_silent e fun m hm => by subst hm; simp at he
    | some line' =>
      rw [hfinal] at hflash
      refine .inl ⟨.inr (by simp), 0, line, [.answer line'], ?_, .inr ⟨fun e he m hm => ?_, ?_⟩⟩
      · rw [hflash]; rfl
      · subst hm; simp at he
      · rw [hflash]; rfl
  · obtain ⟨cmd, after, hcmd, hlog⟩ := transfer_head w hbin hentries
    refine .inl ⟨.inl hbin, bin.length, line, ?_⟩
    rcases Run.bind_cases (transfer w cmd_list (numParts bin.length) 0)
      (fun _ => (do let _ ← readline w.final; Run.exit 0 : Script Unit)) with
      ⟨_, -, hrun⟩ | ⟨_, -, hrun⟩
    · rw [hrun, hlog] at hflash
      exact ⟨_, by rw [hflash]; rfl, .inl ⟨cmd, _, rfl, hcmd⟩⟩
    · rw [hrun, hlog] at hflash
      exact ⟨_, by rw [hflash]; rfl, .inl ⟨cmd, after, rfl, hcmd⟩⟩

/-- The script proceeds, or no package goes out and it fails. -/
theorem flash_cases (w : World) :
    (Proceeds w ∧ ∃ n line rest, Unchecked w n line rest) ∨
    (¬ Proceeds w ∧ (∀ e ∈ (flash w).log, StopAndWait.Apart isPackage e) ∧ (flash w).status ≠ 0) := by
  cases himage : w.image with
  | none =>
    refine .inr ⟨fun h => ?_, ?_⟩
    · obtain ⟨bin, h, -⟩ := h
      rw [himage] at h
      cases h
    · unfold flash
      rw [himage]
      exact (quiet_operation apart_of_silent (none : Option (List Byte))).cut rfl _
  | some bin =>
    have hflash : flash w = (do
        let cmd_list ← packageList bin
        sendSize w bin.length
        transfer w cmd_list (numParts bin.length) 0
        let _ ← readline w.final
        Run.exit 0) := by
      unfold flash
      rw [himage]
      rfl
    have hproceeds : Proceeds w ↔ bin.length ≤ 4096 * 1024 ∧ w.setSize ≠ none ∧
        w.sizeReply ≠ none ∧ (bin ≠ [] ∨ w.final ≠ none) := by
      unfold Proceeds
      rw [himage]
      simp
    rw [hproceeds]
    rcases packageList_cases bin with ⟨hfits, cmd_list, hpure, hentries⟩ | ⟨hlong, hraise⟩
    · rw [hpure, Run.pure_bind] at hflash
      by_cases hsize : w.setSize = none ∨ w.sizeReply = none
      · refine .inr ⟨fun h => hsize.elim h.2.1 h.2.2.1, ?_⟩
        rw [hflash]
        exact (quiet_sendSize w _).cut (sendSize_error w _ hsize) _
      · rw [not_or] at hsize
        obtain ⟨u, hset⟩ := Option.ne_none_iff_exists'.1 hsize.1
        obtain ⟨line, hreply⟩ := Option.ne_none_iff_exists'.1 hsize.2
        rw [sendSize_some w _ hset hreply] at hflash
        rcases unchecked_of_sent hentries hflash with ⟨hends, hunchecked⟩ | ⟨hends, hquiet⟩
        · exact .inl ⟨⟨hfits, hsize.1, hsize.2, hends⟩, hunchecked⟩
        · exact .inr ⟨fun h => hends h.2.2.2, hquiet⟩
    · refine .inr ⟨fun h => by omega, ?_⟩
      rw [hflash, hraise]
      exact (Run.Quiet.raise (p := StopAndWait.Apart isPackage)).cut rfl _

/-! ## The whole script -/

theorem boot_iff (firmware : Text) (code : Byte) :
    FirmwareFSM.newState (.flashBootlader firmware) (checkStatus (.exited code)) = .boot ↔
      code = 0 := by
  unfold checkStatus
  by_cases h : code = 0
  · simp [h, FirmwareFSM.newState, FirmwareFSM.Op.routine, FirmwareFSM.flashBootlader]
  · simp [h, FirmwareFSM.newState]

theorem erasedFirst_of {w : World}
    (packages : ∀ before cmd after, (script w).log = before ++ .send cmd :: after →
      isPackage cmd = true → reportsErase false before = true)
    (status : (script w).status = 0 → reportsErase false (script w).log = true) :
    ErasedFirst w where
  packages := packages
  status h hzero := by rw [status hzero] at h; cases h
  boot firmware h := status ((boot_iff firmware _).1 h)

/-- A script that sends no package and does not succeed needs no report. -/
theorem erasedFirst_of_quiet {w : World}
    (hlog : ∀ e ∈ (script w).log, StopAndWait.Apart isPackage e) (hstatus : (script w).status ≠ 0) :
    ErasedFirst w := by
  refine erasedFirst_of (fun before cmd after htrace hcmd => ?_) fun h => absurd h hstatus
  have := hlog (.send cmd) (by rw [htrace]; simp) cmd rfl
  rw [hcmd] at this
  cases this

/-- The events up to the end of the wait. -/
def erasing (w : World) : List Event :=
  (connect w).log ++ .send ERASE :: (awaitErase w (Sector_Num + 1) 0).log

theorem apart_erasing (w : World) : ∀ e ∈ erasing w, StopAndWait.Apart isPackage e := by
  intro e he
  rcases List.mem_append.1 he with he | he
  · exact ((quiet_connect w).log e he).apart
  rcases List.mem_cons.1 he with rfl | he
  · exact apart_send rfl
  · exact apart_of_silent e ((quiet_awaitErase w _ 0).log e he)

theorem reportsErase_erasing (w : World) (es : List Event) :
    reportsErase false (erasing w ++ es) =
      reportsErase true ((awaitErase w (Sector_Num + 1) 0).log ++ es) := by
  rw [erasing, List.append_assoc, reportsErase_before (quiet_connect w).log]
  rfl

/-- The script stops before it has waited for the erase, or fails in the wait, or goes on. -/
theorem script_cases (w : World) :
    (¬ (Connects w ∧ w.erase ≠ none ∧ (awaitErase w (Sector_Num + 1) 0).result = .ok ()) ∧
      (∀ e ∈ (script w).log, StopAndWait.Apart isPackage e) ∧ (script w).status ≠ 0) ∨
    (Connects w ∧ w.erase ≠ none ∧ (awaitErase w (Sector_Num + 1) 0).result = .ok () ∧
      script w = { log := erasing w ++ (flash w).log, result := (flash w).result }) := by
  have hscript : script w = (connect w >>= fun _ => eraseFlash w >>= fun _ => flash w) := rfl
  rcases Run.bind_cases (connect w) (fun _ => eraseFlash w >>= fun _ => flash w) with
    ⟨_, hconnect, hrun⟩ | ⟨e, hconnect, -⟩
  · have hconnects := (connect_ok w).1 hconnect
    cases herase : w.erase with
    | none =>
      have hcut := (quiet_eraseFlash w).cut (e := .raised) (by simp [eraseFlash, herase])
        fun _ => flash w
      rw [hscript, hrun]
      refine .inl ⟨fun h => h.2.1 rfl, fun e he => ?_, hcut.2⟩
      exact (List.mem_append.1 he).elim (fun h => ((quiet_connect w).log e h).apart) (hcut.1 e)
    | some u =>
      have heraseFlash : eraseFlash w =
          { log := .send ERASE :: (awaitErase w (Sector_Num + 1) 0).log,
            result := (awaitErase w (Sector_Num + 1) 0).result } := by
        unfold eraseFlash
        rw [herase]
        rfl
      cases hawait : (awaitErase w (Sector_Num + 1) 0).result with
      | ok _ =>
        refine .inr ⟨hconnects, by simp, rfl, ?_⟩
        have hflashed := Run.bind_ok (x := eraseFlash w) (by rw [heraseFlash]; exact hawait)
          fun _ => flash w
        rw [hscript, hrun, hflashed, heraseFlash]
        simp only [erasing, List.append_assoc]
      | error e =>
        have hcut := (quiet_eraseFlash w).cut (e := e) (by rw [heraseFlash]; exact hawait)
          fun _ => flash w
        rw [hscript, hrun]
        refine .inl ⟨fun h => (by cases h.2.2), fun e he => ?_, hcut.2⟩
        exact (List.mem_append.1 he).elim (fun h => ((quiet_connect w).log e h).apart) (hcut.1 e)
  · have hcut := (quiet_connect w).cut hconnect fun _ => eraseFlash w >>= fun _ => flash w
    refine .inl ⟨fun h => ?_, fun e he => (hcut.1 e he).apart, hcut.2⟩
    have hok := (connect_ok w).2 h.1
    rw [hconnect] at hok
    cases hok

/-- Where the report has come, everything after it follows it. -/
theorem erasedFirst_of_reported {w : World}
    (hscript : script w = { log := erasing w ++ (flash w).log, result := (flash w).result })
    (hreported : reportsErase true (awaitErase w (Sector_Num + 1) 0).log = true) :
    ErasedFirst w := by
  have hafter : ∀ es, reportsErase false (erasing w ++ es) = true := fun es => by
    rw [reportsErase_erasing]
    exact reportsErase_append hreported es
  refine erasedFirst_of (fun before cmd after htrace hcmd => ?_) fun _ => ?_
  · have hnothing : ∀ e ∈ ([] : List Event), StopAndWait.Apart isPackage e :=
      fun e he => (by cases he)
    have hsplit : erasing w ++ ((flash w).log ++ []) = before ++ .send cmd :: after := by
      rw [List.append_nil, ← htrace, hscript]
    obtain ⟨left, -, rfl, -, -⟩ := StopAndWait.locate hcmd (apart_erasing w) hnothing hsplit
    exact hafter left
  · rw [hscript]
    exact hafter _

/-- Where the report has not come and the script proceeds, it does what the report is for. -/
theorem not_erasedFirst_of_unreported {w : World} {n : Nat} {line : Str} {rest : List Event}
    (hscript : script w = { log := erasing w ++ (flash w).log, result := (flash w).result })
    (hreported : reportsErase true (awaitErase w (Sector_Num + 1) 0).log = false)
    (h : Unchecked w n line rest) : ¬ ErasedFirst w := by
  have hsize : sizeCmd n ≠ ERASE := by
    intro he
    have hletter : (sizeCmd n)[4]? = some 'S' := rfl
    rw [he] at hletter
    exact absurd hletter (by decide)
  have hafter : ∀ es, reportsErase false (erasing w ++ .send (sizeCmd n) :: es) =
      reportsErase false es := fun es => by
    rw [reportsErase_erasing, reportsErase_send (quiet_awaitErase w _ 0).log, hreported,
      decide_eq_false hsize, Bool.false_or]
  intro herased
  rcases h.goes with ⟨cmd, after, rfl, hcmd⟩ | ⟨hquiet, hstatus⟩
  · have htrace : (script w).log =
        (erasing w ++ [.send (sizeCmd n), .answer line]) ++ .send cmd :: after := by
      rw [hscript, h.log, List.append_assoc]
      rfl
    have hreport := herased.packages _ _ _ htrace hcmd
    rw [hafter] at hreport
    cases hreport
  · have hzero : (script w).status = 0 := by rw [hscript]; exact hstatus
    refine herased.status ?_ hzero
    rw [hscript, h.log, hafter]
    have hsilent : ∀ e ∈ (.answer line :: rest : List Event), Before e := by
      intro e he
      refine before_of_silent e fun m hm => ?_
      rcases List.mem_cons.1 he with he | he
      · rw [he] at hm; cases hm
      · exact hquiet e he m hm
    have hbefore := reportsErase_before hsilent []
    rw [List.append_nil] at hbefore
    exact hbefore

/-- **The report of the erase** is what packages and success wait for, unless all twelve lines come
without it and the script then comes to a package, or, with none to send, to its end. -/
theorem erased_first_iff (w : World) :
    ErasedFirst w ↔ ¬ (Connects w ∧ w.erase ≠ none ∧ Unreported w ∧ Proceeds w) := by
  have hlines : (∀ j, 0 ≤ j → j < 0 + (Sector_Num + 1) →
      ∃ line, w.erased j = some line ∧ line ≠ Full_Erase) ↔ Unreported w := by
    refine ⟨fun h i hi => h i (Nat.zero_le i) (by omega), fun h j _ hj => h j (by omega)⟩
  rcases script_cases w with ⟨hstops, hlog, hstatus⟩ | ⟨hconnects, herase, hok, hscript⟩
  · refine iff_of_true (erasedFirst_of_quiet hlog hstatus) fun h => hstops ⟨h.1, h.2.1, ?_⟩
    rcases awaitErase_cases w (Sector_Num + 1) 0 with ⟨-, hok, -⟩ | ⟨hno, -⟩
    · exact hok
    · exact absurd (hlines.2 h.2.2.1) hno
  · rcases awaitErase_cases w (Sector_Num + 1) 0 with ⟨hall, -, hreported⟩ | ⟨hall, hend⟩
    · rcases flash_cases w with ⟨hproceeds, n, line, rest, hunchecked⟩ | ⟨hno, hlog, hstatus⟩
      · exact iff_of_false (not_erasedFirst_of_unreported hscript hreported hunchecked)
          fun h => h ⟨hconnects, herase, hlines.1 hall, hproceeds⟩
      · refine iff_of_true (erasedFirst_of_quiet (fun e he => ?_) ?_) fun h => hno h.2.2.2
        · rw [hscript] at he
          exact (List.mem_append.1 he).elim (apart_erasing w e) (hlog e)
        · rw [hscript]
          exact hstatus
    · have hreported : reportsErase true (awaitErase w (Sector_Num + 1) 0).log = true := by
        rcases hend with herror | ⟨-, hreported⟩
        · rw [hok] at herror
          cases herror
        · exact hreported
      exact iff_of_true (erasedFirst_of_reported hscript hreported)
        fun h => hall (hlines.2 h.2.2.1)

/-- A board that answers every line after `CMD:ERASE` with a timeout. -/
def silentErase : World := { obedient [0xFF] with erased := fun _ => some [] }

/-- **The page is written** on flash that was never reported to be erased, and the script leaves with
success. -/
theorem silentErase_succeeds :
    (script silentErase).status = 0 ∧ reportsErase false (script silentErase).log = false ∧
      StopAndWait.sent isPackage (script silentErase).log ≠ [] ∧ ¬ ErasedFirst silentErase := by
  have hrun : (script silentErase).status = 0 ∧
      reportsErase false (script silentErase).log = false ∧
      StopAndWait.sent isPackage (script silentErase).log ≠ [] := by decide +kernel
  exact ⟨hrun.1, hrun.2.1, hrun.2.2, fun h => h.status hrun.2.1 hrun.1⟩

end BootloaderFlash

end MbDaemon
