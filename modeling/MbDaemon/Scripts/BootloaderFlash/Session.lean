import MbDaemon.FirmwareFSM
import MbDaemon.Lib.Script
import MbDaemon.Lib.StopAndWait
import MbDaemon.Scripts.BootloaderFlash

/-!
# The flashing session

The main block of `BootloaderFlash.py` against everything outside it: a `World` says how each
operation on a file or a port goes, in the order in which the script comes to it. The packages go to
the board stop-and-wait (`transfer_in_order`), and the bare `except` around the transfer turns every
way out of it into exit status 1.
-/

namespace MbDaemon

open Python

namespace BootloaderFlash

def Sector_Num : Nat := 11
def PCB_Name : Str := "PCB_NAME = MOTHERBOARD-V.1.0\r\n".toList
def Full_Erase : Str := "FULL ERASE OK\r\n".toList
def Acknowledge : Str := "OK\r\n".toList
def GET_PCB_NAME : Str := "CMD:GET_PCB_NAME\r\n".toList
def RESTART : Str := "CMD:RESTART\r\n".toList
def ERASE : Str := "CMD:ERASE\r\n".toList

/-- `fw_size`. -/
def sizeCmd (bin_SIZE : Nat) : Str :=
  "CMD:SET_SIZE:".toList ++ hexField 8 bin_SIZE ++ "\r\n".toList

/-- A serial port during the search: how opening it, asking for the name, reading the answer and
opening it once more go; `none` where the operation raises. -/
structure Port where
  opens : Option Unit
  write : Option Unit
  readline : Option Str
  reopens : Option Unit

/-- Everything outside the script. `none` is an operation that raises, in a `write`, a `readline` or
the `decode` of what was read; a timeout is an empty line. `erased i` is the `i`-th line read after
`CMD:ERASE`, `package` and `packageReply` go by the number of the package, and `abort` is the
restart after a refused package. -/
structure World where
  argv : List Str
  openFile : Option Unit
  COM_List : List Port
  restart : Option Unit
  hello : Option Str
  erase : Option Unit
  erased : Nat → Option Str
  image : Option (List Byte)
  setSize : Option Unit
  sizeReply : Option Str
  package : Nat → Option Unit
  packageReply : Nat → Option Str
  abort : Option Unit
  final : Option Str

abbrev Event := StopAndWait.Event Str Str

abbrev Script := Run Event

/-! ## The script -/

def operation {α : Type} (answer : Option α) : Script α :=
  match answer with
  | some a => pure a
  | none => do
    Run.emit .raised
    Run.raise

def write (cmd : Str) (answer : Option Unit) : Script Unit := do
  Run.emit (.send cmd)
  operation answer

/-- `readline().decode()`. -/
def readline (answer : Option Str) : Script Str := do
  let line ← operation answer
  Run.emit (.answer line)
  pure line

def checkArgv (argv : List Str) : Script Unit :=
  if argv.length ≠ 2 then Run.exit 1 else pure ()

/-- The `try` block of the search: the answer, or nothing where `except` goes on. -/
def askName (port : Port) : Script (Option Str) :=
  Run.tryExcept
    (do
      write GET_PCB_NAME port.write
      let response ← readline port.readline
      pure (some response))
    (pure none)

/-- The loop over the ports; it says whether `COM_Motherboard` is set. The last index is the one
with no port behind it. -/
def findMotherboard : List Port → Script Bool
  | [] => pure false
  | port :: rest => do
    operation port.opens
    let response ← askName port
    match response with
    | none => findMotherboard rest
    | some response =>
      if response = PCB_Name then do
        operation port.reopens
        pure true
      else if rest = [] then Run.exit 1
      else findMotherboard rest

/-- Without `COM_Motherboard` its first use raises. -/
def restartBoard (w : World) (found : Bool) : Script Unit :=
  if found then do
    write RESTART w.restart
    let _ ← readline w.hello
  else Run.raise

/-- The script up to the erase. -/
def connect (w : World) : Script Unit := do
  checkArgv w.argv
  operation w.openFile
  let found ← findMotherboard w.COM_List
  restartBoard w found

/-- The loop that waits for the end of the erase: `n` more lines, the next one being the `i`-th. -/
def awaitErase (w : World) : Nat → Nat → Script Unit
  | 0, _ => pure ()
  | n + 1, i => do
    let sector ← readline (w.erased i)
    if sector = Full_Erase then pure () else awaitErase w n (i + 1)

def eraseFlash (w : World) : Script Unit := do
  write ERASE w.erase
  awaitErase w (Sector_Num + 1) 0

/-- `cmd_list`, as the loops over the image build it. -/
def packageList (BIN_bytes : List Byte) : Script (List (Option Str)) :=
  match buildPackages BIN_bytes with
  | .ok cmd_list => pure cmd_list
  | .error _ => Run.raise

def sendSize (w : World) (bin_SIZE : Nat) : Script Unit := do
  write (sizeCmd bin_SIZE) w.setSize
  let _ ← readline w.sizeReply

/-- `cmd_list[pkg_num].encode('ascii')`. -/
def packageCmd (cmd_list : List (Option Str)) (pkg_num : Nat) : Script Str :=
  match getItem cmd_list pkg_num with
  | .ok (some cmd) => pure cmd
  | _ => Run.raise

/-- An iteration of the transfer loop. Its `except` is reached through the `sys.exit(1)` of its
`try` as well. -/
def sendPackage (w : World) (cmd_list : List (Option Str)) (pkg_num : Nat) : Script Unit :=
  Run.tryExcept
    (do
      let cmd ← packageCmd cmd_list pkg_num
      write cmd (w.package pkg_num)
      let response ← readline (w.packageReply pkg_num)
      if response = Acknowledge then pure ()
      else do
        write RESTART w.abort
        Run.exit 1)
    (Run.exit 1)

/-- The transfer loop: `n` more packages, the next one being `pkg_num`. -/
def transfer (w : World) (cmd_list : List (Option Str)) : Nat → Nat → Script Unit
  | 0, _ => pure ()
  | n + 1, pkg_num => do
    sendPackage w cmd_list pkg_num
    transfer w cmd_list n (pkg_num + 1)

/-- The script after the erase. -/
def flash (w : World) : Script Unit := do
  let BIN_bytes ← operation w.image
  let cmd_list ← packageList BIN_bytes
  sendSize w BIN_bytes.length
  transfer w cmd_list (numParts BIN_bytes.length) 0
  let _ ← readline w.final
  Run.exit 0

def script (w : World) : Script Unit := do
  connect w
  eraseFlash w
  flash w

/-! ## The transfer -/

def isPackage (cmd : Str) : Bool := "CMD:WRITE:".toList.isPrefixOf cmd

def packages (bin : List Byte) : List Str :=
  (List.range (numParts bin.length)).map fun i => writeCmd (1024 * i) (data bin i)

theorem isPackage_writeCmd (offset : Nat) (value : Str) : isPackage (writeCmd offset value) = true := rfl

theorem isPackage_sizeCmd (n : Nat) : isPackage (sizeCmd n) = false := rfl

theorem isPackage_packages (bin : List Byte) : ∀ m ∈ packages bin, isPackage m = true := by
  intro m hm
  obtain ⟨i, -, rfl⟩ := List.mem_map.1 hm
  exact isPackage_writeCmd _ _

theorem packages_nodup {bin : List Byte} (h : bin.length ≤ 4096 * 1024) : (packages bin).Nodup := by
  refine List.Nodup.map_on ?_ List.nodup_range
  intro i hi j hj he
  have hparts : numParts bin.length ≤ 4096 := by rw [numParts_eq]; omega
  have hi' := List.mem_range.1 hi
  have hj' := List.mem_range.1 hj
  rw [writeCmd_eq (by omega), writeCmd_eq (by omega)] at he
  simp only [List.append_assoc] at he
  have hdigits := (List.append_inj (List.append_cancel_left he) (by simp)).1
  have := Hex.digits_inj (k := 8) (by omega) (by omega) hdigits
  omega

/-- Neither a package nor the command to erase goes out. -/
def Before (e : Event) : Prop := ∀ m, e = .send m → isPackage m = false ∧ m ≠ ERASE

theorem Before.apart {e : Event} (h : Before e) : StopAndWait.Apart isPackage e :=
  fun m hm => (h m hm).1

section

variable {p : Event → Prop} (hp : ∀ e : Event, (∀ m, e ≠ .send m) → p e)

include hp

theorem quiet_operation {α : Type} (answer : Option α) : Run.Quiet p (operation answer) := by
  cases answer with
  | none => exact (Run.Quiet.emit (hp _ fun m h => by cases h)).bind fun _ => .raise
  | some a => exact .pure a

theorem quiet_write {cmd : Str} (hcmd : p (.send cmd)) (answer : Option Unit) :
    Run.Quiet p (write cmd answer) :=
  (Run.Quiet.emit hcmd).bind fun _ => quiet_operation hp answer

theorem quiet_readline (answer : Option Str) : Run.Quiet p (readline answer) :=
  (quiet_operation hp answer).bind fun line =>
    (Run.Quiet.emit (hp _ fun m h => by cases h)).bind fun _ => .pure line

end

theorem before_of_silent (e : Event) (h : ∀ m, e ≠ .send m) : Before e :=
  fun m hm => absurd hm (h m)

theorem apart_of_silent (e : Event) (h : ∀ m, e ≠ .send m) : StopAndWait.Apart isPackage e :=
  fun m hm => absurd hm (h m)

theorem before_send {cmd : Str} (h : isPackage cmd = false) (h' : cmd ≠ ERASE) :
    Before (.send cmd) := by
  intro m hm
  cases hm
  exact ⟨h, h'⟩

theorem apart_send {cmd : Str} (h : isPackage cmd = false) :
    StopAndWait.Apart isPackage (.send cmd : Event) := by
  intro m hm
  cases hm
  exact h

theorem quiet_askName (port : Port) : Run.Quiet Before (askName port) := by
  have hasked : Run.Quiet Before (do
      write GET_PCB_NAME port.write
      let response ← readline port.readline
      pure (some response) : Script (Option Str)) :=
    (quiet_write before_of_silent (before_send rfl (by decide)) _).bind fun _ =>
      (quiet_readline before_of_silent _).bind fun response => .pure (some response)
  exact .tryExcept hasked.log (.pure none)

theorem quiet_findMotherboard (ports : List Port) : Run.Quiet Before (findMotherboard ports) := by
  induction ports with
  | nil => exact .pure false
  | cons port rest ih =>
    refine (quiet_operation before_of_silent _).bind fun _ =>
      (quiet_askName port).bind fun response => ?_
    cases response with
    | none => exact ih
    | some response =>
      simp only
      split
      · exact (quiet_operation before_of_silent _).bind fun _ => .pure true
      · split
        · exact .exit (by decide)
        · exact ih

theorem quiet_connect (w : World) : Run.Quiet Before (connect w) := by
  have hargv : Run.Quiet Before (checkArgv w.argv) := by
    unfold checkArgv
    split
    · exact .exit (by decide)
    · exact .pure ()
  refine hargv.bind fun _ => (quiet_operation before_of_silent _).bind fun _ =>
    (quiet_findMotherboard _).bind fun found => ?_
  unfold restartBoard
  split
  · exact (quiet_write before_of_silent (before_send rfl (by decide)) _).bind fun _ =>
      (quiet_readline before_of_silent _).bind fun _ => .pure ()
  · exact .raise

/-- Nothing goes out while the script waits for the end of the erase. -/
theorem quiet_awaitErase (w : World) (n : Nat) :
    ∀ i, Run.Quiet (fun e => ∀ m, e ≠ .send m) (awaitErase w n i) := by
  induction n with
  | zero => exact fun i => .pure ()
  | succ n ih =>
    intro i
    refine (quiet_readline (fun _ h => h) _).bind fun sector => ?_
    split
    · exact .pure ()
    · exact ih (i + 1)

theorem quiet_eraseFlash (w : World) :
    Run.Quiet (StopAndWait.Apart isPackage) (eraseFlash w) := by
  refine (quiet_write apart_of_silent (apart_send rfl) _).bind fun _ => ?_
  have hawait := quiet_awaitErase w (Sector_Num + 1) 0
  exact ⟨fun e he => apart_of_silent e (hawait.log e he), hawait.result⟩

theorem quiet_sendSize (w : World) (n : Nat) :
    Run.Quiet (StopAndWait.Apart isPackage) (sendSize w n) :=
  (quiet_write apart_of_silent (apart_send (isPackage_sizeCmd n)) _).bind fun _ =>
    (quiet_readline apart_of_silent _).bind fun _ => .pure ()

theorem quiet_packageList (bin : List Byte) :
    Run.Quiet (StopAndWait.Apart isPackage) (packageList bin) := by
  unfold packageList
  split
  · exact .pure _
  · exact .raise

theorem write_readline {α : Type} (cmd line : Str) (u : Unit) (f : Str → Script α) :
    (do
      write cmd (some u)
      let response ← readline (some line)
      f response) =
      { log := .send cmd :: .answer line :: (f line).log, result := (f line).result } := rfl

/-- A package goes out and is acknowledged, refused, or fails; only then does the loop go on. -/
theorem sendPackage_cases (w : World) {cmd_list : List (Option Str)} {i : Nat} {cmd : Str}
    (h : cmd_list[i]? = some (some cmd)) :
    sendPackage w cmd_list i = { log := StopAndWait.acked Acknowledge cmd, result := .ok () } ∨
    ((sendPackage w cmd_list i).result = .error (.exit 1) ∧
      ((sendPackage w cmd_list i).log = [.send cmd, .raised] ∨
        ∃ r after, r ≠ Acknowledge ∧ (∀ e ∈ after, StopAndWait.Apart isPackage e) ∧
          (sendPackage w cmd_list i).log = [.send cmd, .answer r] ++ after)) := by
  have hcmd : packageCmd cmd_list i = pure cmd := by
    unfold packageCmd
    rw [getItem_nat h]
  unfold sendPackage
  rw [hcmd]
  cases w.package i with
  | none => exact .inr ⟨rfl, .inl rfl⟩
  | some _ =>
    cases w.packageReply i with
    | none => exact .inr ⟨rfl, .inl rfl⟩
    | some r =>
      simp only [Run.pure_bind, write_readline]
      by_cases hr : r = Acknowledge
      · subst hr
        exact .inl rfl
      · simp only [if_neg hr]
        have hrestart : isPackage RESTART = false := rfl
        have hafter := quiet_write apart_of_silent (apart_send hrestart) w.abort
        refine .inr ⟨?_, .inr ⟨r, (write RESTART w.abort).log, hr, hafter.log, ?_⟩⟩
        · cases w.abort <;> rfl
        · cases w.abort <;> rfl

/-- **The loop is a transfer**: it comes to its end with all packages acknowledged, or leaves with
status 1. -/
theorem transfer_cases (w : World) {cmd_list : List (Option Str)} (cmds : List Str) : ∀ i,
    (∀ j cmd, cmds[j]? = some cmd → cmd_list[i + j]? = some (some cmd)) →
    ∃ es after all, (transfer w cmd_list cmds.length i).log = es ++ after ∧
      StopAndWait.Transfer Acknowledge cmds es all ∧
      (∀ e ∈ after, StopAndWait.Apart isPackage e) ∧
      ((all = true ∧ (transfer w cmd_list cmds.length i).result = .ok ()) ∨
        (all = false ∧ (transfer w cmd_list cmds.length i).result = .error (.exit 1))) := by
  induction cmds with
  | nil =>
    exact fun i _ => ⟨[], [], true, rfl, .done, fun e he => (by cases he), .inl ⟨rfl, rfl⟩⟩
  | cons cmd cmds ih =>
    intro i hlist
    have hstep : transfer w cmd_list (cmd :: cmds).length i =
        (sendPackage w cmd_list i >>= fun _ => transfer w cmd_list cmds.length (i + 1)) := rfl
    rcases sendPackage_cases w (hlist 0 cmd rfl) with hok | ⟨hresult, hlog⟩
    · obtain ⟨es, after, all, hlog, htransfer, hafter, hend⟩ := ih (i + 1) fun j cmd' hj => by
        rw [Nat.add_assoc, Nat.add_comm 1 j]
        exact hlist (j + 1) cmd' hj
      rw [Nat.add_zero] at hok
      rw [hstep, Run.bind_ok (a := ()) (by rw [hok]), hok, hlog]
      exact ⟨_, after, all, rfl, htransfer.next, hafter, hend⟩
    · rw [Nat.add_zero] at hresult hlog
      rw [hstep, Run.bind_error hresult]
      rcases hlog with hlog | ⟨r, after, hr, hafter, hlog⟩
      · exact ⟨_, [], false, by rw [hlog, List.append_nil], .failed, fun e he => (by cases he),
          .inr ⟨rfl, rfl⟩⟩
      · exact ⟨_, after, false, hlog, .refused hr, hafter, .inr ⟨rfl, rfl⟩⟩

/-! ## The session -/

/-- The packages of an image go out in a transfer, and a script that leaves with success has come to
its end. -/
def Delivers (bin : List Byte) (x : Script Unit) : Prop :=
  ∃ all, StopAndWait.Around isPackage Acknowledge (packages bin) x.log all ∧
    (x.status = 0 → all = true)

theorem Delivers.bind {α : Type} {bin : List Byte} {x : Script α} {f : α → Script Unit}
    (hx : Run.Quiet (StopAndWait.Apart isPackage) x)
    (hf : ∀ a, x.result = .ok a → Delivers bin (f a)) : Delivers bin (x >>= f) := by
  rcases Run.bind_cases x f with ⟨a, ha, hrun⟩ | ⟨e, he, hrun⟩
  · obtain ⟨all, haround, hstatus⟩ := hf a ha
    rw [hrun]
    exact ⟨all, haround.prepend hx.log, hstatus⟩
  · obtain ⟨hlog, hstatus⟩ := hx.cut he f
    exact ⟨false, .idle _ hlog, fun h => absurd h hstatus⟩

theorem packageList_cases (bin : List Byte) :
    (bin.length ≤ 4096 * 1024 ∧ ∃ cmd_list, packageList bin = pure cmd_list ∧
      ∀ (i : Nat) cmd, (packages bin)[i]? = some cmd → cmd_list[i]? = some (some cmd)) ∨
    (4096 * 1024 < bin.length ∧ packageList bin = Run.raise) := by
  unfold packageList
  by_cases hbin : bin.length ≤ 4096 * 1024
  · obtain ⟨cmd_list, hbuild, -, hdone, -⟩ := buildPackages_ok hbin
    rw [hbuild]
    refine .inl ⟨hbin, cmd_list, rfl, fun i cmd hi => ?_⟩
    obtain ⟨hlt, rfl⟩ := List.getElem?_eq_some_iff.1 hi
    have hlt' : i < numParts bin.length := by simpa [packages] using hlt
    rw [hdone i hlt']
    simp [packages]
  · rw [buildPackages_error (by omega)]
    exact .inr ⟨by omega, rfl⟩

theorem length_packages (bin : List Byte) : (packages bin).length = numParts bin.length := by
  simp [packages]

theorem delivers_transfer (w : World) {bin : List Byte} {cmd_list : List (Option Str)}
    (h : ∀ (i : Nat) cmd, (packages bin)[i]? = some cmd → cmd_list[i]? = some (some cmd)) :
    Delivers bin (do
      transfer w cmd_list (numParts bin.length) 0
      let _ ← readline w.final
      Run.exit 0) := by
  obtain ⟨es, after, all, hlog, htransfer, hafter, hend⟩ := transfer_cases w (packages bin) 0
    fun j cmd hj => by rw [Nat.zero_add]; exact h j cmd hj
  rw [length_packages] at hlog hend
  have hfinal := (quiet_readline (p := StopAndWait.Apart isPackage) apart_of_silent w.final).log
  rcases hend with ⟨rfl, hresult⟩ | ⟨rfl, hresult⟩
  · rw [Run.bind_ok hresult]
    refine ⟨true, ⟨[], es, after ++ (do let _ ← readline w.final; Run.exit 0 : Script Unit).log, ?_,
      htransfer, fun e he => (by cases he), fun e he => ?_⟩, fun _ => rfl⟩
    · simp only [hlog, List.nil_append, List.append_assoc]
    · refine (List.mem_append.1 he).elim (hafter e) fun he => hfinal e ?_
      rcases Run.bind_cases (readline w.final) (fun _ => (Run.exit 0 : Script Unit)) with
        ⟨line, -, hrun⟩ | ⟨x, -, hrun⟩
      · rw [hrun] at he
        exact (List.mem_append.1 he).elim id fun h => by cases h
      · rw [hrun] at he
        exact he
  · rw [Run.bind_error hresult]
    refine ⟨false, ⟨[], es, after, ?_, htransfer, fun e he => (by cases he), hafter⟩, fun h => ?_⟩
    · simp only [hlog, List.nil_append]
    · exact absurd (show (1 : Byte) = 0 from h) (by decide)

theorem delivers_flash (w : World) : Delivers (w.image.getD []) (flash w) := by
  refine .bind (quiet_operation apart_of_silent _) fun bin hbin => ?_
  have himage : w.image.getD [] = bin := by
    cases hw : w.image with
    | none => rw [hw] at hbin; cases hbin
    | some bin' => rw [hw] at hbin; cases hbin; rfl
  rw [himage]
  refine .bind (quiet_packageList bin) fun cmd_list hlist => ?_
  rcases packageList_cases bin with ⟨-, cmd_list', hpure, hentries⟩ | ⟨-, hraise⟩
  · rw [hpure] at hlist
    cases hlist
    exact .bind (quiet_sendSize w _) fun _ _ => delivers_transfer w hentries
  · rw [hraise] at hlist
    cases hlist

theorem delivers_script (w : World) : Delivers (w.image.getD []) (script w) := by
  have hconnect := quiet_connect w
  refine .bind ⟨fun e he => (hconnect.log e he).apart, hconnect.result⟩ fun _ _ => ?_
  exact .bind (quiet_eraseFlash w) fun _ _ => delivers_flash w

/-- **The packages go to the board in order**, each at most once and only after the one before was
answered with exactly `OK`; after any other answer or an exception none follows; and the script
leaves with 0 only if all of them were sent and acknowledged. -/
theorem transfer_in_order (w : World) (h : ∀ bin ∈ w.image, bin.length ≤ 4096 * 1024) :
    StopAndWait.Orderly isPackage Acknowledge (packages (w.image.getD [])) (script w).log ∧
      (StopAndWait.sent isPackage (script w).log).Nodup ∧
      ((script w).status = 0 → StopAndWait.Complete isPackage Acknowledge
        (packages (w.image.getD [])) (script w).log) := by
  obtain ⟨all, haround, hstatus⟩ := delivers_script w
  have horderly := haround.orderly (isPackage_packages _)
  have hlength : (w.image.getD []).length ≤ 4096 * 1024 := by
    cases hw : w.image with
    | none => exact Nat.zero_le _
    | some bin => exact h bin hw
  refine ⟨horderly, (packages_nodup hlength).sublist horderly.ordered.sublist, fun hzero => ?_⟩
  obtain rfl := hstatus hzero
  exact haround.complete (isPackage_packages _)

/-- A board that does what it is told. -/
def obedient (image : List Byte) : World where
  argv := ["BootloaderFlash.py".toList, "fw.bin".toList]
  openFile := some ()
  COM_List := [⟨some (), some (), some PCB_Name, some ()⟩]
  restart := some ()
  hello := some "HELLO\r\n".toList
  erase := some ()
  erased := fun i => some (if i = 3 then Full_Erase else [])
  image := some image
  setSize := some ()
  sizeReply := some Acknowledge
  package := fun _ => some ()
  packageReply := fun _ => some Acknowledge
  abort := some ()
  final := some "UPDATE OK!\r\n".toList

/-- An image of five bytes. -/
theorem transfer_in_order_five :
    StopAndWait.Orderly isPackage Acknowledge (packages [1, 2, 3, 4, 5])
        (script (obedient [1, 2, 3, 4, 5])).log ∧
      (StopAndWait.sent isPackage (script (obedient [1, 2, 3, 4, 5])).log).Nodup ∧
      ((script (obedient [1, 2, 3, 4, 5])).status = 0 →
        StopAndWait.Complete isPackage Acknowledge (packages [1, 2, 3, 4, 5])
          (script (obedient [1, 2, 3, 4, 5])).log) :=
  transfer_in_order (obedient [1, 2, 3, 4, 5]) fun bin h => by
    obtain rfl := Option.some.inj h
    decide

end BootloaderFlash

end MbDaemon
