import MbDaemon.CLI.Reported
import MbDaemon.Daemon.Scripted
import MbDaemon.HwUtils.Command
import MbDaemon.Scripts.BootloaderFlash.Board

/-!
# From the command line to the board

The daemon knows the flashing script by its exit status. `Flashes` assumes that the child of a flash
action, if the shell runs the script on one argument, ends as the script does on what it meets there.
Then `chip flash` returns only when the script forked for it has put the image of the file that was
named on the board (`flashed`).
-/

namespace MbDaemon

open HwUtils

namespace DaemonCLI

/-- How the child of an action ends that is the script of number `n`. `env` is what the shell makes of
a line that it has to expand, `world n` are the ports, the file and the board that this script meets,
and `file` says what can be read from a file. -/
def Flashes (scripts : Text) (env : Text → Shell.Outcome) (file : Text → List Byte → Prop)
    (world : Nat → BootloaderFlash.World) (n : Nat) (op : FirmwareFSM.Op) (status : WaitStatus) :
    Prop :=
  ∀ path code, status = .exited code →
    executeChildRoutine env (op.routine.action.command scripts) =
      .simple [pythonExecutable, scripts ++ bootloaderFlashPy, path] →
    (∀ bin ∈ (world n).image, file path bin) ∧ (BootloaderFlash.script (world n)).status = code

theorem image_of_status {w : BootloaderFlash.World} (h : (BootloaderFlash.script w).status = 0) :
    ∃ bin, w.image = some bin := by
  rcases BootloaderFlash.script_cases w with ⟨-, -, hstatus⟩ | ⟨-, -, -, hscript⟩
  · exact absurd h hstatus
  rw [hscript] at h
  rcases BootloaderFlash.flash_cases w with ⟨⟨bin, himage, -⟩, -⟩ | ⟨-, -, hstatus⟩
  · exact ⟨bin, himage⟩
  · exact absurd h hstatus

theorem run_harmless {moduleName : Text} (hname : ∀ b ∈ moduleName, nameByte b)
    (useScriptMocks : Bool) (env : Text → Shell.Outcome) {path : Text} (h : Harmless path) :
    executeChildRoutine env
        ((Action.bootloaderFlash path).command (daemonScriptsDir moduleName useScriptMocks)) =
      .simple [pythonExecutable, daemonScriptsDir moduleName useScriptMocks ++ bootloaderFlashPy,
        path] := by
  obtain ⟨hnul, hbare⟩ := h
  have hscript := script_bytes bootloaderFlashPy (by simp)
  have hwords := bare_words hname useScriptMocks hscript
  have hcut := cStr_pythonRun hname useScriptMocks hscript path
  rw [pythonRun_eq] at hcut
  rw [executeChildRoutine, Action.command, pythonRun_eq, hcut, cStr_of_not_mem hnul]
  exact (Shell.splice_iff python_not_reserved hwords path).2 hbare env

/-- **What the tool reports as flashed has been put on the board.** When `chip flash` returns, of a
path that the shell takes as it is, then whatever the other clients of the daemon do, as long as no
session is cancelled inside the handler, one script has been forked for its session, this script has
left with 0 on an image of that file, and a board that carries out what it acknowledges to it holds
this image, filled up with `0xFF` to whole pages, and what it held before behind it. -/
theorem flashed {moduleName : Text} (hname : ∀ b ∈ moduleName, nameByte b) (useScriptMocks : Bool)
    (env : Text → Shell.Outcome) (file : Text → List Byte → Prop)
    (world : Nat → BootloaderFlash.World) {port : Text} {ls : List Daemon.Label} {c : Daemon.Config}
    (h : Lts.run Daemon.step (Daemon.Config.init port) ls = some c)
    (hscripted : Daemon.Scripted
      (Flashes (daemonScriptsDir moduleName useScriptMocks) env file world) port ls)
    {t : Tid} {s : Daemon.Session} (hs : c.session t = some s) {path : Text}
    (hharmless : Harmless path) (hlen : path.length ≤ 255) {r r' : RPCProvider} (hr : Fresh r)
    (hrun : doChipFlash path r = .ok () r') (hwired : Wired r r' s) :
    ∃ (n : Nat) (bin : List Byte),
      ((Daemon.scripts port ls).filter (·.1 = t)) = [(t, .flashBootlader path)] ∧
      (Daemon.scripts port ls)[n]? = some (t, .flashBootlader path) ∧
      (world n).image = some bin ∧ file path bin ∧ (BootloaderFlash.script (world n)).status = 0 ∧
      ∀ m j, BootloaderFlash.memory m (BootloaderFlash.script (world n)).log j =
        if j < 1024 * BootloaderFlash.numParts bin.length then bin.getD j 0xFF else m j := by
  have htext : (flashRequest path).text = path := RPCDefs.text_ofCxxStr_of_le hlen
  have haction : (Command.chipFlash path).action =
      some (doChipFlash path, .flashBootlader path) := by
    rw [Command.action, htext]
  obtain ⟨hasked, hack, hpassed⟩ := books_of_returned h hs haction hr hrun hwired
  obtain ⟨hexecuted, hsucceeded⟩ :=
    (Daemon.ledger_run h t).2.settled hpassed (hack.trans hasked.symm)
  rw [hasked] at hexecuted hsucceeded
  obtain ⟨n, hscript, hends⟩ :=
    Daemon.succeeded_ended h hscripted (hsucceeded ▸ List.mem_singleton_self _)
  have hline : executeChildRoutine env
      ((Action.bootloaderFlash path).command (daemonScriptsDir moduleName useScriptMocks)) =
        .simple [pythonExecutable, daemonScriptsDir moduleName useScriptMocks ++ bootloaderFlashPy,
          path] := run_harmless hname useScriptMocks env hharmless
  obtain ⟨hfile, hstatus⟩ := hends path 0 rfl hline
  obtain ⟨bin, himage⟩ := image_of_status hstatus
  refine ⟨n, bin, Daemon.scripts_of_executed hexecuted, hscript, himage, hfile bin himage, hstatus,
    fun m j => ?_⟩
  obtain ⟨k, -, hmemory, hend⟩ := BootloaderFlash.memory_written (world n) m List.prefix_rfl
  obtain rfl := hend rfl hstatus
  rw [hmemory, himage]
  rfl

/-- A peer that sends these bytes when it is read from, and else takes what comes. -/
def sending (bytes : List Byte) : (q : Calls.Call) → q.Answer
  | .recv size =>
    if h : 0 < bytes.length ∧ bytes.length ≤ size then Except.ok ⟨bytes, h⟩ else Except.error .closed
  | q => Daemon.startPeer q

/-- Session 1 is asked to flash the file `f`, and the script succeeds. -/
def flashedRun : List Daemon.Label :=
  [.accept 1 2 fun _ => 0, .answer 1 (sending []), .answer 1 (sending [1, 2]),
    .answer 1 (sending [1, 102]), .request 1, .handler (.step 1), .handler (.step 1),
    .handler (.step 1), .handler (.step 1), .handler (.firmware (.step 1)),
    .handler (.firmware (.step 1)), .handler (.firmware (.step 1)),
    .handler (.firmware (.fork 1 (.ok 41))), .handler (.firmware (.exit 41 (.exited 0))),
    .handler (.firmware (.wait 1 41)), .handler (.firmware (.step 1)),
    .handler (.firmware (.step 1)), .handler (.firmware (.step 1)), .handler (.step 1), .reply 1,
    .answer 1 (sending [])]

def flashedClient : RPCProvider :=
  { RPCProvider.quiet with conn := { RPCProvider.quiet.conn with inbound := [1, 0] } }

theorem flashed_one :
    ∃ c s r', Lts.run Daemon.step (Daemon.Config.init []) flashedRun = some c ∧
      c.session 1 = some s ∧ doChipFlash (ascii "f") flashedClient = .ok () r' ∧
      Wired flashedClient r' s ∧
      ∃ (n : Nat) (bin : List Byte),
        ((Daemon.scripts [] flashedRun).filter (·.1 = 1)) = [(1, .flashBootlader (ascii "f"))] ∧
        (Daemon.scripts [] flashedRun)[n]? = some (1, .flashBootlader (ascii "f")) ∧
        (BootloaderFlash.obedient [0xFF]).image = some bin ∧ bin = [0xFF] ∧
        (BootloaderFlash.script (BootloaderFlash.obedient [0xFF])).status = 0 ∧
        ∀ m j, BootloaderFlash.memory m
            (BootloaderFlash.script (BootloaderFlash.obedient [0xFF])).log j =
          if j < 1024 * BootloaderFlash.numParts bin.length then bin.getD j 0xFF else m j := by
  obtain ⟨c, hrun, hsession⟩ : ∃ c, Lts.run Daemon.step (Daemon.Config.init []) flashedRun = some c ∧
      (c.session 1).map (fun s => (Calls.received s.events, Calls.written (Calls.sends s.events))) =
        some ([1, 2, 1, 102], [1, 0]) := Lts.run_reaches (by decide +kernel)
  obtain ⟨s, hs, hbytes⟩ := Option.map_eq_some_iff.1 hsession
  obtain ⟨hrecv, hwritten⟩ := Prod.mk.inj hbytes
  obtain ⟨r', hclient, hsent⟩ : ∃ r', doChipFlash (ascii "f") flashedClient = .ok () r' ∧
      [1, 2, 1, 102] <+: r'.conn.outbound := sends_of_decide (by decide +kernel)
  have hwired : Wired flashedClient r' s :=
    ⟨by rw [hrecv]; exact hsent, by rw [hwritten]; exact List.prefix_rfl⟩
  have hname : ∀ b ∈ ascii "roki-mb-daemon", nameByte b := List.all_eq_true.mp (by decide +kernel)
  have hstatus : (BootloaderFlash.script (BootloaderFlash.obedient [0xFF])).status = 0 := by
    decide +kernel
  have hscripted : Daemon.Scripted (Flashes (daemonScriptsDir (ascii "roki-mb-daemon") false)
      (fun _ => .unterminated) (fun _ bin => bin = [0xFF])
      fun _ => BootloaderFlash.obedient [0xFF]) [] flashedRun := by
    refine Daemon.scripted_of_statuses fun status hmem n op path code hcode _ => ?_
    obtain rfl : status = .exited 0 := by simpa [flashedRun, Daemon.statuses] using hmem
    cases hcode
    exact ⟨fun bin h => (Option.some.inj h).symm, hstatus⟩
  exact ⟨c, s, r', hrun, hs, hclient, hwired, flashed hname false _ _
    (fun _ => BootloaderFlash.obedient [0xFF]) hrun hscripted hs
    (by decide +kernel) (by decide) ⟨rfl, rfl⟩ hclient hwired⟩

end DaemonCLI

end MbDaemon
