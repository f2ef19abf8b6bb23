import MbDaemon.HwUtils
import MbDaemon.Lib.Shell

/-!
# The command lines of the hardware actions

`HwUtils::Execute` hands its command to `/bin/sh -c`. The macros of `HwUtils.cpp` spell a command
from `DAEMON_SCRIPTS_DIR`, which `CMakeLists.txt` builds from `MODULE_NAME`, the name the
surrounding build gives the module; `BootloaderFlash` puts the path of the request behind it as it
is. `flashes_exactly_iff` says for which paths the shell runs the script on that path and nothing
else.
-/

namespace MbDaemon

namespace HwUtils

def pythonExecutable : Text := ascii "python3"

def pythonRun (script : Text) : Text := pythonExecutable ++ ascii " " ++ script ++ ascii " "

/-- `DAEMON_SCRIPTS_DIR`. -/
def daemonScriptsDir (moduleName : Text) (useScriptMocks : Bool) : Text :=
  ascii "/usr/lib/" ++ moduleName ++ ascii "/daemon/Scripts" ++
    if useScriptMocks then ascii "/Mocks/" else ascii "/Impls/"

def bootloaderFlashPy : Text := ascii "BootloaderFlash.py"
def bootloaderStartPy : Text := ascii "BootloaderStart.py"
def bootloaderFindPy : Text := ascii "BootloaderFind.py"
def bootloaderResetPy : Text := ascii "BootloaderReset.py"

def Action.command (scriptsPath : Text) : Action → Text
  | .chipReset => pythonRun (scriptsPath ++ bootloaderResetPy)
  | .bootloaderFlash firmware => pythonRun (scriptsPath ++ bootloaderFlashPy) ++ firmware
  | .bootloaderStart => pythonRun (scriptsPath ++ bootloaderStartPy)

def bootloaderFindCommand (scriptsPath : Text) : Text :=
  pythonRun (scriptsPath ++ bootloaderFindPy)

/-- `ExecuteChildRoutine`, once the child's output is redirected: the shell and its line. -/
def executeChildRoutine (env : Text → Shell.Outcome) (cmd : Text) : Shell.Outcome :=
  Shell.run env (cStr cmd)

/-- The bytes of a module's name: letters, digits, `-`, `.` and `_`. -/
def nameByte (b : Byte) : Bool :=
  (0x61 ≤ b && b ≤ 0x7a) || (0x41 ≤ b && b ≤ 0x5a) || (0x30 ≤ b && b ≤ 0x39) ||
    b ∈ ascii "-._"

/-! ### The words in front of the path -/

theorem nameByte_plain (b : Byte) (h : nameByte b ∨ b = Shell.slash) :
    b ≠ 0 ∧ Shell.kind b = .plain ∧ b ∉ Shell.patternBytes := by
  revert b
  decide +kernel

theorem scriptsPrefix_bytes :
    ∀ s ∈ [ascii "/usr/lib/", ascii "/daemon/Scripts", ascii "/Mocks/", ascii "/Impls/"],
      ∀ b ∈ s, nameByte b ∨ b = Shell.slash := by
  have hall : [ascii "/usr/lib/", ascii "/daemon/Scripts", ascii "/Mocks/", ascii "/Impls/"].all
      (·.all fun b => nameByte b || b = Shell.slash) = true := by decide +kernel
  intro s hs b hb
  simpa using List.all_eq_true.mp (List.all_eq_true.mp hall s hs) b hb

theorem script_bytes :
    ∀ s ∈ [bootloaderFlashPy, bootloaderStartPy, bootloaderFindPy, bootloaderResetPy],
      ∀ b ∈ s, nameByte b := by
  have hall : [bootloaderFlashPy, bootloaderStartPy, bootloaderFindPy, bootloaderResetPy].all
      (·.all nameByte) = true := by decide +kernel
  intro s hs b hb
  exact List.all_eq_true.mp (List.all_eq_true.mp hall s hs) b hb

theorem scriptPath_bytes {moduleName script : Text} (hname : ∀ b ∈ moduleName, nameByte b)
    (useScriptMocks : Bool) (hscript : ∀ b ∈ script, nameByte b) :
    ∀ b ∈ daemonScriptsDir moduleName useScriptMocks ++ script,
      nameByte b ∨ b = Shell.slash := by
  intro b hb
  simp only [daemonScriptsDir, List.mem_append] at hb
  rcases hb with (((hb | hb) | hb) | hb) | hb
  · exact scriptsPrefix_bytes _ (by simp) b hb
  · exact .inl (hname b hb)
  · exact scriptsPrefix_bytes _ (by simp) b hb
  · cases useScriptMocks
    · exact scriptsPrefix_bytes _ (by simp) b hb
    · exact scriptsPrefix_bytes _ (by simp) b hb
  · exact .inl (hscript b hb)

theorem bare_scriptPath {moduleName script : Text} (hname : ∀ b ∈ moduleName, nameByte b)
    (useScriptMocks : Bool) (hscript : ∀ b ∈ script, nameByte b) :
    Shell.Bare (daemonScriptsDir moduleName useScriptMocks ++ script) := by
  have hbytes := scriptPath_bytes hname useScriptMocks hscript
  have hcons : ∃ w, daemonScriptsDir moduleName useScriptMocks ++ script = Shell.slash :: w :=
    ⟨_, rfl⟩
  obtain ⟨w, hw⟩ := hcons
  rw [hw] at hbytes ⊢
  exact Shell.bare_cons (by decide) fun c hc => (nameByte_plain c (hbytes c hc)).2

/-- What stands in front of a command's argument: the interpreter and the script, a blank behind
each. -/
theorem pythonRun_eq (script : Text) :
    pythonRun script = Shell.spaced [pythonExecutable, script] := by
  simp [pythonRun, Shell.spaced, Shell.space, ascii]

theorem python_not_reserved : pythonExecutable ∉ Shell.reserved := by decide +kernel

section

variable {moduleName : Text} (hname : ∀ b ∈ moduleName, nameByte b) (useScriptMocks : Bool)
  {script : Text} (hscript : ∀ b ∈ script, nameByte b)

include hname hscript

theorem bare_words :
    ∀ w ∈ [pythonExecutable, daemonScriptsDir moduleName useScriptMocks ++ script],
      Shell.Bare w := by
  intro w hw
  rcases List.mem_pair.mp hw with rfl | rfl
  · decide +kernel
  · exact bare_scriptPath hname useScriptMocks hscript

/-- No NUL ends the line before its argument. -/
theorem cStr_pythonRun (firmware : Text) :
    cStr (pythonRun (daemonScriptsDir moduleName useScriptMocks ++ script) ++ firmware) =
      pythonRun (daemonScriptsDir moduleName useScriptMocks ++ script) ++ cStr firmware := by
  have hpython : ∀ b ∈ pythonExecutable, b ≠ 0 := by simp [pythonExecutable, ascii]
  have hblank : ∀ b ∈ ascii " ", b ≠ 0 := by simp [ascii]
  have hbytes := scriptPath_bytes hname useScriptMocks hscript
  apply List.takeWhile_append_of_pos
  intro b hb
  rw [decide_eq_true_eq]
  rcases List.mem_append.mp hb with hb | hb
  · rcases List.mem_append.mp hb with hb | hb
    · rcases List.mem_append.mp hb with hb | hb
      · exact hpython b hb
      · exact hblank b hb
    · exact (nameByte_plain b (hbytes b hb)).1
  · exact hblank b hb

theorem run_pythonRun (env : Text → Shell.Outcome) :
    executeChildRoutine env (pythonRun (daemonScriptsDir moduleName useScriptMocks ++ script)) =
      .simple [pythonExecutable, daemonScriptsDir moduleName useScriptMocks ++ script] := by
  have hcut := cStr_pythonRun hname useScriptMocks hscript []
  simp only [cStr, List.append_nil, List.takeWhile_nil] at hcut
  rw [executeChildRoutine, cStr, hcut, pythonRun_eq]
  exact Shell.run_spaced python_not_reserved (bare_words hname useScriptMocks hscript) env

end

/-- The other actions take nothing from a client, and each runs its own script and no more. -/
theorem run_other_actions {moduleName : Text} (hname : ∀ b ∈ moduleName, nameByte b)
    (useScriptMocks : Bool) (env : Text → Shell.Outcome) :
    let scripts := daemonScriptsDir moduleName useScriptMocks
    executeChildRoutine env (Action.chipReset.command scripts) =
        .simple [pythonExecutable, scripts ++ bootloaderResetPy] ∧
      executeChildRoutine env (Action.bootloaderStart.command scripts) =
        .simple [pythonExecutable, scripts ++ bootloaderStartPy] ∧
      executeChildRoutine env (bootloaderFindCommand scripts) =
        .simple [pythonExecutable, scripts ++ bootloaderFindPy] := by
  have hrun : ∀ script ∈ [bootloaderFlashPy, bootloaderStartPy, bootloaderFindPy,
      bootloaderResetPy], executeChildRoutine env
        (pythonRun (daemonScriptsDir moduleName useScriptMocks ++ script)) =
          .simple [pythonExecutable, daemonScriptsDir moduleName useScriptMocks ++ script] :=
    fun script h => run_pythonRun hname useScriptMocks (script_bytes script h) env
  exact ⟨hrun _ (by simp), hrun _ (by simp), hrun _ (by simp)⟩

/-! ### The path of a `Flash` request -/

/-- Whatever the environment, the shell runs `BootloaderFlash.py` on the one argument `firmware`,
and nothing else. -/
def FlashesExactly (scriptsPath firmware : Text) : Prop :=
  ∀ env, executeChildRoutine env ((Action.bootloaderFlash firmware).command scriptsPath) =
    .simple [pythonExecutable, scriptsPath ++ bootloaderFlashPy, firmware]

/-- A path that the shell reads as it is: a bare word, with no NUL to end the line early. -/
def Harmless (firmware : Text) : Prop := 0 ∉ firmware ∧ Shell.Bare firmware

instance (firmware : Text) : Decidable (Harmless firmware) := inferInstanceAs (Decidable (_ ∧ _))

theorem not_mem_of_length_cStr {s : Text} (h : s.length ≤ (cStr s).length) : 0 ∉ s := by
  have hall : cStr s = s := (List.takeWhile_prefix _).eq_of_length_le h
  intro hmem
  rw [← hall] at hmem
  simpa using List.mem_takeWhile_imp hmem

/-- The shell runs the script on exactly the path that was requested if and only if that path is
harmless. -/
theorem flashes_exactly_iff {moduleName : Text} (hname : ∀ b ∈ moduleName, nameByte b)
    (useScriptMocks : Bool) (firmware : Text) :
    FlashesExactly (daemonScriptsDir moduleName useScriptMocks) firmware ↔ Harmless firmware := by
  have hscript := script_bytes bootloaderFlashPy (by simp)
  have hwords := bare_words hname useScriptMocks hscript
  have hcut := cStr_pythonRun hname useScriptMocks hscript firmware
  rw [pythonRun_eq] at hcut
  have hline := Shell.splice_iff python_not_reserved hwords
  constructor
  · intro h
    simp only [FlashesExactly, executeChildRoutine, Action.command, pythonRun_eq, hcut] at h
    have hlen := Shell.length_of_spliced hwords (x := firmware) h
    have hnul := not_mem_of_length_cStr hlen
    rw [cStr_of_not_mem hnul] at h
    exact ⟨hnul, (hline firmware).mp h⟩
  · rintro ⟨hnul, hbare⟩ env
    rw [executeChildRoutine, Action.command, pythonRun_eq, hcut, cStr_of_not_mem hnul]
    exact (hline firmware).mpr hbare env

theorem flashes_exactly_iff_roki :
    FlashesExactly (daemonScriptsDir (ascii "roki-mb-daemon") false) (ascii "/tmp/fw-2.bin") ↔
      Harmless (ascii "/tmp/fw-2.bin") :=
  flashes_exactly_iff (List.all_eq_true.mp (by decide +kernel)) false _

/-- A blank makes the path two arguments, and a semicolon makes its rest a command of its own: the
shell runs `reboot` once the script is done. -/
theorem flash_spliced :
    let scripts := daemonScriptsDir (ascii "roki-mb-daemon") false
    let script := ascii "/usr/lib/roki-mb-daemon/daemon/Scripts/Impls/BootloaderFlash.py"
    (∀ env, executeChildRoutine env ((Action.bootloaderFlash (ascii "fw 2.bin")).command scripts) =
      .simple [ascii "python3", script, ascii "fw", ascii "2.bin"]) ∧
    (∀ env, executeChildRoutine env
        ((Action.bootloaderFlash (ascii "fw.bin;reboot")).command scripts) =
      .compound (Shell.wordTokens [ascii "python3", script, ascii "fw.bin"] ++
        [.operator 0x3b, .word (Shell.unquotedWord (ascii "reboot"))])) ∧
    ¬FlashesExactly scripts (ascii "fw.bin;reboot") := by
  intro scripts script
  have hreboot : ∀ env, executeChildRoutine env
      ((Action.bootloaderFlash (ascii "fw.bin;reboot")).command scripts) =
        .compound (Shell.wordTokens [ascii "python3", script, ascii "fw.bin"] ++
          [.operator 0x3b, .word (Shell.unquotedWord (ascii "reboot"))]) :=
    fun env => Shell.run_of_inert (by decide +kernel) env
  refine ⟨fun env => Shell.run_of_inert (by decide +kernel) env, hreboot, fun h => ?_⟩
  cases (hreboot fun _ => .unterminated).symm.trans (h _)

example : Harmless (ascii "/home/pi/build#3/fw_v2.bin") := by decide +kernel

end HwUtils

end MbDaemon
