import MbDaemon.Helpers

/-!
# Hardware actions

Every hardware action of the daemon is a Python script run by `HwUtils::Execute`: `fork`, a shell
in the child, and a `wait()` in the parent that takes whichever child ends. The child's status
decides whether the action returns or throws.
-/

namespace MbDaemon

namespace HwUtils

/-- The three actions the firmware state machine runs. -/
inductive Action where
  | chipReset
  | bootloaderFlash (firmware : Text)
  | bootloaderStart
  deriving DecidableEq, Repr

abbrev Pid := Nat

/-- How a child ended, as `wait()` reports it. -/
inductive WaitStatus where
  | exited (code : Byte)
  | signaled (sig : Nat)
  deriving DecidableEq, Repr

inductive ExecError where
  | fork (e : Errno)
  | wait (e : Errno)
  | abnormal
  | exitCode (code : Byte)
  deriving DecidableEq, Repr

def ExecError.what : ExecError → Text
  | fork e => fexcept "Execute" (errnoWhat (ascii "Failed to create child process") e)
  | wait e => fexcept "Execute" (errnoWhat (ascii "Failed to wait for child") e)
  | abnormal => fexcept "Execute" (ascii "Flashing script terminated abnormally")
  | exitCode code =>
    fexcept "Execute"
      (ascii "Flashing script exited with non-zero code " ++ ascii (toString code.toNat))

/-- The checks of `Execute` on the status it waited for: what is thrown, if anything. -/
def checkStatus : WaitStatus → Option ExecError
  | .signaled _ => some .abnormal
  | .exited code => if code ≠ 0 then some (.exitCode code) else none

/-- An entry of the daemon's process table: a forked child, and its status once it has ended. A
child leaves the table when a `wait()` reaps it. -/
structure Child where
  pid : Pid
  status : Option WaitStatus
  deriving DecidableEq, Repr

end HwUtils

end MbDaemon
