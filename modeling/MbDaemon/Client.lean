import MbDaemon.RPC

/-!
# The client

`Client::Call` in its two halves (`Client.hpp`, `Client.cpp`): what it sends, and what it makes of
the frame it reads back. Between the two the server has its turn. `SoftDisconnect` says goodbye.
-/

namespace MbDaemon

open RPCDefs

namespace Client

def errorCode : Byte := ProcIDs.error

structure ProcException where
  proc : Proc
  error : Text
  deriving DecidableEq

def ProcException.what (e : ProcException) : Text :=
  ascii "Remote procedure \"" ++ ascii e.proc.toStr ++ ascii "\" returned error: " ++ e.error

abbrev CallResult (p : Proc) := Except ProcException (Value p.Responce)

/-- `Call` up to `RecvPackage`. -/
def send (p : Proc) (request : Outgoing p.Request) : RPC Unit := do
  RPCProvider.packMsg p.ID p.Request request
  RPCProvider.sendPackage

/-- `Call` from `RecvPackage` on. -/
def receive (p : Proc) : RPC (CallResult p) := do
  let header ← RPCProvider.recvPackage
  if header.Ok then
    let s ← get
    pure (.ok ((decode p.Responce 0).run s.buffer))
  else pure (.error { proc := p, error := header.Msg })

/-- `SoftDisconnect`. `PackError` sends on its own, so the frame goes out twice. -/
def softDisconnect : RPC Unit := do
  RPCProvider.packError (ascii "Disconnect")
  RPCProvider.sendPackage

end Client

end MbDaemon
