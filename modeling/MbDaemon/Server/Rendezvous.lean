import MbDaemon.Server.Ports

/-!
# Coming together

A client connects twice. `Client::Factory::Connect` first connects to the daemon's own socket. There
the dispatch thread accepts the connection, opens a socket for a new handler thread, waits until the
thread is up and sends the socket's port in a `HelloMessage`; the client receives the message, in
pieces, and connects to the port, where the handler accepts it.

`Config` has the dispatch thread, the handlers with their sockets, the clients, and what the system
keeps between them: the connections that nobody has accepted yet and the bytes on their way. `step`
plays one step of one of them. The mutexes and condition variables between the threads are the matter
of `Threads`; other programs' connections and the shutdown are left out.
-/

namespace MbDaemon

namespace HelloMessage

/-- The bytes of `Port`, which `Send` and `Recv` move as they lie in memory. -/
def bytes (m : HelloMessage) : List Byte := [m.Port.toUInt8, (m.Port >>> 8).toUInt8]

/-- The message that `Recv` has when it has both bytes. -/
def ofBytes : List Byte → Option HelloMessage
  | [b0, b1] => some ⟨b0.toUInt16 ||| b1.toUInt16 <<< 8⟩
  | _ => none

theorem ofBytes_bytes (m : HelloMessage) : ofBytes m.bytes = some m := by
  obtain ⟨port⟩ := m
  simp only [ofBytes, bytes, Option.some.injEq, HelloMessage.mk.injEq]
  rw [← UInt16.toNat_inj]
  have hlt := port.toNat_lt
  have hlow : port.toNat % 256 < 2 ^ 8 := by omega
  have hhigh : port.toNat >>> 8 = port.toNat / 256 := Nat.shiftRight_eq_div_pow _ 8
  have hbyte : port.toNat / 256 % 256 = port.toNat / 256 := by omega
  have hglue := Nat.shiftLeft_add_eq_or_of_lt hlow (port.toNat / 256)
  rw [Nat.shiftLeft_eq] at hglue
  simp only [UInt16.toNat_or, UInt8.toNat_toUInt16, UInt16.toNat_toUInt8, UInt16.toNat_shiftLeft,
    UInt16.toNat_shiftRight, UInt16.reduceToNat, Nat.reduceMod, hhigh, hbyte, Nat.shiftLeft_eq]
  have hsmall : port.toNat / 256 * 2 ^ 8 % 2 ^ 16 = port.toNat / 256 * 2 ^ 8 :=
    Nat.mod_eq_of_lt (by omega)
  rw [hsmall, Nat.lor_comm, ← hglue]
  omega

end HelloMessage

/-- The call of `ClientSocket::Connect` that fails. -/
inductive ClientSocket.Failure where
  | socket (e : Errno)
  | connect (e : Errno)

def ClientSocket.Failure.what : ClientSocket.Failure → Text
  | socket e => fexcept "Connect" (errnoWhat (ascii "Failed to create socket") e)
  | connect e => fexcept "Connect" (errnoWhat (ascii "Failed to connect") e)

namespace Rendezvous

/-- A run of `Client::Factory::Connect`. -/
abbrev ClientId := Nat

abbrev HandlerId := Nat

/-- Inside an iteration of `DispatchRoutine`, with the client it has accepted and the id it has
counted: `create` has the open socket, `ready` what is left of it after the thread took the
descriptor, `hello` the bytes still to be sent. An exception has `ended` the routine. -/
inductive DispatchPc where
  | accept
  | socket (c : ClientId) (id : HandlerId)
  | create (c : ClientId) (id : HandlerId) (handlerSocket : ServerSocket)
  | ready (c : ClientId) (id : HandlerId) (handlerSocket : ServerSocket)
  | hello (c : ClientId) (id : HandlerId) (left : List Byte)
  | ended (what : Text)

/-- Inside `HandlerRoutine`. `starting` is in front of `ready = true`. -/
inductive HandlerPc where
  | absent
  | starting
  | accepting
  | serving (c : ClientId)
  | ended
  deriving DecidableEq

/-- Inside `Client::Factory::Connect`: in `HelloMessage::Recv` with the bytes it has, in front of the
second `Connect`, or out. `connected` names the handler on whose socket the connection came up. -/
inductive ClientPc where
  | absent
  | hello (got : List Byte)
  | connecting (port : PortType)
  | connected (id : HandlerId)
  | threw (what : Text)

/-- `accepted` are the clients that the dispatch thread has accepted; an iteration's id is its place in
that list. `backlog` and `queue` are the connections that the system has made on the daemon's socket
and on a handler's, not accepted yet; `wire c` are the bytes on their way to client `c`, and `closed
c` says that the daemon has closed that connection. -/
structure Config where
  currentPort : USize
  accepted : List ClientId
  backlog : List ClientId
  dispatch : DispatchPc
  handler : HandlerId → HandlerPc
  socket : HandlerId → ServerSocket
  queue : HandlerId → List ClientId
  wire : ClientId → List Byte
  closed : ClientId → Bool
  client : ClientId → ClientPc

def Config.init : Config where
  currentPort := Server.startingPort
  accepted := []
  backlog := []
  dispatch := .accept
  handler := fun _ => .absent
  socket := fun _ => { SockFd := none, ServerPort := 0 }
  queue := fun _ => []
  wire := fun _ => []
  closed := fun _ => false
  client := fun _ => .absent

/-- What the system answers stands in the labels: errors, how many bytes a call moves, and for `join`
the socket that listens on the port. -/
inductive Label where
  | connect (c : ClientId) (answer : Except ClientSocket.Failure Unit)
  | recv (c : ClientId) (n : Nat)
  | recvEnd (c : ClientId)
  | recvFail (c : ClientId) (e : Errno)
  | join (c : ClientId) (answer : Except ClientSocket.Failure HandlerId)
  | accept (answer : Except Errno Unit)
  | socket (answers : List ServerSocket.Answer)
  | create (answer : Except Text Unit)
  | start (id : HandlerId)
  | wake
  | send (answer : Except Errno Nat)
  | handlerAccept (id : HandlerId) (answer : Except Errno Unit)
  | finish (id : HandlerId)

def acceptWhat (e : Errno) : Text :=
  fexcept "Accept" (errnoWhat (ascii "Failed to accept connection") e)

/-- `Recv` goes on, or returns and the client makes the second `ClientSocket`. -/
def received (got : List Byte) : ClientPc :=
  match HelloMessage.ofBytes got with
  | some hello => .connecting hello.Port
  | none => .hello got

/-- The iteration ends, and with it the connection it accepted. -/
def Config.endIteration (s : Config) (c : ClientId) (p : DispatchPc) : Config :=
  { s with dispatch := p, closed := Function.update s.closed c true }

def Config.endHandler (s : Config) (id : HandlerId) : Config :=
  { s with
    handler := Function.update s.handler id .ended,
    socket := Function.update s.socket id { s.socket id with SockFd := none } }

/-- No handler's socket is bound to the port; the ids that have been given are all below the length. -/
def Config.portFree (s : Config) (port : PortType) : Prop :=
  ∀ id < s.accepted.length, (s.socket id).SockFd ≠ some port

instance (s : Config) (port : PortType) : Decidable (s.portFree port) :=
  inferInstanceAs (Decidable (∀ id < s.accepted.length, (s.socket id).SockFd ≠ some port))

def stepClient (s : Config) : Label → Option Config
  | .connect c answer =>
    match s.client c, answer with
    | .absent, .ok () =>
      some { s with client := Function.update s.client c (.hello []), backlog := s.backlog ++ [c] }
    | .absent, .error e => some { s with client := Function.update s.client c (.threw e.what) }
    | _, _ => none
  | .recv c n =>
    match s.client c with
    | .hello got =>
      if 0 < n ∧ got.length + n ≤ 2 ∧ n ≤ (s.wire c).length then
        some { s with
          client := Function.update s.client c (received (got ++ (s.wire c).take n)),
          wire := Function.update s.wire c ((s.wire c).drop n) }
      else none
    | _ => none
  | .recvEnd c =>
    match s.client c with
    | .hello _ =>
      if s.wire c = [] ∧ s.closed c = true then
        let what := fexcept "Recv" (ascii "Server closed connection")
        some { s with client := Function.update s.client c (.threw what) }
      else none
    | _ => none
  | .recvFail c e =>
    match s.client c with
    | .hello _ =>
      let what := fexcept "Recv" (errnoWhat (ascii "Failed to recv()") e)
      some { s with client := Function.update s.client c (.threw what) }
    | _ => none
  | .join c answer =>
    match s.client c, answer with
    | .connecting port, .ok id =>
      if (s.socket id).SockFd = some port then
        some { s with
          client := Function.update s.client c (.connected id),
          queue := Function.update s.queue id (s.queue id ++ [c]) }
      else none
    | .connecting _, .error e => some { s with client := Function.update s.client c (.threw e.what) }
    | _, _ => none
  | _ => none

/-- `DispatchRoutine`. -/
def stepDispatch (s : Config) : Label → Option Config
  | .accept answer =>
    match s.dispatch, answer, s.backlog with
    | .accept, .ok (), c :: backlog =>
      some { s with
        dispatch := .socket c s.accepted.length,
        accepted := s.accepted ++ [c],
        backlog := backlog }
    | .accept, .error e, _ => some { s with dispatch := .ended (acceptWhat e) }
    | _, _, _ => none
  | .socket answers =>
    match s.dispatch, Server.createHandlerSocket s.currentPort answers with
    | .socket c id, some (handlerSocket, currentPort, []) =>
      match handlerSocket.SockFd with
      | some port =>
        -- a port is bound once
        if port ≠ 0 ∧ s.portFree port then
          some { s with dispatch := .create c id handlerSocket, currentPort := currentPort }
        else none
      | none => none
    | _, _ => none
  | .create answer =>
    match s.dispatch, answer with
    | .create c id handlerSocket, .ok () =>
      let (newSocket, handlerSocket) := handlerSocket.move
      some { s with
        dispatch := .ready c id handlerSocket,
        handler := Function.update s.handler id .starting,
        socket := Function.update s.socket id newSocket }
    | .create c _ _, .error what => some (s.endIteration c (.ended what))
    | _, _ => none
  | .wake =>
    match s.dispatch with
    | .ready c id handlerSocket =>
      if s.handler id ≠ .starting then
        some { s with dispatch := .hello c id (HelloMessage.bytes ⟨handlerSocket.getPort⟩) }
      else none
    | _ => none
  | .send answer =>
    match s.dispatch, answer with
    | .hello c id left, .ok n =>
      if 0 < n ∧ n ≤ left.length then
        let s := { s with wire := Function.update s.wire c (s.wire c ++ left.take n) }
        match left.drop n with
        | [] => some (s.endIteration c .accept)
        | left => some { s with dispatch := .hello c id left }
      else none
    | .hello c _ _, .error e =>
      some (s.endIteration c (.ended (fexcept "Send" (errnoWhat (ascii "Failed to send()") e))))
    | _, _ => none
  | _ => none

/-- `HandlerRoutine`. -/
def stepHandler (s : Config) : Label → Option Config
  | .start id =>
    if s.handler id = .starting then
      some { s with handler := Function.update s.handler id .accepting }
    else none
  | .handlerAccept id answer =>
    match s.handler id, answer, s.queue id with
    | .accepting, .ok (), c :: queue =>
      some { s with
        handler := Function.update s.handler id (.serving c),
        queue := Function.update s.queue id queue }
    | .accepting, .error _, _ => some (s.endHandler id)
    | _, _, _ => none
  | .finish id =>
    match s.handler id with
    | .serving _ => some (s.endHandler id)
    | _ => none
  | _ => none

def step (s : Config) (l : Label) : Option Config :=
  match l with
  | .connect _ _ | .recv _ _ | .recvEnd _ | .recvFail _ _ | .join _ _ => stepClient s l
  | .accept _ | .socket _ | .create _ | .wake | .send _ => stepDispatch s l
  | .start _ | .handlerAccept _ _ | .finish _ => stepHandler s l

end Rendezvous

end MbDaemon
