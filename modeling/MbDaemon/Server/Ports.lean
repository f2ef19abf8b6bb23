import MbDaemon.Helpers
import MbDaemon.Lib.Lts

/-!
# Ports

Every connection gets a socket of its own: `CreateHandlerSocket` counts `CurrentPort` up until a
socket can be opened, and `DispatchRoutine` tells the client that socket's port in the hello
message. The counter is a `size_t`; `ServerSocket` narrows it to 16 bits, once for `bind()` and once
for `ServerPort`. The two agree, except where the narrowed counter is 0 and the kernel chooses
(`announces_bound_port_iff`).
-/

namespace MbDaemon

abbrev PortType := UInt16

/-- `ServerSocket`. `SockFd` is the port its descriptor listens on, until the descriptor is moved
away. -/
structure ServerSocket where
  SockFd : Option PortType
  ServerPort : PortType

namespace ServerSocket

/-- The call of the constructor that fails. -/
inductive Failure where
  | socket (e : Errno)
  | bind (e : Errno)
  | listen (e : Errno)

def Failure.what : Failure → Text
  | socket e => fexcept "ServerSocket" (errnoWhat (ascii "Failed to open socket") e)
  | bind e => fexcept "ServerSocket" (errnoWhat (ascii "Failed to bind socket") e)
  | listen e => fexcept "ServerSocket" (errnoWhat (ascii "listen() failed") e)

/-- What the system answers to a constructor; for port 0 it has a port of its own choice at hand. -/
abbrev Answer := Except Failure PortType

/-- The port that `bind()` takes. -/
def bindPort (sin_port chosen : PortType) : PortType := if sin_port = 0 then chosen else sin_port

def new (port : USize) : Answer → Except Text ServerSocket
  | .error f => .error f.what
  | .ok chosen => .ok { SockFd := some (bindPort port.toUInt16 chosen), ServerPort := port.toUInt16 }

def getPort (s : ServerSocket) : PortType := s.ServerPort

/-- `std::move`: the new object, and what is left of the old one. -/
def move (s : ServerSocket) : ServerSocket × ServerSocket := (s, { s with SockFd := none })

end ServerSocket

structure HelloMessage where
  Port : PortType

namespace Server

open ServerSocket

def startingPort : USize := 8080

/-- What the dispatch thread counts. -/
structure Counters where
  CurrentPort : USize
  CurrentId : USize

def Counters.start : Counters where
  CurrentPort := startingPort
  CurrentId := 0

/-- The loop of `CreateHandlerSocket`, with the answers its attempts get: the socket, the counter,
and the answers left over. -/
def createHandlerSocket (currentPort : USize) :
    List Answer → Option (ServerSocket × USize × List Answer)
  | [] => none
  | answer :: answers =>
    let currentPort := currentPort + 1
    match ServerSocket.new currentPort answer with
    | .ok newSocket => some (newSocket, currentPort, answers)
    | .error _ => createHandlerSocket currentPort answers

/-- What comes of a connection: the id and the socket its handler thread is given, and what the
client is told. -/
structure Served where
  id : USize
  socket : ServerSocket
  hello : HelloMessage

/-- A turn of `DispatchRoutine`; `answers` are the answers to its attempts to open a socket. -/
def dispatchTurn (c : Counters) (answers : List Answer) : Option (Served × Counters) :=
  match createHandlerSocket c.CurrentPort answers with
  | some (handlerSocket, currentPort, []) =>
    -- the thread gets the descriptor; the hello message is made of what stays behind
    let (socket, handlerSocket) := handlerSocket.move
    some ({ id := c.CurrentId, socket := socket, hello := ⟨handlerSocket.getPort⟩ },
      { CurrentPort := currentPort, CurrentId := c.CurrentId + 1 })
  | _ => none

def serve (c : Counters) (answers : List Answer) : Option Counters :=
  (dispatchTurn c answers).map (·.2)

/-- All attempts to open a socket, the failed ones included. -/
def attempts (connections : List (List Answer)) : Nat := (connections.map List.length).sum

/-- The client is told a port, and the handler's socket listens on it. -/
def Announced (s : Served) : Prop :=
  s.hello.Port ≠ 0 ∧ s.socket.SockFd = some s.hello.Port

/-! ## The counter -/

theorem createHandlerSocket_some {answers rest : List Answer} {n : Nat} {socket : ServerSocket}
    {currentPort : USize}
    (h : createHandlerSocket (USize.ofNat n) answers = some (socket, currentPort, rest)) :
    ∃ k chosen, answers.length = k + rest.length ∧ currentPort = USize.ofNat (n + k) ∧
      ServerSocket.new currentPort (.ok chosen) = .ok socket := by
  induction answers generalizing n with
  | nil => cases h
  | cons answer answers ih =>
    have hnext : USize.ofNat n + 1 = USize.ofNat (n + 1) := by rw [USize.ofNat_add]; rfl
    simp only [createHandlerSocket, hnext] at h
    cases answer with
    | error f =>
      obtain ⟨k, chosen, hlen, hport, hnew⟩ := ih h
      exact ⟨k + 1, chosen, by rw [List.length_cons, hlen]; omega, by rw [hport]; congr 1; omega,
        hnew⟩
    | ok chosen =>
      cases h
      exact ⟨1, chosen, by rw [List.length_cons]; omega, rfl, rfl⟩

theorem dispatchTurn_some {n : Nat} {c c' : Counters} {answers : List Answer} {s : Served}
    (hport : c.CurrentPort = USize.ofNat n) (h : dispatchTurn c answers = some (s, c')) :
    c'.CurrentPort = USize.ofNat (n + answers.length) ∧
      s.hello.Port = c'.CurrentPort.toUInt16 ∧
      ∃ chosen, s.socket.SockFd = some (bindPort c'.CurrentPort.toUInt16 chosen) := by
  unfold dispatchTurn at h
  rw [hport] at h
  split at h
  · rename_i socket currentPort hsocket
    cases h
    obtain ⟨k, chosen, hlen, hcur, hnew⟩ := createHandlerSocket_some hsocket
    cases hnew
    refine ⟨?_, rfl, chosen, rfl⟩
    rw [hcur, hlen, List.length_nil, Nat.add_zero]
  · cases h

theorem attempts_snoc (connections : List (List Answer)) (answers : List Answer) :
    attempts (connections ++ [answers]) = attempts connections + answers.length := by
  simp [attempts]

theorem currentPort_run {connections : List (List Answer)} {c : Counters}
    (h : Lts.run serve Counters.start connections = some c) :
    c.CurrentPort = USize.ofNat (8080 + attempts connections) := by
  refine Lts.run_induction
    (P := fun connections c => c.CurrentPort = USize.ofNat (8080 + attempts connections))
    rfl (fun connections c answers c' _ hc hs => ?_) h
  simp only [serve, Option.map_eq_some_iff] at hs
  obtain ⟨⟨s, d⟩, hturn, rfl⟩ := hs
  rw [(dispatchTurn_some hc hturn).1, attempts_snoc]
  congr 1
  omega

/-- The counter's low 16 bits are all that becomes of it. -/
theorem toUInt16_eq_zero_iff (n : Nat) : (USize.ofNat n).toUInt16 = 0 ↔ n % 65536 = 0 := by
  rw [USize.toUInt16_ofNat', ← UInt16.toNat_inj]
  simp

/-- **The announced port** is non-zero and the one the handler's socket listens on, exactly when the
count of attempts has not brought the counter to a multiple of 65536. -/
theorem announces_bound_port_iff {connections : List (List Answer)} {c c' : Counters}
    (h : Lts.run serve Counters.start connections = some c) {answers : List Answer} {s : Served}
    (hs : dispatchTurn c answers = some (s, c')) :
    Announced s ↔ (8080 + attempts (connections ++ [answers])) % 65536 ≠ 0 := by
  obtain ⟨hport, hhello, chosen, hfd⟩ := dispatchTurn_some (currentPort_run h) hs
  have hcount : c'.CurrentPort = USize.ofNat (8080 + attempts (connections ++ [answers])) := by
    rw [hport, attempts_snoc]
    congr 1
    omega
  have hzero := toUInt16_eq_zero_iff (8080 + attempts (connections ++ [answers]))
  rw [← hcount] at hzero
  unfold Announced
  rw [hhello, hfd]
  constructor
  · rintro ⟨hne, -⟩ hmod
    exact hne (hzero.2 hmod)
  · intro hmod
    have hne : c'.CurrentPort.toUInt16 ≠ 0 := fun e => hmod (hzero.1 e)
    exact ⟨hne, by rw [bindPort, if_neg hne]⟩

/-- The third connection, after a failed `bind()` of its own and one before it. -/
theorem announces_bound_port_third :
    ∃ c s c', Lts.run serve Counters.start [[.ok 40000],
        [.error (.bind ⟨98, ascii "Address already in use"⟩), .ok 40000]] = some c ∧
      dispatchTurn c [.error (.bind ⟨98, ascii "Address already in use"⟩), .ok 40000] =
        some (s, c') ∧ Announced s := by
  refine ⟨_, _, _, rfl, rfl, ?_⟩
  have hmod : (8080 + attempts ([[.ok 40000],
      [.error (.bind ⟨98, ascii "Address already in use"⟩), .ok 40000]] ++
        [[.error (.bind ⟨98, ascii "Address already in use"⟩), .ok 40000]])) % 65536 ≠ 0 := by
    decide
  exact (announces_bound_port_iff rfl rfl).2 hmod

theorem serve_replicate (chosen : PortType) (n : Nat) :
    ∃ c, Lts.run serve Counters.start (List.replicate n [.ok chosen]) = some c := by
  induction n with
  | zero => exact ⟨_, rfl⟩
  | succ n ih =>
    obtain ⟨c, hc⟩ := ih
    refine ⟨⟨c.CurrentPort + 1, c.CurrentId + 1⟩, ?_⟩
    rw [List.replicate_succ', Lts.run_snoc hc]
    rfl

theorem attempts_replicate (answer : Answer) (n : Nat) :
    attempts (List.replicate n [answer]) = n := by
  simp [attempts]

/-- After 57455 connections the counter reaches 65536: the next client is told port 0, while the
kernel has put the socket elsewhere. -/
theorem announces_port_zero :
    ∃ c s c', Lts.run serve Counters.start (List.replicate 57455 [.ok 40000]) = some c ∧
      dispatchTurn c [.ok 40000] = some (s, c') ∧
      s.hello.Port = 0 ∧ s.socket.SockFd = some 40000 ∧ ¬ Announced s := by
  obtain ⟨c, hc⟩ := serve_replicate 40000 57455
  have hport := currentPort_run hc
  rw [attempts_replicate] at hport
  have hnext : c.CurrentPort + 1 = USize.ofNat (8080 + 57455 + 1) := by
    rw [hport, USize.ofNat_add (8080 + 57455)]
    rfl
  have hzero : (c.CurrentPort + 1).toUInt16 = 0 := by
    rw [hnext, toUInt16_eq_zero_iff]
  have hbind : bindPort (c.CurrentPort + 1).toUInt16 40000 = 40000 := by rw [hzero]; rfl
  exact ⟨c, _, _, hc, rfl, hzero, congrArg some hbind, fun h => h.1 hzero⟩

end Server

end MbDaemon
