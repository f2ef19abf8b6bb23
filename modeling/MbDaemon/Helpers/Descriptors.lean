import MbDaemon.Helpers
import MbDaemon.Lib.Ownership

/-!
# Descriptors and their wrappers

A `DescriptorWrapper` closes the descriptor in its `UniqueValue` when it is destroyed. Moving takes
the descriptor away from the source by construction, which leaves -1 there, and by assignment, which
swaps. Connections, server sockets and RPC providers hold one wrapper each and are moved member by
member. `State` is the live objects and the process's open descriptors, and `step` one operation on
them; a descriptor is opened where it is wrapped. Every operation is a change of owners
(`simulates`), so that each descriptor is closed once (`closed_exactly_once`).
-/

namespace MbDaemon

namespace Descriptors

open Ownership

/-- `UniqueValue<T, DefaultValue>`. -/
structure UniqueValue (T : Type) (DefaultValue : T) where
  Value : T
  deriving DecidableEq, Repr

namespace UniqueValue

variable {T : Type} {DefaultValue : T}

/-- The move constructor: the new object, and what is left of `rhs`. -/
def moveConstruct (rhs : UniqueValue T DefaultValue) :
    UniqueValue T DefaultValue × UniqueValue T DefaultValue :=
  (⟨rhs.Value⟩, ⟨DefaultValue⟩)

/-- The move assignment, `std::swap`. -/
def moveAssign (lhs rhs : UniqueValue T DefaultValue) :
    UniqueValue T DefaultValue × UniqueValue T DefaultValue :=
  (⟨rhs.Value⟩, ⟨lhs.Value⟩)

end UniqueValue

structure DescriptorWrapper where
  Fd : UniqueValue Int (-1)
  deriving DecidableEq, Repr

namespace DescriptorWrapper

def construct (newFd : Int) : DescriptorWrapper := ⟨⟨newFd⟩⟩

def moveConstruct (rhs : DescriptorWrapper) : DescriptorWrapper × DescriptorWrapper :=
  (⟨rhs.Fd.moveConstruct.1⟩, ⟨rhs.Fd.moveConstruct.2⟩)

def moveAssign (lhs rhs : DescriptorWrapper) : DescriptorWrapper × DescriptorWrapper :=
  (⟨(lhs.Fd.moveAssign rhs.Fd).1⟩, ⟨(lhs.Fd.moveAssign rhs.Fd).2⟩)

def get (w : DescriptorWrapper) : Int := w.Fd.Value

end DescriptorWrapper

structure Connection where
  Fd : DescriptorWrapper
  Port : UniqueValue Nat 0
  NonBlock : UniqueValue Bool false
  deriving DecidableEq, Repr

namespace Connection

/-- The constructor, and what is left of the wrapper it is given. -/
def construct (fd : DescriptorWrapper) (port : Nat) (nonBlock : Bool) :
    Connection × DescriptorWrapper :=
  (⟨fd.moveConstruct.1, ⟨port⟩, ⟨nonBlock⟩⟩, fd.moveConstruct.2)

def moveConstruct (rhs : Connection) : Connection × Connection :=
  (⟨rhs.Fd.moveConstruct.1, rhs.Port.moveConstruct.1, rhs.NonBlock.moveConstruct.1⟩,
    ⟨rhs.Fd.moveConstruct.2, rhs.Port.moveConstruct.2, rhs.NonBlock.moveConstruct.2⟩)

def moveAssign (lhs rhs : Connection) : Connection × Connection :=
  (⟨(lhs.Fd.moveAssign rhs.Fd).1, (lhs.Port.moveAssign rhs.Port).1,
      (lhs.NonBlock.moveAssign rhs.NonBlock).1⟩,
    ⟨(lhs.Fd.moveAssign rhs.Fd).2, (lhs.Port.moveAssign rhs.Port).2,
      (lhs.NonBlock.moveAssign rhs.NonBlock).2⟩)

end Connection

/-- `ServerPort` is a plain number, which a move copies. -/
structure ServerSocket where
  SockFd : DescriptorWrapper
  ServerPort : Nat
  deriving DecidableEq, Repr

namespace ServerSocket

def moveConstruct (rhs : ServerSocket) : ServerSocket × ServerSocket :=
  ({ rhs with SockFd := rhs.SockFd.moveConstruct.1 },
    { rhs with SockFd := rhs.SockFd.moveConstruct.2 })

def moveAssign (lhs rhs : ServerSocket) : ServerSocket × ServerSocket :=
  ({ rhs with SockFd := (lhs.SockFd.moveAssign rhs.SockFd).1 },
    { rhs with SockFd := (lhs.SockFd.moveAssign rhs.SockFd).2 })

end ServerSocket

structure RPCProvider where
  Conn : Connection
  deriving DecidableEq, Repr

namespace RPCProvider

/-- The constructor, and what is left of the connection it is given. -/
def construct (connection : Connection) : RPCProvider × Connection :=
  (⟨connection.moveConstruct.1⟩, connection.moveConstruct.2)

def moveConstruct (rhs : RPCProvider) : RPCProvider × RPCProvider :=
  (⟨rhs.Conn.moveConstruct.1⟩, ⟨rhs.Conn.moveConstruct.2⟩)

def moveAssign (lhs rhs : RPCProvider) : RPCProvider × RPCProvider :=
  (⟨(lhs.Conn.moveAssign rhs.Conn).1⟩, ⟨(lhs.Conn.moveAssign rhs.Conn).2⟩)

end RPCProvider

/-- An object that holds a wrapper, or is one. -/
inductive Object where
  | wrapper (w : DescriptorWrapper)
  | connection (c : Connection)
  | serverSocket (s : ServerSocket)
  | rpcProvider (r : RPCProvider)
  deriving DecidableEq, Repr

namespace Object

def fd : Object → Int
  | wrapper w => w.get
  | connection c => c.Fd.get
  | serverSocket s => s.SockFd.get
  | rpcProvider r => r.Conn.Fd.get

/-- The descriptor that the object holds: -1 is none. -/
def held (o : Object) : Option Nat := o.fd.toNat?

def moveConstruct : Object → Object × Object
  | wrapper w => (wrapper w.moveConstruct.1, wrapper w.moveConstruct.2)
  | connection c => (connection c.moveConstruct.1, connection c.moveConstruct.2)
  | serverSocket s => (serverSocket s.moveConstruct.1, serverSocket s.moveConstruct.2)
  | rpcProvider r => (rpcProvider r.moveConstruct.1, rpcProvider r.moveConstruct.2)

/-- The move assignment between two objects of one class. -/
def moveAssign : Object → Object → Option (Object × Object)
  | wrapper l, wrapper r => some (wrapper (l.moveAssign r).1, wrapper (l.moveAssign r).2)
  | connection l, connection r =>
    some (connection (l.moveAssign r).1, connection (l.moveAssign r).2)
  | serverSocket l, serverSocket r =>
    some (serverSocket (l.moveAssign r).1, serverSocket (l.moveAssign r).2)
  | rpcProvider l, rpcProvider r =>
    some (rpcProvider (l.moveAssign r).1, rpcProvider (l.moveAssign r).2)
  | _, _ => none

end Object

abbrev Address := Nat

/-- The live objects, and the descriptors that are open. -/
structure State where
  objects : Address → Option Object
  opened : Finset Nat

namespace State

def put (s : State) (x : Address) (o : Object) : State :=
  { s with objects := Function.update s.objects x (some o) }

def holds (s : State) (x : Address) : Option Nat := (s.objects x).bind Object.held

end State

/-- `close()`, which fails on -1 and on a descriptor that is not open. -/
def close (opened : Finset Nat) (fd : Int) : Finset Nat :=
  match fd.toNat? with
  | some n => opened.erase n
  | none => opened

/-- The operations. `x` is the object that is made or assigned to. -/
inductive Label where
  /-- `DescriptorWrapper x{fd}` with a descriptor that the system has just opened -/
  | wrapper (x : Address) (fd : Nat)
  /-- the beginning of `ServerSocket`'s constructor: `SockFd{-1}` -/
  | serverSocket (x : Address) (port : Nat)
  /-- `SockFd = std::move(w)` -/
  | assignSocket (x w : Address)
  /-- `Connection x{std::move(w), addr, port, nonBlock}` -/
  | connection (x w : Address) (port : Nat) (nonBlock : Bool)
  /-- `RPCProvider x{std::move(c), errCode}` -/
  | rpcProvider (x c : Address)
  | moveConstruct (x y : Address)
  | moveAssign (x y : Address)
  | destroy (x : Address)
  deriving DecidableEq

def step (s : State) : Label → Option State
  | .wrapper x fd =>
    match s.objects x with
    | none =>
      if fd ∈ s.opened then none
      else some { s.put x (.wrapper (.construct fd)) with opened := insert fd s.opened }
    | some _ => none
  | .serverSocket x port =>
    match s.objects x with
    | none => some (s.put x (.serverSocket ⟨.construct (-1), port⟩))
    | some _ => none
  | .assignSocket x w =>
    match s.objects x, s.objects w with
    | some (.serverSocket socket), some (.wrapper fd) =>
      let (l, r) := socket.SockFd.moveAssign fd
      some ((s.put x (.serverSocket { socket with SockFd := l })).put w (.wrapper r))
    | _, _ => none
  | .connection x w port nonBlock =>
    match s.objects x, s.objects w with
    | none, some (.wrapper fd) =>
      let (c, r) := Connection.construct fd port nonBlock
      some ((s.put x (.connection c)).put w (.wrapper r))
    | _, _ => none
  | .rpcProvider x c =>
    match s.objects x, s.objects c with
    | none, some (.connection connection) =>
      let (p, r) := RPCProvider.construct connection
      some ((s.put x (.rpcProvider p)).put c (.connection r))
    | _, _ => none
  | .moveConstruct x y =>
    match s.objects x, s.objects y with
    | none, some rhs =>
      let (l, r) := rhs.moveConstruct
      some ((s.put x l).put y r)
    | _, _ => none
  | .moveAssign x y =>
    match s.objects x, s.objects y with
    | some lhs, some rhs => (lhs.moveAssign rhs).map fun (l, r) => (s.put x l).put y r
    | _, _ => none
  | .destroy x =>
    match s.objects x with
    | some o =>
      some { objects := Function.update s.objects x none, opened := close s.opened o.fd }
    | none => none

/-- The descriptors that are opened, and the calls of `close()` on a descriptor, open or not. -/
def observe (s : State) : Label → List (Event Nat)
  | .wrapper _ fd => [.taken fd]
  | .destroy x => (s.holds x).toList.map .returned
  | _ => []

/-! ## What an operation does to the owners -/

variable {s s' : State} {l : Label} {ls : List Label} {x y : Address}

theorem Object.held_moveConstruct (o : Object) :
    o.moveConstruct.1.held = o.held ∧ o.moveConstruct.2.held = none := by
  cases o <;> exact ⟨rfl, rfl⟩

theorem Object.held_moveAssign {lhs rhs l r : Object} (h : lhs.moveAssign rhs = some (l, r)) :
    l.held = rhs.held ∧ r.held = lhs.held := by
  cases lhs <;> cases rhs <;> cases h <;> exact ⟨rfl, rfl⟩

theorem State.holds_of {o : Object} (h : s.objects x = some o) : s.holds x = o.held := by
  unfold State.holds
  rw [h]
  rfl

theorem State.holds_free (h : s.objects x = none) : s.holds x = none := by
  unfold State.holds
  rw [h]
  rfl

theorem State.holds_update (objects : Address → Option Object) (opened : Finset Nat) (x : Address)
    (o : Option Object) :
    State.holds ⟨Function.update objects x o, opened⟩ =
      Function.update (State.holds ⟨objects, opened⟩) x (o.bind Object.held) := by
  funext y
  by_cases hy : y = x
  · subst hy
    simp [State.holds]
  · simp [State.holds, hy]

theorem State.holds_put_put (s : State) (x y : Address) (a b : Object) :
    ((s.put x a).put y b).holds = Function.update (Function.update s.holds x a.held) y b.held := by
  unfold State.put
  rw [State.holds_update, State.holds_update]
  rfl

/-- What an operation can do: open a descriptor into a new wrapper, begin a server socket, have two
objects trade what they hold, or destroy an object. -/
theorem step_cases (h : step s l = some s') :
    (∃ x fd, l = .wrapper x fd ∧ s.objects x = none ∧ fd ∉ s.opened ∧
      s' = { s.put x (.wrapper (.construct fd)) with opened := insert fd s.opened }) ∨
    (∃ x port, l = .serverSocket x port ∧ s.objects x = none ∧
      s' = s.put x (.serverSocket ⟨.construct (-1), port⟩)) ∨
    (∃ x y a b, observe s l = [] ∧ a.held = s.holds y ∧ b.held = s.holds x ∧
      s' = (s.put x a).put y b) ∨
    ∃ x o, l = .destroy x ∧ s.objects x = some o ∧
      s' = ⟨Function.update s.objects x none, close s.opened o.fd⟩ := by
  cases l with
  | wrapper x fd =>
    simp only [step] at h
    split at h
    · rename_i free
      split at h
      · cases h
      · rename_i fresh
        cases h
        exact .inl ⟨x, fd, rfl, free, fresh, rfl⟩
    · cases h
  | serverSocket x port =>
    simp only [step] at h
    split at h
    · cases h
      exact .inr (.inl ⟨x, port, rfl, ‹_›, rfl⟩)
    · cases h
  | assignSocket x w =>
    simp only [step] at h
    split at h
    · rename_i socket fd hx hw
      cases h
      refine .inr (.inr (.inl ⟨x, w, _, _, rfl, ?_, ?_, rfl⟩))
      · rw [State.holds_of hw]; rfl
      · rw [State.holds_of hx]; rfl
    · cases h
  | connection x w port nonBlock =>
    simp only [step] at h
    split at h
    · rename_i fd hx hw
      cases h
      refine .inr (.inr (.inl ⟨x, w, _, _, rfl, ?_, ?_, rfl⟩))
      · rw [State.holds_of hw]; rfl
      · rw [State.holds_free hx]; rfl
    · cases h
  | rpcProvider x c =>
    simp only [step] at h
    split at h
    · rename_i connection hx hc
      cases h
      refine .inr (.inr (.inl ⟨x, c, _, _, rfl, ?_, ?_, rfl⟩))
      · rw [State.holds_of hc]; rfl
      · rw [State.holds_free hx]; rfl
    · cases h
  | moveConstruct x y =>
    simp only [step] at h
    split at h
    · rename_i rhs hx hy
      cases h
      obtain ⟨hnew, hold⟩ := rhs.held_moveConstruct
      refine .inr (.inr (.inl ⟨x, y, _, _, rfl, ?_, ?_, rfl⟩))
      · rw [State.holds_of hy, hnew]
      · rw [State.holds_free hx, hold]
    · cases h
  | moveAssign x y =>
    simp only [step] at h
    split at h
    · rename_i lhs rhs hx hy
      rw [Option.map_eq_some_iff] at h
      obtain ⟨⟨l, r⟩, hmove, rfl⟩ := h
      obtain ⟨hl, hr⟩ := Object.held_moveAssign hmove
      refine .inr (.inr (.inl ⟨x, y, l, r, rfl, ?_, ?_, rfl⟩))
      · rw [State.holds_of hy, hl]
      · rw [State.holds_of hx, hr]
    · cases h
  | destroy x =>
    simp only [step] at h
    split at h
    · rename_i o ho
      cases h
      exact .inr (.inr (.inr ⟨x, o, rfl, ho, rfl⟩))
    · cases h

/-- **Every operation is a change of owners.** -/
theorem simulates : Simulates step State.holds State.opened observe := by
  intro s l s' hs
  rcases step_cases hs with ⟨x, fd, rfl, free, fresh, rfl⟩ | ⟨x, port, rfl, free, rfl⟩ |
    ⟨x, y, a, b, hobs, ha, hb, rfl⟩ | ⟨x, o, rfl, ho, rfl⟩
  · have hholds : State.holds { s.put x (.wrapper (.construct fd)) with
        opened := insert fd s.opened } = Function.update s.holds x (some fd) :=
      State.holds_update s.objects _ x _
    rw [hholds]
    exact .take (State.holds_free free) fresh
  · have hholds : (s.put x (.serverSocket ⟨.construct (-1), port⟩)).holds = s.holds := by
      have hupdate : (s.put x (.serverSocket ⟨.construct (-1), port⟩)).holds =
          Function.update s.holds x none := State.holds_update s.objects _ x _
      rw [hupdate, ← State.holds_free free, Function.update_eq_self]
    rw [hholds]
    exact .trade (Equiv.refl _)
  · rw [hobs, State.holds_put_put, ha, hb]
    exact .swap s.holds s.opened x y
  · have hholds : State.holds ⟨Function.update s.objects x none, close s.opened o.fd⟩ =
        Function.update s.holds x none := State.holds_update s.objects _ x _
    rw [hholds]
    have hheld : s.holds x = o.fd.toNat? := State.holds_of ho
    show Change s.holds s.opened ((s.holds x).toList.map .returned) _ (close s.opened o.fd)
    unfold close
    cases hfd : o.fd.toNat? with
    | none =>
      rw [hfd] at hheld
      have hsame : Function.update s.holds x none = s.holds := by
        rw [← hheld]
        exact Function.update_eq_self x s.holds
      rw [hheld, hsame]
      exact .trade (Equiv.refl _)
    | some fd =>
      rw [hfd] at hheld
      rw [hheld]
      exact .giveBack hheld

/-! ## The functions that open descriptors -/

/-- The constructor of `ServerSocket`, with the temporary wrapper at `tmp`; `bind()` or `listen()` may
fail, and the member is destroyed then. -/
def ServerSocket.construct (x tmp : Address) (newFd port : Nat) (fails : Bool) : List Label :=
  [.serverSocket x port, .wrapper tmp newFd, .assignSocket x tmp, .destroy tmp] ++
    if fails then [.destroy x] else []

/-- A new descriptor that a local wrapper hands over to the connection that is returned, unless
something throws in between. -/
def handOver (ret tmp : Address) (fd port : Nat) (nonBlock throws : Bool) : List Label :=
  .wrapper tmp fd :: ((if throws then [] else [.connection ret tmp port nonBlock]) ++ [.destroy tmp])

/-- `ServerSocket::Accept` behind `accept4()`. -/
def ServerSocket.accept (socket : ServerSocket) (ret tmp : Address) (peerFd : Nat)
    (nonBlock addrThrows : Bool) : List Label :=
  handOver ret tmp peerFd socket.ServerPort nonBlock addrThrows

/-- `ClientSocket::Connect` behind `socket()`. -/
def ClientSocket.connect (PortIn : Nat) (ret tmp : Address) (newFd : Nat)
    (nonBlock connectFails : Bool) : List Label :=
  handOver ret tmp newFd PortIn nonBlock connectFails

@[simp] theorem State.objects_put_self (s : State) (x : Address) (o : Object) :
    (s.put x o).objects x = some o := Function.update_self _ _ _

theorem State.objects_put_of_ne (s : State) (o : Object) (h : y ≠ x) :
    (s.put x o).objects y = s.objects y := Function.update_of_ne h _ _

@[simp] theorem State.put_put_self (s : State) (x : Address) (a b : Object) :
    (s.put x a).put x b = s.put x b := by
  unfold State.put
  rw [Function.update_idem]

theorem State.put_comm (s : State) (a b : Object) (h : x ≠ y) :
    (s.put x a).put y b = (s.put y b).put x a := by
  unfold State.put
  rw [Function.update_comm h]

theorem step_destroy (o : Object) (h : s.objects x = none) :
    step (s.put x o) (.destroy x) = some { s with opened := close s.opened o.fd } := by
  have hback : Function.update (s.put x o).objects x none = s.objects := by
    unfold State.put
    rw [Function.update_idem, ← h, Function.update_eq_self]
  simp only [step, State.objects_put_self, hback]
  rfl

theorem close_insert {opened : Finset Nat} {fd : Nat} (fresh : fd ∉ opened) :
    close (insert fd opened) (fd : Int) = opened := Finset.erase_insert fresh

theorem step_wrapper {fd : Nat} (free : s.objects x = none) (fresh : fd ∉ s.opened) :
    step s (.wrapper x fd) = some
      (State.put { s with opened := insert fd s.opened } x (.wrapper (.construct fd))) := by
  simp only [step, free, if_neg fresh]
  rfl

theorem step_assignSocket {socket : ServerSocket} {fd : DescriptorWrapper}
    (hx : s.objects x = some (.serverSocket socket)) (hy : s.objects y = some (.wrapper fd)) :
    step s (.assignSocket x y) = some
      ((s.put x (.serverSocket { socket with SockFd := (socket.SockFd.moveAssign fd).1 })).put y
        (.wrapper (socket.SockFd.moveAssign fd).2)) := by
  simp only [step, hx, hy]

/-- **A constructed socket** holds the new descriptor; a constructor that throws has closed it. -/
theorem serverSocket_run {tmp : Address} {fd port : Nat} (hx : s.objects x = none)
    (ht : s.objects tmp = none) (hne : x ≠ tmp) (fresh : fd ∉ s.opened) (fails : Bool) :
    Lts.run step s (ServerSocket.construct x tmp fd port fails) = some (if fails then s else
      State.put { s with opened := insert fd s.opened } x (.serverSocket ⟨.construct fd, port⟩)) := by
  let opened : State := { s with opened := insert fd s.opened }
  let blank : Object := .serverSocket ⟨.construct (-1), port⟩
  let socket : Object := .serverSocket ⟨.construct fd, port⟩
  have hbegin : step s (.serverSocket x port) = some (s.put x blank) := by
    simp only [step, hx]
    rfl
  have hwrap : step (s.put x blank) (.wrapper tmp fd) =
      some ((opened.put x blank).put tmp (.wrapper (.construct fd))) :=
    step_wrapper ((s.objects_put_of_ne blank hne.symm).trans ht) fresh
  have hassign : step ((opened.put x blank).put tmp (.wrapper (.construct fd)))
      (.assignSocket x tmp) = some ((opened.put x socket).put tmp (.wrapper (.construct (-1)))) := by
    have hsocket : ((opened.put x blank).put tmp (.wrapper (.construct fd))).objects x =
        some blank := by
      rw [State.objects_put_of_ne _ _ hne, State.objects_put_self]
    rw [step_assignSocket hsocket (State.objects_put_self _ _ _), State.put_comm _ _ _ hne.symm,
      State.put_put_self, State.put_put_self]
    rfl
  have hgone : step ((opened.put x socket).put tmp (.wrapper (.construct (-1)))) (.destroy tmp) =
      some (opened.put x socket) :=
    step_destroy _ ((opened.objects_put_of_ne socket hne.symm).trans ht)
  have hrun : Lts.run step s [.serverSocket x port, .wrapper tmp fd, .assignSocket x tmp,
      .destroy tmp] = some (opened.put x socket) := by
    rw [Lts.run_cons hbegin, Lts.run_cons hwrap, Lts.run_cons hassign, Lts.run_cons hgone,
      Lts.run_nil]
  unfold ServerSocket.construct
  rw [Lts.run_append hrun]
  cases fails with
  | false => rfl
  | true =>
    have hclosed : step (opened.put x socket) (.destroy x) =
        some { s with opened := close (insert fd s.opened) (fd : Int) } := step_destroy socket hx
    rw [close_insert fresh] at hclosed
    exact Lts.run_cons hclosed

/-- **A connection that is returned** holds the new descriptor; where something throws it is closed. -/
theorem handOver_run {ret tmp : Address} {fd port : Nat} (hr : s.objects ret = none)
    (ht : s.objects tmp = none) (hne : ret ≠ tmp) (fresh : fd ∉ s.opened) (nonBlock throws : Bool) :
    Lts.run step s (handOver ret tmp fd port nonBlock throws) = some (if throws then s else
      State.put { s with opened := insert fd s.opened } ret
        (.connection ⟨.construct fd, ⟨port⟩, ⟨nonBlock⟩⟩)) := by
  let opened : State := { s with opened := insert fd s.opened }
  let connection : Object := .connection ⟨.construct fd, ⟨port⟩, ⟨nonBlock⟩⟩
  have hwrap : step s (.wrapper tmp fd) = some (opened.put tmp (.wrapper (.construct fd))) :=
    step_wrapper ht fresh
  unfold handOver
  rw [Lts.run_cons hwrap]
  cases throws with
  | true =>
    have hclosed : step (opened.put tmp (.wrapper (.construct fd))) (.destroy tmp) =
        some { s with opened := close (insert fd s.opened) (fd : Int) } := step_destroy _ ht
    rw [close_insert fresh] at hclosed
    exact Lts.run_cons hclosed
  | false =>
    have hmove : step (opened.put tmp (.wrapper (.construct fd)))
        (.connection ret tmp port nonBlock) =
          some ((opened.put ret connection).put tmp (.wrapper (.construct (-1)))) := by
      have hfree : (opened.put tmp (.wrapper (.construct fd))).objects ret = none :=
        (opened.objects_put_of_ne _ hne).trans hr
      simp only [step, hfree, State.objects_put_self]
      rw [State.put_comm _ _ _ hne, State.put_put_self, State.put_comm _ _ _ hne.symm]
      rfl
    have hgone : step ((opened.put ret connection).put tmp (.wrapper (.construct (-1))))
        (.destroy tmp) = some (opened.put ret connection) :=
      step_destroy _ ((opened.objects_put_of_ne connection hne.symm).trans ht)
    simp only [Bool.false_eq_true, if_false, List.cons_append, List.nil_append]
    rw [Lts.run_cons hmove, Lts.run_cons hgone, Lts.run_nil]

/-! ## Runs -/

/-- Distinct open descriptors, each wrapped once. -/
def start (fds : List Nat) : State where
  objects x := fds[x]?.map fun (fd : Nat) => .wrapper (.construct fd)
  opened := fds.toFinset

theorem holds_start (fds : List Nat) (x : Address) : (start fds).holds x = fds[x]? := by
  show (fds[x]?.map fun (fd : Nat) => Object.wrapper (.construct fd)).bind Object.held = fds[x]?
  cases fds[x]? <;> rfl

theorem exclusive_start {fds : List Nat} (h : fds.Nodup) :
    Exclusive (start fds).holds (start fds).opened where
  held fd hfd := by
    obtain ⟨x, hx⟩ := List.mem_iff_getElem?.1 (List.mem_toFinset.1 hfd)
    exact ⟨x, by rw [holds_start, hx]⟩
  out {x fd} hx := by
    rw [holds_start] at hx
    exact List.mem_toFinset.2 (List.mem_of_getElem? hx)
  unique {x y fd} hx hy := by
    rw [holds_start] at hx hy
    obtain ⟨hlt, -⟩ := List.getElem?_eq_some_iff.1 hx
    exact (List.getElem?_inj hlt h).1 (hx.trans hy.symm)

theorem owed_start {fds : List Nat} (h : fds.Nodup) (fd : Nat) :
    owed (start fds).opened fd = fds.count fd := by
  rw [h.count]
  simp only [owed, start, List.mem_toFinset]

/-- **Each descriptor is closed exactly once.** In every run from distinct open descriptors that are
wrapped once each: an open descriptor is in the wrapper of exactly one live object, a wrapper holds
no descriptor that is not open, `close()` is called on open descriptors only, and as often as a
descriptor was opened, but for the time it is still open; so when no object is left, none is open
and each has been closed as often as it was opened. -/
theorem closed_exactly_once {fds : List Nat} (h : fds.Nodup)
    (hrun : Lts.run step (start fds) ls = some s) :
    (∀ fd ∈ s.opened, ∃! x, s.holds x = some fd) ∧
    (∀ x fd, s.holds x = some fd → fd ∈ s.opened) ∧
    Lts.Along step (fun m l => ∀ fd, .returned fd ∈ observe m l → fd ∈ m.opened) (start fds) ls ∧
    (∀ fd, fds.count fd + (Lts.history step observe (start fds) ls).count (.taken fd) =
      (Lts.history step observe (start fds) ls).count (.returned fd) + owed s.opened fd) ∧
    ((∀ x, s.objects x = none) → s.opened = ∅ ∧
      ∀ fd, (Lts.history step observe (start fds) ls).count (.returned fd) =
        fds.count fd + (Lts.history step observe (start fds) ls).count (.taken fd)) := by
  have hinit := exclusive_start h
  have hend := simulates.exclusive hinit hrun
  have hbalance : ∀ fd, fds.count fd +
      (Lts.history step observe (start fds) ls).count (.taken fd) =
        (Lts.history step observe (start fds) ls).count (.returned fd) + owed s.opened fd := by
    intro fd
    rw [← owed_start h]
    exact simulates.balance hinit hrun fd
  refine ⟨fun fd => hend.existsUnique, fun x fd => hend.out, simulates.returns hinit hrun, hbalance,
    fun hgone => ?_⟩
  have hempty : s.opened = ∅ := hend.out_eq_empty fun x => State.holds_free (hgone x)
  refine ⟨hempty, fun fd => ?_⟩
  have hfd := hbalance fd
  rw [hempty] at hfd
  simpa [owed] using hfd.symm

/-- Two descriptors; the first is moved on and assigned, and everything is destroyed. -/
def movedRun : List Label :=
  [.connection 2 0 8080 true, .rpcProvider 3 2, .moveConstruct 4 1, .moveAssign 1 4, .moveAssign 1 1,
    .destroy 0, .destroy 2, .destroy 1, .wrapper 0 8, .moveAssign 4 0, .destroy 3, .destroy 0,
    .destroy 4]

theorem closed_exactly_once_moved :
    ∃ s, Lts.run step (start [7, 8]) movedRun = some s ∧ (∀ x, s.objects x = none) ∧ s.opened = ∅ ∧
      (Lts.history step observe (start [7, 8]) movedRun).count (.returned 7) = 1 ∧
      (Lts.history step observe (start [7, 8]) movedRun).count (.returned 8) = 2 := by
  obtain ⟨s, hrun, hgone⟩ : ∃ s, Lts.run step (start [7, 8]) movedRun = some s ∧
      ∀ x, s.objects x = none := by
    refine ⟨_, rfl, fun x => ?_⟩
    rcases x with _ | _ | _ | _ | _ | x <;> rfl
  obtain ⟨-, -, -, -, hend⟩ := closed_exactly_once (by decide) hrun
  obtain ⟨hempty, hcount⟩ := hend hgone
  exact ⟨s, hrun, hgone, hempty, (hcount 7).trans (by decide), (hcount 8).trans (by decide)⟩

end Descriptors

end MbDaemon
