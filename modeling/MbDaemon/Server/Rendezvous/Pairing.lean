import MbDaemon.Server.Rendezvous

/-!
# Every client comes to its own handler

Nothing but the port in the hello message says to whom a connection belongs: a handler accepts
whoever comes to its socket first. While the socket is open nobody else binds its port, so a client on
its way can only come to the handler that was made for it (`Inv`), unless that handler's `Accept`
failed before the client came. Without such a failure every client is served by its own handler and
every handler serves its own client, for any number of clients, in any order of steps
(`own_handler`). When the dispatch thread fails, nobody else is let in (`shut_out`).
-/

namespace MbDaemon

namespace Rendezvous

variable {s s' : Config} {l : Label}

/-! ## Steps -/

inductive Step (s : Config) : Label → Config → Prop where
  | connect {c} (pc : s.client c = .absent) :
      Step s (.connect c (.ok ()))
        { s with client := Function.update s.client c (.hello []), backlog := s.backlog ++ [c] }
  | connectFail {c e} (pc : s.client c = .absent) :
      Step s (.connect c (.error e))
        { s with client := Function.update s.client c (.threw e.what) }
  | recv {c n got} (pc : s.client c = .hello got) (pos : 0 < n) (wanted : got.length + n ≤ 2)
      (there : n ≤ (s.wire c).length) :
      Step s (.recv c n) { s with
        client := Function.update s.client c (received (got ++ (s.wire c).take n)),
        wire := Function.update s.wire c ((s.wire c).drop n) }
  | recvThrow {c l got what} (pc : s.client c = .hello got) :
      Step s l { s with client := Function.update s.client c (.threw what) }
  | join {c port id} (pc : s.client c = .connecting port) (bound : (s.socket id).SockFd = some port) :
      Step s (.join c (.ok id)) { s with
        client := Function.update s.client c (.connected id),
        queue := Function.update s.queue id (s.queue id ++ [c]) }
  | joinFail {c port e} (pc : s.client c = .connecting port) :
      Step s (.join c (.error e)) { s with client := Function.update s.client c (.threw e.what) }
  | accept {c backlog} (pc : s.dispatch = .accept) (front : s.backlog = c :: backlog) :
      Step s (.accept (.ok ())) { s with
        dispatch := .socket c s.accepted.length,
        accepted := s.accepted ++ [c],
        backlog := backlog }
  | acceptFail {e} (pc : s.dispatch = .accept) :
      Step s (.accept (.error e)) { s with dispatch := .ended (acceptWhat e) }
  | socket {c id answers handlerSocket currentPort port} (pc : s.dispatch = .socket c id)
      (created : Server.createHandlerSocket s.currentPort answers =
        some (handlerSocket, currentPort, []))
      (bound : handlerSocket.SockFd = some port) (pos : port ≠ 0) (free : s.portFree port) :
      Step s (.socket answers)
        { s with dispatch := .create c id handlerSocket, currentPort := currentPort }
  | create {c id handlerSocket} (pc : s.dispatch = .create c id handlerSocket) :
      Step s (.create (.ok ())) { s with
        dispatch := .ready c id { handlerSocket with SockFd := none },
        handler := Function.update s.handler id .starting,
        socket := Function.update s.socket id handlerSocket }
  | createFail {c id handlerSocket what} (pc : s.dispatch = .create c id handlerSocket) :
      Step s (.create (.error what)) (s.endIteration c (.ended what))
  | wake {c id handlerSocket} (pc : s.dispatch = .ready c id handlerSocket)
      (up : s.handler id ≠ .starting) :
      Step s .wake
        { s with dispatch := .hello c id (HelloMessage.bytes ⟨handlerSocket.ServerPort⟩) }
  | send {c id left n} (pc : s.dispatch = .hello c id left) (pos : 0 < n) (le : n < left.length) :
      Step s (.send (.ok n)) { s with
        dispatch := .hello c id (left.drop n),
        wire := Function.update s.wire c (s.wire c ++ left.take n) }
  | sendLast {c id left} (pc : s.dispatch = .hello c id left) (pos : 0 < left.length) :
      Step s (.send (.ok left.length))
        ({ s with wire := Function.update s.wire c (s.wire c ++ left) }.endIteration c .accept)
  | sendFail {c id left e} (pc : s.dispatch = .hello c id left) :
      Step s (.send (.error e))
        (s.endIteration c (.ended (fexcept "Send" (errnoWhat (ascii "Failed to send()") e))))
  | start {id} (pc : s.handler id = .starting) :
      Step s (.start id) { s with handler := Function.update s.handler id .accepting }
  | handlerAccept {id c queue} (pc : s.handler id = .accepting) (front : s.queue id = c :: queue) :
      Step s (.handlerAccept id (.ok ())) { s with
        handler := Function.update s.handler id (.serving c),
        queue := Function.update s.queue id queue }
  | handlerAcceptFail {id e} (pc : s.handler id = .accepting) :
      Step s (.handlerAccept id (.error e)) (s.endHandler id)
  | finish {id c} (pc : s.handler id = .serving c) : Step s (.finish id) (s.endHandler id)

theorem client_cases (h : stepClient s l = some s') : Step s l s' := by
  unfold stepClient at h
  split at h
  · split at h
    · next pc => cases h; exact .connect pc
    · next pc => cases h; exact .connectFail pc
    · cases h
  · split at h
    · next pc =>
      split at h
      · next hn => cases h; exact .recv pc hn.1 hn.2.1 hn.2.2
      · cases h
    · cases h
  · split at h
    · next pc =>
      split at h
      · cases h; exact .recvThrow pc
      · cases h
    · cases h
  · split at h
    · next pc => cases h; exact .recvThrow pc
    · cases h
  · split at h
    · next pc =>
      split at h
      · next bound => cases h; exact .join pc bound
      · cases h
    · next pc => cases h; exact .joinFail pc
    · cases h
  · cases h

theorem dispatch_cases (h : stepDispatch s l = some s') : Step s l s' := by
  unfold stepDispatch at h
  split at h
  · split at h
    · next pc front => cases h; exact .accept pc front
    · next pc => cases h; exact .acceptFail pc
    · cases h
  · split at h
    · next pc created =>
      split at h
      · next bound =>
        split at h
        · next ok => cases h; exact .socket pc created bound ok.1 ok.2
        · cases h
      · cases h
    · cases h
  · split at h
    · next pc => cases h; exact .create pc
    · next pc => cases h; exact .createFail pc
    · cases h
  · split at h
    · next pc =>
      split at h
      · next up => cases h; exact .wake pc up
      · cases h
    · cases h
  · split at h
    · next c id left n pc =>
      split at h
      · next hn =>
        split at h
        · next hleft =>
          cases h
          obtain rfl : n = left.length := Nat.le_antisymm hn.2 (List.drop_eq_nil_iff.1 hleft)
          rw [List.take_length]
          exact .sendLast pc hn.1
        · next hleft =>
          cases h
          exact .send pc hn.1 (Nat.lt_of_not_le fun h => hleft (List.drop_eq_nil_iff.2 h))
      · cases h
    · next pc => cases h; exact .sendFail pc
    · cases h
  · cases h

theorem handler_cases (h : stepHandler s l = some s') : Step s l s' := by
  unfold stepHandler at h
  split at h
  · split at h
    · next pc => cases h; exact .start pc
    · cases h
  · split at h
    · next pc front => cases h; exact .handlerAccept pc front
    · next pc => cases h; exact .handlerAcceptFail pc
    · cases h
  · split at h
    · next pc => cases h; exact .finish pc
    · cases h
  · cases h

theorem step_cases (h : step s l = some s') : Step s l s' := by
  unfold step at h
  split at h
  · exact client_cases h
  · exact client_cases h
  · exact client_cases h
  · exact client_cases h
  · exact client_cases h
  · exact dispatch_cases h
  · exact dispatch_cases h
  · exact dispatch_cases h
  · exact dispatch_cases h
  · exact dispatch_cases h
  · exact handler_cases h
  · exact handler_cases h
  · exact handler_cases h

/-! ## What holds on the way -/

/-- The client is inside `Connect` and has been accepted by no handler's socket yet. -/
def ClientPc.onItsWay : ClientPc → Prop
  | .hello _ | .connecting _ => True
  | _ => False

/-- The client has got nothing of a hello message. -/
def ClientPc.untold : ClientPc → Prop
  | .hello got => got = []
  | .connecting _ | .connected _ => False
  | _ => True

/-- Nothing of a hello message has been sent to the client. -/
structure Config.Untold (s : Config) (c : ClientId) : Prop where
  wire : s.wire c = []
  pc : (s.client c).untold

/-- What the client has, what is on its way to it and what is left to send are the message. -/
def Config.Hears (s : Config) (c : ClientId) (left : List Byte) (m : HelloMessage) : Prop :=
  match s.client c with
  | .hello got => got ++ s.wire c ++ left = m.bytes
  | .connecting _ | .connected _ => False
  | _ => True

/-- The socket listens on the port, and tells it or 0. -/
structure Bound (socket : ServerSocket) (port : PortType) : Prop where
  fd : socket.SockFd = some port
  pos : port ≠ 0
  told : socket.ServerPort ≠ 0 → socket.ServerPort = port

def Config.Current (s : Config) : DispatchPc → Prop
  | .accept | .ended _ => True
  | .socket c id => s.handler id = .absent ∧ s.accepted[id]? = some c
  | .create c id handlerSocket =>
    s.handler id = .absent ∧ s.accepted[id]? = some c ∧
      ∃ port, Bound handlerSocket port ∧ ∀ id', (s.socket id').SockFd ≠ some port
  | .ready c id handlerSocket =>
    s.handler id ≠ .absent ∧ s.accepted[id]? = some c ∧
      handlerSocket.ServerPort = (s.socket id).ServerPort ∧ s.Untold c
  | .hello c id left =>
    s.handler id ≠ .absent ∧ s.accepted[id]? = some c ∧ left ≠ [] ∧
      s.Hears c left ⟨(s.socket id).ServerPort⟩

/-- A handler that has been made and not been reached by its client yet. -/
structure Config.Awaits (s : Config) (id : HandlerId) : Prop where
  pc : s.handler id = .starting ∨ s.handler id = .accepting
  queue : s.queue id = []
  listens : ∃ port, (s.socket id).SockFd = some port

structure Inv (s : Config) : Prop where
  once : (s.accepted ++ s.backlog).Nodup
  known : ∀ c, s.client c = .absent → c ∉ s.accepted ++ s.backlog
  waiting : ∀ c, c ∉ s.accepted → s.Untold c
  current : s.Current s.dispatch
  beyond : ∀ id, s.accepted.length ≤ id → s.handler id = .absent
  absent : ∀ id, s.handler id = .absent → s.queue id = [] ∧ (s.socket id).SockFd = none ∧
    ∀ c, s.accepted[id]? = some c → s.Untold c
  hears : ∀ c id got, s.accepted[id]? = some c → s.handler id ≠ .absent → s.client c = .hello got →
    got ++ s.wire c <+: HelloMessage.bytes ⟨(s.socket id).ServerPort⟩
  aims : ∀ c port, s.client c = .connecting port →
    ∃ id, s.accepted[id]? = some c ∧ s.handler id ≠ .absent ∧ port = (s.socket id).ServerPort
  awaited : ∀ c id, s.accepted[id]? = some c → s.handler id ≠ .absent → (s.client c).onItsWay →
    s.Awaits id
  bound : ∀ id port, (s.socket id).SockFd = some port → Bound (s.socket id) port
  apart : ∀ id id' port, (s.socket id).SockFd = some port → (s.socket id').SockFd = some port →
    id = id'
  queued : ∀ c id, c ∈ s.queue id → s.client c = .connected id
  served : ∀ c id, s.handler id = .serving c → s.client c = .connected id
  connected : ∀ c id, s.client c = .connected id → s.accepted[id]? = some c

theorem Config.Current.keep {d : DispatchPc} (h : s.Current d)
    (accepted : ∀ (c : ClientId) (id : HandlerId), s.accepted[id]? = some c →
      s'.accepted[id]? = some c)
    (absent : ∀ id, s'.handler id = .absent ↔ s.handler id = .absent)
    (port : ∀ id, (s'.socket id).ServerPort = (s.socket id).ServerPort)
    (fd : ∀ id p, (s'.socket id).SockFd = some p → (s.socket id).SockFd = some p)
    (untold : ∀ c, c ∈ s.accepted → s.Untold c → s'.Untold c)
    (hears : ∀ c left m, c ∈ s.accepted → left ≠ [] → s.Hears c left m → s'.Hears c left m) :
    s'.Current d := by
  cases d with
  | accept | ended => trivial
  | socket c id => exact ⟨(absent id).2 h.1, accepted c id h.2⟩
  | create c id handlerSocket =>
    obtain ⟨hid, hc, p, hbound, hfree⟩ := h
    exact ⟨(absent id).2 hid, accepted c id hc, p, hbound, fun id' e => hfree id' (fd id' p e)⟩
  | ready c id handlerSocket =>
    obtain ⟨hid, hc, hport, huntold⟩ := h
    exact ⟨fun e => hid ((absent id).1 e), accepted c id hc, hport.trans (port id).symm,
      untold c (List.mem_of_getElem? hc) huntold⟩
  | hello c id left =>
    obtain ⟨hid, hc, hleft, hhears⟩ := h
    refine ⟨fun e => hid ((absent id).1 e), accepted c id hc, hleft, ?_⟩
    rw [port id]
    exact hears c left _ (List.mem_of_getElem? hc) hleft hhears

theorem inv_init : Inv Config.init where
  once := List.nodup_nil
  known := by simp [Config.init]
  waiting := fun _ _ => ⟨rfl, trivial⟩
  current := trivial
  beyond := fun _ _ => rfl
  absent := fun _ _ => ⟨rfl, rfl, fun _ _ => ⟨rfl, trivial⟩⟩
  hears := fun _ _ _ _ h => absurd rfl h
  aims := by simp [Config.init]
  awaited := fun _ _ _ h => absurd rfl h
  bound := by simp [Config.init]
  apart := by simp [Config.init]
  queued := by simp [Config.init]
  served := by simp [Config.init]
  connected := by simp [Config.init]

/-! ## The clients -/

theorem Config.Untold.threw {c u : ClientId} {what : Text} (h : s.Untold u) :
    { s with client := Function.update s.client c (.threw what) }.Untold u := by
  by_cases e : u = c
  · subst e
    exact ⟨h.wire, by simp [ClientPc.untold]⟩
  · exact ⟨h.wire, by simpa [Function.update_of_ne e] using h.pc⟩

theorem Config.Hears.threw {c u : ClientId} {what : Text} {left : List Byte} {m : HelloMessage}
    (h : s.Hears u left m) :
    { s with client := Function.update s.client c (.threw what) }.Hears u left m := by
  unfold Config.Hears at *
  by_cases e : u = c
  · subst e
    simp
  · simpa [Function.update_of_ne e] using h

theorem Inv.threw (hi : Inv s) {c : ClientId} {what : Text} (hc : ∀ id, s.client c ≠ .connected id) :
    Inv { s with client := Function.update s.client c (.threw what) } := by
  have hother : ∀ u p, Function.update s.client c (.threw what) u = p → p ≠ .threw what →
      s.client u = p := by
    intro u p hu hp
    by_cases e : u = c
    · subst e
      rw [Function.update_self] at hu
      exact absurd hu.symm hp
    · rwa [Function.update_of_ne e] at hu
  have hkeep : ∀ u id, s.client u = .connected id →
      Function.update s.client c (.threw what) u = .connected id := by
    intro u id hu
    by_cases e : u = c
    · subst e
      exact absurd hu (hc id)
    · rwa [Function.update_of_ne e]
  refine { hi with
    known := fun u hu => hi.known u (hother u _ hu nofun)
    waiting := fun u hu => (hi.waiting u hu).threw
    current := ?_
    absent := fun id hid => ?_
    hears := fun u id got hu hid hgot => hi.hears u id got hu hid (hother u _ hgot nofun)
    aims := fun u port hu => hi.aims u port (hother u _ hu nofun)
    awaited := fun u id hu hid hway => ?_
    queued := fun u id hu => hkeep u id (hi.queued u id hu)
    served := fun u id hu => hkeep u id (hi.served u id hu)
    connected := fun u id hu => hi.connected u id (hother u _ hu nofun) }
  · exact hi.current.keep (fun _ _ h => h) (fun _ => Iff.rfl) (fun _ => rfl) (fun _ _ h => h)
      (fun _ _ h => h.threw) fun _ _ _ _ _ h => h.threw
  · obtain ⟨hqueue, hsocket, huntold⟩ := hi.absent id hid
    exact ⟨hqueue, hsocket, fun u hu => (huntold u hu).threw⟩
  · have hpc : (s.client u).onItsWay := by
      by_cases e : u = c
      · subst e
        simp [ClientPc.onItsWay] at hway
      · simpa [Function.update_of_ne e] using hway
    obtain ⟨hstage, hqueue, hlistens⟩ := hi.awaited u id hu hid hpc
    exact ⟨hstage, hqueue, hlistens⟩

theorem inv_connect (hi : Inv s) {c : ClientId} (pc : s.client c = .absent) :
    Inv { s with client := Function.update s.client c (.hello []), backlog := s.backlog ++ [c] } := by
  have hnew := hi.known c pc
  have hnacc : c ∉ s.accepted := fun h => hnew (List.mem_append_left _ h)
  have hwire : s.wire c = [] := (hi.waiting c hnacc).wire
  have hother : ∀ u ∈ s.accepted, Function.update s.client c (.hello []) u = s.client u :=
    fun u hu => Function.update_of_ne (fun e : u = c => hnacc (e ▸ hu)) _ _
  have hpc : ∀ u p, Function.update s.client c (.hello []) u = p → p ≠ .hello [] → s.client u = p := by
    intro u p hu hp
    by_cases e : u = c
    · subst e
      rw [Function.update_self] at hu
      exact absurd hu.symm hp
    · rwa [Function.update_of_ne e] at hu
  have hkeep : ∀ u id, s.client u = .connected id →
      Function.update s.client c (.hello []) u = .connected id := by
    intro u id hu
    exact (hother u (List.mem_of_getElem? (hi.connected u id hu))).trans hu
  have huntold : ∀ u, s.Untold u →
      Config.Untold { s with
        client := Function.update s.client c (.hello []), backlog := s.backlog ++ [c] } u := by
    intro u hu
    by_cases e : u = c
    · subst e
      exact ⟨hwire, by simp [ClientPc.untold]⟩
    · exact ⟨hu.wire, by simpa [Function.update_of_ne e] using hu.pc⟩
  exact
    { once := by
        rw [← List.append_assoc]
        exact List.Nodup.append hi.once (List.nodup_singleton c) (by simpa using hnew)
      known := fun u hu => by
        by_cases e : u = c
        · subst e
          simp at hu
        · have hold := hi.known u (by simpa [Function.update_of_ne e] using hu)
          simp only [List.mem_append, List.mem_singleton, not_or] at hold ⊢
          exact ⟨hold.1, hold.2, e⟩
      waiting := fun u hu => huntold u (hi.waiting u hu)
      current := hi.current.keep (fun _ _ h => h) (fun _ => Iff.rfl) (fun _ => rfl) (fun _ _ h => h)
        (fun u _ h => huntold u h) fun u left m hu _ h => by
          unfold Config.Hears at *
          simpa only [hother u hu] using h
      beyond := hi.beyond
      absent := fun id hid => by
        obtain ⟨hqueue, hsocket, hold⟩ := hi.absent id hid
        exact ⟨hqueue, hsocket, fun u hu => huntold u (hold u hu)⟩
      hears := fun u id got hu hid hgot =>
        hi.hears u id got hu hid ((hother u (List.mem_of_getElem? hu)).symm.trans hgot)
      aims := fun u port hu => hi.aims u port (hpc u _ hu nofun)
      awaited := fun u id hu hid hway => by
        have hold := hother u (List.mem_of_getElem? hu)
        simp only [hold] at hway
        obtain ⟨hstage, hqueue, hlistens⟩ := hi.awaited u id hu hid hway
        exact ⟨hstage, hqueue, hlistens⟩
      bound := hi.bound
      apart := hi.apart
      queued := fun u id hu => hkeep u id (hi.queued u id hu)
      served := fun u id hu => hkeep u id (hi.served u id hu)
      connected := fun u id hu => hi.connected u id (hpc u _ hu nofun) }

/-- A client with a prefix of the message goes on, or has it all. -/
theorem received_cases {got : List Byte} {m : HelloMessage} (h : got <+: m.bytes) :
    (got ≠ m.bytes ∧ received got = .hello got) ∨
      (got = m.bytes ∧ received got = .connecting m.Port) := by
  by_cases e : got = m.bytes
  · refine .inr ⟨e, ?_⟩
    rw [e, received, HelloMessage.ofBytes_bytes]
  · refine .inl ⟨e, ?_⟩
    match got, h with
    | [], _ => rfl
    | [_], _ => rfl
    | [b0, b1], h => exact absurd (h.eq_of_length rfl) e
    | _ :: _ :: _ :: _, h =>
      have := h.length_le
      simp [HelloMessage.bytes] at this

/-- A client that has bytes before it has been accepted, and its handler has been made. -/
theorem Inv.made (hi : Inv s) {c : ClientId} (h : s.wire c ≠ []) :
    ∃ id : HandlerId, s.accepted[id]? = some c ∧ s.handler id ≠ .absent := by
  have hacc : c ∈ s.accepted := by
    by_contra hnot
    exact h (hi.waiting c hnot).wire
  obtain ⟨id, hid⟩ := List.getElem?_of_mem hacc
  exact ⟨id, hid, fun e => h ((hi.absent id e).2.2 c hid).wire⟩

theorem inv_recv (hi : Inv s) {c : ClientId} {n : Nat} {got : List Byte} (pc : s.client c = .hello got)
    (pos : 0 < n) (there : n ≤ (s.wire c).length) :
    Inv { s with
      client := Function.update s.client c (received (got ++ (s.wire c).take n)),
      wire := Function.update s.wire c ((s.wire c).drop n) } := by
  have hwire : s.wire c ≠ [] := fun e => by
    rw [e, List.length_nil] at there
    omega
  obtain ⟨id, hid, hmade⟩ := hi.made hwire
  have hprefix := hi.hears c id got hid hmade pc
  have hsplit : got ++ (s.wire c).take n ++ (s.wire c).drop n = got ++ s.wire c := by
    rw [List.append_assoc, List.take_append_drop]
  have hcases := received_cases ((List.prefix_append _ ((s.wire c).drop n)).trans
    (hsplit ▸ hprefix))
  have hunique : ∀ id' : HandlerId, s.accepted[id']? = some c → id' = id := fun id' h =>
    (List.getElem?_inj (List.getElem?_eq_some_iff.1 h).1
      (hi.once.sublist (List.sublist_append_left _ _))).1 (h.trans hid.symm)
  have hconnected : ∀ id, received (got ++ (s.wire c).take n) ≠ .connected id := by
    rcases hcases with ⟨-, e⟩ | ⟨-, e⟩ <;> simp [e]
  have hnone : received (got ++ (s.wire c).take n) ≠ .absent := by
    rcases hcases with ⟨-, e⟩ | ⟨-, e⟩ <;> simp [e]
  have huntold : ∀ u, s.Untold u → u ≠ c := by
    rintro u hu rfl
    exact hwire hu.wire
  have hkeep : ∀ u id, s.client u = .connected id → u ≠ c := by
    rintro u id hu rfl
    rw [pc] at hu
    cases hu
  have hother : ∀ u, s.Untold u → Config.Untold { s with
      client := Function.update s.client c (received (got ++ (s.wire c).take n)),
      wire := Function.update s.wire c ((s.wire c).drop n) } u := by
    intro u hu
    have e := huntold u hu
    exact ⟨by simpa [Function.update_of_ne e] using hu.wire,
      by simpa [Function.update_of_ne e] using hu.pc⟩
  exact
    { hi with
      known := fun u hu => by
        by_cases e : u = c
        · subst e
          exact absurd (by simpa using hu) hnone
        · exact hi.known u (by simpa [Function.update_of_ne e] using hu)
      waiting := fun u hu => hother u (hi.waiting u hu)
      current := by
        refine Config.Current.keep hi.current (fun _ _ h => h) (fun _ => Iff.rfl) (fun _ => rfl)
          (fun _ _ h => h) (fun u _ h => hother u h) fun u left m _ hleft h => ?_
        unfold Config.Hears at *
        by_cases e : u = c
        · subst e
          simp only [pc] at h
          -- something is left, so that the message is not there yet
          have hmore : received (got ++ (s.wire u).take n) = .hello (got ++ (s.wire u).take n) := by
            have hpre : got ++ (s.wire u).take n <+: m.bytes :=
              ⟨(s.wire u).drop n ++ left, by rw [← List.append_assoc, hsplit, h]⟩
            rcases received_cases hpre with ⟨-, e⟩ | ⟨hall, -⟩
            · exact e
            · rw [← hsplit, hall, List.append_assoc] at h
              have hnil := List.append_eq_nil_iff.1 (List.append_right_eq_self.1 h)
              exact absurd hnil.2 hleft
          simp only [Function.update_self, hmore, hsplit, h]
        · simpa only [Function.update_of_ne e] using h
      absent := fun id hid => by
        obtain ⟨hqueue, hsocket, hold⟩ := hi.absent id hid
        exact ⟨hqueue, hsocket, fun u hu => hother u (hold u hu)⟩
      hears := fun u id' got' hu hid' hgot => by
        by_cases e : u = c
        · subst e
          obtain rfl := hunique id' hu
          simp only [Function.update_self] at hgot ⊢
          rcases hcases with ⟨-, e⟩ | ⟨-, e⟩
          · rw [e] at hgot
            cases hgot
            rw [hsplit]
            exact hprefix
          · rw [e] at hgot
            cases hgot
        · simp only [Function.update_of_ne e] at hgot ⊢
          exact hi.hears u id' got' hu hid' hgot
      aims := fun u port hu => by
        by_cases e : u = c
        · subst e
          simp only [Function.update_self] at hu
          rcases hcases with ⟨-, e⟩ | ⟨-, e⟩
          · rw [e] at hu
            cases hu
          · rw [e] at hu
            cases hu
            exact ⟨id, hid, hmade, rfl⟩
        · exact hi.aims u port (by simpa [Function.update_of_ne e] using hu)
      awaited := fun u id' hu hid' hway => by
        have hold : (s.client u).onItsWay := by
          by_cases e : u = c
          · subst e
            rw [pc]
            trivial
          · simpa [Function.update_of_ne e] using hway
        obtain ⟨hstage, hqueue, hlistens⟩ := hi.awaited u id' hu hid' hold
        exact ⟨hstage, hqueue, hlistens⟩
      queued := fun u id' hu => by
        have hold := hi.queued u id' hu
        simpa [Function.update_of_ne (hkeep u id' hold)] using hold
      served := fun u id' hu => by
        have hold := hi.served u id' hu
        simpa [Function.update_of_ne (hkeep u id' hold)] using hold
      connected := fun u id' hu => by
        by_cases e : u = c
        · subst e
          exact absurd (by simpa using hu) (hconnected id')
        · exact hi.connected u id' (by simpa [Function.update_of_ne e] using hu) }

/-- **A client on its way comes to the handler that was made for it.** -/
theorem Inv.joins (hi : Inv s) {c : ClientId} {port : PortType} {id : HandlerId}
    (pc : s.client c = .connecting port) (bound : (s.socket id).SockFd = some port) :
    s.accepted[id]? = some c ∧ s.Awaits id := by
  obtain ⟨own, hown, hmade, rfl⟩ := hi.aims c port pc
  have hawaits := hi.awaited c own hown hmade (by rw [pc]; trivial)
  obtain ⟨q, hq⟩ := hawaits.listens
  have hpos := (hi.bound id _ bound).pos
  have htold := (hi.bound own q hq).told hpos
  obtain rfl : own = id := hi.apart own id _ (htold ▸ hq) bound
  exact ⟨hown, hawaits⟩

theorem inv_join (hi : Inv s) {c : ClientId} {port : PortType} {id : HandlerId}
    (pc : s.client c = .connecting port) (bound : (s.socket id).SockFd = some port) :
    Inv { s with
      client := Function.update s.client c (.connected id),
      queue := Function.update s.queue id (s.queue id ++ [c]) } := by
  obtain ⟨hid, hawaits⟩ := hi.joins pc bound
  have huntold : ∀ u, s.Untold u → Config.Untold { s with
      client := Function.update s.client c (.connected id),
      queue := Function.update s.queue id (s.queue id ++ [c]) } u := by
    intro u hu
    have e : u ≠ c := by
      rintro rfl
      have := hu.pc
      rw [pc] at this
      exact this
    exact ⟨hu.wire, by simpa [Function.update_of_ne e] using hu.pc⟩
  have hkeep : ∀ u id', s.client u = .connected id' → u ≠ c := by
    rintro u id' hu rfl
    rw [pc] at hu
    cases hu
  have hold : ∀ u p, Function.update s.client c (.connected id) u = p → p ≠ .connected id →
      s.client u = p := by
    intro u p hu hp
    by_cases e : u = c
    · subst e
      rw [Function.update_self] at hu
      exact absurd hu.symm hp
    · rwa [Function.update_of_ne e] at hu
  have hstays : ∀ u id', s.client u = .connected id' →
      Function.update s.client c (.connected id) u = .connected id' := fun u id' hu => by
    rw [Function.update_of_ne (hkeep u id' hu), hu]
  exact
    { hi with
      known := fun u hu => hi.known u (hold u _ hu nofun)
      waiting := fun u hu => huntold u (hi.waiting u hu)
      current := by
        refine Config.Current.keep hi.current (fun _ _ h => h) (fun _ => Iff.rfl) (fun _ => rfl)
          (fun _ _ h => h) (fun u _ h => huntold u h) fun u left m _ _ h => ?_
        unfold Config.Hears at *
        by_cases e : u = c
        · subst e
          rw [pc] at h
          cases h
        · simpa only [Function.update_of_ne e] using h
      absent := fun id' hid' => by
        obtain ⟨hqueue, hsocket, hall⟩ := hi.absent id' hid'
        have e : id' ≠ id := by
          rintro rfl
          rcases hawaits.pc with h | h <;> rw [h] at hid' <;> cases hid'
        exact ⟨by simpa [Function.update_of_ne e] using hqueue, hsocket,
          fun u hu => huntold u (hall u hu)⟩
      hears := fun u id' got hu hid' hgot => hi.hears u id' got hu hid' (hold u _ hgot nofun)
      aims := fun u port hu => hi.aims u port (hold u _ hu nofun)
      awaited := fun u id' hu hid' hway => by
        by_cases e : u = c
        · subst e
          simp [ClientPc.onItsWay] at hway
        · have hne : id' ≠ id := by
            rintro rfl
            exact e (Option.some.inj (hu.symm.trans hid))
          obtain ⟨hstage, hqueue, hlistens⟩ :=
            hi.awaited u id' hu hid' (by simpa [Function.update_of_ne e] using hway)
          exact ⟨hstage, by simpa [Function.update_of_ne hne] using hqueue, hlistens⟩
      queued := fun u id' hu => by
        by_cases e : id' = id
        · subst e
          obtain rfl : u = c := by simpa [hawaits.queue] using hu
          exact Function.update_self _ _ _
        · exact hstays u id' (hi.queued u id' (by simpa [Function.update_of_ne e] using hu))
      served := fun u id' hu => hstays u id' (hi.served u id' hu)
      connected := fun u id' hu => by
        by_cases e : u = c
        · subst e
          obtain rfl : id = id' := by simpa using hu
          exact hid
        · exact hi.connected u id' (by simpa [Function.update_of_ne e] using hu) }

/-! ## The dispatch thread -/

theorem Inv.move (hi : Inv s) {d : DispatchPc} {currentPort : USize} {closed : ClientId → Bool}
    (h : s.Current d) :
    Inv { s with dispatch := d, currentPort := currentPort, closed := closed } where
  once := hi.once
  known := hi.known
  waiting := fun u hu => ⟨(hi.waiting u hu).wire, (hi.waiting u hu).pc⟩
  current := Config.Current.keep h (fun _ _ h => h) (fun _ => Iff.rfl) (fun _ => rfl)
    (fun _ _ h => h) (fun _ _ h => ⟨h.wire, h.pc⟩) fun _ _ _ _ _ h => h
  beyond := hi.beyond
  absent := fun id hid => by
    obtain ⟨hqueue, hsocket, hold⟩ := hi.absent id hid
    exact ⟨hqueue, hsocket, fun u hu => ⟨(hold u hu).wire, (hold u hu).pc⟩⟩
  hears := hi.hears
  aims := hi.aims
  awaited := fun u id hu hid hway =>
    ⟨(hi.awaited u id hu hid hway).pc, (hi.awaited u id hu hid hway).queue,
      (hi.awaited u id hu hid hway).listens⟩
  bound := hi.bound
  apart := hi.apart
  queued := hi.queued
  served := hi.served
  connected := hi.connected

/-- An open socket is bound to a port that it tells, or tells 0. -/
theorem bound_of_created {answers : List ServerSocket.Answer} {currentPort currentPort' : USize}
    {socket : ServerSocket} {port : PortType}
    (h : Server.createHandlerSocket currentPort answers = some (socket, currentPort', []))
    (fd : socket.SockFd = some port) (pos : port ≠ 0) : Bound socket port := by
  rw [← @USize.ofNat_toNat currentPort] at h
  obtain ⟨k, chosen, -, -, hnew⟩ := Server.createHandlerSocket_some h
  cases hnew
  refine ⟨fd, pos, fun hne => ?_⟩
  have hport : ServerSocket.bindPort currentPort'.toUInt16 chosen = port := Option.some.inj fd
  rwa [ServerSocket.bindPort, if_neg hne] at hport

theorem inv_accept (hi : Inv s) {c : ClientId} {backlog : List ClientId}
    (front : s.backlog = c :: backlog) :
    Inv { s with
      dispatch := .socket c s.accepted.length,
      accepted := s.accepted ++ [c],
      backlog := backlog } := by
  have hsame : s.accepted ++ [c] ++ backlog = s.accepted ++ s.backlog := by
    rw [front, List.append_assoc, List.singleton_append]
  have honce := hi.once
  rw [front] at honce
  have hnew : c ∉ s.accepted := fun h =>
    (List.nodup_append.1 honce).2.2 c h c List.mem_cons_self rfl
  have hold : ∀ (u : ClientId) (id : HandlerId), (s.accepted ++ [c])[id]? = some u →
      s.accepted[id]? = some u ∨ (id = s.accepted.length ∧ u = c) := by
    intro u id hu
    rcases Nat.lt_trichotomy id s.accepted.length with hlt | rfl | hgt
    · exact .inl (by rwa [List.getElem?_append_left hlt] at hu)
    · exact .inr ⟨rfl, by simpa using hu.symm⟩
    · rw [List.getElem?_eq_none (by simp; omega)] at hu
      cases hu
  have hlast := hi.beyond s.accepted.length (Nat.le_refl _)
  have huntold := hi.waiting c hnew
  exact
    { once := by rw [hsame]; exact hi.once
      known := fun u hu => by rw [hsame]; exact hi.known u hu
      waiting := fun u hu => by
        have := hi.waiting u fun h => hu (List.mem_append_left _ h)
        exact ⟨this.wire, this.pc⟩
      current := ⟨hlast, by simp⟩
      beyond := fun id hid => hi.beyond id (by simp at hid; omega)
      absent := fun id hid => by
        obtain ⟨hqueue, hsocket, hall⟩ := hi.absent id hid
        refine ⟨hqueue, hsocket, fun u hu => ?_⟩
        rcases hold u id hu with h | ⟨-, rfl⟩
        · exact ⟨(hall u h).wire, (hall u h).pc⟩
        · exact ⟨huntold.wire, huntold.pc⟩
      hears := fun u id got hu hid hgot => by
        rcases hold u id hu with h | ⟨rfl, -⟩
        · exact hi.hears u id got h hid hgot
        · exact absurd hlast hid
      aims := fun u port hu => by
        obtain ⟨id, hid, hmade, hport⟩ := hi.aims u port hu
        exact ⟨id, List.getElem?_append_left (List.getElem?_eq_some_iff.1 hid).1 ▸ hid, hmade, hport⟩
      awaited := fun u id hu hid hway => by
        rcases hold u id hu with h | ⟨rfl, -⟩
        · exact ⟨(hi.awaited u id h hid hway).pc, (hi.awaited u id h hid hway).queue,
            (hi.awaited u id h hid hway).listens⟩
        · exact absurd hlast hid
      bound := hi.bound
      apart := hi.apart
      queued := hi.queued
      served := hi.served
      connected := fun u id hu => by
        have h := hi.connected u id hu
        exact List.getElem?_append_left (List.getElem?_eq_some_iff.1 h).1 ▸ h }

theorem inv_create (hi : Inv s) {c : ClientId} {id : HandlerId} {handlerSocket : ServerSocket}
    (h : s.Current (.create c id handlerSocket)) :
    Inv { s with
      dispatch := .ready c id { handlerSocket with SockFd := none },
      handler := Function.update s.handler id .starting,
      socket := Function.update s.socket id handlerSocket } := by
  obtain ⟨hnone, hid, port, hbound, hfree⟩ := h
  obtain ⟨hqueue, hsocket, hall⟩ := hi.absent id hnone
  have huntold := hall c hid
  have hown : ∀ u, s.accepted[id]? = some u → u = c := fun u hu =>
    Option.some.inj (hu.symm.trans hid)
  exact
    { once := hi.once
      known := hi.known
      waiting := fun u hu => ⟨(hi.waiting u hu).wire, (hi.waiting u hu).pc⟩
      current := ⟨by simp, hid, by simp, huntold.wire, huntold.pc⟩
      beyond := fun id' hlen => by
        have e : id' ≠ id := by
          rintro rfl
          rw [List.getElem?_eq_none hlen] at hid
          cases hid
        simpa [Function.update_of_ne e] using hi.beyond id' hlen
      absent := fun id' hid' => by
        by_cases e : id' = id
        · subst e
          simp at hid'
        · obtain ⟨hq, hs, hu⟩ := hi.absent id' (by simpa [Function.update_of_ne e] using hid')
          exact ⟨hq, by simpa [Function.update_of_ne e] using hs,
            fun u h => ⟨(hu u h).wire, (hu u h).pc⟩⟩
      hears := fun u id' got hu hid' hgot => by
        by_cases e : id' = id
        · subst e
          obtain rfl := hown u hu
          have hnil : got = [] := by
            have := huntold.pc
            rw [show s.client u = .hello got from hgot] at this
            exact this
          rw [show got ++ s.wire u = [] by rw [hnil, huntold.wire, List.nil_append]]
          exact List.nil_prefix
        · simpa [Function.update_of_ne e] using
            hi.hears u id' got hu (by simpa [Function.update_of_ne e] using hid') hgot
      aims := fun u p hu => by
        obtain ⟨id', hid', hmade, hport⟩ := hi.aims u p hu
        have e : id' ≠ id := fun e => hmade (e ▸ hnone)
        exact ⟨id', hid', by simpa [Function.update_of_ne e] using hmade,
          by simpa [Function.update_of_ne e] using hport⟩
      awaited := fun u id' hu hid' hway => by
        by_cases e : id' = id
        · subst e
          exact ⟨by simp, hqueue, port, by simpa using hbound.fd⟩
        · obtain ⟨hpc, hq, hl⟩ :=
            hi.awaited u id' hu (by simpa [Function.update_of_ne e] using hid') hway
          exact ⟨by simpa [Function.update_of_ne e] using hpc, hq,
            by simpa [Function.update_of_ne e] using hl⟩
      bound := fun id' p hp => by
        by_cases e : id' = id
        · subst e
          simp only [Function.update_self] at hp ⊢
          obtain rfl : port = p := Option.some.inj (hbound.fd.symm.trans hp)
          exact hbound
        · simp only [Function.update_of_ne e] at hp ⊢
          exact hi.bound id' p hp
      apart := fun id' id'' p hp hp' => by
        by_cases e : id' = id <;> by_cases e' : id'' = id
        · rw [e, e']
        · subst e
          simp only [Function.update_self, Function.update_of_ne e'] at hp hp'
          obtain rfl : port = p := Option.some.inj (hbound.fd.symm.trans hp)
          exact absurd hp' (hfree id'')
        · subst e'
          simp only [Function.update_self, Function.update_of_ne e] at hp hp'
          obtain rfl : port = p := Option.some.inj (hbound.fd.symm.trans hp')
          exact absurd hp (hfree id')
        · simp only [Function.update_of_ne e, Function.update_of_ne e'] at hp hp'
          exact hi.apart id' id'' p hp hp'
      queued := hi.queued
      served := fun u id' hu => by
        by_cases e : id' = id
        · subst e
          simp at hu
        · exact hi.served u id' (by simpa [Function.update_of_ne e] using hu)
      connected := hi.connected }

theorem inv_send (hi : Inv s) {c : ClientId} {id : HandlerId} {sent rest : List Byte}
    (h : s.Current (.hello c id (sent ++ rest))) {d : DispatchPc}
    (hd : d = .accept ∨ rest ≠ [] ∧ d = .hello c id rest) :
    Inv { s with dispatch := d, wire := Function.update s.wire c (s.wire c ++ sent) } := by
  obtain ⟨hmade, hid, hleft, hhears⟩ := h
  have hacc : c ∈ s.accepted := List.mem_of_getElem? hid
  have hunique : ∀ id' : HandlerId, s.accepted[id']? = some c → id' = id := fun id' h =>
    (List.getElem?_inj (List.getElem?_eq_some_iff.1 h).1
      (hi.once.sublist (List.sublist_append_left _ _))).1 (h.trans hid.symm)
  have hother : ∀ u, u ≠ c → s.Untold u → Config.Untold { s with
      dispatch := d, wire := Function.update s.wire c (s.wire c ++ sent) } u := by
    intro u e hu
    exact ⟨by simpa [Function.update_of_ne e] using hu.wire, hu.pc⟩
  exact
    { once := hi.once
      known := hi.known
      waiting := fun u hu => hother u (fun e => hu (e ▸ hacc)) (hi.waiting u hu)
      current := by
        rcases hd with rfl | ⟨hrest, rfl⟩
        · trivial
        · refine ⟨hmade, hid, hrest, ?_⟩
          unfold Config.Hears at *
          cases hpc : s.client c with
          | hello got =>
            simp only [hpc] at hhears
            simpa [hpc, List.append_assoc] using hhears
          | _ => simp_all
      beyond := hi.beyond
      absent := fun id' hid' => by
        obtain ⟨hqueue, hsocket, hall⟩ := hi.absent id' hid'
        refine ⟨hqueue, hsocket, fun u hu => hother u ?_ (hall u hu)⟩
        rintro rfl
        exact hmade (hunique id' hu ▸ hid')
      hears := fun u id' got hu hid' hgot => by
        by_cases e : u = c
        · subst e
          obtain rfl := hunique id' hu
          unfold Config.Hears at hhears
          rw [show s.client u = .hello got from hgot] at hhears
          simp only [Function.update_self]
          exact ⟨rest, by simpa [List.append_assoc] using hhears⟩
        · simpa [Function.update_of_ne e] using hi.hears u id' got hu hid' hgot
      aims := hi.aims
      awaited := fun u id' hu hid' hway =>
        ⟨(hi.awaited u id' hu hid' hway).pc, (hi.awaited u id' hu hid' hway).queue,
          (hi.awaited u id' hu hid' hway).listens⟩
      bound := hi.bound
      apart := hi.apart
      queued := hi.queued
      served := hi.served
      connected := hi.connected }

/-! ## The handlers -/

/-- A handler that has been made goes on, takes connections from its queue or closes its socket. -/
theorem Inv.handled (hi : Inv s) {id : HandlerId} {p : HandlerPc} {queue : List ClientId}
    {fd : Option PortType} (made : s.handler id ≠ .absent) (stays : p ≠ .absent)
    (awaited : ∀ c, s.accepted[id]? = some c → (s.client c).onItsWay → s.Awaits id →
      (p = .starting ∨ p = .accepting) ∧ queue = [] ∧ fd = (s.socket id).SockFd)
    (taken : ∀ c ∈ queue, c ∈ s.queue id)
    (closed : ∀ port, fd = some port → (s.socket id).SockFd = some port)
    (served : ∀ c, p = .serving c → s.client c = .connected id) :
    Inv { s with
      handler := Function.update s.handler id p,
      queue := Function.update s.queue id queue,
      socket := Function.update s.socket id { s.socket id with SockFd := fd } } := by
  have habsent : ∀ id', Function.update s.handler id p id' = .absent ↔ s.handler id' = .absent := by
    intro id'
    by_cases e : id' = id
    · subst e
      simp [stays, made]
    · rw [Function.update_of_ne e]
  have hport : ∀ id', (Function.update s.socket id { s.socket id with SockFd := fd } id').ServerPort =
      (s.socket id').ServerPort := by
    intro id'
    by_cases e : id' = id
    · subst e
      simp
    · rw [Function.update_of_ne e]
  have hfd : ∀ id' port,
      (Function.update s.socket id { s.socket id with SockFd := fd } id').SockFd = some port →
        (s.socket id').SockFd = some port := by
    intro id' port h
    by_cases e : id' = id
    · subst e
      exact closed port (by simpa using h)
    · rwa [Function.update_of_ne e] at h
  exact
    { hi with
      waiting := fun u hu => ⟨(hi.waiting u hu).wire, (hi.waiting u hu).pc⟩
      current := Config.Current.keep hi.current (fun _ _ h => h) habsent hport hfd
        (fun _ _ h => ⟨h.wire, h.pc⟩) fun _ _ _ _ _ h => h
      beyond := fun id' hlen => (habsent id').2 (hi.beyond id' hlen)
      absent := fun id' hid' => by
        have hold := (habsent id').1 hid'
        obtain ⟨hq, hs, hu⟩ := hi.absent id' hold
        have e : id' ≠ id := fun e => made (e ▸ hold)
        exact ⟨by simpa [Function.update_of_ne e] using hq,
          by simpa [Function.update_of_ne e] using hs, fun u h => ⟨(hu u h).wire, (hu u h).pc⟩⟩
      hears := fun u id' got hu hid' hgot => by
        have := hi.hears u id' got hu (fun h => hid' ((habsent id').2 h)) hgot
        simpa only [hport] using this
      aims := fun u port hu => by
        obtain ⟨id', hid', hmade, hto⟩ := hi.aims u port hu
        exact ⟨id', hid', fun h => hmade ((habsent id').1 h), hto.trans (hport id').symm⟩
      awaited := fun u id' hu hid' hway => by
        have hold := hi.awaited u id' hu (fun h => hid' ((habsent id').2 h)) hway
        by_cases e : id' = id
        · subst e
          obtain ⟨hp, hq, hfd'⟩ := awaited u hu hway hold
          exact ⟨by simpa using hp, by simpa using hq, by simpa [hfd'] using hold.listens⟩
        · exact ⟨by simpa [Function.update_of_ne e] using hold.pc,
            by simpa [Function.update_of_ne e] using hold.queue,
            by simpa [Function.update_of_ne e] using hold.listens⟩
      bound := fun id' port h => by
        have hold := hi.bound id' port (hfd id' port h)
        exact ⟨h, hold.pos, fun hne => (hport id').trans (hold.told (hport id' ▸ hne))⟩
      apart := fun id' id'' port h h' => hi.apart id' id'' port (hfd id' port h) (hfd id'' port h')
      queued := fun u id' hu => by
        by_cases e : id' = id
        · subst e
          exact hi.queued u id' (taken u (by simpa using hu))
        · exact hi.queued u id' (by simpa [Function.update_of_ne e] using hu)
      served := fun u id' hu => by
        by_cases e : id' = id
        · subst e
          exact served u (by simpa using hu)
        · exact hi.served u id' (by simpa [Function.update_of_ne e] using hu) }

theorem inv_endHandler (hi : Inv s) {id : HandlerId} (made : s.handler id ≠ .absent)
    (reached : ¬ s.Awaits id) : Inv (s.endHandler id) := by
  have h := hi.handled made (show HandlerPc.ended ≠ .absent by decide)
    (fun c _ _ hawaits => absurd hawaits reached) (fun c hc => hc)
    (show ∀ port, (none : Option PortType) = some port → (s.socket id).SockFd = some port by simp)
    (by simp)
  rwa [Function.update_eq_self] at h

/-- A handler's `Accept` fails only when its client has come. -/
def Heeds (s : Config) : Label → Prop
  | .handlerAccept id (.error _) => s.queue id ≠ []
  | _ => True

instance (s : Config) : (l : Label) → Decidable (Heeds s l)
  | .handlerAccept id (.error _) => inferInstanceAs (Decidable (s.queue id ≠ []))
  | .handlerAccept _ (.ok _) => .isTrue trivial
  | .connect _ _ | .recv _ _ | .recvEnd _ | .recvFail _ _ | .join _ _ | .accept _ | .socket _
  | .create _ | .start _ | .wake | .send _ | .finish _ => .isTrue trivial

theorem inv_step (hi : Inv s) (hl : Heeds s l) (hs : step s l = some s') : Inv s' := by
  have hcurrent := hi.current
  cases step_cases hs with
  | connect pc => exact inv_connect hi pc
  | connectFail pc => exact hi.threw fun id e => by rw [pc] at e; cases e
  | recv pc pos _ there => exact inv_recv hi pc pos there
  | recvThrow pc => exact hi.threw fun id e => by rw [pc] at e; cases e
  | join pc bound => exact inv_join hi pc bound
  | joinFail pc => exact hi.threw fun id e => by rw [pc] at e; cases e
  | accept _ front => exact inv_accept hi front
  | acceptFail => exact hi.move trivial
  | @socket c id answers handlerSocket currentPort port pc created bound pos free =>
    rw [pc] at hcurrent
    refine hi.move ⟨hcurrent.1, hcurrent.2, port, bound_of_created created bound pos, fun id' e => ?_⟩
    rcases Nat.lt_or_ge id' s.accepted.length with hlt | hge
    · exact free id' hlt e
    · rw [(hi.absent id' (hi.beyond id' hge)).2.1] at e
      cases e
  | create pc =>
    rw [pc] at hcurrent
    exact inv_create hi hcurrent
  | createFail => exact hi.move trivial
  | @wake c id handlerSocket pc up =>
    rw [pc] at hcurrent
    obtain ⟨hmade, hid, hport, huntold⟩ := hcurrent
    refine hi.move ⟨hmade, hid, by simp [HelloMessage.bytes], ?_⟩
    have hpc := huntold.pc
    unfold Config.Hears
    cases hc : s.client c with
    | hello got =>
      rw [hc] at hpc
      rw [show got = [] from hpc, huntold.wire, hport]
      rfl
    | connecting | connected => rw [hc] at hpc; exact hpc
    | absent | threw => trivial
  | @send c id left n pc pos le =>
    rw [pc, ← List.take_append_drop n left] at hcurrent
    exact inv_send hi hcurrent (.inr ⟨fun h => by have := List.drop_eq_nil_iff.1 h; omega, rfl⟩)
  | @sendLast c id left pc pos =>
    rw [pc, ← List.append_nil left] at hcurrent
    have h := inv_send hi hcurrent (.inl rfl)
    exact h.move trivial
  | sendFail => exact hi.move trivial
  | @start id pc =>
    have h := hi.handled (show s.handler id ≠ .absent by rw [pc]; decide)
      (show HandlerPc.accepting ≠ .absent by decide)
      (fun c _ _ hawaits => ⟨.inr rfl, hawaits.queue, rfl⟩) (fun c hc => hc)
      (fun port h => h) (by simp)
    simpa using h
  | @handlerAccept id c queue pc front =>
    have hqueued : ∀ u, u ∈ c :: queue → s.client u = .connected id := fun u hu =>
      hi.queued u id (by rw [front]; exact hu)
    have h := hi.handled (show s.handler id ≠ .absent by rw [pc]; decide)
      (show HandlerPc.serving c ≠ .absent by simp)
      (fun u _ _ hawaits => by have := hawaits.queue; rw [front] at this; cases this)
      (show ∀ u ∈ queue, u ∈ s.queue id by
        intro u hu; rw [front]; exact List.mem_cons_of_mem c hu)
      (show ∀ port, (s.socket id).SockFd = some port → _ from fun port h => h)
      (fun u hu => by cases hu; exact hqueued c List.mem_cons_self)
    simpa using h
  | @handlerAcceptFail id e pc =>
    refine inv_endHandler hi (by rw [pc]; decide) fun hawaits => ?_
    exact hl hawaits.queue
  | @finish id c pc =>
    refine inv_endHandler hi (by rw [pc]; simp) fun hawaits => ?_
    rcases hawaits.pc with h | h <;> rw [pc] at h <;> cases h

/-- **Every client comes to its own handler.** In every run in which no handler's `Accept` fails before
its client has come, whatever else fails and in whatever order and pieces everything happens: a client
whose `Connect` has returned is connected to the handler of the iteration that accepted it, a handler
serves the client of its own iteration, no two clients share a handler and no two handlers a client;
and while a client is on its way to a port other than 0, its own handler listens there, with nobody
else in its queue. -/
theorem own_handler {ls : List Label} (h : Lts.run step Config.init ls = some s)
    (ha : Lts.Along step Heeds Config.init ls) :
    (∀ c id, s.client c = .connected id → s.accepted[id]? = some c) ∧
    (∀ c id, s.handler id = .serving c → s.client c = .connected id ∧ s.accepted[id]? = some c) ∧
    (∀ c c' id, s.client c = .connected id → s.client c' = .connected id → c = c') ∧
    (∀ c id id', s.handler id = .serving c → s.handler id' = .serving c → id = id') ∧
    ∀ c port, s.client c = .connecting port → port ≠ 0 →
      ∃ id : HandlerId, s.accepted[id]? = some c ∧ (s.socket id).SockFd = some port ∧ s.queue id = [] := by
  have hi : Inv s := Lts.run_invariant_along inv_init (fun s l s' => inv_step) h ha
  refine ⟨hi.connected, fun c id hc => ?_, fun c c' id hc hc' => ?_, fun c id id' hc hc' => ?_,
    fun c port hc hport => ?_⟩
  · have := hi.served c id hc
    exact ⟨this, hi.connected c id this⟩
  · exact Option.some.inj ((hi.connected c id hc).symm.trans (hi.connected c' id hc'))
  · have := (hi.served c id hc).symm.trans (hi.served c id' hc')
    cases this
    rfl
  · obtain ⟨id, hid, hmade, rfl⟩ := hi.aims c port hc
    have hawaits := hi.awaited c id hid hmade (by rw [hc]; trivial)
    obtain ⟨q, hq⟩ := hawaits.listens
    have htold := (hi.bound id q hq).told hport
    exact ⟨id, hid, htold ▸ hq, hawaits.queue⟩

theorem startingPort_toUInt16 : Server.startingPort.toUInt16 = 8080 := by
  rw [show Server.startingPort = USize.ofNat 8080 from rfl, USize.toUInt16_ofNat']
  rfl

/-- Two clients, a `bind()` that fails, a message in two pieces; the second client is faster. -/
def overtaking : List Label :=
  [.connect 0 (.ok ()), .connect 1 (.ok ()), .accept (.ok ()),
    .socket [.error (.bind ⟨98, []⟩), .ok 40000], .create (.ok ()), .start 0, .wake, .send (.ok 1),
    .recv 0 1, .send (.ok 1), .accept (.ok ()), .socket [.ok 40000], .create (.ok ()), .start 1, .wake,
    .send (.ok 2), .recv 1 2, .join 1 (.ok 1), .recv 0 1, .join 0 (.ok 0), .handlerAccept 0 (.ok ()),
    .handlerAccept 1 (.ok ())]

theorem overtaking_serves :
    (Lts.run step Config.init overtaking).any (fun s => decide (s.handler 1 = .serving 1)) = true := by
  simp +decide [overtaking, Lts.run, step, stepClient, stepDispatch, stepHandler, Config.init,
    Server.createHandlerSocket, ServerSocket.new, ServerSocket.bindPort, startingPort_toUInt16,
    ServerSocket.move, ServerSocket.getPort, HelloMessage.bytes, received, HelloMessage.ofBytes,
    Config.endIteration]

theorem overtaking_heeds : Lts.permitted step Heeds Config.init overtaking = true := by
  simp +decide [overtaking, Lts.permitted, step, stepClient, stepDispatch, stepHandler, Config.init,
    Server.createHandlerSocket, ServerSocket.new, ServerSocket.bindPort, startingPort_toUInt16,
    ServerSocket.move, ServerSocket.getPort, HelloMessage.bytes, received, HelloMessage.ofBytes,
    Config.endIteration]

theorem own_handler_overtaking :
    ∃ s, Lts.run step Config.init overtaking = some s ∧ s.handler 1 = .serving 1 ∧
      s.client 1 = .connected 1 ∧ s.accepted[1]? = some 1 := by
  obtain ⟨s, hrun, hs⟩ := Lts.run_reaches overtaking_serves
  have hown := own_handler hrun (Lts.Along.of_permitted overtaking_heeds)
  exact ⟨s, hrun, hs, hown.2.1 1 1 hs⟩

/-! ## The end of the dispatch thread -/

def DispatchPc.client : DispatchPc → Option ClientId
  | .accept | .ended _ => none
  | .socket c _ | .create c _ _ | .ready c _ _ | .hello c _ _ => some c

/-- Whom the dispatch thread has not accepted it has neither written to nor closed. -/
structure Outside (s : Config) : Prop where
  client : ∀ c, s.dispatch.client = some c → c ∈ s.accepted
  untold : ∀ c, c ∉ s.accepted → s.Untold c ∧ s.closed c = false

theorem outside_init : Outside Config.init where
  client := nofun
  untold := fun _ _ => ⟨⟨rfl, trivial⟩, rfl⟩

theorem Outside.client_step (ho : Outside s) {c : ClientId} (haccepted : s'.accepted = s.accepted)
    (hdispatch : s'.dispatch = s.dispatch) (hclosed : s'.closed = s.closed)
    (hother : ∀ u, u ≠ c → s'.wire u = s.wire u ∧ s'.client u = s.client u)
    (h : s.Untold c → s'.Untold c) : Outside s' where
  client := by rw [haccepted, hdispatch]; exact ho.client
  untold := fun u hu => by
    rw [haccepted] at hu
    obtain ⟨huntold, hopen⟩ := ho.untold u hu
    refine ⟨?_, by rw [hclosed]; exact hopen⟩
    by_cases e : u = c
    · subst e
      exact h huntold
    · obtain ⟨hwire, hclient⟩ := hother u e
      exact ⟨hwire.trans huntold.wire, by rw [hclient]; exact huntold.pc⟩

/-- A step of the dispatch thread concerns the client of its iteration alone. -/
theorem Outside.dispatch_step (ho : Outside s) {c : ClientId} (pc : s.dispatch.client = some c)
    (hd : ∀ u, s'.dispatch.client = some u → u = c) (haccepted : s'.accepted = s.accepted)
    (hclient : s'.client = s.client)
    (hother : ∀ u, u ≠ c → s'.wire u = s.wire u ∧ s'.closed u = s.closed u) : Outside s' where
  client := fun u hu => by rw [haccepted, hd u hu]; exact ho.client c pc
  untold := fun u hu => by
    rw [haccepted] at hu
    have e : u ≠ c := by
      rintro rfl
      exact hu (ho.client u pc)
    obtain ⟨huntold, hopen⟩ := ho.untold u hu
    obtain ⟨hwire, hclosed⟩ := hother u e
    exact ⟨⟨hwire.trans huntold.wire, by rw [hclient]; exact huntold.pc⟩, hclosed.trans hopen⟩

theorem Outside.keep (ho : Outside s) (hd : ∀ u, s'.dispatch.client = some u → u ∈ s'.accepted)
    (haccepted : ∀ u ∈ s.accepted, u ∈ s'.accepted) (hclient : s'.client = s.client)
    (hwire : s'.wire = s.wire) (hclosed : s'.closed = s.closed) : Outside s' where
  client := hd
  untold := fun u hu => by
    obtain ⟨huntold, hopen⟩ := ho.untold u fun h => hu (haccepted u h)
    exact ⟨⟨by rw [hwire]; exact huntold.wire, by rw [hclient]; exact huntold.pc⟩,
      by rw [hclosed]; exact hopen⟩

theorem outside_step (ho : Outside s) (hs : step s l = some s') : Outside s' := by
  have hne : ∀ {α : Type} (f : ClientId → α) (c u : ClientId) (x : α), u ≠ c →
      Function.update f c x u = f u := fun f c u x e => Function.update_of_ne e x f
  cases step_cases hs with
  | @connect c pc =>
    exact ho.client_step rfl rfl rfl (fun u e => ⟨rfl, hne _ c u _ e⟩) fun h =>
      ⟨h.wire, by simp [ClientPc.untold]⟩
  | @connectFail c e pc =>
    exact ho.client_step rfl rfl rfl (fun u e => ⟨rfl, hne _ c u _ e⟩) fun h => h.threw
  | @recv c n got pc pos _ there =>
    refine ho.client_step rfl rfl rfl (fun u e => ⟨hne _ c u _ e, hne _ c u _ e⟩) fun h => ?_
    rw [h.wire, List.length_nil] at there
    omega
  | @recvThrow c l got what pc =>
    exact ho.client_step rfl rfl rfl (fun u e => ⟨rfl, hne _ c u _ e⟩) fun h => h.threw
  | @join c port id pc bound =>
    refine ho.client_step rfl rfl rfl (fun u e => ⟨rfl, hne _ c u _ e⟩) fun h => ?_
    have hpc := h.pc
    rw [pc] at hpc
    cases hpc
  | @joinFail c port e pc =>
    exact ho.client_step rfl rfl rfl (fun u e => ⟨rfl, hne _ c u _ e⟩) fun h => h.threw
  | @accept c backlog pc front =>
    refine ho.keep (fun u hu => ?_) (fun u hu => List.mem_append_left _ hu) rfl rfl rfl
    cases hu
    simp
  | acceptFail => exact ho.keep nofun (fun u hu => hu) rfl rfl rfl
  | @socket c id answers handlerSocket currentPort port pc =>
    exact ho.dispatch_step (c := c) (by rw [pc]; rfl) (fun u hu => by cases hu; rfl) rfl rfl
      fun u e => ⟨rfl, rfl⟩
  | @create c id handlerSocket pc =>
    exact ho.dispatch_step (c := c) (by rw [pc]; rfl) (fun u hu => by cases hu; rfl) rfl rfl
      fun u e => ⟨rfl, rfl⟩
  | @createFail c id handlerSocket what pc =>
    exact ho.dispatch_step (c := c) (by rw [pc]; rfl) nofun rfl rfl fun u e => ⟨rfl, hne _ c u _ e⟩
  | @wake c id handlerSocket pc =>
    exact ho.dispatch_step (c := c) (by rw [pc]; rfl) (fun u hu => by cases hu; rfl) rfl rfl
      fun u e => ⟨rfl, rfl⟩
  | @send c id left n pc =>
    exact ho.dispatch_step (c := c) (by rw [pc]; rfl) (fun u hu => by cases hu; rfl) rfl rfl
      fun u e => ⟨hne _ c u _ e, rfl⟩
  | @sendLast c id left pc =>
    exact ho.dispatch_step (c := c) (by rw [pc]; rfl) nofun rfl rfl
      fun u e => ⟨hne _ c u _ e, hne _ c u _ e⟩
  | @sendFail c id left e pc =>
    exact ho.dispatch_step (c := c) (by rw [pc]; rfl) nofun rfl rfl fun u e => ⟨rfl, hne _ c u _ e⟩
  | start | handlerAccept | handlerAcceptFail | finish =>
    exact ho.keep ho.client (fun u hu => hu) rfl rfl rfl

theorem ended_step {what : Text} (ended : s.dispatch = .ended what) (hs : step s l = some s') :
    s'.dispatch = .ended what ∧ s'.accepted = s.accepted := by
  cases step_cases hs with
  | accept pc | acceptFail pc | socket pc | create pc | createFail pc | wake pc | send pc
  | sendLast pc | sendFail pc =>
    rw [ended] at pc
    cases pc
  | _ => exact ⟨ended, rfl⟩

/-- **One failure shuts everybody out.** When an exception has ended `DispatchRoutine` (a failed
`Accept`, thread or hello message, for whichever client), it has ended for good, and every client not
accepted by then, also one that connects later, never gets a byte, a port or the end of the
connection: it stays in `Recv` until its own system call fails. -/
theorem shut_out {ls ms : List Label} {what : Text} (h : Lts.run step Config.init ls = some s)
    (ended : s.dispatch = .ended what) (h' : Lts.run step s ms = some s') :
    s'.dispatch = .ended what ∧ s'.accepted = s.accepted ∧
      ∀ c, c ∉ s.accepted → s'.wire c = [] ∧ s'.closed c = false ∧
        (s'.client c = .absent ∨ s'.client c = .hello [] ∨ ∃ e, s'.client c = .threw e) := by
  have hrun : Lts.run step Config.init (ls ++ ms) = some s' := by rw [Lts.run_append h, h']
  have hoff : s'.dispatch = .ended what ∧ s'.accepted = s.accepted :=
    Lts.run_invariant (P := fun t => t.dispatch = .ended what ∧ t.accepted = s.accepted)
      ⟨ended, rfl⟩ (fun t l t' ht hs => ⟨(ended_step ht.1 hs).1, (ended_step ht.1 hs).2.trans ht.2⟩) h'
  have hout : Outside s' := Lts.run_invariant outside_init (fun _ _ _ => outside_step) hrun
  refine ⟨hoff.1, hoff.2, fun c hc => ?_⟩
  obtain ⟨huntold, hopen⟩ := hout.untold c (hoff.2 ▸ hc)
  have hpc := huntold.pc
  refine ⟨huntold.wire, hopen, ?_⟩
  cases hclient : s'.client c with
  | absent => exact .inl rfl
  | hello got => rw [hclient] at hpc; exact .inr (.inl (congrArg _ hpc))
  | threw e => exact .inr (.inr ⟨e, rfl⟩)
  | connecting | connected => rw [hclient] at hpc; cases hpc

/-- The first client's `Accept` fails; the second is left waiting. -/
theorem shut_out_waiting :
    ∃ s s', Lts.run step Config.init [.connect 0 (.ok ()), .accept (.error ⟨103, []⟩)] = some s ∧
      s.dispatch = .ended (acceptWhat ⟨103, []⟩) ∧
      Lts.run step s [.connect 1 (.ok ())] = some s' ∧ s'.backlog = [0, 1] ∧
      s'.wire 1 = [] ∧ s'.closed 1 = false ∧
      (s'.client 1 = .absent ∨ s'.client 1 = .hello [] ∨ ∃ e, s'.client 1 = .threw e) :=
  ⟨_, _, rfl, rfl, rfl, rfl, (@shut_out _ _ [.connect 0 (.ok ()), .accept (.error ⟨103, []⟩)]
    [.connect 1 (.ok ())] _ rfl rfl rfl).2.2 1 (by simp [Config.init])⟩

end Rendezvous

end MbDaemon
