import MbDaemon.Client
import MbDaemon.RPC.Codec

/-!
# The flash command

`chip flash` of the command line tool sends the path of a firmware image to the daemon
(`DaemonCLI::DoChipFlash`). `String::Size` is one byte, and so is what becomes of the path's length:
a path of 256 bytes or more is cut down to the remainder, which may pass for a path again. The path
arrives, or the call fails with nothing sent, exactly for the lengths of `flash_path_iff`.
-/

namespace MbDaemon

open RPCDefs RPCProvider

namespace DaemonCLI

def flashRequest (path : Text) : Messages.String View := .ofCxxStr path

/-- `DoChipFlash`, from the client that `MakeClient` returns on. -/
def doChipFlash (path : Text) : RPC Unit := do
  Client.send .flash (flashRequest path)
  match ← Client.receive .flash with
  | .ok _ => Client.softDisconnect
  | .error e => throwStd e.what

/-- `HandlerImpl::Flash` gets `path` out of the frame, whatever its session has received before. -/
def FlashReceives (f : Frame) (path : Text) : Prop :=
  Proc.ofId f.procId = some .flash ∧
    ∀ (r : RPCProvider) (rest : List Byte), r.conn.inbound = f.wire ++ rest →
      ∃ r', RPCProvider.receive .string r = .ok path r'

/-- The command ends with an exception or a failing `assert`, with nothing sent. -/
def FailsUnsent : EStateM.Result Stop RPCProvider Unit → Prop
  | .error (.thrown _) s => s.conn.outbound = []
  | .error (.fault .assertion) s => s.conn.outbound = []
  | _ => False

def goodbye : Frame := ⟨ProcIDs.error, ascii "Disconnect", by decide⟩

/-- What is sent begins with a frame that brings `path` to `Flash`, the whole frame if the
connection takes it; nothing but the goodbye follows. -/
def Delivers (path : Text) (s : RPCProvider) (r : EStateM.Result Stop RPCProvider Unit) : Prop :=
  ∃ f : Frame, FlashReceives f path ∧
    (after r).conn.outbound <+: f.wire ++ (goodbye.wire ++ goodbye.wire) ∧
    (accepts s.conn (f.payload.length + 2) → f.wire <+: (after r).conn.outbound)

/-- A client's provider before its first call. -/
structure Fresh (s : RPCProvider) : Prop where
  outbound : s.conn.outbound = []
  errCode : s.errCode = Client.errorCode

/-! ## What is sent -/

theorem flashRequest_size (path : Text) : (flashRequest path).Size.toNat = path.length % 256 :=
  size_ofCxxStr path

theorem encodedLength_flashRequest (path : Text) :
    encodedLength .string (flashRequest path) = 1 + path.length % 256 := by
  rw [← flashRequest_size]
  rfl

theorem softDisconnect_prefix {s : RPCProvider} (herr : s.errCode = Client.errorCode) :
    ∃ part, part <+: goodbye.wire ++ goodbye.wire ∧
      (after (Client.softDisconnect s)).conn.outbound = s.conn.outbound ++ part := by
  have hlen : (ascii "Disconnect").length ≤ 254 := by decide
  have hframe : s.errorFrame (ascii "Disconnect") hlen = goodbye := by
    simp only [errorFrame, herr]
    rfl
  unfold Client.softDisconnect
  by_cases hacc : accepts s.conn ((ascii "Disconnect").length + 2)
  · have hfirst : packError (ascii "Disconnect") s = .ok () ((s.posted goodbye).packed goodbye) := by
      rw [packError_ok hlen hacc, hframe]
      rfl
    simp only [bind, EStateM.bind, hfirst]
    obtain ⟨part, hpart, hout⟩ := sendPackage_prefix (s.posted goodbye) (f := goodbye) hlen
    refine ⟨goodbye.wire ++ part, (List.prefix_append_right_inj _).2 hpart, ?_⟩
    rw [hout, ← List.append_assoc]
    rfl
  · obtain ⟨what, s', herror⟩ :=
      sendFromBuffer_error (s := s.packed goodbye) (n := (ascii "Disconnect").length + 2)
        (by omega) hacc
    have hfirst : packError (ascii "Disconnect") s = .error (.thrown (.std what)) s' := by
      rw [packError_eq hlen, hframe, herror]
    obtain ⟨k, hk, hend⟩ :=
      sendFromBuffer_prefix ((ascii "Disconnect").length + 2) (s.packed goodbye)
    rw [herror] at hend
    simp only [bind, EStateM.bind, hfirst]
    refine ⟨goodbye.wire.take k, (List.take_prefix k _).trans (List.prefix_append _ _), ?_⟩
    rw [← sent_packed_prefix s (f := goodbye) hlen hk, ← hend]

theorem receive_outbound (p : Proc) (s : RPCProvider) :
    (after (Client.receive p s)).conn.outbound = s.conn.outbound ∧
      (after (Client.receive p s)).errCode = s.errCode := by
  have hkeeps := recvPackage_outbound s
  unfold Client.receive
  simp only [bind, EStateM.bind]
  cases hrecv : recvPackage s with
  | error e s' => rw [hrecv] at hkeeps; exact hkeeps
  | ok header s' =>
    rw [hrecv] at hkeeps
    simp only
    split <;> exact hkeeps

/-- `DoChipFlash` after the request. -/
def afterwards : RPC Unit := do
  match ← Client.receive .flash with
  | .ok _ => Client.softDisconnect
  | .error e => throwStd e.what

theorem doChipFlash_eq (path : Text) :
    doChipFlash path = (do Client.send .flash (flashRequest path); afterwards) := rfl

/-- Nothing but the goodbye follows the request. -/
theorem afterwards_prefix {s : RPCProvider} (herr : s.errCode = Client.errorCode) :
    ∃ part, part <+: goodbye.wire ++ goodbye.wire ∧
      (after (afterwards s)).conn.outbound = s.conn.outbound ++ part := by
  obtain ⟨hout, herr'⟩ := receive_outbound .flash s
  unfold afterwards
  simp only [bind, EStateM.bind]
  cases hrecv : Client.receive .flash s with
  | error e s' =>
    rw [hrecv] at hout
    exact ⟨[], List.nil_prefix, by rw [List.append_nil]; exact hout⟩
  | ok answer s' =>
    rw [hrecv] at hout herr'
    cases answer with
    | ok v =>
      obtain ⟨part, hpart, hend⟩ := softDisconnect_prefix (herr'.trans herr)
      exact ⟨part, hpart, hend.trans (congrArg (· ++ part) hout)⟩
    | error e => exact ⟨[], List.nil_prefix, by rw [List.append_nil]; exact hout⟩

/-! ## The paths that arrive -/

def requestFrame (path : Text) (h : encodedLength .string (flashRequest path) ≤ 254) : Frame :=
  msgFrame ProcIDs.flash .string (flashRequest path) h

section

variable {path : Text} {s : RPCProvider}

theorem length_requestFrame (h : encodedLength .string (flashRequest path) ≤ 254) :
    (requestFrame path h).payload.length ≤ 254 :=
  (length_encode .string (flashRequest path)).trans_le h

theorem flash_receives (h : encodedLength .string (flashRequest path) ≤ 254) :
    FlashReceives (requestFrame path h) (flashRequest path).text :=
  ⟨rfl, fun _ _ hin => ⟨_, receive_msgFrame h hin⟩⟩

theorem FlashReceives.unique {f : Frame} {p q : Text} (hp : FlashReceives f p)
    (hq : FlashReceives f q) : p = q := by
  obtain ⟨r', hr'⟩ := hp.2 (fresh 0 f.wire) [] (by simp [fresh])
  obtain ⟨r'', hr''⟩ := hq.2 (fresh 0 f.wire) [] (by simp [fresh])
  rw [hr'] at hr''
  cases hr''
  rfl

theorem send_packs (h : encodedLength .string (flashRequest path) ≤ 254) :
    Client.send .flash (flashRequest path) s = sendPackage (s.packed (requestFrame path h)) := by
  have hpack : packMsg ProcIDs.flash .string (flashRequest path) s =
      .ok () (s.packed (requestFrame path h)) := by
    rcases packMsg_cases ProcIDs.flash .string (flashRequest path) s with ⟨_, hok⟩ | ⟨hlong, -⟩
    · exact hok
    · omega
  have hbind : Client.send .flash (flashRequest path) s =
      (do packMsg ProcIDs.flash .string (flashRequest path); sendPackage : RPC Unit) s := rfl
  rw [hbind]
  simp only [bind, EStateM.bind, hpack]

/-- A request that packs is sent, as far as the connection takes it. -/
theorem doChipFlash_sends (hs : Fresh s) (h : encodedLength .string (flashRequest path) ≤ 254) :
    (after (doChipFlash path s)).conn.outbound <+:
        (requestFrame path h).wire ++ (goodbye.wire ++ goodbye.wire) ∧
      (accepts s.conn ((requestFrame path h).payload.length + 2) →
        (requestFrame path h).wire <+: (after (doChipFlash path s)).conn.outbound) := by
  have hlen := length_requestFrame h
  rw [doChipFlash_eq]
  simp only [bind, EStateM.bind, send_packs h]
  by_cases hacc : accepts s.conn ((requestFrame path h).payload.length + 2)
  · rw [sendPackage_ok (f := requestFrame path h) hlen hacc]
    obtain ⟨part, hpart, hout⟩ := afterwards_prefix
      (s := (s.packed (requestFrame path h)).posted (requestFrame path h)) hs.errCode
    have hwire : ((s.packed (requestFrame path h)).posted (requestFrame path h)).conn.outbound =
        (requestFrame path h).wire := by
      simp [posted, packed, hs.outbound]
    rw [hwire] at hout
    simp only
    rw [hout]
    exact ⟨(List.prefix_append_right_inj _).2 hpart, fun _ => List.prefix_append _ _⟩
  · obtain ⟨part, hpart, hout⟩ := sendPackage_prefix s (f := requestFrame path h) hlen
    obtain ⟨what, s', herror⟩ := sendFromBuffer_error (s := s.packed (requestFrame path h))
      (n := (requestFrame path h).payload.length + 2) (by omega) hacc
    rw [sendPackage_packed, herror, hs.outbound, List.nil_append] at hout
    rw [sendPackage_packed, herror]
    refine ⟨?_, fun h' => absurd h' hacc⟩
    rw [show (after (.error (.thrown (.std what)) s' :
      EStateM.Result Stop RPCProvider Unit)).conn.outbound = part from hout]
    exact hpart.trans (List.prefix_append _ _)

theorem doChipFlash_fault {f : Fault}
    (h : ∀ m, (flashRequest path).serialize m 2 = .error f) :
    ∃ s', doChipFlash path s = .error (.fault f) s' ∧ s'.conn.outbound = s.conn.outbound := by
  have hpack : packMsg ProcIDs.flash .string (flashRequest path) s = .error (.fault f)
      { s with buffer := Memory.store s.buffer 0
                 [ProcIDs.flash, getPackedSize .string (flashRequest path)] } :=
    packMsg_error (h _)
  have hsend : Client.send .flash (flashRequest path) s =
      (do packMsg ProcIDs.flash .string (flashRequest path); sendPackage : RPC Unit) s := rfl
  rw [doChipFlash_eq]
  simp only [bind, EStateM.bind, hsend, hpack]
  exact ⟨_, rfl, rfl⟩

/-- The `assert` of `String::Serialize` stops a length byte of 255. -/
theorem serialize_assertion (hsize : path.length % 256 = 255) (m : Nat → Byte) :
    (flashRequest path).serialize m 2 = .error .assertion := by
  have hlt : ¬ (flashRequest path).Size < 255 := by
    rw [UInt8.lt_iff_toNat_lt, flashRequest_size, hsize]
    decide
  unfold Messages.String.serialize
  rw [if_neg hlt]
  rfl

/-- With a length byte of 254 the text ends one byte behind the buffer. -/
theorem serialize_outOfBounds (hsize : path.length % 256 = 254) (m : Nat → Byte) :
    (flashRequest path).serialize m 2 = .error .outOfBounds := by
  have hlt : (flashRequest path).Size < 255 := by
    rw [UInt8.lt_iff_toNat_lt, flashRequest_size, hsize]
    decide
  unfold Messages.String.serialize
  rw [if_pos hlt, poke_ok (by simp [bufSize])]
  exact poke_error (by simp [bufSize, flashRequest_size, hsize])

theorem fresh_quiet : Fresh quiet := ⟨rfl, rfl⟩

/-- Over a connection that takes everything the request decides what arrives. -/
theorem not_delivers_long (h : encodedLength .string (flashRequest path) ≤ 254)
    (hlong : 253 < path.length) :
    ¬ (FailsUnsent (doChipFlash path quiet) ∨ Delivers path quiet (doChipFlash path quiet)) := by
  obtain ⟨-, hsent⟩ := doChipFlash_sends fresh_quiet h
  have hwire := hsent (accepts_unlimited rfl _)
  rintro (hfail | ⟨f, hf, -, hall⟩)
  · have hnil : (after (doChipFlash path quiet)).conn.outbound = [] := by
      cases hrun : doChipFlash path quiet with
      | ok _ s' => rw [hrun] at hfail; exact hfail.elim
      | error e s' =>
        rw [hrun] at hfail
        cases e with
        | thrown x => exact hfail
        | outOfFuel => exact hfail.elim
        | fault x =>
          cases x with
          | assertion => exact hfail
          | outOfBounds => exact hfail.elim
    rw [hnil, List.prefix_nil] at hwire
    cases hwire
  · -- the stream begins with one frame, and that brings one text
    have hsame := Frame.wire_prefix_inj (hall (accepts_unlimited rfl _)) hwire
    have htext := hf.unique (hsame ▸ flash_receives h)
    have hlen := congrArg List.length htext
    rw [flashRequest, text_ofCxxStr, List.length_take] at hlen
    rw [encodedLength_flashRequest] at h
    omega

theorem not_delivers_overflow (hsize : path.length % 256 = 254) :
    ¬ (FailsUnsent (doChipFlash path quiet) ∨ Delivers path quiet (doChipFlash path quiet)) := by
  obtain ⟨s', hrun, hout⟩ := doChipFlash_fault (s := quiet) (serialize_outOfBounds hsize)
  rw [hrun]
  rintro (hfail | ⟨f, -, -, hall⟩)
  · exact hfail
  · have hwire := hall (accepts_unlimited rfl _)
    rw [show (after (.error (.fault .outOfBounds) s' :
      EStateM.Result Stop RPCProvider Unit)).conn.outbound = [] from hout, List.prefix_nil] at hwire
    cases hwire

/-- **The path of `chip flash`** reaches `Flash` as it is, or nothing is sent, exactly if it has at
most 253 bytes or its length byte trips the `assert`. -/
theorem flash_path_iff (path : Text) :
    (∀ s, Fresh s → FailsUnsent (doChipFlash path s) ∨ Delivers path s (doChipFlash path s)) ↔
      path.length ≤ 253 ∨ path.length % 256 = 255 := by
  constructor
  · intro hall
    have hquiet := hall quiet fresh_quiet
    by_contra hcond
    rw [not_or] at hcond
    have hlt := Nat.mod_lt path.length (y := 256) (by decide)
    by_cases h254 : path.length % 256 = 254
    · exact not_delivers_overflow h254 hquiet
    · have hpacks : encodedLength .string (flashRequest path) ≤ 254 := by
        rw [encodedLength_flashRequest]
        omega
      exact not_delivers_long hpacks (by omega) hquiet
  · rintro (hshort | hsize) s hs
    · have hpacks : encodedLength .string (flashRequest path) ≤ 254 := by
        rw [encodedLength_flashRequest]
        omega
      have hreceives := flash_receives hpacks
      rw [flashRequest, text_ofCxxStr_of_le (by omega)] at hreceives
      exact .inr ⟨requestFrame path hpacks, hreceives, doChipFlash_sends hs hpacks⟩
    · obtain ⟨s', hrun, hout⟩ := doChipFlash_fault (s := s) (serialize_assertion hsize)
      rw [hrun]
      exact .inl (hout.trans hs.outbound)

/-- A path of 300 bytes: `Flash` is asked for the file its first 44 bytes name. -/
theorem flash_path_cut :
    ∃ (path cut : Text) (f : Frame), path.length = 300 ∧ cut = path.take 44 ∧
      f.wire <+: (after (doChipFlash path quiet)).conn.outbound ∧ FlashReceives f cut ∧
      ¬ (FailsUnsent (doChipFlash path quiet) ∨ Delivers path quiet (doChipFlash path quiet)) := by
  have hlen : (List.replicate 300 (47 : Byte)).length = 300 := List.length_replicate
  have hpacks : encodedLength .string (flashRequest (List.replicate 300 47)) ≤ 254 := by
    rw [encodedLength_flashRequest, hlen]
    decide
  have htext : (flashRequest (List.replicate 300 47)).text = _ := text_ofCxxStr _
  rw [hlen] at htext
  refine ⟨_, _, requestFrame _ hpacks, hlen, rfl,
    (doChipFlash_sends fresh_quiet hpacks).2 (accepts_unlimited rfl _), ?_,
    not_delivers_long hpacks (by rw [hlen]; decide)⟩
  have hreceives := flash_receives hpacks
  rw [htext] at hreceives
  exact hreceives

end

end DaemonCLI

end MbDaemon
