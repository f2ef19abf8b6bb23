import MbDaemon.HandlerImpl.Steps
import MbDaemon.RPC.Codec

/-!
# The replies of the handler

A reply has to fit the frame buffer, 254 bytes behind the header. A user's name comes in with a
`Connect` and goes out again with every `GetStatus`, and in the text that refuses a `Flash`, a
`Reset` or another `Connect`, each time with more around it than in the request. A name that fits
its request need not fit those; names that are short enough, with their PID, fit them all
(`replies_fit`).
-/

namespace MbDaemon

open RPCDefs HwUtils

namespace FirmwareFSM

/-! ## Texts of the firmware -/

theorem length_stateToStr (s : FWState) : (stateToStr s).length ≤ 10 := by cases s <;> decide

theorem length_routineName (op : Op) : op.routine.name.length ≤ 17 := by
  cases op with
  | flashBootlader firmware => show Routines.fwFlashing.length ≤ 17; decide
  | resetChip => decide
  | startFirmware => decide

theorem length_composeMsg (op : Op) (s : FWState) :
    (composeMsg op.routine.name s op.routine.expectedStates).length ≤ 254 := by
  cases op with
  | flashBootlader firmware =>
    show (composeMsg Routines.fwFlashing s [.boot]).length ≤ 254
    cases s <;> decide
  | resetChip => cases s <;> decide
  | startFirmware => cases s <;> decide

theorem length_getStateDescription {c : Config} (h : Phase c) :
    c.getStateDescription.length ≤ 17 := by
  unfold getStateDescription
  split
  · cases h with
    | quiet _ state => contradiction
    | busy t op _ _ _ name => rw [name]; exact length_routineName op
  · exact (length_stateToStr c.state).trans (by decide)

end FirmwareFSM

/-- An error of the system whose text does not fill a reply: `strerror` knows some hundred short
sentences. -/
def Errno.Short (e : Errno) : Prop := (toString e.code).length + e.strerror.length ≤ 200

theorem length_toString_byte (b : Byte) : (toString b.toNat).length ≤ 3 :=
  Nat.repr_length b.toNat 3 (by decide) (by have := b.toNat_lt; omega)

namespace HwUtils

def ExecError.Short : ExecError → Prop
  | .fork e | .wait e => e.Short
  | .abnormal | .exitCode _ => True

theorem length_execError {e : ExecError} (h : e.Short) : e.what.length ≤ 254 := by
  cases e with
  | fork e =>
    have hlen : (toString e.code).length + e.strerror.length ≤ 200 := h
    have hfunc : "Execute".length = 7 := rfl
    have hmsg : (ascii "Failed to create child process").length = 30 := rfl
    simp only [ExecError.what, length_fexcept, length_errnoWhat, hfunc, hmsg]
    omega
  | wait e =>
    have hlen : (toString e.code).length + e.strerror.length ≤ 200 := h
    have hfunc : "Execute".length = 7 := rfl
    have hmsg : (ascii "Failed to wait for child").length = 24 := rfl
    simp only [ExecError.what, length_fexcept, length_errnoWhat, hfunc, hmsg]
    omega
  | abnormal => decide
  | exitCode code =>
    have hcode := length_toString_byte code
    have hfunc : "Execute".length = 7 := rfl
    have hmsg : (ascii "Flashing script exited with non-zero code ").length = 42 := rfl
    simp only [ExecError.what, length_fexcept, List.length_append, length_ascii, hfunc] at hmsg ⊢
    omega

end HwUtils

namespace HandlerImpl

def statusResponce (description : String) (acquired : Bool) (name : Text) (pid : Int32) :
    Outgoing .chipStatus where
  Description := .ofCxxStr (ascii description)
  Acquired := acquired
  User := { Name := .ofCxxStr name, PID := pid }

/-- The reply fits a frame, and the message says what it is made of. -/
def Reply.Fits : Reply → Prop
  | .status d acquired name pid =>
    encodedLength .chipStatus (statusResponce d acquired name pid) ≤ 254 ∧
      value .chipStatus (statusResponce d acquired name pid) =
        { Description := ascii d, Acquired := acquired, User := { Name := name, PID := pid } }
  | .threw e => e.what.length ≤ 254
  | .empty | .port _ => True

/-- The room a user takes in a text: the name, and the digits of the PID. -/
def userLength (name : Text) (pid : Int32) : Nat := name.length + (toString pid.toInt).length

theorem length_what_le (e : Exn) : e.what.length ≤ e.message.length := length_cStr_le _

theorem length_acquired (procName : String) (name : Text) (pid : Int32) :
    (Exn.acquired procName name pid).message.length =
      procName.length + 39 + userLength name pid := by
  have hdo : (ascii "Can't do ").length = 9 := rfl
  have hport : (ascii ": Port is acquired by ").length = 22 := rfl
  have hat : (ascii " at PID ").length = 8 := rfl
  simp only [Exn.message, List.length_append, hdo, hport, hat, length_ascii, userLength]
  omega

theorem status_fits {d : String} {name : Text} (acquired : Bool) (pid : Int32)
    (hlen : d.length + name.length ≤ 247) : (Reply.status d acquired name pid).Fits := by
  have hd : (ascii d).length ≤ 255 := by rw [length_ascii]; omega
  constructor
  · simp only [encodedLength, statusResponce, size_ofCxxStr, length_ascii]
    omega
  · simp only [value, statusResponce, text_ofCxxStr_of_le hd,
      text_ofCxxStr_of_le (show name.length ≤ 255 by omega)]

end HandlerImpl

namespace FirmwareFSM

/-! ## What a firmware call brings back -/

def Label.ShortErrors : Label → Prop
  | .fork _ (.error e) | .waitFail _ e => e.Short
  | _ => True

def Pc.Fits : Pc → Prop
  | .setLock _ thrown | .setWork _ thrown | .setUnlock _ thrown => ∀ e ∈ thrown, e.Short
  | .getUnlock v | .done (.value v) => ∀ d, v = .description d → d.length ≤ 17
  | .done (.threw e) => e.what.length ≤ 254
  | _ => True

theorem checkStatus_short (status : WaitStatus) : ∀ e ∈ checkStatus status, e.Short := by
  intro e he
  cases status with
  | signaled sig => cases he; trivial
  | exited code =>
    simp only [checkStatus] at he
    split at he
    · cases he; trivial
    · cases he

theorem result_fits {thrown : Option ExecError} (h : ∀ e ∈ thrown, e.Short) :
    (Pc.done (result thrown)).Fits := by
  cases thrown with
  | none => trivial
  | some e => exact length_execError (h e rfl)

theorem get_fits {c : Config} (h : Phase c) (g : Getter) : (Pc.getUnlock (c.get g)).Fits := by
  intro d hd
  cases g with
  | getStateDescription => cases hd; exact length_getStateDescription h
  | getState => cases hd
  | getPort => cases hd

theorem fits_goto {c c' : Config} (h : ∀ t, (c.pc t).Fits) {t : Tid} {p : Pc}
    (hpc : c'.pc = Function.update c.pc t p) (hp : p.Fits) : ∀ u, (c'.pc u).Fits := by
  intro u
  rw [hpc]
  by_cases hu : u = t
  · subst hu; rwa [Function.update_self]
  · rw [Function.update_of_ne hu]; exact h u

theorem fits_step {c c' : Config} {l : Label} (hp : Phase c) (h : ∀ t, (c.pc t).Fits)
    (hl : l.ShortErrors) (hs : step c l = some c') : ∀ t, (c'.pc t).Fits := by
  cases step_cases hs with
  | call => exact fits_goto h rfl (by rename_i k _; cases k <;> trivial)
  | unlock => exact fits_goto h rfl (by rename_i ok _; cases ok <;> trivial)
  | reject => exact fits_goto h rfl (length_composeMsg _ _)
  | forkFail => exact fits_goto h rfl (by rintro _ ⟨⟩; exact hl)
  | exit => exact h
  | wait => exact fits_goto h rfl (checkStatus_short _)
  | waitFail => exact fits_goto h rfl (by rintro _ ⟨⟩; exact hl)
  | @setLock t op e pc _ | @setWork t op e pc =>
    have ht := h t
    rw [pc] at ht
    exact fits_goto h rfl ht
  | @setUnlock t op e pc =>
    have ht := h t
    rw [pc] at ht
    exact fits_goto h rfl (result_fits ht)
  | getWork => exact fits_goto h rfl (get_fits hp _)
  | @getUnlock t v pc =>
    have ht := h t
    rw [pc] at ht
    exact fits_goto h rfl ht
  | _ => exact fits_goto h rfl trivial

end FirmwareFSM

namespace HandlerImpl

/-! ## Runs -/

/-- The system's errors are short, and `ClearPort` names its calls. -/
def Label.ShortErrors : Label → Prop
  | .clearPort _ (.error (func, e)) => (func = "open()" ∨ func = "read()") ∧ e.Short
  | .firmware l => l.ShortErrors
  | _ => True

/-- The user that a step stores, if it is the last of a `Connect`, is short. -/
def ShortUser (c : Config) (l : Label) : Prop :=
  ∀ t name pid path, l = .step t → c.frame t = .store name pid path → userLength name pid ≤ 208

/-- What a step brings into the handler. -/
structure ShortTexts (c : Config) (l : Label) : Prop where
  user : ShortUser c l
  errors : l.ShortErrors

def Frame.Fits : Frame → Prop
  | .fill d => d.length ≤ 17
  | .unlock (.reply r) | .reply r => r.Fits
  | _ => True

/-- The invariant: what is stored is short, and what is on its way out fits. -/
structure Fitting (c : Config) : Prop where
  inv : Inv c
  user : userLength c.userName c.userPid ≤ 208
  frame : ∀ t, (c.frame t).Fits
  firmware : ∀ t, (c.firmware.pc t).Fits

theorem fitting_init (port : Text) : Fitting (Config.init port) where
  inv := inv_init port
  user := by show userLength [] (-1) ≤ 208; decide
  frame := fun _ => trivial
  firmware := fun _ => trivial

theorem length_guard {r : Request} {procName : String} (h : r.guard = some procName) :
    procName.length ≤ 7 := by
  cases r <;> cases h <;> decide

theorem request_fits (r : Request) : r.entry.Fits := by cases r <;> trivial

theorem calls_fits {c : Config} {f f' : Frame} {k : FirmwareFSM.Call} (h : Calls c f k f') :
    f'.Fits := by
  cases h <;> trivial

theorem returns_fits {f f' : Frame} {v : FirmwareFSM.Result} (h : Returns f v f')
    (hv : (FirmwareFSM.Pc.done v).Fits) : f'.Fits := by
  cases h with
  | description => exact hv _ rfl
  | notRunning _ => show Exn.notStarted.what.length ≤ 254; decide
  | threw => exact (length_what_le _).trans hv
  | _ => trivial

theorem clearPort_fits {func : String} {e : Errno} (hf : func = "open()" ∨ func = "read()")
    (he : e.Short) : (Exn.clearPort func e).what.length ≤ 254 := by
  have hlen : (toString e.code).length + e.strerror.length ≤ 200 := he
  have hfunc : func.length = 6 := by rcases hf with rfl | rfl <;> rfl
  refine (length_what_le _).trans ?_
  simp only [Exn.message, length_errnoWhat, length_ascii, hfunc]
  omega

theorem frame_goto {c c' : Config} (h : ∀ t, (c.frame t).Fits) {t : Tid} {f : Frame}
    (hframe : c'.frame = Function.update c.frame t f) (hf : f.Fits) : ∀ u, (c'.frame u).Fits := by
  intro u
  rw [hframe]
  by_cases hu : u = t
  · subst hu; rwa [Function.update_self]
  · rw [Function.update_of_ne hu]; exact h u

theorem frame_fits_step {c c' : Config} {l : Label} (h : Fitting c) (hl : l.ShortErrors)
    (hs : step c l = some c') : ∀ t, (c'.frame t).Fits := by
  have hf := h.frame
  cases step_cases hs with
  | request => exact frame_goto hf rfl (request_fits _)
  | @refuse t r procName frame guard _ =>
    refine frame_goto hf rfl ?_
    show (Exn.acquired procName c.userName c.userPid).what.length ≤ 254
    have hname := length_guard guard
    have huser := h.user
    refine (length_what_le _).trans ?_
    rw [length_acquired]
    omega
  | notAcquired =>
    refine frame_goto hf rfl ?_
    show Exn.notAcquired.what.length ≤ 254
    decide
  | call _ calls => exact frame_goto hf rfl (calls_fits calls)
  | @ret t f v f' fw _ pc returns _ =>
    have hv := h.firmware t
    rw [pc] at hv
    exact frame_goto hf rfl (returns_fits returns hv)
  | @fill t d frame =>
    refine frame_goto hf rfl ?_
    have hd : d.length ≤ 17 := by
      have := hf t
      rwa [frame] at this
    have huser := h.user
    unfold userLength at huser
    exact status_fits c.acquired c.userPid (by omega)
  | clearFail => exact frame_goto hf rfl (clearPort_fits hl.1 hl.2)
  | @unlock t n frame =>
    refine frame_goto hf rfl ?_
    have ht := hf t
    rw [frame] at ht
    cases n with
    | reply r => exact ht
    | firmware op => trivial
  | firmware => exact hf
  | _ => exact frame_goto hf rfl trivial

theorem firmware_fits_step {c c' : Config} {l : Label} (h : Fitting c) (hl : l.ShortErrors)
    (hs : step c l = some c') : ∀ t, (c'.firmware.pc t).Fits := by
  have hp := h.inv.firmware.phase
  cases step_cases hs with
  | call _ _ firmware => exact FirmwareFSM.fits_step (l := .call _ _) hp h.firmware trivial firmware
  | ret _ _ _ firmware => exact FirmwareFSM.fits_step (l := .ret _) hp h.firmware trivial firmware
  | firmware _ firmware => exact FirmwareFSM.fits_step hp h.firmware hl firmware
  | _ => exact h.firmware

theorem user_step {c c' : Config} {l : Label} (h : userLength c.userName c.userPid ≤ 208)
    (hl : ShortUser c l) (hs : step c l = some c') : userLength c'.userName c'.userPid ≤ 208 := by
  cases step_cases hs with
  | @store t name pid path frame => exact hl t name pid path rfl frame
  | _ => exact h

theorem fitting_step {c c' : Config} {l : Label} (h : Fitting c) (hl : ShortTexts c l)
    (hs : step c l = some c') : Fitting c' where
  inv := inv_step h.inv hs
  user := user_step h.user hl.user hs
  frame := frame_fits_step h hl.errors hs
  firmware := firmware_fits_step h hl.errors hs

/-- **Every reply fits a frame** and says what it is meant to, in every run in which the users that
connect are short and the system's error texts are. -/
theorem replies_fit {port : Text} {ls : List Label} {c : Config}
    (h : Lts.run step (Config.init port) ls = some c)
    (hl : Lts.Along step ShortTexts (Config.init port) ls) {t : Tid} {r : Reply}
    (hr : c.frame t = .reply r) : r.Fits := by
  have hfit : Fitting c :=
    Lts.run_invariant_along (fitting_init port) (fun _ _ _ hi hp hs => fitting_step hi hp hs) h hl
  have ht := hfit.frame t
  rwa [hr] at ht

def connectAs (name : Text) : List Label :=
  [.request 1 (.connect name 7), .step 1, .step 1, .firmware (.step 1), .firmware (.step 1),
    .firmware (.step 1), .step 1, .step 1, .firmware (.step 1), .firmware (.step 1),
    .firmware (.step 1), .step 1, .clearPort 1 (.ok ()), .step 1, .step 1, .reply 1]

def askStatus : List Label :=
  [.request 0 .getStatus, .step 0, .step 0, .firmware (.step 0), .firmware (.step 0),
    .firmware (.step 0), .step 0, .step 0, .step 0]

theorem replies_fit_status :
    ∃ c, Lts.run step (Config.init []) (startRun ++ connectAs [97] ++ askStatus) = some c ∧
      c.frame 0 = .reply (.status "Running" true [97] 7) ∧
      (Reply.status "Running" true [97] 7).Fits := by
  have hl : Lts.Along step ShortTexts (Config.init [])
      (startRun ++ connectAs [97] ++ askStatus) := by
    iterate 38 refine Lts.Along.cons rfl ?_ ⟨?_, trivial⟩
    · exact Lts.Along.nil
    all_goals
      intro t name pid path e frame
      cases e <;> cases frame
    decide
  exact ⟨_, rfl, rfl, @replies_fit [] _ _ rfl hl 0 _ rfl⟩

/-- **A name that fits its request and not the status.** -/
theorem reply_too_long :
    ∃ (name : Text) (f : MbDaemon.Frame) (c : Config) (r : Reply),
      (∀ (s : RPCProvider) (rest : List Byte), s.conn.inbound = f.wire ++ rest →
        ∃ s', RPCProvider.receive .userData s = .ok { Name := name, PID := 7 } s') ∧
      Lts.run step (Config.init []) (startRun ++ connectAs name ++ askStatus) = some c ∧
      c.frame 0 = .reply r ∧ ¬ r.Fits := by
  have hname : (List.replicate 249 (97 : Byte)).length = 249 := List.length_replicate
  have hlen : encodedLength .userData
      { Name := Messages.String.ofCxxStr (List.replicate 249 97), PID := 7 } ≤ 254 := by
    simp only [encodedLength, size_ofCxxStr, hname]
    decide
  refine ⟨List.replicate 249 97, RPCProvider.msgFrame ProcIDs.connect .userData _ hlen, _,
    .status "Running" true (List.replicate 249 97) 7, fun s rest hin => ?_, rfl, rfl, ?_⟩
  · have hvalue : value .userData
        { Name := Messages.String.ofCxxStr (List.replicate 249 97), PID := 7 } =
          { Name := List.replicate 249 97, PID := 7 } := by
      simp only [value, text_ofCxxStr_of_le (hname.trans_le (by decide))]
    rw [RPCProvider.receive_msgFrame hlen hin, hvalue]
    exact ⟨_, rfl⟩
  · rintro ⟨hshort, -⟩
    simp only [encodedLength, statusResponce, size_ofCxxStr, length_ascii, hname] at hshort
    revert hshort
    decide

end HandlerImpl

end MbDaemon
