import MbDaemon.HwUtils
import MbDaemon.Lib.Python
import MbDaemon.Lib.Script

/-!
# The script that finds the Motherboard

`BootloaderFind.py` asks each serial port for its name and prints the one that answers with the
Motherboard's. The exit with status 1 stands in an `elif` of the last iteration, behind a comparison
that an exception leaves out: where no port answers with the name, the status is 0 exactly if all
ports open and the last one raises or there is none (`finds_port_iff`).
-/

namespace MbDaemon

open Python HwUtils

namespace BootloaderFind

def PCB_Name : Str := "PCB_NAME = MOTHERBOARD-V.1.0\r\n".toList
def GET_PCB_NAME : Str := "CMD:GET_PCB_NAME\r\n".toList

/-- A serial port: how opening it, a `write`, and `readline().decode()` after the `write` go; `none`
where one raises. -/
structure Port where
  name : Str
  opens : Option Unit
  write : Str → Option Unit
  readline : Option Str

/-- A run of the script, with what it prints. -/
abbrev Script := Run Str

/-- The `try` block: the answer, or nothing where `except` goes on. -/
def askName (port : Port) : Script (Option Str) :=
  Run.tryExcept
    (do
      Run.ofOption (port.write GET_PCB_NAME)
      let response ← Run.ofOption port.readline
      pure (some response))
    (pure none)

/-- The loop over the ports. The last index is the one with no port behind it. -/
def search : List Port → Script Unit
  | [] => pure ()
  | port :: rest => do
    Run.ofOption port.opens
    let response ← askName port
    match response with
    | none => search rest
    | some response =>
      if response = PCB_Name then Run.emit port.name
      else if rest = [] then Run.exit 1
      else search rest

def script (COM_List : List Port) : Script Unit := do
  search COM_List
  Run.exit 0

/-! ## What the status should say -/

/-- The line that the port replies with, if it opens and nothing raises. -/
def Port.reply (port : Port) : Option Str :=
  port.opens.bind fun _ => (port.write GET_PCB_NAME).bind fun _ => port.readline

/-- The first port that replies with the name, with all ports before it opening. -/
def First (COM_List : List Port) (port : Port) : Prop :=
  ∃ before after, COM_List = before ++ port :: after ∧
    (∀ p ∈ before, p.opens ≠ none ∧ p.reply ≠ some PCB_Name) ∧ port.reply = some PCB_Name

/-- The script prints the first port that replies with the name; it fails where none does; and what
`Execute` lets pass is the name of a port. -/
structure FindsPort (COM_List : List Port) : Prop where
  found : ∀ port, First COM_List port →
    (script COM_List).status = 0 ∧ (script COM_List).log = [port.name]
  missing : (∀ port ∈ COM_List, port.reply ≠ some PCB_Name) → (script COM_List).status ≠ 0
  returned : checkStatus (.exited (script COM_List).status) = none →
    ∃ port ∈ COM_List, (script COM_List).log.flatten = port.name

/-- All ports open, none replies with the name, and there is none or the last one raises. -/
def Unnoticed (COM_List : List Port) : Prop :=
  (∀ port ∈ COM_List, port.opens ≠ none ∧ port.reply ≠ some PCB_Name) ∧
    ∀ port ∈ COM_List.getLast?, port.reply = none

/-! ## The loop -/

/-- An iteration whose `try` raises is left out. -/
theorem search_raised {port : Port} (hopens : port.opens ≠ none) (h : port.reply = none)
    (rest : List Port) : search (port :: rest) = search rest := by
  obtain ⟨name, opens, write, readline⟩ := port
  obtain ⟨u, rfl⟩ := Option.ne_none_iff_exists'.1 hopens
  have hask : askName ⟨name, some u, write, readline⟩ = pure none := by
    unfold askName
    simp only [Port.reply, Option.bind_some] at h
    cases hwrite : write GET_PCB_NAME with
    | none => simp only [hwrite]; rfl
    | some _ =>
      rw [hwrite] at h
      simp only [Option.bind_some] at h
      simp only [hwrite, h]
      rfl
  rw [search]
  simp only [Run.ofOption, Run.pure_bind, hask]

theorem search_reply {port : Port} {response : Str} (h : port.reply = some response)
    (rest : List Port) :
    search (port :: rest) =
      if response = PCB_Name then Run.emit port.name
      else if rest = [] then Run.exit 1
      else search rest := by
  obtain ⟨name, opens, write, readline⟩ := port
  simp only [Port.reply, Option.bind_eq_some_iff] at h
  obtain ⟨u, rfl, u', hwrite, rfl⟩ := h
  have hask : askName ⟨name, some u, write, some response⟩ = pure (some response) := by
    unfold askName
    simp only [hwrite]
    rfl
  rw [search]
  simp only [Run.ofOption, Run.pure_bind, hask]

theorem first_iff {ports : List Port} {port : Port} :
    First ports port ↔ (∃ before after, ports = before ++ port :: after ∧
      ∀ p ∈ before, p.opens ≠ none ∧ p.reply ≠ some PCB_Name) ∧ port.reply = some PCB_Name := by
  simp only [First, ← and_assoc, exists_and_right]

theorem first_cons (port : Port) (rest : List Port) (p : Port) :
    First (port :: rest) p ↔ port.reply = some PCB_Name ∧ p = port ∨
      port.opens ≠ none ∧ port.reply ≠ some PCB_Name ∧ First rest p := by
  rw [first_iff, first_iff, passed_cons]
  constructor
  · rintro ⟨rfl | ⟨hport, hbefore⟩, hreply⟩
    · exact .inl ⟨hreply, rfl⟩
    · exact .inr ⟨hport.1, hport.2, hbefore, hreply⟩
  · rintro (⟨hreply, rfl⟩ | ⟨hopens, hother, hbefore, hreply⟩)
    · exact ⟨.inl rfl, hreply⟩
    · exact ⟨.inr ⟨⟨hopens, hother⟩, hbefore⟩, hreply⟩

theorem not_first_nil (port : Port) : ¬ First [] port := by
  rintro ⟨before, after, h, -⟩
  simp at h

theorem First.mem {ports : List Port} {port : Port} (h : First ports port) : port ∈ ports := by
  obtain ⟨before, after, rfl, -⟩ := h
  simp

theorem First.reply {ports : List Port} {port : Port} (h : First ports port) :
    port.reply = some PCB_Name := by
  obtain ⟨before, after, -, -, h⟩ := h
  exact h

theorem First.unique {ports : List Port} {p q : Port} (hp : First ports p) (hq : First ports q) :
    p = q := by
  induction ports with
  | nil => exact absurd hp (not_first_nil p)
  | cons port rest ih =>
    rcases (first_cons port rest p).1 hp with ⟨hreply, rfl⟩ | ⟨-, hother, hp⟩
    · rcases (first_cons p rest q).1 hq with ⟨-, rfl⟩ | ⟨-, hother, -⟩
      · rfl
      · exact absurd hreply hother
    · rcases (first_cons port rest q).1 hq with ⟨hreply, -⟩ | ⟨-, -, hq⟩
      · exact absurd hreply hother
      · exact ih hp hq

/-- A port behind another one is the last one of both lists. -/
theorem unnoticed_cons {port : Port} {rest : List Port} (hrest : rest ≠ []) :
    Unnoticed (port :: rest) ↔
      (port.opens ≠ none ∧ port.reply ≠ some PCB_Name) ∧ Unnoticed rest := by
  unfold Unnoticed
  rw [List.getLast?_cons_of_ne_nil hrest, List.forall_mem_cons, and_assoc]

theorem unnoticed_raised {port : Port} (hopens : port.opens ≠ none) (h : port.reply = none)
    (rest : List Port) : Unnoticed (port :: rest) ↔ Unnoticed rest := by
  by_cases hrest : rest = []
  · subst hrest
    simp [Unnoticed, hopens, h]
  · rw [unnoticed_cons hrest, and_iff_right]
    simp [hopens, h]

/-- **How the loop ends**: with a port printed, at its end, or with an error. -/
theorem search_cases (ports : List Port) :
    (∃ port, First ports port ∧ search ports = { log := [port.name], result := .ok () }) ∨
    ((∀ port, ¬ First ports port) ∧
      (Unnoticed ports ∧ search ports = { log := [], result := .ok () } ∨
        ¬ Unnoticed ports ∧ ∃ e, e ≠ .exit 0 ∧
          search ports = { log := [], result := .error e })) := by
  induction ports with
  | nil => exact .inr ⟨not_first_nil, .inl ⟨by simp [Unnoticed], rfl⟩⟩
  | cons port rest ih =>
    simp only [first_cons]
    by_cases hopens : port.opens = none
    · have hreply : port.reply = none := by simp [Port.reply, hopens]
      refine .inr ⟨fun p => by simp [hopens, hreply], .inr ⟨fun h => ?_, .raised, by decide, ?_⟩⟩
      · exact (h.1 port List.mem_cons_self).1 hopens
      · rw [search, hopens]
        rfl
    · cases hreply : port.reply with
      | none =>
        rw [search_raised hopens hreply, unnoticed_raised hopens hreply]
        simpa [hopens] using ih
      | some response =>
        rw [search_reply hreply]
        by_cases hname : response = PCB_Name
        · exact .inl ⟨port, .inl ⟨by rw [hname], rfl⟩, by rw [if_pos hname]; rfl⟩
        · rw [if_neg hname]
          by_cases hrest : rest = []
          · subst hrest
            refine .inr ⟨fun p => by simp [hname, not_first_nil], .inr ⟨fun h => ?_, .exit 1,
              by decide, by rw [if_pos rfl]; rfl⟩⟩
            have := h.2 port (by simp)
            rw [hreply] at this
            cases this
          · rw [if_neg hrest, unnoticed_cons hrest]
            simpa [hopens, hname, hreply] using ih

/-! ## The script -/

theorem script_ok {ports : List Port} {log : List Str}
    (h : search ports = { log := log, result := .ok () }) :
    (script ports).status = 0 ∧ (script ports).log = log := by
  have hrun : script ports = { log := log ++ [], result := .error (.exit 0) } := by
    unfold script
    rw [h]
    rfl
  rw [hrun]
  exact ⟨rfl, List.append_nil log⟩

theorem script_error {ports : List Port} {e : Exit} (he : e ≠ .exit 0)
    (h : search ports = { log := [], result := .error e }) : (script ports).status ≠ 0 := by
  have hrun : script ports = { log := [], result := .error e } := by
    unfold script
    rw [h]
    rfl
  rw [hrun]
  cases e with
  | raised => exact (by decide : (1 : Byte) ≠ 0)
  | exit code => exact fun hcode => he (congrArg _ hcode)

theorem passes_iff (code : Byte) : checkStatus (.exited code) = none ↔ code = 0 := by
  simp [checkStatus]

/-- **The search for the Motherboard** does what its status says, unless all ports open, none
replies with the name, and the last one raises or there is none. -/
theorem finds_port_iff (COM_List : List Port) : FindsPort COM_List ↔ ¬ Unnoticed COM_List := by
  rcases search_cases COM_List with ⟨port, hfirst, hrun⟩ | ⟨hnone, ⟨hsilent, hrun⟩ | ⟨hno, e, he, hrun⟩⟩
  · obtain ⟨hstatus, hlog⟩ := script_ok hrun
    refine iff_of_true ⟨fun p hp => ?_, fun hno => ?_, fun _ => ?_⟩ fun h => ?_
    · rw [hp.unique hfirst]
      exact ⟨hstatus, hlog⟩
    · exact absurd hfirst.reply (hno port hfirst.mem)
    · exact ⟨port, hfirst.mem, by rw [hlog]; simp⟩
    · exact (h.1 port hfirst.mem).2 hfirst.reply
  · obtain ⟨hstatus, -⟩ := script_ok hrun
    exact iff_of_false (fun h => h.missing (fun p hp => (hsilent.1 p hp).2) hstatus)
      fun h => h hsilent
  · have hstatus := script_error he hrun
    refine iff_of_true ⟨fun p hp => absurd hp (hnone p), fun _ => hstatus, fun h => ?_⟩ hno
    exact absurd ((passes_iff _).1 h) hstatus

/-- A port that opens and raises when it is written to. -/
def mute : Port where
  name := "/dev/ttyS0".toList
  opens := some ()
  write := fun _ => none
  readline := none

/-- **No port and no error**: without ports, and with a last port that raises, the script prints
nothing and `Execute` lets it pass. -/
theorem unnoticed_passes :
    checkStatus (.exited (script []).status) = none ∧ (script []).log = [] ∧ ¬ FindsPort [] ∧
      checkStatus (.exited (script [mute]).status) = none ∧ (script [mute]).log = [] ∧
      ¬ FindsPort [mute] := by
  have hnothing : search [] = { log := [], result := .ok () } := rfl
  have hreply : mute.reply = none := rfl
  have hopens : mute.opens ≠ none := Option.some_ne_none ()
  have hmute : search [mute] = { log := [], result := .ok () } := by
    rw [search_raised hopens hreply]
    exact hnothing
  obtain ⟨hstatus, hlog⟩ := script_ok hnothing
  obtain ⟨hstatus', hlog'⟩ := script_ok hmute
  have hno : ∀ port ∈ [mute], port.reply ≠ some PCB_Name := by
    intro port hport
    rw [List.mem_singleton.1 hport, hreply]
    exact fun h => (by cases h)
  exact ⟨(passes_iff _).2 hstatus, hlog, fun h => h.missing (fun p hp => (by cases hp)) hstatus,
    (passes_iff _).2 hstatus', hlog', fun h => h.missing hno hstatus'⟩

end BootloaderFind

end MbDaemon
