import MbDaemon.Scripts.BootloaderFlash.Erase

/-!
# Images that are too long

The table of packages has 4096 places, and the script erases the board before it has read the image.
`RefusesEarly` says that no board is erased for an image that the script cannot package. That is so
for every image the table holds, and for a longer one only where the script does not come to the
erase at all (`refuses_early_iff`).
-/

namespace MbDaemon

open Python

namespace BootloaderFlash

/-- The loops over the image come to their end. -/
def Packageable (bin : List Byte) : Prop := ∃ cmd_list, buildPackages bin = .ok cmd_list

/-- The board is erased only for an image that can be packaged; the script fails on any other image
and leaves the board as it is. -/
structure RefusesEarly (w : World) : Prop where
  builds : .send ERASE ∈ (script w).log → ∀ bin ∈ w.image, Packageable bin
  refused : ∀ bin ∈ w.image, ¬ Packageable bin →
    .send ERASE ∉ (script w).log ∧ (script w).status ≠ 0

/-- The table holds 4096 packages of 1024 bytes. -/
theorem packageable_iff {bin : List Byte} : Packageable bin ↔ bin.length ≤ 4096 * 1024 := by
  constructor
  · rintro ⟨cmd_list, hbuild⟩
    by_contra hlong
    rw [buildPackages_error (by omega)] at hbuild
    cases hbuild
  · intro h
    obtain ⟨cmd_list, hbuild, -⟩ := buildPackages_ok h
    exact ⟨cmd_list, hbuild⟩

/-- The first thing behind `connect` is the command to erase. -/
theorem erase_sent {w : World} (h : Connects w) : .send ERASE ∈ (script w).log := by
  have hscript : script w = (connect w >>= fun _ => eraseFlash w >>= fun _ => flash w) := rfl
  have herase : .send ERASE ∈ (eraseFlash w).log := by
    unfold eraseFlash
    cases w.erase with
    | none => exact List.mem_cons_self
    | some _ => exact List.mem_cons_self
  rw [hscript, Run.bind_ok ((connect_ok w).2 h)]
  refine List.mem_append_right _ ?_
  rcases Run.bind_cases (eraseFlash w) (fun _ => flash w) with ⟨_, -, hrun⟩ | ⟨_, -, hrun⟩
  · rw [hrun]
    exact List.mem_append_left _ herase
  · rw [hrun]
    exact herase

/-- A script that does not come to the erase fails before it. -/
theorem erase_not_sent {w : World} (h : ¬ Connects w) :
    .send ERASE ∉ (script w).log ∧ (script w).status ≠ 0 := by
  have hscript : script w = (connect w >>= fun _ => eraseFlash w >>= fun _ => flash w) := rfl
  obtain ⟨e, herror⟩ : ∃ e, (connect w).result = .error e := by
    cases hresult : (connect w).result with
    | ok _ => exact absurd ((connect_ok w).1 hresult) h
    | error e => exact ⟨e, rfl⟩
  have hcut := (quiet_connect w).cut herror fun _ => eraseFlash w >>= fun _ => flash w
  rw [hscript]
  exact ⟨fun hsent => (hcut.1 _ hsent ERASE rfl).2 rfl, hcut.2⟩

/-- **An image that cannot be packaged is refused in time**, unless it is longer than the table and
the script comes to the erase. -/
theorem refuses_early_iff (w : World) :
    RefusesEarly w ↔ ¬ (Connects w ∧ ∃ bin ∈ w.image, 4096 * 1024 < bin.length) := by
  constructor
  · rintro h ⟨hconnects, bin, himage, hlong⟩
    have hfits := packageable_iff.1 (h.builds (erase_sent hconnects) bin himage)
    omega
  · intro h
    have hfits : Connects w → ∀ bin ∈ w.image, Packageable bin := fun hconnects bin himage =>
      packageable_iff.2 (Nat.le_of_not_lt fun hlong => h ⟨hconnects, bin, himage, hlong⟩)
    refine ⟨fun hsent => ?_, fun bin himage hlong => ?_⟩
    · by_contra hnot
      exact (erase_not_sent fun hconnects => hnot (hfits hconnects)).1 hsent
    · exact erase_not_sent fun hconnects => hlong (hfits hconnects bin himage)

/-- An image with one byte more than the table holds. -/
def oversized : List Byte := List.replicate (4096 * 1024 + 1) 0xFF

/-- **The board is erased** for an image that the script then fails to package. -/
theorem oversized_erased :
    .send ERASE ∈ (script (obedient oversized)).log ∧
      buildPackages oversized = .error .indexError ∧ ¬ RefusesEarly (obedient oversized) := by
  have hconnects : Connects (obedient oversized) := (connect_ok _).1 rfl
  have hlong : 4096 * 1024 < oversized.length := by
    rw [oversized, List.length_replicate]
    omega
  refine ⟨erase_sent hconnects, buildPackages_error hlong, fun h => ?_⟩
  exact (refuses_early_iff _).1 h ⟨hconnects, oversized, rfl, hlong⟩

end BootloaderFlash

end MbDaemon
