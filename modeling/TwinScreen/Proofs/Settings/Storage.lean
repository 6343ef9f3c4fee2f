import TwinScreen.Proofs.Files.Disk
import TwinScreen.Proofs.Settings.RoundTrip
import TwinScreen.Settings.Storage

/-!
# Saved settings are loaded again

A settings file can be written wherever a file can be written, and from a file that was written the
same settings are loaded (`save_load`).
-/
namespace TwinScreen.Settings

variable {s : Settings} {path : String} {d d' : Disk}

theorem read_print (s : Settings) : read s.print.toList = .ok s := by
  rw [print, String.toList_ofList, read_written]

/-- Settings can be saved wherever a file can be written. -/
theorem exists_save_iff (s : Settings) (d : Disk) (path : String) :
    (∃ d', save s path d = .ok () d') ↔ d.Writable path := by
  constructor
  · rintro ⟨d', h⟩
    obtain ⟨place, hplace, -⟩ := Disk.write_eq_ok.mp h
    exact ⟨place, hplace⟩
  · rintro ⟨place, hplace⟩
    exact ⟨_, Disk.write_eq_ok.mpr ⟨place, hplace, rfl⟩⟩

theorem readText_of_save (h : save s path d = .ok () d') : d'.readText path = .ok s.print := by
  obtain ⟨place, hplace, rfl⟩ := Disk.write_eq_ok.mp h
  exact Disk.readText_put hplace s.print

/-- Saved settings are loaded again. -/
theorem load_of_save (h : save s path d = .ok () d') : load d' path = .ok s := by
  simp only [load, readText_of_save h, read_print]

/-- The written form of settings is read as these settings. They can be saved wherever a file may
be written, and from then on the file holds their written form and they are loaded from it. -/
theorem save_load (s : Settings) :
    read s.print.toList = .ok s ∧
      ∀ (d : Disk) (path : String),
        ((∃ d', save s path d = .ok () d') ↔ d.Writable path) ∧
          ∀ d', save s path d = .ok () d' →
            d'.readText path = .ok s.print ∧ load d' path = .ok s := by
  refine ⟨read_print s, fun d path => ⟨exists_save_iff s d path, fun d' h => ?_⟩⟩
  exact ⟨readText_of_save h, load_of_save h⟩

/-- Settings with the largest numbers there are, and colors with and without transparency. -/
def widest : Settings where
  sizes := ⟨0xFFFFFFFF, 0xFFFFFFFF, 0xFFFFFFFF⟩
  wrapping := ⟨0xFFFFFFFFFFFFFFFF, 0xFFFFFFFF, 0xFFFFFFFFFFFFFFFF⟩
  schemes := ⟨⟨.transparent, .white⟩, ⟨⟨1, 171, 205, 254⟩, .black⟩⟩
  placement := ⟨.rightLeft, 0xFFFFFFFFFFFFFFFF⟩

/-- The widest settings are saved in an empty home directory, by a path with a detour. -/
theorem save_load_widest :
    ∃ d', save widest "../home/settings.toml" ⟨[(["home"], .directory)], ["home"]⟩ = .ok () d' ∧
      d'.readText "../home/settings.toml" = .ok widest.print ∧
      load d' "../home/settings.toml" = .ok widest := by
  have hplace : Disk.WritableAt ⟨[(["home"], .directory)], ["home"]⟩ "../home/settings.toml"
      ["home", "settings.toml"] :=
    ⟨by decide, by decide, by decide, by decide⟩
  obtain ⟨-, hfiles⟩ := save_load widest
  obtain ⟨hsave, hload⟩ := hfiles ⟨[(["home"], .directory)], ["home"]⟩ "../home/settings.toml"
  obtain ⟨d', h⟩ := hsave.mpr ⟨_, hplace⟩
  exact ⟨d', h, hload d' h⟩

end TwinScreen.Settings
