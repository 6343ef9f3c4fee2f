import TwinScreen.Proofs.Files.Disk
import TwinScreen.Proofs.Png.RoundTrip
import TwinScreen.Screenshot

/-!
# Screenshots are read back

A frame can be saved wherever a file can be written, and the file is read as the same frame
(`save_decode`).
-/
namespace TwinScreen.Screenshot

variable {frame : Pixmap} {path : String} {d d' : Disk}

/-- The file of an image is written where any file can be. -/
theorem save_eq_ok {file : Array UInt8} (h : Png.encode frame = .ok file) :
    save path frame d = .ok () d' ↔
      ∃ place, d.WritableAt path place ∧ d' = d.put place (.file file) := by
  rw [← Disk.write_eq_ok, save, h]
  dsimp only
  cases DiskStep.write path file d <;> simp

/-- A frame that a file can hold is saved wherever a file may be written, and its file is read as
the frame with all its colors, also those of transparent pixels. -/
theorem save_decode (h : Png.Portable frame) (d : Disk) (path : String) :
    ((∃ d', save path frame d = .ok () d') ↔ d.Writable path) ∧
      ∀ d', save path frame d = .ok () d' →
        ∃ file, d'.read path = .ok file ∧ Png.decode file = .ok frame := by
  obtain ⟨file, hencode, hdecode⟩ := h.decode_encode
  refine ⟨⟨?_, ?_⟩, fun d' hsave => ?_⟩
  · rintro ⟨d', hsave⟩
    obtain ⟨place, hplace, -⟩ := (save_eq_ok hencode).mp hsave
    exact ⟨place, hplace⟩
  · rintro ⟨place, hplace⟩
    exact ⟨_, (save_eq_ok hencode).mpr ⟨place, hplace, rfl⟩⟩
  · obtain ⟨place, hplace, rfl⟩ := (save_eq_ok hencode).mp hsave
    exact ⟨file, Disk.read_put hplace file, hdecode⟩

/-- A frame of two pixels, one of them half transparent, the other a hidden color. -/
def faded : Pixmap := ⟨2, 1, #[0xFF, 0x80, 0x00, 0x7F, 0x12, 0x34, 0x56, 0x00]⟩

theorem save_decode_faded :
    ∃ d' file, save "../home/frame.png" faded ⟨[(["home"], .directory)], ["home"]⟩ = .ok () d' ∧
      d'.read "../home/frame.png" = .ok file ∧ Png.decode file = .ok faded := by
  have hportable : Png.Portable faded :=
    ⟨⟨rfl, by decide⟩, by decide, by decide, by decide⟩
  have hplace : Disk.WritableAt ⟨[(["home"], .directory)], ["home"]⟩ "../home/frame.png"
      ["home", "frame.png"] :=
    ⟨by decide, by decide, by decide, by decide⟩
  obtain ⟨hsaved, hread⟩ :=
    save_decode hportable ⟨[(["home"], .directory)], ["home"]⟩ "../home/frame.png"
  obtain ⟨d', hsave⟩ := hsaved.mpr ⟨_, hplace⟩
  obtain ⟨file, hfile, hdecode⟩ := hread d' hsave
  exact ⟨d', file, hsave, hfile, hdecode⟩

end TwinScreen.Screenshot
