import TwinScreen.Proofs.Png.Samples

/-!
# What samples mean

The meaning of a pixel's samples (`Expands`) does not mention how they are laid out. An image file
that can be read gives a pixmap of its dimensions in which every pixel is what its own samples mean
(`Samples.Shows`), so a gray picture comes out the same whichever way it was stored
(`decode_expands`).
-/
namespace TwinScreen.Png

/-- The color that the samples of one pixel stand for. -/
inductive Expands : Channels → List UInt8 → Color → Prop where
  | gray (level : UInt8) : Expands .gray [level] ⟨level, level, level, 255⟩
  | grayAlpha (level alpha : UInt8) :
      Expands .grayAlpha [level, alpha] ⟨level, level, level, alpha⟩
  | rgb (red green blue : UInt8) : Expands .rgb [red, green, blue] ⟨red, green, blue, 255⟩
  | rgba (red green blue alpha : UInt8) :
      Expands .rgba [red, green, blue, alpha] ⟨red, green, blue, alpha⟩

/-- Samples stand for one color at most. -/
theorem Expands.unique {channels : Channels} {samples : List UInt8} {c c' : Color}
    (h : Expands channels samples c) (h' : Expands channels samples c') : c = c' := by
  cases h <;> cases h' <;> rfl

namespace Samples

/-- The samples of pixel number `k`, counted from left to right and from top to bottom. -/
def group (s : Samples) (k : Nat) : List UInt8 :=
  (s.data.toList.drop (k * s.channels.count)).take s.channels.count

/-- The pixmap has the dimensions of the samples, and every pixel the color of its group. -/
structure Shows (s : Samples) (p : Pixmap) : Prop where
  valid : p.Valid
  width_eq : p.width = s.width
  height_eq : p.height = s.height
  pixel : ∀ x < s.width, ∀ y < s.height,
    ∃ c, p.pixel x y = .ok c ∧ Expands s.channels (s.group (y * s.width + x)) c

variable {s s' : Samples} {p p' : Pixmap}

theorem place_lt {width height x y : Nat} (hx : x < width) (hy : y < height) :
    y * width + x < width * height := by
  have hrow : (y + 1) * width ≤ height * width := Nat.mul_le_mul_right _ hy
  rw [Nat.succ_mul, Nat.mul_comm height] at hrow
  omega

/-! ## Samples as a pixmap -/

theorem group_eq {k : Nat} (hk : k < s.data.size / s.channels.count) :
    s.group k =
      (List.range s.channels.count).map fun i => s.data.getD (s.channels.count * k + i) 0 := by
  have hend : (k + 1) * s.channels.count ≤ s.data.size :=
    Nat.le_trans (Nat.mul_le_mul_right _ hk) (Nat.div_mul_le_self ..)
  rw [Nat.succ_mul] at hend
  unfold group
  refine List.ext_getElem ?_ fun i hi hi' => ?_
  · rw [List.length_take, List.length_drop, Array.length_toList, List.length_map, List.length_range]
    omega
  · rw [List.length_map, List.length_range] at hi'
    rw [List.getElem_map, List.getElem_range, List.getElem_take, List.getElem_drop,
      Array.getElem_toList, Nat.mul_comm s.channels.count k, ← Array.getElem_eq_getD]

/-- The color that is put together channel by channel is what the samples mean. -/
theorem expands_group {k : Nat} (hk : k < s.data.size / s.channels.count) :
    Expands s.channels (s.group k)
      ⟨s.channels.expand s.data k 0, s.channels.expand s.data k 1, s.channels.expand s.data k 2,
        s.channels.expand s.data k 3⟩ := by
  rw [group_eq hk]
  generalize s.data = data
  cases s.channels with
  | gray =>
    have hlevel := Expands.gray (data.getD k 0)
    simpa [List.range_succ, Channels.count, Channels.expand] using hlevel
  | grayAlpha => exact Expands.grayAlpha _ _
  | rgb => exact Expands.rgb _ _ _
  | rgba => exact Expands.rgba _ _ _ _

/-- Byte `i` of the four that pixel number `k` becomes. -/
theorem getElem?_expanded {k i : Nat} (hk : k < s.data.size / s.channels.count) (hi : i < 4) :
    s.expanded[4 * k + i]? = some (s.channels.expand s.data k i) := by
  have hplace : (4 * k + i) / 4 = k := by omega
  have hchannel : (4 * k + i) % 4 = i := by omega
  unfold expanded
  rw [Array.getElem?_ofFn, dif_pos (by omega), hplace, hchannel]

theorem Complete.shows (hs : s.Complete) : s.Shows ⟨s.width, s.height, s.expanded⟩ := by
  have hvalid : Pixmap.Valid ⟨s.width, s.height, s.expanded⟩ :=
    ⟨hs.size_expanded, hs.size_expanded ▸ hs.addressable⟩
  refine ⟨hvalid, rfl, rfl, fun x hx y hy => ?_⟩
  have hplace : y * s.width + x < s.data.size / s.channels.count := by
    rw [hs.groups_eq]
    exact place_lt hx hy
  refine ⟨_, ((hvalid.hasRow hy).pixel_eq_ok _).mpr ?_, expands_group hplace⟩
  have hposition : Pixmap.position ⟨s.width, s.height, s.expanded⟩ x y =
      4 * (y * s.width + x) := by
    change y * (s.width * 4) + x * 4 = 4 * (y * s.width + x)
    rw [← Nat.mul_assoc]
    omega
  unfold Pixmap.pixel?
  rw [if_pos ⟨hx, hy⟩, colorAt?_eq_some_iff, hposition]
  intro i hi
  rw [getElem?_expanded hplace hi]
  match i, hi with
  | 0, _ | 1, _ | 2, _ | 3, _ => rfl

theorem Shows.pixel?_eq (h : s.Shows p) {x y : Nat} (hx : x < s.width) (hy : y < s.height) :
    ∃ c, p.pixel? x y = some c ∧ Expands s.channels (s.group (y * s.width + x)) c := by
  obtain ⟨c, hc, hexpands⟩ := h.pixel x hx y hy
  exact ⟨c, ((h.valid.hasRow (h.height_eq ▸ hy)).pixel_eq_ok c).mp hc, hexpands⟩

/-- Two pixmaps are the same if the samples they show mean the same. -/
theorem Shows.eq_of_groups (h : s.Shows p) (h' : s'.Shows p') (hwidth : s'.width = s.width)
    (hheight : s'.height = s.height)
    (hgroups : ∀ k < s.width * s.height, ∃ c,
      Expands s.channels (s.group k) c ∧ Expands s'.channels (s'.group k) c) : p = p' := by
  refine h.valid.ext h'.valid (by rw [h.width_eq, h'.width_eq, hwidth])
    (by rw [h.height_eq, h'.height_eq, hheight]) fun x hx y hy => ?_
  rw [h.width_eq] at hx
  rw [h.height_eq] at hy
  obtain ⟨c, hc, hexpands⟩ := h.pixel?_eq hx hy
  obtain ⟨c', hc', hexpands'⟩ := h'.pixel?_eq (hwidth ▸ hx) (hheight ▸ hy)
  rw [hwidth] at hexpands'
  obtain ⟨meant, hmeant, hmeant'⟩ := hgroups _ (place_lt hx hy)
  rw [hc, hc', hexpands.unique hmeant, hexpands'.unique hmeant']

end Samples

/-! ## Gray pictures -/

/-- The samples of a gray pixel without transparency. -/
def Channels.ofGray : Channels → UInt8 → List UInt8
  | gray, level => [level]
  | grayAlpha, level => [level, 255]
  | rgb, level => [level, level, level]
  | rgba, level => [level, level, level, 255]

theorem Channels.length_ofGray (channels : Channels) (level : UInt8) :
    (channels.ofGray level).length = channels.count := by
  cases channels <;> rfl

/-- A gray sample stands for its level in all three channels. -/
theorem Channels.expands_ofGray (channels : Channels) (level : UInt8) :
    Expands channels (channels.ofGray level) (.rgb level level level) := by
  cases channels <;> constructor

/-- The samples of a gray picture, given by its levels row by row. -/
def graySamples (width height : Nat) (levels : List UInt8) (channels : Channels) : Samples :=
  ⟨width, height, channels, (levels.flatMap channels.ofGray).toArray⟩

theorem group_graySamples {width height : Nat} {levels : List UInt8} (channels : Channels) {k : Nat}
    (hk : k < levels.length) :
    (graySamples width height levels channels).group k = channels.ofGray levels[k] := by
  unfold Samples.group graySamples
  exact slice_flatMap channels.length_ofGray levels hk

/-- The samples of a gray picture are complete only if there is a level for every pixel. -/
theorem length_levels {width height : Nat} {levels : List UInt8} {channels : Channels}
    (h : (graySamples width height levels channels).Complete) : levels.length = width * height := by
  have hsize : (levels.flatMap channels.ofGray).length = width * height * channels.count :=
    h.size_eq
  have hlevels : (levels.flatMap channels.ofGray).length = levels.length * channels.count := by
    simp [List.length_flatMap, channels.length_ofGray]
  exact Nat.eq_of_mul_eq_mul_right channels.count_pos (hlevels.symm.trans hsize)

/-- A file with samples that can be read is decoded, to what the samples mean. -/
theorem decode_shows {file : Array UInt8} {s : Samples} (h : readSamples file = .ok s) :
    ∃ p, decode file = .ok p ∧ s.Shows p := by
  have hs := readSamples_complete h
  refine ⟨_, ?_, hs.shows⟩
  unfold decode
  rw [h, except_ok_bind, hs.toPixmap_eq]
  rfl

/-- The pixmap of an image file has the dimensions of the image, and each pixel is the color that
its own samples mean; a gray picture is decoded the same whether it is stored as gray, as gray with
full alpha, as three equal colors or as those with full alpha. -/
theorem decode_expands {file : Array UInt8} {s : Samples} (h : readSamples file = .ok s) :
    (∃ p, decode file = .ok p ∧ s.Shows p) ∧
      ∀ levels channels, s = graySamples s.width s.height levels channels →
        ∀ file' channels', readSamples file' = .ok (graySamples s.width s.height levels channels') →
          decode file' = decode file := by
  refine ⟨decode_shows h, fun levels channels hgray file' channels' h' => ?_⟩
  obtain ⟨p, hp, hshows⟩ := decode_shows h
  obtain ⟨p', hp', hshows'⟩ := decode_shows h'
  -- The number of levels is known from the samples of either file: none of them is left over.
  have hcomplete := readSamples_complete h
  rw [hgray] at hcomplete
  have hcount := length_levels hcomplete
  have hsame : p = p' := hshows.eq_of_groups hshows' rfl rfl fun k hk => by
    have hk' : k < levels.length := hcount ▸ hk
    rw [hgray, group_graySamples channels hk', group_graySamples channels' hk']
    exact ⟨_, channels.expands_ofGray _, channels'.expands_ofGray _⟩
  rw [hp, hp', hsame]

deriving instance DecidableEq for Samples

def Channels.number : Channels → UInt8
  | gray => 0
  | rgb => 2
  | grayAlpha => 4
  | rgba => 6

/-- A file of the gray picture with levels 7 and 200 above 0 and 255. -/
def fourLevels (channels : Channels) : Array UInt8 :=
  (signature ++
    chunk headerTag (BigEndian.longBytes 2 ++ BigEndian.longBytes 2 ++
      [8, channels.number, 0, 0, 0]) ++
    chunk dataTag (Deflate.store (unfiltered
      [[7, 200].flatMap channels.ofGray, [0, 255].flatMap channels.ofGray])) ++
    endChunk).toArray

theorem readSamples_fourLevels (channels : Channels) :
    readSamples (fourLevels channels) = .ok (graySamples 2 2 [7, 200, 0, 255] channels) := by
  cases channels <;> decide +kernel

theorem decode_expands_fourLevels :
    (∃ p, decode (fourLevels .gray) = .ok p ∧
      (graySamples 2 2 [7, 200, 0, 255] .gray).Shows p ∧ p.pixel 1 0 = .ok (.rgb 200 200 200)) ∧
    decode (fourLevels .grayAlpha) = decode (fourLevels .gray) ∧
    decode (fourLevels .rgb) = decode (fourLevels .gray) ∧
    decode (fourLevels .rgba) = decode (fourLevels .gray) := by
  have h := decode_expands (readSamples_fourLevels .gray)
  obtain ⟨⟨p, hp, hshows⟩, hsame⟩ := h
  have hother := hsame [7, 200, 0, 255] .gray rfl
  refine ⟨⟨p, hp, hshows, ?_⟩, hother _ .grayAlpha (readSamples_fourLevels _),
    hother _ .rgb (readSamples_fourLevels _), hother _ .rgba (readSamples_fourLevels _)⟩
  obtain ⟨c, hc, hexpands⟩ := hshows.pixel 1 (by decide) 0 (by decide)
  rw [hc, hexpands.unique (.gray 200)]
  rfl

end TwinScreen.Png
