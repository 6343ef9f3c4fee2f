import TwinScreen.Color

/-!
# Composited colors stay in range

A channel of a composited color is a rounded mean of the two channels, so it lies between any bounds
that hold for both (`mean_between`). The alpha never falls below that of the lower color
(`alpha_le_onto`).
-/
namespace TwinScreen

/-- A mean of two numbers with weights `u` and `v`, rounded to nearest, lies between their
bounds. -/
theorem mean_between {s d lo hi : Nat} (u v : Nat) (hweight : 0 < u + v) (hs : lo ≤ s ∧ s ≤ hi)
    (hd : lo ≤ d ∧ d ≤ hi) :
    lo ≤ (s * u + d * v + (u + v) / 2) / (u + v) ∧
      (s * u + d * v + (u + v) / 2) / (u + v) ≤ hi := by
  have hlo : lo * (u + v) ≤ s * u + d * v := by
    rw [Nat.mul_add]
    exact Nat.add_le_add (Nat.mul_le_mul_right u hs.1) (Nat.mul_le_mul_right v hd.1)
  have hhi : s * u + d * v ≤ hi * (u + v) := by
    rw [Nat.mul_add]
    exact Nat.add_le_add (Nat.mul_le_mul_right u hs.2) (Nat.mul_le_mul_right v hd.2)
  constructor
  · rw [Nat.le_div_iff_mul_le hweight]
    omega
  · rw [← Nat.lt_succ_iff, Nat.div_lt_iff_lt_mul hweight, Nat.succ_mul]
    omega

namespace Color

def channels : List (Color → UInt8) := [red, green, blue]

/-! ## Alpha -/

theorem overAlpha_pos {sa da : Nat} (h : 0 < sa) : 0 < overAlpha sa da := by
  unfold overAlpha
  omega

/-- The resulting alpha takes no alpha away from the lower color, and it is a byte. -/
theorem overAlpha_range {sa da : Nat} (hs : sa ≤ 255) (hd : da ≤ 255) :
    da ≤ (overAlpha sa da + 127) / 255 ∧ (overAlpha sa da + 127) / 255 ≤ 255 := by
  have hcover : da * sa ≤ 255 * sa := Nat.mul_le_mul_right sa hd
  have hrest : da * (255 - sa) ≤ 255 * (255 - sa) := Nat.mul_le_mul_right (255 - sa) hd
  have hsplit : da * sa + da * (255 - sa) = da * 255 := by
    rw [← Nat.mul_add, Nat.add_sub_cancel' hs]
  have hwhole : 255 * sa + 255 * (255 - sa) = 255 * 255 := by
    rw [← Nat.mul_add, Nat.add_sub_cancel' hs]
  unfold overAlpha
  constructor <;> omega

/-- Compositing does not take opacity away. -/
theorem alpha_le_onto (source dest : Color) : dest.alpha ≤ (source.onto dest).alpha := by
  unfold onto
  split
  · rename_i hfull
    rw [hfull]
    exact UInt8.le_iff_toNat_le.mpr (Nat.lt_succ_iff.mp dest.alpha.toNat_lt)
  · split
    · exact UInt8.le_refl _
    · obtain ⟨hge, hle⟩ := overAlpha_range (Nat.lt_succ_iff.mp source.alpha.toNat_lt)
        (Nat.lt_succ_iff.mp dest.alpha.toNat_lt)
      rw [UInt8.le_iff_toNat_le, UInt8.toNat_ofNat_of_lt' (Nat.lt_succ_of_le hle)]
      exact hge

/-! ## Colors of a palette -/

/-- Every channel of the color lies between those of two colors of the palette. -/
def InRange (palette : Color → Prop) (c : Color) : Prop :=
  ∀ channel ∈ channels, ∃ lo hi, palette lo ∧ palette hi ∧
    channel lo ≤ channel c ∧ channel c ≤ channel hi

variable {palette : Color → Prop}

theorem inRange_of_mem {c : Color} (h : palette c) : InRange palette c :=
  fun _ _ => ⟨c, c, h, h, UInt8.le_refl _, UInt8.le_refl _⟩

theorem InRange.withAlpha {c : Color} (h : InRange palette c) (alpha : UInt8) :
    InRange palette (c.withAlpha alpha) := by
  intro channel hchannel
  have hsame : channel (c.withAlpha alpha) = channel c := by
    simp only [channels, List.mem_cons, List.not_mem_nil, or_false] at hchannel
    rcases hchannel with rfl | rfl | rfl <;> rfl
  rw [hsame]
  exact h channel hchannel

/-- A channel of a composited color is that of one of the two colors or the rounded mean of both. -/
theorem channel_onto (source dest : Color) {channel : Color → UInt8} (h : channel ∈ channels) :
    channel (source.onto dest) = channel source ∨ channel (source.onto dest) = channel dest ∨
      0 < source.alpha.toNat ∧ channel (source.onto dest) = UInt8.ofNat (overChannel
        (channel source).toNat (channel dest).toNat source.alpha.toNat dest.alpha.toNat) := by
  unfold onto
  split
  · exact .inl rfl
  · split
    · exact .inr (.inl rfl)
    · rename_i hvisible
      have hpos : 0 < source.alpha.toNat :=
        Nat.pos_of_ne_zero fun hzero => hvisible (UInt8.toNat_inj.mp hzero)
      refine .inr (.inr ⟨hpos, ?_⟩)
      simp only [channels, List.mem_cons, List.not_mem_nil, or_false] at h
      rcases h with rfl | rfl | rfl <;> rfl

/-- A weighted mean lies between bounds of both values. -/
theorem overChannel_between {s d sa da lo hi : Nat} (htotal : 0 < overAlpha sa da)
    (hs : lo ≤ s ∧ s ≤ hi) (hd : lo ≤ d ∧ d ≤ hi) :
    lo ≤ overChannel s d sa da ∧ overChannel s d sa da ≤ hi := by
  have hmean := mean_between (sa * 255) (da * (255 - sa)) htotal hs hd
  rwa [← Nat.mul_assoc, ← Nat.mul_assoc] at hmean

/-- Of two colors of a palette, one has the smaller channel. -/
theorem exists_below (channel : Color → UInt8) {c d : Color} (hc : palette c) (hd : palette d) :
    ∃ lo, palette lo ∧ channel lo ≤ channel c ∧ channel lo ≤ channel d := by
  rcases UInt8.le_total (channel c) (channel d) with h | h
  · exact ⟨c, hc, UInt8.le_refl _, h⟩
  · exact ⟨d, hd, h, UInt8.le_refl _⟩

theorem exists_above (channel : Color → UInt8) {c d : Color} (hc : palette c) (hd : palette d) :
    ∃ hi, palette hi ∧ channel c ≤ channel hi ∧ channel d ≤ channel hi := by
  rcases UInt8.le_total (channel c) (channel d) with h | h
  · exact ⟨d, hd, h, UInt8.le_refl _⟩
  · exact ⟨c, hc, UInt8.le_refl _, h⟩

/-- Compositing does not leave the range of a palette. -/
theorem InRange.onto {source dest : Color} (hs : InRange palette source)
    (hd : InRange palette dest) : InRange palette (source.onto dest) := by
  intro channel hchannel
  obtain ⟨slo, shi, hslo, hshi, hsge, hsle⟩ := hs channel hchannel
  obtain ⟨dlo, dhi, hdlo, hdhi, hdge, hdle⟩ := hd channel hchannel
  rcases channel_onto source dest hchannel with hsource | hdest | ⟨hvisible, hmean⟩
  · rw [hsource]
    exact ⟨slo, shi, hslo, hshi, hsge, hsle⟩
  · rw [hdest]
    exact ⟨dlo, dhi, hdlo, hdhi, hdge, hdle⟩
  · -- The mean lies between the smaller of the lower bounds and the larger of the upper ones.
    obtain ⟨lo, hlo, hlos, hlod⟩ := exists_below channel hslo hdlo
    obtain ⟨hi, hhi, hhis, hhid⟩ := exists_above channel hshi hdhi
    have htotal : 0 < overAlpha source.alpha.toNat dest.alpha.toNat := overAlpha_pos hvisible
    have hbetween := overChannel_between htotal
      ⟨UInt8.le_iff_toNat_le.mp (UInt8.le_trans hlos hsge),
        UInt8.le_iff_toNat_le.mp (UInt8.le_trans hsle hhis)⟩
      ⟨UInt8.le_iff_toNat_le.mp (UInt8.le_trans hlod hdge),
        UInt8.le_iff_toNat_le.mp (UInt8.le_trans hdle hhid)⟩
    have hbyte := UInt8.toNat_ofNat_of_lt' (Nat.lt_of_le_of_lt hbetween.2 (channel hi).toNat_lt)
    rw [hmean]
    refine ⟨lo, hi, hlo, hhi, ?_, ?_⟩
    · rw [UInt8.le_iff_toNat_le, hbyte]
      exact hbetween.1
    · rw [UInt8.le_iff_toNat_le, hbyte]
      exact hbetween.2

end Color

end TwinScreen
