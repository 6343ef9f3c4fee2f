import Mathlib.Algebra.Order.Round
import Mathlib.Data.Rat.Floor
import TwinScreen.Proofs.Bounds
import TwinScreen.Proofs.Color.Blending

/-!
# Composited colors are correctly rounded

Source-over in exact arithmetic gives rational numbers; a composited color has the nearest byte to
each of them, halves rounded up (`onto_correctly_rounded`). A computation in numbers of 32 bits
comes to the same color without leaving their range (`composed_eq`), and it needs no special cases:
opaque and invisible sources come out of the general formula as they should.
-/
namespace TwinScreen

/-- Half of the divisor, added before dividing, rounds to the nearest whole number, halves up. -/
theorem round_div (n d : Nat) : round ((n : ℚ) / d) = ((n + d / 2) / d : Nat) := by
  have htwice : ⌊2 * ((n : ℚ) / d)⌋ = ((2 * n / d : Nat) : ℤ) := by
    rw [← mul_div_assoc, ← Nat.cast_ofNat, ← Nat.cast_mul, Rat.floor_natCast_div_natCast]
    rfl
  rw [round_eq_div, htwice]
  rcases Nat.eq_zero_or_pos d with rfl | hd
  · simp
  · have hhalf : (2 * n / d + 1) / 2 = (n + d / 2) / d := by
      calc (2 * n / d + 1) / 2 = (2 * n + d) / d / 2 := by rw [Nat.add_div_right _ hd]
        _ = (2 * n + d) / 2 / d := Nat.div_right_comm ..
        _ = (n + d / 2) / d := by rw [Nat.mul_add_div (by decide : 0 < 2)]
    rw [← hhalf]
    rfl

/-! ## Numbers of 32 bits -/

namespace Extent

theorem add_of_lt {a b : Nat} (h : a + b < bound) : add a b = .ok (a + b) := if_pos h

theorem mul_of_lt {a b : Nat} (h : a * b < bound) : mul a b = .ok (a * b) := if_pos h

theorem sub_of_le {a b : Nat} (h : b ≤ a) : sub a b = .ok (a - b) := if_pos h

theorem toByte_of_le {n : Nat} (h : n ≤ 255) : toByte n = .ok (UInt8.ofNat n) :=
  if_pos (Nat.lt_succ_of_le h)

end Extent

namespace Color

/-! ## The general formula -/

theorem toNat_le (x : UInt8) : x.toNat ≤ 255 := Nat.lt_succ_iff.mp x.toNat_lt

/-- The alpha of the upper color is not lost either. -/
theorem le_overAlpha (sa da : Nat) : sa ≤ (overAlpha sa da + 127) / 255 := by
  unfold overAlpha
  omega

theorem overAlpha_pos_of_or {sa da : Nat} (h : 0 < sa ∨ 0 < da) : 0 < overAlpha sa da := by
  rcases Nat.eq_zero_or_pos sa with rfl | hsource
  · unfold overAlpha
    omega
  · exact overAlpha_pos hsource

/-- An opaque source hides what is below. -/
theorem overChannel_full (s d da : Nat) : overChannel s d 255 da = s := by
  simp only [overChannel, overAlpha, Nat.sub_self, Nat.mul_zero, Nat.add_zero]
  omega

/-- An invisible source leaves what is below. -/
theorem overChannel_invisible (s d : Nat) {da : Nat} (h : 0 < da) : overChannel s d 0 da = d := by
  have htotal : overAlpha 0 da = da * 255 := by simp [overAlpha]
  have hvalue : s * 0 * 255 + d * da * (255 - 0) = da * 255 * d := by ring
  rw [overChannel, htotal, hvalue, Nat.mul_add_div (by omega),
    Nat.div_eq_of_lt (Nat.div_lt_self (by omega) (by decide)), Nat.add_zero]

/-- The resulting alpha is rounded to the nearest level. -/
theorem toNat_alpha_onto (source dest : Color) :
    (source.onto dest).alpha.toNat =
      (overAlpha source.alpha.toNat dest.alpha.toNat + 127) / 255 := by
  unfold onto
  split
  · rename_i hfull
    rw [hfull]
    simp [overAlpha]
  · split
    · rename_i hnone
      rw [hnone]
      simp only [overAlpha, UInt8.toNat_zero]
      omega
    · obtain ⟨-, hle⟩ := overAlpha_range (toNat_le source.alpha) (toNat_le dest.alpha)
      exact UInt8.toNat_ofNat_of_lt' (Nat.lt_succ_of_le hle)

section Channel

variable {source dest : Color}

theorem overChannel_le (htotal : 0 < overAlpha source.alpha.toNat dest.alpha.toNat) (s d : UInt8) :
    overChannel s.toNat d.toNat source.alpha.toNat dest.alpha.toNat ≤ 255 :=
  (overChannel_between htotal ⟨Nat.zero_le _, toNat_le s⟩ ⟨Nat.zero_le _, toNat_le d⟩).2

/-- The shortcuts for opaque and invisible sources give what the general formula gives. -/
theorem toNat_channel_onto (htotal : 0 < overAlpha source.alpha.toNat dest.alpha.toNat)
    {channel : Color → UInt8} (hchannel : channel ∈ channels) :
    (channel (source.onto dest)).toNat = overChannel (channel source).toNat (channel dest).toNat
      source.alpha.toNat dest.alpha.toNat := by
  have hbyte := overChannel_le htotal (channel source) (channel dest)
  unfold onto
  split
  · rename_i hfull
    rw [hfull]
    exact (overChannel_full ..).symm
  · split
    · rename_i hnone
      rw [hnone] at htotal ⊢
      refine (overChannel_invisible _ _ ?_).symm
      simpa [overAlpha] using htotal
    · simp only [channels, List.mem_cons, List.not_mem_nil, or_false] at hchannel
      rcases hchannel with rfl | rfl | rfl <;>
        exact UInt8.toNat_ofNat_of_lt' (Nat.lt_succ_of_le hbyte)

end Channel

/-! ## No number leaves its range -/

/-- The numbers on the way to a channel stay below three full bytes multiplied, twice that much
where two of them are added. -/
theorem composedChannel_eq {s d sa da : Nat} (hs : s ≤ 255) (hd : d ≤ 255) (hsa : sa ≤ 255)
    (hda : da ≤ 255) (htotal : 0 < overAlpha sa da) :
    composedChannel s d sa da (255 - sa) (overAlpha sa da) =
      .ok (UInt8.ofNat (overChannel s d sa da)) := by
  have hupper : s * sa ≤ 255 * 255 := Nat.mul_le_mul hs hsa
  have hdest : d * da ≤ 255 * 255 := Nat.mul_le_mul hd hda
  have hlower : d * da * (255 - sa) ≤ 255 * 255 * 255 := Nat.mul_le_mul hdest (Nat.sub_le ..)
  have hsum := overAlpha_range hsa hda
  have hbyte := (overChannel_between htotal ⟨Nat.zero_le s, hs⟩ ⟨Nat.zero_le d, hd⟩).2
  unfold composedChannel
  rw [Extent.mul_of_lt (by unfold Extent.bound; omega), except_ok_bind,
    Extent.mul_of_lt (by unfold Extent.bound; omega), except_ok_bind,
    Extent.mul_of_lt (by unfold Extent.bound; omega), except_ok_bind,
    Extent.mul_of_lt (by unfold Extent.bound; omega), except_ok_bind,
    Extent.add_of_lt (by unfold Extent.bound; omega), except_ok_bind,
    Extent.add_of_lt (by unfold Extent.bound; omega), except_ok_bind]
  exact Extent.toByte_of_le hbyte

/-- No number of the general formula leaves 32 bits, so the formula gives what the three cases
give. -/
theorem composed_eq {source dest : Color}
    (htotal : 0 < overAlpha source.alpha.toNat dest.alpha.toNat) :
    composed source dest = .ok (source.onto dest) := by
  have hsa := toNat_le source.alpha
  have hda := toNat_le dest.alpha
  have hrest : dest.alpha.toNat * (255 - source.alpha.toNat) ≤ 255 * 255 :=
    Nat.mul_le_mul hda (Nat.sub_le ..)
  have halpha := (overAlpha_range hsa hda).2
  have hchannel : ∀ channel ∈ channels,
      composedChannel (channel source).toNat (channel dest).toNat source.alpha.toNat
        dest.alpha.toNat (255 - source.alpha.toNat)
        (overAlpha source.alpha.toNat dest.alpha.toNat) = .ok (channel (source.onto dest)) := by
    intro channel h
    rw [composedChannel_eq (toNat_le _) (toNat_le _) hsa hda htotal, ← toNat_channel_onto htotal h,
      UInt8.ofNat_toNat]
  unfold composed
  dsimp only
  rw [Extent.sub_of_le hsa, except_ok_bind, Extent.mul_of_lt (by unfold Extent.bound; omega),
    except_ok_bind, Extent.mul_of_lt (by unfold Extent.bound; omega), except_ok_bind,
    Extent.add_of_lt (by unfold Extent.bound; omega), except_ok_bind]
  rw [← overAlpha, if_neg htotal.ne', hchannel red (by simp [channels]), except_ok_bind,
    hchannel green (by simp [channels]), except_ok_bind, hchannel blue (by simp [channels]),
    except_ok_bind, Extent.add_of_lt (by unfold Extent.bound; omega), except_ok_bind,
    Extent.toByte_of_le halpha, ← toNat_alpha_onto, UInt8.ofNat_toNat]
  rfl

/-! ## The nearest bytes -/

/-- The alpha of a color over another, in 255ths of a level. -/
def exactTotal (source dest : Color) : ℚ :=
  255 * source.alpha.toNat + dest.alpha.toNat * (255 - source.alpha.toNat)

/-- A channel of a color over another. -/
def exactChannel (channel : Color → UInt8) (source dest : Color) : ℚ :=
  ((channel source).toNat * source.alpha.toNat * 255 +
    (channel dest).toNat * dest.alpha.toNat * (255 - source.alpha.toNat)) / exactTotal source dest

theorem cast_rest (c : Color) :
    ((255 - c.alpha.toNat : Nat) : ℚ) = 255 - (c.alpha.toNat : ℚ) := by
  rw [Nat.cast_sub (toNat_le c.alpha)]
  rfl

theorem cast_overAlpha (source dest : Color) :
    (overAlpha source.alpha.toNat dest.alpha.toNat : ℚ) = exactTotal source dest := by
  unfold overAlpha exactTotal
  push_cast [cast_rest]
  ring

/-- The alpha is the exact one, rounded to the nearest level. -/
theorem round_exactAlpha (source dest : Color) :
    round (exactTotal source dest / 255) = (source.onto dest).alpha.toNat := by
  rw [toNat_alpha_onto, ← cast_overAlpha]
  exact round_div _ 255

theorem round_exactChannel {source dest : Color} {channel : Color → UInt8}
    (htotal : 0 < overAlpha source.alpha.toNat dest.alpha.toNat) (hchannel : channel ∈ channels) :
    round (exactChannel channel source dest) = (channel (source.onto dest)).toNat := by
  rw [toNat_channel_onto htotal hchannel, overChannel, ← round_div, exactChannel, cast_overAlpha]
  push_cast [cast_rest]
  rfl

/-- A color is composited on another, one of them visible, with every number rounded to the nearest
byte, halves up, in a computation that leaves the range of 32 bits nowhere. Each channel lies
between those of the two colors, and neither alpha is lost. Two invisible colors leave the lower
one. -/
theorem onto_correctly_rounded (source dest : Color) :
    (¬ (source.alpha = 0 ∧ dest.alpha = 0) →
      composed source dest = .ok (source.onto dest) ∧
      (source.onto dest).alpha.toNat = round (exactTotal source dest / 255) ∧
      (source.alpha ≤ (source.onto dest).alpha ∧ dest.alpha ≤ (source.onto dest).alpha) ∧
      ∀ channel ∈ channels,
        (channel (source.onto dest)).toNat = round (exactChannel channel source dest) ∧
        (channel source ≤ channel (source.onto dest) ∧
            channel (source.onto dest) ≤ channel dest ∨
          channel dest ≤ channel (source.onto dest) ∧
            channel (source.onto dest) ≤ channel source)) ∧
    (source.alpha = 0 → dest.alpha = 0 → source.onto dest = dest) := by
  constructor
  · intro hvisible
    have htotal : 0 < overAlpha source.alpha.toNat dest.alpha.toNat := by
      apply overAlpha_pos_of_or
      by_contra hnone
      refine hvisible ⟨UInt8.toNat_inj.mp ?_, UInt8.toNat_inj.mp ?_⟩ <;>
        simp only [UInt8.toNat_zero] <;> omega
    refine ⟨composed_eq htotal, (round_exactAlpha source dest).symm, ⟨?_, ?_⟩, ?_⟩
    · rw [UInt8.le_iff_toNat_le, toNat_alpha_onto]
      exact le_overAlpha _ _
    · exact alpha_le_onto source dest
    · intro channel hchannel
      refine ⟨(round_exactChannel htotal hchannel).symm, ?_⟩
      simp only [UInt8.le_iff_toNat_le, toNat_channel_onto htotal hchannel]
      rcases Nat.le_total (channel source).toNat (channel dest).toNat with h | h
      · exact .inl (overChannel_between htotal ⟨Nat.le_refl _, h⟩ ⟨h, Nat.le_refl _⟩)
      · exact .inr (overChannel_between htotal ⟨h, Nat.le_refl _⟩ ⟨Nat.le_refl _, h⟩)
  · intro hsource _
    unfold onto
    rw [if_neg (by rw [hsource]; decide), if_pos hsource]

/-- The red channel is a half, 28.5, and is rounded up. -/
theorem onto_correctly_rounded_half :
    ¬ ((⟨200, 20, 60, 10⟩ : Color).alpha = 0 ∧ (⟨20, 200, 60, 210⟩ : Color).alpha = 0) ∧
    red ∈ channels ∧
    composed ⟨200, 20, 60, 10⟩ ⟨20, 200, 60, 210⟩ = .ok ⟨29, 192, 60, 212⟩ ∧
    round (exactTotal ⟨200, 20, 60, 10⟩ ⟨20, 200, 60, 210⟩ / 255) = 212 ∧
    round (exactChannel red ⟨200, 20, 60, 10⟩ ⟨20, 200, 60, 210⟩) = 29 := by
  have hvisible :
      ¬ ((⟨200, 20, 60, 10⟩ : Color).alpha = 0 ∧ (⟨20, 200, 60, 210⟩ : Color).alpha = 0) := by
    decide
  have hred : red ∈ channels := List.mem_cons_self
  obtain ⟨hcomposed, halpha, -, hchannel⟩ :=
    (onto_correctly_rounded ⟨200, 20, 60, 10⟩ ⟨20, 200, 60, 210⟩).1 hvisible
  exact ⟨hvisible, hred, hcomposed, halpha.symm, (hchannel red hred).1.symm⟩

end Color

end TwinScreen
