import TwinScreen.Proofs.Pixmap.Changes
import TwinScreen.Pixmap.Draw

/-!
# What drawing does to colors

Compositing a color changes one pixel of a valid pixmap, or none, and never fails. So what holds of
all colors that a pixmap shows still holds after drawing, if compositing on one of them keeps it
(`Painted`).
-/
namespace TwinScreen.Pixmap

/-! ## One pixel -/

theorem inside_of_pixel? {p : Pixmap} {x y : Nat} {c : Color} (h : p.pixel? x y = some c) :
    x < p.width ∧ y < p.height := by
  unfold pixel? at h
  split at h
  · assumption
  · cases h

theorem run_blend_outside {p : Pixmap} {x y : Int}
    (h : x < 0 ∨ y < 0 ∨ p.width ≤ x.toNat ∨ p.height ≤ y.toNat) (c : Color) :
    (blend x y c).run p = .ok () p := by
  unfold blend
  rw [Step.run_get_bind, if_pos h]
  rfl

/-- Inside the pixmap, a color is composited on what is there. -/
theorem run_blend_inside {p : Pixmap} {x y : Int} {below : Color} (hp : p.Valid) (hx : 0 ≤ x)
    (hy : 0 ≤ y) (hbelow : p.pixel? x.toNat y.toNat = some below) (c : Color) :
    (blend x y c).run p = .ok () (p.withPixel x.toNat y.toNat (c.onto below)) := by
  obtain ⟨hwidth, hheight⟩ := inside_of_pixel? hbelow
  have hrow := hp.hasRow hheight
  unfold blend
  rw [Step.run_get_bind, if_neg (by omega), (hrow.pixel_eq_ok below).mpr hbelow,
    Step.run_bind_of_ok (Step.run_lift_ok ..), run_setPixel hrow hwidth hheight]

/-- Compositing a color on a valid pixmap leaves it alone or changes one pixel that it shows. -/
theorem run_blend {p : Pixmap} (hp : p.Valid) (x y : Int) (c : Color) :
    (blend x y c).run p = .ok () p ∨ ∃ i j below, i < p.width ∧ j < p.height ∧
      p.pixel? i j = some below ∧
      (blend x y c).run p = .ok () (p.withPixel i j (c.onto below)) := by
  by_cases houtside : x < 0 ∨ y < 0 ∨ p.width ≤ x.toNat ∨ p.height ≤ y.toNat
  · exact .inl (run_blend_outside houtside c)
  · obtain ⟨hx, hy, hwidth, hheight⟩ :
        0 ≤ x ∧ 0 ≤ y ∧ x.toNat < p.width ∧ y.toNat < p.height := by omega
    obtain ⟨below, hbelow⟩ := (hp.hasRow hheight).exists_pixel? hwidth hheight
    exact .inr ⟨_, _, below, hwidth, hheight, hbelow, run_blend_inside hp hx hy hbelow c⟩

theorem exists_blend {p : Pixmap} (hp : p.Valid) (x y : Int) (c : Color) :
    ∃ p', (blend x y c).run p = .ok () p' ∧ p.SameShape p' := by
  rcases run_blend hp x y c with hsame | ⟨i, j, below, _, _, _, hchanged⟩
  · exact ⟨p, hsame, .refl p⟩
  · exact ⟨_, hchanged, p.written_sameShape _ _⟩

/-- What a pixmap shows after compositing a color: the color on what was there at its place, and the
same as before anywhere else. -/
theorem pixel?_blend {p p' : Pixmap} {x y : Int} {c : Color} (hp : p.Valid)
    (h : (blend x y c).run p = .ok () p') (i j : Nat) :
    p'.pixel? i j =
      if i = x ∧ j = y then (p.pixel? i j).map c.onto else p.pixel? i j := by
  by_cases houtside : x < 0 ∨ y < 0 ∨ p.width ≤ x.toNat ∨ p.height ≤ y.toNat
  · rw [run_blend_outside houtside c] at h
    obtain ⟨_, rfl⟩ := EStateM.Result.ok.inj h
    split
    · rw [pixel?, if_neg (by omega)]
      rfl
    · rfl
  · have hheight : y.toNat < p.height := by omega
    have hwidth : x.toNat < p.width := by omega
    obtain ⟨below, hbelow⟩ := (hp.hasRow hheight).exists_pixel? hwidth hheight
    rw [run_blend_inside hp (by omega) (by omega) hbelow c] at h
    obtain ⟨_, rfl⟩ := EStateM.Result.ok.inj h
    split
    · obtain ⟨rfl, rfl⟩ : i = x.toNat ∧ j = y.toNat := by omega
      rw [pixel?_withPixel_self (hp.hasRow hheight) hwidth hheight, hbelow]
      rfl
    · refine pixel?_withPixel_other hwidth _ ?_
      simp only [ne_eq, Prod.mk.injEq]
      omega

/-! ## All colors of a pixmap -/

/-- A valid pixmap that shows only colors with a property. -/
structure Painted (P : Color → Prop) (p : Pixmap) : Prop where
  valid : p.Valid
  colors : ∀ x y c, p.pixel? x y = some c → P c

variable {P : Color → Prop}

theorem Painted.withPixel {p : Pixmap} (hp : p.Painted P) {x y : Nat} {c : Color}
    (hx : x < p.width) (hy : y < p.height) (hc : P c) : (p.withPixel x y c).Painted P where
  valid := (p.written_sameShape _ _).valid hp.valid
  colors := by
    intro i j d hd
    by_cases hij : (i, j) = (x, y)
    · obtain ⟨rfl, rfl⟩ := Prod.mk.inj hij
      rw [pixel?_withPixel_self (hp.valid.hasRow hy) hx hy, Option.some_inj] at hd
      rwa [← hd]
    · rw [pixel?_withPixel_other hx c hij] at hd
      exact hp.colors i j d hd

/-- A new pixmap has one color everywhere. -/
theorem pixel?_create {width height : Nat} {c : Color} {p : Pixmap}
    (h : create width height c = .ok p) {x y : Nat} (hx : x < width) (hy : y < height) :
    p.pixel? x y = some c := by
  obtain ⟨hvalid, rfl, rfl⟩ := valid_of_create h
  have hroom := ((hvalid.hasRow hy).pixel_le_size hx).1
  have hbytes : ∀ i < p.bytes.size, p.bytes[i]? = some (c.byte i) := by
    obtain ⟨_, hp⟩ := (create_eq_ok _ _ c p).mp h
    intro i hi
    rw [hp] at hi ⊢
    simp only [Array.size_ofFn] at hi
    simp [hi]
  rw [pixel?, if_pos ⟨hx, hy⟩, colorAt?_eq_some_iff]
  intro i hi
  rw [hbytes _ (by omega), byte_position_add]

theorem painted_of_create {width height : Nat} {c : Color} {p : Pixmap}
    (h : create width height c = .ok p) (hc : P c) : p.Painted P := by
  obtain ⟨hvalid, hwidth, hheight⟩ := valid_of_create h
  refine ⟨hvalid, fun x y d hd => ?_⟩
  obtain ⟨hx, hy⟩ := inside_of_pixel? hd
  rw [pixel?_create h (hwidth ▸ hx) (hheight ▸ hy), Option.some_inj] at hd
  rwa [← hd]

/-- Drawing keeps what compositing on any color keeps. -/
theorem blend_painted {c : Color} (hc : ∀ d, P d → P (c.onto d)) (x y : Int) :
    Step.Preserves (Painted P) (blend x y c) := by
  intro p hp
  rcases run_blend hp.valid x y c with hsame | ⟨i, j, below, hi, hj, hbelow, hchanged⟩
  · rwa [Step.after_of_ok hsame]
  · rw [Step.after_of_ok hchanged]
    exact hp.withPixel hi hj (hc below (hp.colors i j below hbelow))

end TwinScreen.Pixmap
