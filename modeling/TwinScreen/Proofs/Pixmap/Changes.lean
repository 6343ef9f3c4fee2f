import TwinScreen.Proofs.Pixmap.Copy
import TwinScreen.Proofs.Pixmap.Rows

/-!
# What changes leave of a pixmap

A pixmap keeps its dimensions and the number of its bytes whatever is drawn on it, so its rows and
pixels always lie in its bytes. A pixel that is set shows its color, and no other pixel shows it.
-/
namespace TwinScreen.Pixmap

/-! ## One pixel -/

def withPixel (p : Pixmap) (x y : Nat) (c : Color) : Pixmap :=
  { p with bytes := writeBytes p.bytes (p.position x y) c.bytes }

def dot (c : Color) : Pixmap := ⟨1, 1, c.bytes.toArray⟩

theorem dot_hasRow (c : Color) : (dot c).HasRow 0 := by
  constructor <;> simp [dot, position, Color.bytes, pixelBytes, Size.bound]

theorem rowBytes_dot (c : Color) : (dot c).rowBytes 0 = c.bytes := rfl

theorem pixel?_dot (c : Color) : (dot c).pixel? 0 0 = some c := rfl

/-- A pixel is a row of one pixel. -/
theorem withPixel_eq_withRow (p : Pixmap) (x y : Nat) (c : Color) :
    p.withPixel x y c = p.withRow (dot c) x y 0 := by
  unfold withPixel withRow
  rw [rowBytes_dot]

theorem pixel?_withPixel_self {p : Pixmap} {x y : Nat} (hy : p.HasRow y) (hx : x < p.width)
    (hheight : y < p.height) (c : Color) : (p.withPixel x y c).pixel? x y = some c := by
  have hroom : p.position x y + ((dot c).rowBytes 0).length ≤ p.bytes.size :=
    (hy.pixel_le_size hx).1
  rw [withPixel_eq_withRow, ← pixel?_dot c]
  exact pixel?_withRow_inside (dot_hasRow c) hx hheight Nat.one_pos hroom Nat.one_pos

theorem pixel?_withPixel_other {p : Pixmap} {x y i j : Nat} (hx : x < p.width) (c : Color)
    (hij : (i, j) ≠ (x, y)) : (p.withPixel x y c).pixel? i j = p.pixel? i j := by
  rw [withPixel_eq_withRow]
  refine pixel?_withRow_outside (dot_hasRow c) hx ?_
  rintro ⟨hleft, hright, rfl⟩
  have hi : i = x := Nat.le_antisymm (Nat.le_of_lt_succ hright) hleft
  exact hij (by rw [hi])

/-- Inside the pixmap, setting a pixel changes that pixel. -/
theorem run_setPixel {p : Pixmap} {x y : Nat} (hy : p.HasRow y) (hx : x < p.width)
    (hheight : y < p.height) (c : Color) :
    (setPixel x y c).run p = .ok () (p.withPixel x y c) := by
  obtain ⟨hroom, hend⟩ := hy.pixel_le_size hx
  have hinside : p.checkInside x y = .ok () := by
    unfold checkInside
    rw [if_neg (by omega), if_neg (by omega)]
  unfold setPixel
  rw [Step.run_get_bind, hinside, Step.run_bind_of_ok (Step.run_lift_ok ..),
    hy.offset_eq (by omega), Step.run_bind_of_ok (Step.run_lift_ok ..), write_eq_ok]
  exact ⟨⟨hend, hroom⟩, rfl⟩

/-- A position shows the same color in both pixmaps, or lies outside of both. -/
theorem pixel_congr {p p' : Pixmap} (hshape : p.SameShape p')
    (hrow : ∀ j < p.height, p.HasRow j) {i j : Nat} (h : p'.pixel? i j = p.pixel? i j) :
    p'.pixel i j = p.pixel i j := by
  by_cases hinside : i < p.width ∧ j < p.height
  · have hp := hrow j hinside.2
    have hp' : p'.HasRow j := by
      unfold HasRow at hp ⊢
      rwa [hshape.position_eq, hshape.size_eq]
    obtain ⟨c, hc⟩ := hp.exists_pixel? hinside.1 hinside.2
    rw [(hp.pixel_eq_ok c).mpr hc, (hp'.pixel_eq_ok c).mpr (h.trans hc)]
  · have houtside : ∃ e, p.checkInside i j = .error e := by
      unfold checkInside
      split
      · exact ⟨_, rfl⟩
      · rw [if_pos (by omega)]
        exact ⟨_, rfl⟩
    have hsame : p'.checkInside i j = p.checkInside i j := by
      unfold checkInside
      rw [hshape.width_eq, hshape.height_eq]
    obtain ⟨e, he⟩ := houtside
    unfold pixel
    rw [hsame, he]
    rfl

/-! ## Any change -/

inductive Change where
  | setPixel (x y : Nat) (color : Color)
  | blend (x y : Int) (color : Color)
  | fill (color : Color)
  | draw (image : Pixmap) (x y : Int)
  | copy (source : Pixmap) (x y : Nat)

def Change.step : Change → Step Pixmap Unit
  | .setPixel x y color => Pixmap.setPixel x y color
  | .blend x y color => Pixmap.blend x y color
  | .fill color => Pixmap.fill color
  | .draw image x y => image.draw x y
  | .copy source x y => source.copy x y

/-- What is left of a pixmap by a sequence of changes, whether or not each of them succeeds. -/
def changed (changes : List Change) (p : Pixmap) : Pixmap :=
  changes.foldl (fun p change => change.step.after p) p

theorem setPixel_preserves (p : Pixmap) (x y : Nat) (c : Color) :
    Step.Preserves p.SameShape (setPixel x y c) :=
  Step.Preserves.get.bind fun _ => (Step.Preserves.lift _).bind fun _ =>
    (Step.Preserves.lift _).bind fun _ => write_preserves p _ _

theorem blend_preserves (p : Pixmap) (x y : Int) (c : Color) :
    Step.Preserves p.SameShape (blend x y c) := by
  refine Step.Preserves.get.bind fun _ => .ite _ (.pure ()) ?_
  exact (Step.Preserves.lift _).bind fun _ => setPixel_preserves p _ _ _

/-- What compositing each color of an image has as a property, wherever it falls, drawing the image
has. -/
theorem draw_of_blend {K : {α : Type} → Step Pixmap α → Prop} (hK : Step.Compositional @K)
    {image : Pixmap} (hblend : ∀ i j c, image.pixel i j = .ok c → ∀ x y, K (blend x y c))
    (x y : Int) : K (image.draw x y) := by
  refine hK.forM _ fun row => hK.forM _ fun column => ?_
  refine hK.bind (hK.lift _) fun targetX => hK.bind (hK.lift _) fun targetY => ?_
  exact hK.lift_bind fun c hc => hblend column row c hc targetX targetY

theorem draw_preserves (p image : Pixmap) (x y : Int) :
    Step.Preserves p.SameShape (image.draw x y) :=
  draw_of_blend (Step.Preserves.compositional p.SameShape)
    (fun _ _ c _ x y => blend_preserves p x y c) x y

theorem Change.preserves (p : Pixmap) (change : Change) :
    Step.Preserves p.SameShape change.step := by
  cases change with
  | setPixel x y c => exact setPixel_preserves p x y c
  | blend x y c => exact blend_preserves p x y c
  | fill c => exact fun t ht => ht.trans (t.filled_sameShape c)
  | draw image x y => exact draw_preserves p image x y
  | copy source x y => exact copy_preserves p source x y

/-- Every sequence of changes keeps the shape, by induction. -/
theorem changed_sameShape (changes : List Change) (p : Pixmap) :
    p.SameShape (changed changes p) := by
  induction changes generalizing p with
  | nil => exact .refl p
  | cons change more ih => exact (change.preserves p p (.refl p)).trans (ih _)

/-! ## Pixmaps that stay intact -/

/-- A new pixmap of this width and height: in one color, or of given bytes. -/
inductive Made (width height : Nat) (p : Pixmap) : Prop where
  | create (color : Color) (h : create width height color = .ok p)
  | ofBytes (bytes : Array UInt8) (h : ofBytes width height bytes = .ok p)

theorem Made.shape {width height : Nat} {p : Pixmap} (h : Made width height p) :
    (p.width = width ∧ p.height = height) ∧ p.bytes.size = width * height * pixelBytes ∧
      p.bytes.size < Size.bound := by
  cases h with
  | create color h =>
    obtain ⟨hvalid, rfl, rfl⟩ := valid_of_create h
    exact ⟨⟨rfl, rfl⟩, hvalid.size_eq, hvalid.size_lt⟩
  | ofBytes bytes h =>
    simp only [Pixmap.ofBytes, except_bind_eq_ok, except_ite_eq_ok, Size.mul_eq_ok] at h
    obtain ⟨_, ⟨_, rfl⟩, _, ⟨hlt, rfl⟩, hsize, hp⟩ := h
    obtain rfl := Except.ok.inj hp
    exact ⟨⟨rfl, rfl⟩, hsize, by rw [hsize]; exact hlt⟩

/-- What can be relied on in a pixmap of this width and height. -/
structure Intact (width height : Nat) (p : Pixmap) : Prop where
  width_eq : p.width = width
  height_eq : p.height = height
  size_eq : p.bytes.size = width * height * pixelBytes
  /-- The position of a pixel is a size, and the pixel lies in the bytes. -/
  offset_inside : ∀ x < width, ∀ y < height,
    p.offset x y = .ok (y * (width * pixelBytes) + x * pixelBytes) ∧
      y * (width * pixelBytes) + x * pixelBytes + pixelBytes ≤ p.bytes.size
  /-- The bytes are those of the rows, one after the other, and a pixel is four bytes of its row. -/
  rows : ∃ row : Nat → List UInt8, (∀ y < height, p.row y = .ok (row y)) ∧
    p.bytes.toList = (List.range height).flatMap row ∧
    ∀ x < width, ∀ y < height, ∃ color, p.pixel x y = .ok color ∧
      color.bytes = ((row y).drop (x * pixelBytes)).take pixelBytes
  /-- A pixel can be set, and no other position shows it. -/
  setPixel_local : ∀ x < width, ∀ y < height, ∀ color : Color,
    ∃ p', (setPixel x y color).run p = .ok () p' ∧ p'.pixel x y = .ok color ∧
      ∀ i j, (i, j) ≠ (x, y) → p'.pixel i j = p.pixel i j

theorem intact_of_size {p : Pixmap} (hsize : p.bytes.size = p.width * p.height * pixelBytes)
    (hlt : p.bytes.size < Size.bound) : Intact p.width p.height p where
  width_eq := rfl
  height_eq := rfl
  size_eq := hsize
  offset_inside := by
    intro x hx y hy
    have hrow := hasRow_of_size hsize hlt hy
    exact ⟨hrow.offset_eq (Nat.le_of_lt hx), (hrow.pixel_le_size hx).1⟩
  rows := by
    refine ⟨p.rowBytes, ?_, toList_bytes hsize, ?_⟩
    · intro y hy
      exact (row_eq_ok ..).mpr ⟨hasRow_of_size hsize hlt hy, rfl⟩
    · intro x hx y hy
      have hrow := hasRow_of_size hsize hlt hy
      obtain ⟨color, hcolor⟩ := hrow.exists_pixel? hx hy
      exact ⟨color, (hrow.pixel_eq_ok color).mpr hcolor, hrow.bytes_eq hx hcolor⟩
  setPixel_local := by
    intro x hx y hy color
    have hrow := hasRow_of_size hsize hlt hy
    have hshape : p.SameShape (p.withPixel x y color) := p.written_sameShape _ _
    have hrow' : (p.withPixel x y color).HasRow y := by
      unfold HasRow
      rwa [hshape.position_eq, hshape.size_eq]
    refine ⟨p.withPixel x y color, run_setPixel hrow hx hy color, ?_, ?_⟩
    · exact (hrow'.pixel_eq_ok color).mpr (pixel?_withPixel_self hrow hx hy color)
    · intro i j hij
      exact pixel_congr hshape (fun j hj => hasRow_of_size hsize hlt hj)
        (pixel?_withPixel_other hx color hij)

/-- Whatever is done with a new pixmap, it stays intact. -/
theorem changed_intact {width height : Nat} {p : Pixmap} (h : Made width height p)
    (changes : List Change) : Intact width height (changed changes p) := by
  obtain ⟨⟨rfl, rfl⟩, hsize, hlt⟩ := h.shape
  have hshape := changed_sameShape changes p
  have hsize' : (changed changes p).bytes.size =
      (changed changes p).width * (changed changes p).height * pixelBytes := by
    rw [hshape.size_eq, hshape.width_eq, hshape.height_eq, hsize]
  have hintact := intact_of_size hsize' (by rw [hshape.size_eq]; exact hlt)
  rwa [hshape.width_eq, hshape.height_eq] at hintact

/-- Among the changes are some outside the pixmap and one that does not fit. -/
theorem changed_intact_outside :
    ∃ p, ofBytes 3 2 (Array.replicate 24 7) = .ok p ∧
      Intact 3 2 (changed [.setPixel 2 1 Color.white, .copy p 1 0, .setPixel 3 0 Color.black,
        .blend (-1) 5 Color.white, .draw p 2 (-1)] p) := by
  refine ⟨⟨3, 2, Array.replicate 24 7⟩, rfl, ?_⟩
  exact changed_intact (.ofBytes (Array.replicate 24 7) rfl) _

end TwinScreen.Pixmap
