import Mathlib.Data.List.Induction
import TwinScreen.Proofs.Frame.Contents
import TwinScreen.Proofs.Pixmap.Copy

/-!
# What a recorder holds

A recorder may copy a frame into the pixmap of an earlier one. Nothing of that pixmap is left: the
recorder holds the picture of the latest frame, unless it has been emptied since, and it has counted
every frame. A frame that no pixmap can hold is refused.
-/
namespace TwinScreen.Recorder

/-- The pixmap at hand is valid. -/
def Sound (r : Recorder) : Prop := ∀ p ∈ r.latest, p.Valid

theorem none_sound (count : Nat) : Sound ⟨none, count⟩ := by
  intro p hp
  cases hp

/-! ## Copying the rows -/

variable {f : Frame} {p : Pixmap} {r : Recorder}

theorem run_copyRow {t : Pixmap} {y : Nat} (hf : f.Readable) (hy : y < f.height)
    (ht : t.HasRow y) (hwidth : t.width = f.width) :
    (copyRow f (f.width * pixelBytes) y).run t =
      .ok () { t with bytes := writeBytes t.bytes (y * (f.width * pixelBytes)) (f.pixels y) } := by
  obtain ⟨hroom, hend⟩ := ht
  rw [Pixmap.position_zero_succ, hwidth] at hroom hend
  have hnext : (y + 1) * (f.width * pixelBytes) =
      y * (f.width * pixelBytes) + f.width * pixelBytes := Nat.succ_mul ..
  unfold copyRow
  rw [Step.run_get_bind, Size.mul_of_lt (by omega), Step.run_bind_of_ok (Step.run_lift_ok ..),
    Size.mul_of_lt (by omega), Step.run_bind_of_ok (Step.run_lift_ok ..), if_neg (by omega),
    hf.row_eq hy, Step.run_bind_of_ok (Step.run_lift_ok ..), Pixmap.write_eq_ok,
    hf.length_pixels hy]
  exact ⟨⟨hend, hroom⟩, rfl⟩

/-- A pixmap of the size of a frame becomes its picture, whatever it showed before. -/
theorem run_copyRows (hf : f.Readable) (hstride : f.width * pixelBytes < Size.bound)
    (hp : p.Valid) (hwidth : p.width = f.width) (hheight : p.height = f.height) :
    (copyRows f).run p = .ok () f.picture := by
  have hround : ∀ k < f.height, ∀ t : Pixmap,
      p.SameShape t ∧ BeginsWith t.bytes f.pixels (f.width * pixelBytes) k →
        ∃ t', (copyRow f (f.width * pixelBytes) k).run t = .ok () t' ∧ p.SameShape t' ∧
          BeginsWith t'.bytes f.pixels (f.width * pixelBytes) (k + 1) := by
    rintro k hk t ⟨hshape, hbegins⟩
    have hrow : t.HasRow k := (hshape.valid hp).hasRow (by rw [hshape.height_eq, hheight]; exact hk)
    have htwidth : t.width = f.width := hshape.width_eq.trans hwidth
    have hroom : (k + 1) * (f.width * pixelBytes) ≤ t.bytes.size := by
      have hend := hrow.1
      rwa [Pixmap.position_zero_succ, htwidth, ← Nat.succ_mul] at hend
    exact ⟨_, run_copyRow hf hk hrow htwidth, hshape.trans (t.written_sameShape _ _),
      hbegins.writeBytes (hf.length_pixels hk) hroom⟩
  obtain ⟨t, hrun, hshape, hbegins⟩ := Step.exists_forM
    (fun k t => p.SameShape t ∧ BeginsWith t.bytes f.pixels (f.width * pixelBytes) k) hround
    ⟨.refl p, .zero ..⟩
  have hbytes : t.bytes.toList = (List.range f.height).flatMap f.pixels := by
    refine hbegins.toList_eq ?_
    rw [hshape.size_eq, hp.size_eq, hwidth, hheight, Nat.mul_right_comm, Nat.mul_comm]
  have hpicture : t = f.picture := by
    obtain ⟨width, height, bytes⟩ := t
    obtain rfl : width = f.width := hshape.width_eq.trans hwidth
    obtain rfl : height = f.height := hshape.height_eq.trans hheight
    unfold Frame.picture
    rw [← hbytes]
  have hlength : p.stride = .ok (f.width * pixelBytes) := by
    rw [← hwidth] at hstride ⊢
    exact Size.mul_of_lt hstride
  unfold copyRows
  rw [Step.run_get_bind, hlength, Step.run_bind_of_ok (Step.run_lift_ok ..), hrun, hpicture]

/-- Rows whose length is no size cannot be copied. -/
theorem run_copyRows_of_not_lt (f : Frame) (h : ¬ p.width * pixelBytes < Size.bound) :
    (copyRows f).run p = .error .overflow p := by
  have hlength : p.stride = .error .overflow := Size.mul_of_not_lt h
  unfold copyRows
  rw [Step.run_get_bind, hlength]
  rfl

theorem copyRows_preserves (p : Pixmap) (f : Frame) :
    Step.Preserves p.SameShape (copyRows f) := by
  refine Step.Preserves.get.bind fun _ => (Step.Preserves.lift _).bind fun stride => ?_
  refine .forM _ fun y => Step.Preserves.get.bind fun _ => (Step.Preserves.lift _).bind fun _ => ?_
  exact (Step.Preserves.lift _).bind fun _ => .check _ _ <| (Step.Preserves.lift _).bind fun _ =>
    Pixmap.write_preserves p _ _

/-! ## One frame -/

/-- A pixmap at hand is used again only if it has the size of the frame. -/
theorem canvas_eq_ok (hr : r.Sound) (h : canvas r.latest f = .ok p) :
    p.Valid ∧ p.width = f.width ∧ p.height = f.height := by
  unfold canvas at h
  split at h
  · rename_i latest hlatest
    split at h
    · rename_i hsize
      obtain rfl := Except.ok.inj h
      exact ⟨hr latest hlatest, hsize⟩
    · exact Pixmap.valid_of_create h
  · exact Pixmap.valid_of_create h

theorem exists_canvas (latest : Option Pixmap) (hf : f.Storable) :
    ∃ p, canvas latest f = .ok p := by
  have hcreate : ∃ p, Pixmap.create f.width f.height Color.transparent = .ok p :=
    ⟨_, (Pixmap.create_eq_ok ..).mpr ⟨hf.size_le, rfl⟩⟩
  unfold canvas
  split
  · split
    · exact ⟨_, rfl⟩
    · exact hcreate
  · exact hcreate

/-- While a frame is copied, the recorder holds nothing. -/
theorem run_hold (r : Recorder) (f : Frame) :
    (hold f).run r =
      match canvas r.latest f with
      | .error e => .error e { r with latest := none }
      | .ok p =>
          match (copyRows f).run p with
          | .error e _ => .error e { r with latest := none }
          | .ok () copy => .ok () { r with latest := some copy } := rfl

/-- A frame that can be stored is held, and no other. -/
theorem hold_eq_ok (hr : r.Sound) (hf : f.Readable) (r' : Recorder) :
    (hold f).run r = .ok () r' ↔ f.Storable ∧ r' = { r with latest := some f.picture } := by
  rw [run_hold]
  by_cases hstorable : f.Storable
  · obtain ⟨p, hcanvas⟩ := exists_canvas r.latest hstorable
    obtain ⟨hp, hwidth, hheight⟩ := canvas_eq_ok hr hcanvas
    simp [hcanvas, run_copyRows hf hstorable.stride_lt hp hwidth hheight, hstorable, eq_comm]
  · cases hcanvas : canvas r.latest f with
    | error e => simp [hstorable]
    | ok p =>
      -- There is a pixmap of this size, so it must be the length of its rows that is no size.
      obtain ⟨hp, hwidth, hheight⟩ := canvas_eq_ok hr hcanvas
      have hstride : ¬ p.width * pixelBytes < Size.bound := by
        intro hlt
        refine hstorable ⟨by rwa [hwidth] at hlt, ?_⟩
        rw [← hwidth, ← hheight, Nat.mul_comm, ← hp.size_eq]
        exact hp.size_le
      simp [run_copyRows_of_not_lt f hstride, hstorable]

/-- Whatever becomes of the copy, the recorder stays sound. -/
theorem hold_preserves (f : Frame) : Step.Preserves Sound (hold f) := by
  intro r hr
  unfold Step.after
  rw [run_hold]
  cases hcanvas : canvas r.latest f with
  | error e => exact none_sound r.count
  | ok p =>
    have hshape := copyRows_preserves p f p (.refl p)
    dsimp only
    cases hrun : (copyRows f).run p with
    | error e t => exact none_sound r.count
    | ok _ copy =>
      rw [Step.after_of_ok hrun] at hshape
      intro q hq
      obtain rfl := Option.some.inj hq
      exact hshape.valid (canvas_eq_ok hr hcanvas).1

/-- A held frame is counted as long as there is a size for the number. -/
theorem record_eq_ok (hr : r.Sound) (hf : f.Readable) (r' : Recorder) :
    (record f).run r = .ok () r' ↔
      f.Storable ∧ r.count + 1 < Size.bound ∧ r' = ⟨some f.picture, r.count + 1⟩ := by
  simp only [record, Step.bind_eq_ok, hold_eq_ok hr hf, Step.run_get_bind, Step.lift_eq_ok,
    Size.add_eq_ok]
  constructor
  · rintro ⟨_, _, ⟨hstorable, rfl⟩, _, _, ⟨⟨hcount, rfl⟩, rfl⟩, hset⟩
    exact ⟨hstorable, hcount, (EStateM.Result.ok.inj hset).2.symm⟩
  · rintro ⟨hstorable, hcount, rfl⟩
    exact ⟨(), _, ⟨hstorable, rfl⟩, _, _, ⟨⟨hcount, rfl⟩, rfl⟩, rfl⟩

/-- Counting has no part in what is held. -/
theorem record_after_latest (hr : r.Sound) (hf : f.Readable) (hstorable : f.Storable) :
    ((record f).after r).latest = some f.picture := by
  have hhold : (hold f).run r = .ok () { r with latest := some f.picture } :=
    (hold_eq_ok hr hf _).mpr ⟨hstorable, rfl⟩
  unfold record
  rw [Step.after_bind_of_ok hhold]
  unfold Step.after
  rw [Step.run_get_bind]
  cases Size.add r.count 1 <;> rfl

theorem record_preserves (f : Frame) : Step.Preserves Sound (record f) := by
  refine (hold_preserves f).bind fun _ => ?_
  intro r hr
  unfold Step.after
  rw [Step.run_get_bind]
  cases Size.add r.count 1 <;> exact hr

/-! ## Many frames -/

inductive Call where
  | record (f : Frame)
  | take

namespace Call

def step : Call → Step Recorder Unit
  | .record f => Recorder.record f
  | .take => Recorder.take >>= fun _ => pure ()

/-- The frame that is recorded, if one is. -/
def frame? : Call → Option Frame
  | .record f => some f
  | .take => none

theorem preserves (call : Call) : Step.Preserves Sound call.step := by
  cases call with
  | record f => exact record_preserves f
  | take => exact fun r _ => none_sound r.count

end Call

/-- What calls leave of a new recorder, whichever of them fail. -/
def leftBy (calls : List Call) : Recorder := calls.foldl (fun r call => call.step.after r) empty

theorem leftBy_sound (calls : List Call) : (leftBy calls).Sound := by
  induction calls using List.reverseRecOn with
  | nil => exact none_sound 0
  | append_singleton calls last ih =>
    rw [leftBy, List.foldl_concat]
    exact last.preserves _ ih

/-- The latest frame that was recorded after the recorder had last been emptied: the frame of the
last call, if that call has one. -/
def latestFrame (calls : List Call) : Option Frame := calls.getLast?.bind Call.frame?

def run (calls : List Call) : Step Recorder Unit := calls.forM Call.step

theorem run_concat_eq_ok (calls : List Call) (last : Call) (r r' : Recorder) :
    (run (calls ++ [last])).run r = .ok () r' ↔
      ∃ t, (run calls).run r = .ok () t ∧ last.step.run t = .ok () r' := by
  have hbind : run (calls ++ [last]) = run calls >>= fun _ => last.step := by
    simp [run]
  rw [hbind, Step.bind_eq_ok]
  exact ⟨fun ⟨_, t, hrun⟩ => ⟨t, hrun⟩, fun ⟨t, hrun⟩ => ⟨(), t, hrun⟩⟩

/-- The number of frames that are recorded. -/
def frameCount (calls : List Call) : Nat := calls.countP fun call => call.frame?.isSome

/-- What a recorder holds after calls that have all succeeded. -/
def kept (calls : List Call) : Recorder :=
  ⟨(latestFrame calls).map Frame.picture, frameCount calls⟩

/-- A recorded frame takes the place of the one before, and is counted. -/
theorem kept_concat_record (calls : List Call) (f : Frame) :
    kept (calls ++ [.record f]) = ⟨some f.picture, (kept calls).count + 1⟩ := by
  simp [kept, latestFrame, frameCount, Call.frame?]

theorem kept_concat_take (calls : List Call) :
    kept (calls ++ [.take]) = ⟨none, (kept calls).count⟩ := by
  simp [kept, latestFrame, frameCount, Call.frame?]

theorem record_mem_of_latestFrame {calls : List Call} {f : Frame}
    (h : latestFrame calls = some f) : .record f ∈ calls := by
  obtain ⟨call, hlast, hframe⟩ := Option.bind_eq_some_iff.mp h
  cases call with
  | record g =>
    obtain rfl := Option.some.inj hframe
    exact List.mem_of_getLast? hlast
  | take => cases hframe

theorem kept_sound {calls : List Call} (hreadable : ∀ f, .record f ∈ calls → f.Readable)
    (hstorable : ∀ f, .record f ∈ calls → f.Storable) : (kept calls).Sound := by
  intro p hp
  obtain ⟨f, hlatest, rfl⟩ := Option.map_eq_some_iff.mp hp
  have hmem := record_mem_of_latestFrame hlatest
  exact Frame.picture_valid (hreadable f hmem) (hstorable f hmem)

/-- Calls succeed exactly if all their frames can be stored and counted, and then they leave nothing
but the picture of the latest frame and the number of frames. -/
theorem run_eq_ok (calls : List Call) (hreadable : ∀ f, .record f ∈ calls → f.Readable)
    (r : Recorder) :
    (run calls).run empty = .ok () r ↔
      (∀ f, .record f ∈ calls → f.Storable) ∧ frameCount calls < Size.bound ∧ r = kept calls := by
  induction calls using List.reverseRecOn generalizing r with
  | nil => simp [run, kept, latestFrame, frameCount, empty, Size.bound, eq_comm]
  | append_singleton calls last ih =>
    simp only [List.mem_append, List.mem_singleton, or_imp, forall_and] at hreadable ⊢
    obtain ⟨hbefore, hlast⟩ := hreadable
    simp only [run_concat_eq_ok, ih hbefore]
    cases last with
    | record f =>
      have hcount : frameCount (calls ++ [.record f]) = frameCount calls + 1 :=
        congrArg Recorder.count (kept_concat_record calls f)
      have hrecord (hstorable : ∀ f, .record f ∈ calls → f.Storable) :=
        record_eq_ok (kept_sound hbefore hstorable) (hlast f rfl) r
      rw [kept_concat_record, hcount]
      constructor
      · rintro ⟨_, ⟨hstorable, _, rfl⟩, hrun⟩
        obtain ⟨hf, hroom, rfl⟩ := (hrecord hstorable).mp hrun
        refine ⟨⟨hstorable, fun g hg => ?_⟩, hroom, rfl⟩
        obtain rfl := Call.record.inj hg
        exact hf
      · rintro ⟨⟨hstorable, hf⟩, hroom, hr⟩
        exact ⟨_, ⟨hstorable, by omega, rfl⟩, (hrecord hstorable).mpr ⟨hf f rfl, hroom, hr⟩⟩
    | take =>
      have hcount : frameCount (calls ++ [.take]) = frameCount calls :=
        congrArg Recorder.count (kept_concat_take calls)
      rw [kept_concat_take, hcount]
      constructor
      · rintro ⟨_, ⟨hstorable, hroom, rfl⟩, htake⟩
        exact ⟨⟨hstorable, nofun⟩, hroom, (EStateM.Result.ok.inj htake).2.symm⟩
      · rintro ⟨⟨hstorable, _⟩, hroom, rfl⟩
        exact ⟨_, ⟨hstorable, hroom, rfl⟩, rfl⟩

/-- Frames whose rows lie in their bytes are recorded, whatever was recorded before and whatever
lies between their rows. Calls succeed exactly if each of their frames can be stored and all can be
counted. They leave the number of frames and, unless the recorder has been emptied since, the rows
of the latest one. -/
theorem keeps_latest (calls : List Call) (hreadable : ∀ f, .record f ∈ calls → f.Readable) :
    ((∃ r, (run calls).run empty = .ok () r) ↔
        (∀ f, .record f ∈ calls → f.Storable) ∧ frameCount calls < Size.bound) ∧
      ∀ r, (run calls).run empty = .ok () r →
        r.count = frameCount calls ∧ (latestFrame calls = none → r.latest = none) ∧
        ∀ f, latestFrame calls = some f →
          ∃ p, r.latest = some p ∧ p = f.picture ∧ p.width = f.width ∧ p.height = f.height ∧
            ∀ y < f.height, p.row y = .ok (f.pixels y) := by
  simp only [run_eq_ok calls hreadable]
  refine ⟨?_, ?_⟩
  · exact ⟨fun ⟨_, hstorable, hroom, _⟩ => ⟨hstorable, hroom⟩,
      fun ⟨hstorable, hroom⟩ => ⟨_, hstorable, hroom, rfl⟩⟩
  · rintro r ⟨hstorable, _, rfl⟩
    refine ⟨rfl, fun hnone => ?_, fun f hf => ?_⟩
    · unfold kept
      rw [hnone]
      rfl
    · have hmem := record_mem_of_latestFrame hf
      refine ⟨f.picture, ?_, rfl, rfl, rfl, fun y hy => ?_⟩
      · unfold kept
        rw [hf]
        rfl
      · exact Frame.row_picture (hreadable f hmem) (hstorable f hmem) hy

/-- Two frames of one size, the second with a gap between its rows, follow one that is taken. -/
theorem keeps_latest_between_gaps :
    let calls : List Call :=
      [.record ⟨#[1, 2, 3, 4], 1, 1, 4⟩, .take,
        .record ⟨#[1, 2, 3, 4, 5, 6, 7, 8], 1, 2, 4⟩,
        .record ⟨#[8, 7, 6, 5, 0, 0, 4, 3, 2, 1], 1, 2, 6⟩]
    ∃ r, (run calls).run empty = .ok () r ∧ r.count = 3 ∧
      r.latest = some ⟨1, 2, #[8, 7, 6, 5, 4, 3, 2, 1]⟩ := by
  intro calls
  have hframes : ∀ f, .record f ∈ calls → f.Readable ∧ f.Storable := by
    intro f hf
    simp only [calls, List.mem_cons, List.not_mem_nil, Call.record.injEq, reduceCtorEq, or_false,
      false_or] at hf
    rcases hf with rfl | rfl | rfl <;> exact ⟨⟨by decide, by decide⟩, ⟨by decide, by decide⟩⟩
  obtain ⟨hok, hleft⟩ := keeps_latest calls fun f hf => (hframes f hf).1
  obtain ⟨r, hrun⟩ := hok.mpr ⟨fun f hf => (hframes f hf).2, by decide⟩
  obtain ⟨hcount, -, hlatest⟩ := hleft r hrun
  obtain ⟨p, hp, hpicture, -⟩ := hlatest _ rfl
  refine ⟨r, hrun, hcount, ?_⟩
  rw [hp, hpicture]
  decide

/-- A frame without rows holds no bytes, yet it is not recorded where the length of its rows would
be no size. Frames of no pixels at all are recorded until there is no size for their number. -/
theorem frames_refused :
    let f : Frame := ⟨#[], 0x4000000000000000, 0, 0⟩
    (f.Readable ∧ latestFrame [.record f] = some f ∧
      (run [.record f]).run empty = .error .overflow ⟨none, 0⟩) ∧
    ∀ r, (run (List.replicate Size.bound (.record ⟨#[], 0, 0, 0⟩))).run empty ≠ .ok () r := by
  refine ⟨⟨⟨by decide, by simp⟩, rfl, rfl⟩, ?_⟩
  intro r hrun
  have hreadable : ∀ f, .record f ∈ List.replicate Size.bound (Call.record ⟨#[], 0, 0, 0⟩) →
      f.Readable := by
    intro f hf
    obtain rfl := Call.record.inj (List.eq_of_mem_replicate hf)
    exact ⟨by decide, by simp⟩
  obtain ⟨_, hroom, _⟩ := (run_eq_ok _ hreadable r).mp hrun
  simp [frameCount, List.countP_replicate, Call.frame?] at hroom

end TwinScreen.Recorder
