import Mathlib.Data.List.Basic
import TwinScreen.Files.Disk

/-!
# Written files are read back

Writing changes what stands at one place, which was no directory before. So every path that led
somewhere leads there still, and the path of the file leads to what was written (`read_write`).
-/
namespace TwinScreen.Disk

variable {d : Disk} {path : String} {place : Place}

/-! ## What stands at a place after a change -/

theorem lookup_filter_ne {nodes : List (Place × Node)} {q : Place} (h : q ≠ place) :
    (nodes.filter fun n => n.1 ≠ place).lookup q = nodes.lookup q := by
  induction nodes with
  | nil => rfl
  | cons n others ih =>
    by_cases hn : n.1 = place
    · have hq : (q == n.1) = false := by simpa [hn] using h
      rw [List.filter_cons_of_neg (by simpa using hn), ih, List.lookup_cons, hq]
    · rw [List.filter_cons_of_pos (by simpa using hn), List.lookup_cons, List.lookup_cons, ih]

theorem node?_put_self (d : Disk) (node : Node) (h : place ≠ []) :
    (d.put place node).node? place = some node := by
  simp [node?, put, h]

theorem node?_put_other (d : Disk) (node : Node) {q : Place} (h : q ≠ place) :
    (d.put place node).node? q = d.node? q := by
  have hq : (q == place) = false := by simpa using h
  rw [node?, node?, put, List.lookup_cons, hq, lookup_filter_ne h]

/-! ## Paths lead where they led -/

/-- Only directories are passed through on a path, so no file on it matters. -/
theorem follow_put {bytes : Array UInt8}
    (hplace : ∀ node, d.node? place = some node → node.isDirectory = false)
    {directory found : Place} {names : List String} (h : d.follow directory names = .ok found) :
    (d.put place (.file bytes)).follow directory names = .ok found := by
  fun_induction follow d directory names with
  | case1 => exact h
  | case2 directory more ih => exact ih h
  | case3 directory more ih => exact ih h
  | case4 => cases h
  | case5 directory name hdot hdots hlength => simp_all [follow]
  | case6 => cases h
  | case7 directory name more hdot hdots hlength hmore node hnode hdirectory ih =>
    have hother : directory ++ [name] ≠ place := by
      rintro rfl
      rw [hplace node hnode] at hdirectory
      cases hdirectory
    rw [follow, if_neg hlength, if_neg hmore, node?_put_other d _ hother, hnode]
    · dsimp only
      rw [if_pos hdirectory]
      exact ih h
    · exact hdot
    · exact hdots
  | case8 => cases h

theorem locate_put {bytes : Array UInt8}
    (hplace : ∀ node, d.node? place = some node → node.isDirectory = false)
    (h : d.locate path = .ok place) : (d.put place (.file bytes)).locate path = .ok place := by
  rw [locate] at h ⊢
  split at h
  · cases h
  · rename_i hflaw
    split at h
    · cases h
    · rename_i hpath
      simp only [if_neg hpath]
      exact follow_put hplace h

/-! ## Missing files -/

/-- Nothing stands at the place of a path that leads to nothing. -/
theorem node?_of_find (h : d.find path = .error .notFound) (hplace : d.locate path = .ok place) :
    d.node? place = none := by
  rw [find, hplace] at h
  dsimp only at h
  split at h
  · assumption
  · split at h
    · cases h
    · cases h

/-- Reading reports a missing file exactly where a path leads to nothing. -/
theorem readText_notFound_iff : d.readText path = .error .notFound ↔
    d.find path = .error .notFound := by
  unfold readText read
  cases hfind : d.find path with
  | error e => simp
  | ok node =>
    cases node with
    | file bytes =>
      dsimp only
      split
      · simp
      · simp
    | _ => simp

theorem exists?_of_readText {text : String} (h : d.readText path = .ok text) :
    d.exists? path = true := by
  unfold readText read at h
  unfold exists?
  cases hfind : d.find path with
  | error e => simp [hfind] at h
  | ok node => rfl

/-! ## Written files -/

/-- A path leads to a place where a file may be written: to a file that is not locked, or to a free
place in a directory that is not sealed. -/
structure WritableAt (d : Disk) (path : String) (place : Place) : Prop where
  located : d.locate path = .ok place
  named : Path.endsInSlash path = false
  taken : ∀ node ∈ d.node? place, node.isDirectory = false ∧ node ≠ .locked
  free : d.node? place = none → d.node? place.dropLast ≠ some .sealed

def Writable (d : Disk) (path : String) : Prop := ∃ place, d.WritableAt path place

/-- A place can be taken unless its directory is sealed. -/
theorem make_eq_ok {node : Node} {d' : Disk} :
    DiskStep.make place node d = .ok () d' ↔
      d.node? place.dropLast ≠ some .sealed ∧ d' = d.put place node := by
  rw [DiskStep.make]
  split
  · rename_i hsealed
    simp [hsealed]
  · rename_i hopen
    simp [hopen, eq_comm]

theorem make_eq_error {node : Node} {d' : Disk} {e : FileError}
    (h : DiskStep.make place node d = .error e d') : d' = d := by
  rw [DiskStep.make] at h
  split at h
  · exact (EStateM.Result.error.inj h).2.symm
  · cases h

/-- A file is written just where a path leads to a writable place, and nothing else changes. -/
theorem write_eq_ok {bytes : Array UInt8} {d' : Disk} :
    DiskStep.write path bytes d = .ok () d' ↔
      ∃ place, d.WritableAt path place ∧ d' = d.put place (.file bytes) := by
  constructor
  · intro h
    rw [DiskStep.write] at h
    split at h
    · cases h
    · rename_i place hlocated
      split at h
      · cases h
      · rename_i hnamed
        split at h
        · rename_i hnode
          obtain ⟨hopen, rfl⟩ := make_eq_ok.mp h
          exact ⟨place, ⟨hlocated, by simpa using hnamed, by simp [hnode], fun _ => hopen⟩, rfl⟩
        · rename_i hnode
          cases h
          exact ⟨place, ⟨hlocated, by simpa using hnamed, by simp [hnode, Node.isDirectory],
            by simp [hnode]⟩, rfl⟩
        · cases h
        · cases h
        · cases h
  · rintro ⟨place, hplace, rfl⟩
    simp only [DiskStep.write, hplace.located, hplace.named, Bool.false_eq_true, if_false]
    split
    · rename_i hnode
      exact make_eq_ok.mpr ⟨hplace.free hnode, rfl⟩
    · rfl
    · rename_i hnode
      cases (hplace.taken _ hnode).1
    · rename_i hnode
      cases (hplace.taken _ hnode).1
    · rename_i hnode
      exact absurd rfl (hplace.taken _ hnode).2

/-- A file that cannot be written leaves the disk alone. -/
theorem write_eq_error {bytes : Array UInt8} {d' : Disk} {e : FileError}
    (h : DiskStep.write path bytes d = .error e d') : d' = d := by
  rw [DiskStep.write] at h
  split at h
  · exact (EStateM.Result.error.inj h).2.symm
  · split at h
    · exact (EStateM.Result.error.inj h).2.symm
    · split at h
      · exact make_eq_error h
      · cases h
      all_goals exact (EStateM.Result.error.inj h).2.symm

theorem find_eq_error (h : d.exists? path = false) : ∃ e, d.find path = .error e := by
  rw [exists?] at h
  cases hfind : d.find path with
  | error e => exact ⟨e, rfl⟩
  | ok node => simp [hfind, Except.isOk, Except.toBool] at h

/-- Where a path cannot be followed, nothing is written either. -/
theorem exists_write_eq_error {e : FileError} (h : d.find path = .error e) (hfound : e ≠ .notFound)
    (bytes : Array UInt8) : ∃ e', DiskStep.write path bytes d = .error e' d := by
  rw [find] at h
  rw [DiskStep.write]
  cases hplace : d.locate path with
  | error e => exact ⟨e, rfl⟩
  | ok place =>
    simp only [hplace] at h
    split at h
    · exact absurd (Except.error.inj h).symm hfound
    · split at h
      · rename_i hslash
        exact ⟨.isADirectory, by simp [hslash.1]⟩
      · cases h

/-- What has been written is read. -/
theorem read_put (h : d.WritableAt path place) (bytes : Array UInt8) :
    (d.put place (.file bytes)).read path = .ok bytes := by
  have hroot : place ≠ [] := by
    rintro rfl
    cases (h.taken .directory rfl).1
  have hlocated : (d.put place (.file bytes)).locate path = .ok place :=
    locate_put (fun node hnode => (h.taken node hnode).1) h.located
  have hfind : (d.put place (.file bytes)).find path = .ok (.file bytes) := by
    simp [find, hlocated, node?_put_self d _ hroot, h.named]
  rw [read, hfind]

theorem fromUTF8?_toUTF8 (text : String) : String.fromUTF8? ⟨text.toUTF8.data⟩ = some text :=
  dif_pos text.isValidUTF8

theorem readText_put (h : d.WritableAt path place) (text : String) :
    (d.put place (.file text.toUTF8.data)).readText path = .ok text := by
  rw [readText, read_put h]
  dsimp only
  rw [fromUTF8?_toUTF8]

end TwinScreen.Disk
