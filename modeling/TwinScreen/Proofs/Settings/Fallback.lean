import TwinScreen.Proofs.Settings.Storage

/-!
# Standard settings where there is no file

Loading settings or standard settings touches the disk only where a path leads to nothing, and then
writes a file with the standard settings unless they cannot be saved there. So nothing is lost, and
the same call made again has the same result and leaves the disk alone (`loadOrStandard_safe`).
-/
namespace TwinScreen.Settings

variable {s : Settings} {path : String} {d d' : Disk}

/-- A load fails for want of a file just when the path leads nowhere. -/
theorem load_notFound_iff : load d path = .error (.file .notFound) ↔
    d.find path = .error .notFound := by
  rw [← Disk.readText_notFound_iff, load]
  cases htext : d.readText path with
  | error e => simp
  | ok text =>
    dsimp only
    split
    · simp
    · simp

theorem exists?_of_load (h : load d path = .ok s) : d.exists? path = true := by
  rw [load] at h
  cases htext : d.readText path with
  | error e => simp [htext] at h
  | ok text => exact Disk.exists?_of_readText htext

/-- Where nothing stands, standard settings are saved at a place that was free, or cannot be
saved. -/
theorem createStandard_eq (hmissing : d.find path = .error .notFound) :
    ((createStandard path d).2 = d ∧ ∃ e, save standard path d = .error e d) ∨
      ∃ place, d.locate path = .ok place ∧ d.node? place = none ∧
        (createStandard path d).2 = d.put place (.file standard.print.toUTF8.data) ∧
        (createStandard path d).2.readText path = .ok standard.print ∧
        load (createStandard path d).2 path = .ok standard := by
  cases hsave : save standard path d with
  | ok u d' =>
    have hafter : (createStandard path d).2 = d' := by rw [createStandard, hsave]
    obtain ⟨place, hplace, hput⟩ := Disk.write_eq_ok.mp hsave
    rw [hafter]
    exact .inr ⟨place, hplace.located, Disk.node?_of_find hmissing hplace.located, hput,
      readText_of_save hsave, load_of_save hsave⟩
  | error e d' =>
    have hafter : (createStandard path d).2 = d' := by rw [createStandard, hsave]
    obtain rfl := Disk.write_eq_error hsave
    exact .inl ⟨hafter, e, rfl⟩

/-- Only a missing file is made. -/
theorem loadOrStandard_eq (path : String) (d : Disk) :
    (loadOrStandard path d).1 = (load d path).toOption.getD standard ∧
      (loadOrStandard path d).2.2 =
        if load d path = .error (.file .notFound) then (createStandard path d).2 else d := by
  cases hload : load d path with
  | ok s => simp [loadOrStandard, hload, Except.toOption]
  | error e =>
    cases e with
    | unreadable e => simp [loadOrStandard, hload, Except.toOption]
    | file e => cases e <;> simp [loadOrStandard, hload, Except.toOption]

/-- What was loaded once is loaded from the disk as it is afterwards. -/
theorem loadOrStandard_again (path : String) (d : Disk) :
    (loadOrStandard path (loadOrStandard path d).2.2).1 = (loadOrStandard path d).1 ∧
      (loadOrStandard path (loadOrStandard path d).2.2).2.2 = (loadOrStandard path d).2.2 := by
  obtain ⟨-, hafter⟩ := loadOrStandard_eq path d
  split at hafter
  · rename_i hmissing
    obtain ⟨hsame, -⟩ | ⟨_, -, -, -, -, hcreated⟩ :=
      createStandard_eq (load_notFound_iff.mp hmissing)
    · rw [hafter, hsame]
      exact ⟨rfl, by rw [hafter, hsame]⟩
    · have hfirst : (loadOrStandard path d).1 = standard := by
        rw [(loadOrStandard_eq path d).1, hmissing]
        rfl
      rw [← hafter] at hcreated
      constructor
      · rw [(loadOrStandard_eq path _).1, hcreated, hfirst]
        rfl
      · rw [(loadOrStandard_eq path _).2, hcreated, if_neg (by simp)]
  · rw [hafter]
    exact ⟨rfl, hafter⟩

/-- Loading settings or standard settings has the settings that can be loaded, and standard
settings otherwise. Where something stands, the disk stays as it is. Where nothing stands, standard
settings are the result and one file is written, at a place that was free, from which they are
loaded; only where they cannot be saved nothing is written. The same call made again has the same
result and leaves the disk as it is. -/
theorem loadOrStandard_safe {notices : List Notice}
    (h : loadOrStandard path d = (s, notices, d')) :
    s = (load d path).toOption.getD standard ∧
      (d.exists? path = true → d' = d) ∧
      (d.exists? path = false →
        s = standard ∧
          ((d' = d ∧ d'.exists? path = false ∧ ∃ e, save standard path d = .error e d) ∨
            (d'.readText path = .ok standard.print ∧ load d' path = .ok standard ∧
              ∃ place, d.locate path = .ok place ∧ d.node? place = none ∧
                d' = d.put place (.file standard.print.toUTF8.data)))) ∧
      (loadOrStandard path d').1 = s ∧ (loadOrStandard path d').2.2 = d' := by
  have hs : s = (loadOrStandard path d).1 := by rw [h]
  have hd' : d' = (loadOrStandard path d).2.2 := by rw [h]
  clear h
  subst hs hd'
  obtain ⟨hresult, hafter⟩ := loadOrStandard_eq path d
  refine ⟨hresult, fun hexists => ?_, fun hfree => ⟨?_, ?_⟩, loadOrStandard_again path d⟩
  · have hfound : load d path ≠ .error (.file .notFound) := by
      intro hmissing
      rw [Disk.exists?, load_notFound_iff.mp hmissing] at hexists
      cases hexists
    rw [hafter, if_neg hfound]
  · rw [hresult]
    cases hload : load d path with
    | error e => rfl
    | ok s => simp [exists?_of_load hload] at hfree
  · split at hafter
    · rename_i hmissing
      obtain ⟨hsame, hunsaved⟩ | ⟨place, hlocated, hnode, hput, htext, hload⟩ :=
        createStandard_eq (load_notFound_iff.mp hmissing)
      · rw [hafter, hsame]
        exact .inl ⟨rfl, hfree, hunsaved⟩
      · rw [hafter]
        exact .inr ⟨htext, hload, place, hlocated, hnode, hput⟩
    · rename_i hfound
      rw [load_notFound_iff] at hfound
      obtain ⟨e, he⟩ := Disk.find_eq_error hfree
      rw [hafter]
      refine .inl ⟨rfl, hfree, Disk.exists_write_eq_error he ?_ _⟩
      rintro rfl
      exact hfound he

/-- A home directory with a file that holds no text, a locked one and a sealed directory. -/
def crowdedHome : Disk where
  nodes := [(["home"], .directory), (["home", "picture.toml"], .file #[0xFF, 0xD8]),
    (["home", "locked.toml"], .locked), (["home", "archive"], .sealed)]
  workingDirectory := ["home"]

/-- A file with standard settings is made where none was, and a second call loads it. None can be
made in the sealed directory, and a file that holds no text and a locked one stay as they are. -/
theorem loadOrStandard_safe_crowdedHome :
    (∃ d', loadOrStandard "settings.toml" crowdedHome =
        (standard, [.settingsCreated "settings.toml"], d') ∧
      d' = crowdedHome.put ["home", "settings.toml"] (.file standard.print.toUTF8.data) ∧
      d'.readText "settings.toml" = .ok standard.print ∧ load d' "settings.toml" = .ok standard ∧
      (loadOrStandard "settings.toml" d').1 = standard ∧
      (loadOrStandard "settings.toml" d').2.2 = d') ∧
    (∃ notices d', loadOrStandard "archive/settings.toml" crowdedHome = (standard, notices, d') ∧
      d' = crowdedHome ∧ d'.exists? "archive/settings.toml" = false ∧
      ∃ e, save standard "archive/settings.toml" crowdedHome = .error e crowdedHome) ∧
    (∃ notices d', loadOrStandard "picture.toml" crowdedHome = (standard, notices, d') ∧
      d' = crowdedHome) ∧
    ∃ notices d', loadOrStandard "locked.toml" crowdedHome = (standard, notices, d') ∧
      d' = crowdedHome := by
  have harchive : loadOrStandard "archive/settings.toml" crowdedHome =
      (standard, [.settingsUnsaved FileError.permissionDenied.message], crowdedHome) := rfl
  have hpicture : loadOrStandard "picture.toml" crowdedHome =
      (standard, [.settingsUnreadable "picture.toml" FileError.invalidData.message],
        crowdedHome) := rfl
  have hlocked : loadOrStandard "locked.toml" crowdedHome =
      (standard, [.settingsUnreadable "locked.toml" FileError.permissionDenied.message],
        crowdedHome) := rfl
  refine ⟨?_, ?_, ⟨_, _, hpicture, (loadOrStandard_safe hpicture).2.1 rfl⟩,
    _, _, hlocked, (loadOrStandard_safe hlocked).2.1 rfl⟩
  · obtain ⟨d', hcreated⟩ : ∃ d', loadOrStandard "settings.toml" crowdedHome =
        (standard, [.settingsCreated "settings.toml"], d') := ⟨_, rfl⟩
    obtain ⟨-, -, hmissing, hagain⟩ := loadOrStandard_safe hcreated
    obtain ⟨-, ⟨-, -, e, hunsaved⟩ | ⟨htext, hload, place, hlocated, -, hput⟩⟩ := hmissing rfl
    · cases hunsaved
    · obtain rfl : place = ["home", "settings.toml"] := Except.ok.inj (hlocated.symm.trans rfl)
      exact ⟨d', hcreated, hput, htext, hload, hagain⟩
  · obtain ⟨-, hunsaved | ⟨htext, -⟩⟩ := (loadOrStandard_safe harchive).2.2.1 rfl
    · exact ⟨_, _, harchive, hunsaved⟩
    · cases htext

end TwinScreen.Settings
