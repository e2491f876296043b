import OpenApi.Proofs.Actions
import OpenApi.Proofs.Disks
import OpenApi.Proofs.SettingsTexts

/-
Where settings are kept, and what a run of the program does to them there.

The settings lie in one file.  The way to it is made when it is needed and never lost again
(`SettingsAt`).  A run that sets or resets something either leaves the file alone or puts new
settings into it: `run_setSetting` and `run_resetSettings` say which of the two, from what there
was before.
-/
namespace OpenApi

theorem orDefect_eq_ok_iff {α : Type} {found : Except DiskFault α} {a : α} :
    orDefect found = .ok a ↔ found = .ok a := Except.mapError_eq_ok_iff

/-- The same surroundings with another disk. -/
def Surroundings.withDisk (disk : Disk) (s : Surroundings) : Surroundings := { s with disk := disk }

def Session.withDisk (disk : Disk) (session : Session) : Session :=
  { session with surroundings := session.surroundings.withDisk disk }

/-! ### The file -/

namespace Surroundings

/-- What the file of the user's settings holds, if there is one. -/
def storedFile (s : Surroundings) : Except Trouble (Option (List UInt8)) :=
  s.provideSettings.bind fun (folder, s) => orDefect (s.read (settingsFile folder))

/-- The user's settings as they are stored now. -/
def storedSettings (s : Surroundings) : Except Trouble Settings :=
  s.provideSettings.bind fun (folder, s) => s.userSettings folder

/-- The file of the settings, in the folder at a place. -/
def fileIn (place : Place) : Place := place ++ ["config.json"]

/-- Whether the settings are kept in a folder that a path leads to, and the place where it is. -/
structure SettingsAt (folder : Path) (place : Place) (s : Surroundings) : Prop where
  named : s.settingsFolder = .ok folder
  reached : s.disk.Reaches s.here
  way : ∃ disk, s.disk.makeWay s.here folder = .ok (place, disk)
  short : (settingsFile folder).isLong = false

variable {s after : Surroundings} {folder path : Path} {place : Place} {disk later : Disk}
  {file : Option (List UInt8)}

theorem provide_eq {f : Surroundings → Except DiskFault Path} (named : f s = .ok path)
    (way : s.disk.makeWay s.here path = .ok (place, disk)) :
    s.provide f = .ok (path, s.withDisk disk) := by
  rw [provide, named]
  dsimp only
  rw [makeFolder, Disk.makeFolder, way]
  rfl

theorem exists_way_of_provide {f : Surroundings → Except DiskFault Path}
    (h : s.provide f = .ok (path, after)) : ∃ place disk, f s = .ok path ∧
      s.disk.makeWay s.here path = .ok (place, disk) ∧ after = s.withDisk disk := by
  unfold provide at h
  split at h
  · cases h
  · rename_i found named
    obtain ⟨made, hmade, heq⟩ := Except.map_eq_ok_iff.mp h
    cases heq
    obtain ⟨folders, hfolders, rfl⟩ := Except.map_eq_ok_iff.mp hmade
    obtain ⟨⟨place, disk⟩, way, rfl⟩ := Except.map_eq_ok_iff.mp hfolders
    exact ⟨place, disk, named, way, rfl⟩

theorem isFileName_config : Disk.IsFileName "config.json" := ⟨by decide, by decide, by decide⟩

/-- Where the file can be looked for, its folder can be made. -/
theorem exists_settingsAt (reached : s.disk.Reaches s.here) (h : s.storedFile = .ok file) :
    ∃ folder place, s.SettingsAt folder place := by
  obtain ⟨⟨folder, provided⟩, hprovide, hread⟩ := Except.bind_eq_ok_iff.mp h
  obtain ⟨place, disk, named, way, rfl⟩ := exists_way_of_provide (orDefect_eq_ok_iff.mp hprovide)
  refine ⟨folder, place, named, reached, ⟨disk, way⟩, ?_⟩
  have hnull := Disk.hasNull_enter (Disk.makeFolders_of_makeWay way).1 isFileName_config
  have hfound := orDefect_eq_ok_iff.mp hread
  unfold read Disk.read settingsFile at hfound
  rw [hnull] at hfound
  cases hlong : (settingsFile folder).isLong with
  | false => rfl
  | true =>
    unfold settingsFile at hlong
    rw [hlong] at hfound
    cases hfound

section
variable (kept : s.SettingsAt folder place) (way : s.disk.makeWay s.here folder = .ok (place, disk))
include kept way

theorem read_settingsFile :
    (s.withDisk disk).read (settingsFile folder) = .ok (s.disk.bytes? (fileIn place)) := by
  have hread := Disk.read_enter kept.reached way (.refl disk) isFileName_config kept.short
  rw [← (Disk.grows_of_makeWay kept.reached way).1.bytes?]
  exact hread

theorem provideSettings_eq : s.provideSettings = .ok (folder, s.withDisk disk) := by
  rw [provideSettings, provide_eq kept.named way]
  rfl

theorem userSettings_eq : (s.withDisk disk).userSettings folder =
    Settings.ofUserFile (settingsFile folder) (s.disk.bytes? (fileIn place)) := by
  rw [userSettings, read_settingsFile kept way]
  rfl

/-- The way to the settings stays as it is while no folder is lost. -/
theorem SettingsAt.stay (folders : disk.KeepsFolders later) :
    (s.withDisk later).SettingsAt folder place := by
  have hgrows := (Disk.grows_of_makeWay kept.reached way).1
  exact ⟨kept.named, (hgrows.keepsFolders.trans folders).reaches kept.reached,
    ⟨later, Disk.makeWay_again kept.reached way folders⟩, kept.short⟩

end

theorem storedFile_eq (kept : s.SettingsAt folder place) :
    s.storedFile = .ok (s.disk.bytes? (fileIn place)) := by
  obtain ⟨disk, way⟩ := kept.way
  rw [storedFile, provideSettings_eq kept way]
  show orDefect ((s.withDisk disk).read (settingsFile folder)) = _
  rw [read_settingsFile kept way]
  rfl

theorem storedSettings_eq (kept : s.SettingsAt folder place) : s.storedSettings =
    Settings.ofUserFile (settingsFile folder) (s.disk.bytes? (fileIn place)) := by
  obtain ⟨disk, way⟩ := kept.way
  rw [storedSettings, provideSettings_eq kept way]
  exact userSettings_eq kept way

end Surroundings

/-! ### Saving -/

/-- The disk with settings in their file. -/
def Settings.storeIn (place : Place) (settings : Settings) (disk : Disk) : Disk :=
  disk.put (Surroundings.fileIn place) (.file (Text.Utf8.encode settings.fileText.toList))

namespace Action

variable {session : Session} {folder : Path} {place : Place} {disk : Disk}
  (kept : session.surroundings.SettingsAt folder place)
  (way : session.surroundings.disk.makeWay session.surroundings.here folder = .ok (place, disk))
include kept way

open Surroundings

/-- Settings are put into their file, unless a folder lies there. -/
theorem run_saveSettings (settings : Settings) : (saveSettings settings).run session =
    if disk.isFolder (fileIn place) then
      (.error (.defect (.disk .isFolder)), session.withDisk disk)
    else (.ok (), session.withDisk (settings.storeIn place disk)) := by
  have hagain := Disk.makeWay_again kept.reached way (.refl disk)
  have hwrite := Disk.write_of_makeWay hagain isFileName_config kept.short
    (Text.Utf8.encode settings.fileText.toList)
  rw [saveSettings, run_bind, run_settingsFolder, provideSettings_eq kept way]
  dsimp only
  rw [run_attempt, Surroundings.saveSettings, Surroundings.write]
  dsimp only [withDisk]
  rw [settingsFile, hwrite, fileIn]
  cases disk.isFolder (place ++ ["config.json"]) <;> rfl

/-- Setting a value begins with the folder of the settings and what is stored there. -/
theorem run_setSetting_eq {settings : Settings} (stored : Settings.ofUserFile (settingsFile folder)
      (session.surroundings.disk.bytes? (fileIn place)) = .ok settings)
    (output : Output) (key value : String) : (setSetting output key value).run session =
      (match Setting.ofKey key with
        | .error fault => throw (.key fault)
        | .ok setting => do
          saveSettings (setting.put value settings)
          output.inform ("Set " ++ key ++ " = " ++ (setting.read value).plain?.getD value)
        : Action Unit).run (session.withDisk disk) := by
  have hsettings := userSettings_eq kept way
  rw [stored] at hsettings
  rewrite [setSetting, run_bind, run_settingsFolder, provideSettings_eq kept way]
  dsimp only
  rewrite [run_bind, run_look, hsettings]
  rfl

/-- What setting a value does to settings that are stored. -/
theorem run_setSetting {settings : Settings} (stored : Settings.ofUserFile (settingsFile folder)
      (session.surroundings.disk.bytes? (fileIn place)) = .ok settings)
    (output : Output) (key value : String) :
    (∃ fault, Setting.ofKey key = .error fault ∧
        (setSetting output key value).run session =
          (.error (.key fault), session.withDisk disk)) ∨
      (∃ setting, Setting.ofKey key = .ok setting ∧ disk.isFolder (fileIn place) = true ∧
        (setSetting output key value).run session =
          (.error (.defect (.disk .isFolder)), session.withDisk disk)) ∨
      ∃ setting noted, Setting.ofKey key = .ok setting ∧ disk.isFolder (fileIn place) = false ∧
        (setSetting output key value).run session =
          (.ok (),
            { session.withDisk ((setting.put value settings).storeIn place disk) with
              noted := noted }) := by
  have hagain := Disk.makeWay_again kept.reached way (.refl disk)
  rw [run_setSetting_eq kept way stored]
  cases hkey : Setting.ofKey key with
  | error fault => exact .inl ⟨fault, rfl, rfl⟩
  | ok setting =>
    have hsave := @run_saveSettings (session.withDisk disk) folder place disk
      (kept.stay way (.refl disk)) hagain (setting.put value settings)
    dsimp only
    cases hfolder : disk.isFolder (fileIn place) with
    | true =>
      rw [hfolder, if_pos rfl] at hsave
      refine .inr (.inl ⟨setting, rfl, rfl, ?_⟩)
      rw [run_bind, hsave]
      rfl
    | false =>
      rw [hfolder, if_neg Bool.false_ne_true] at hsave
      obtain ⟨noted, hnoted⟩ := exists_inform output
        ("Set " ++ key ++ " = " ++ (setting.read value).plain?.getD value)
        ((session.withDisk disk).withDisk ((setting.put value settings).storeIn place disk))
      refine .inr (.inr ⟨setting, noted, rfl, rfl, ?_⟩)
      rw [run_bind, hsave]
      exact hnoted

/-- What resetting does, once it has been confirmed. -/
theorem run_resetSettings (output : Output) :
    (disk.isFolder (fileIn place) = true ∧
        (resetSettings output).run session =
          (.error (.defect (.disk .isFolder)), session.withDisk disk)) ∨
      ∃ noted, disk.isFolder (fileIn place) = false ∧
        (resetSettings output).run session =
          (.ok (), { session.withDisk (Settings.storeIn place {} disk) with noted := noted }) := by
  have hsave := run_saveSettings kept way {}
  cases hfolder : disk.isFolder (fileIn place) with
  | true =>
    rw [hfolder, if_pos rfl] at hsave
    refine .inl ⟨rfl, ?_⟩
    rw [resetSettings, run_bind, hsave]
  | false =>
    rw [hfolder, if_neg Bool.false_ne_true] at hsave
    obtain ⟨noted, hnoted⟩ := exists_inform output "Configuration reset to defaults."
      (session.withDisk (Settings.storeIn place {} disk))
    refine .inr ⟨noted, rfl, ?_⟩
    rw [resetSettings, run_bind, hsave]
    exact hnoted

end Action
end OpenApi
