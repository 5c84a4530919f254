/-
  FuzzyPath — saved settings are loaded again.

  What is written is a record on several lines, which is read back whole.  A
  command that writes the settings has loaded them before, so a file that cannot
  be loaded is never written over.

  * `Settings.form_readsBackIndented` and `Settings.load_fileText`: the content
    of a saved file is loaded as the settings again;
  * `initRun_of_error` and `initRun_of_isWritable`: what the command that writes
    the settings comes to, by what it loads;
  * `saving_lossless`: settings that are saved are loaded again, a file that does
    not load stays as it is, and writing twice is writing once.
-/
import FuzzyPath.Command.Run
import FuzzyPath.Proofs.Json.Indented
import FuzzyPath.Proofs.Service.Wire

namespace FuzzyPath

open Codec Json

/-- A file can be written where there is one, or nothing at all. -/
def FileEntry.isWritable : FileEntry → Bool
  | .absent | .file _ => true
  | .directory | .unreachable => false

namespace Settings

theorem form_readsBackIndented : form.codec.ReadsBackIndented := by
  have hcount : count.ReadsBackIndented :=
    count_readsBack.indented ((valueReader_integer _).map _) fun _ _ _ => rfl
  have hmode : HighlightMode.codec.ReadsBackIndented :=
    HighlightMode.codec_readsBack.indented (valueReader_name _ _) fun _ _ _ => rfl
  have hstring : Codec.string.ReadsBackIndented :=
    string_readsBack.indented (valueReader_string _) fun _ _ _ => rfl
  have hboolean : boolean.ReadsBackIndented :=
    boolean_readsBack.indented valueReader_boolean fun _ _ _ => rfl
  have hfields : List.Forall₂ Field.KeepsIndented form.fields _ :=
    .cons hcount.optional <| .cons hcount.optional <| .cons hmode.optional <|
    .cons hstring.optional <| .cons hboolean.optional <| .cons hboolean.optional .nil
  exact RecordForm.readsBackIndented hfields (by decide) fun _ => rfl

/-- The content of a saved file is loaded as the settings again. -/
theorem load_fileText (c : Settings) : load (.file (utf8 c.fileText)) = .ok c := by
  have hdecode : form.codec.decode (utf8 c.fileText) = .ok c :=
    form_readsBackIndented.decode_encode c
  simp only [load, fromUTF8?_utf8, Option.isSome_some, if_true, hdecode]

theorem save_of_isWritable (c : Settings) {entry : FileEntry} (h : entry.isWritable) :
    c.save entry = .ok (.file (utf8 c.fileText)) := by
  cases entry with
  | absent | file _ => rfl
  | directory | unreachable => cases h

end Settings

/-! ## Writing the settings -/

/-- What the command that writes the settings does. -/
def initRun (s : Surroundings) : Outcome := runCommand s ["config", "--init"]

/-- Surroundings with `entry` at the path of the settings file. -/
def Surroundings.withSettings (s : Surroundings) (entry : FileEntry) : Surroundings :=
  { s with settingsFile := entry }

variable {s : Surroundings}

theorem initRun_of_error {err : SettingsError} (h : Settings.load s.settingsFile = .error err) :
    initRun s = s.settingsFailure err := by
  change runConfig s true = _
  rw [runConfig, h]

/-- What is written does not depend on what was there before, but for the settings
    that it stood for. -/
theorem initRun_of_isWritable {c : Settings} (h : Settings.load s.settingsFile = .ok c)
    (hwritable : s.settingsFile.isWritable) :
    initRun s = ⟨0, utf8 (s!"Wrote {s.settingsPath}\n" ++ settingsText s.hardware c), "",
      .file (utf8 c.fileText)⟩ := by
  change runConfig s true = _
  simp only [runConfig, h, c.save_of_isWritable hwritable]
  rfl

theorem initRun_of_unreachable (h : s.settingsFile = .unreachable) :
    initRun s = s.settingsFailure .noDirectory := by
  change runConfig s true = _
  rw [runConfig, h]
  rfl

/-- Where nothing can be written, nothing is changed. -/
theorem settingsFile_initRun_of_not_isWritable (h : ¬ s.settingsFile.isWritable) :
    (initRun s).settingsFile = s.settingsFile := by
  cases hentry : s.settingsFile with
  | absent | file _ => simp [hentry, FileEntry.isWritable] at h
  | directory =>
    have hload : Settings.load s.settingsFile = .error .unreadable := by
      rw [hentry]
      rfl
    rw [initRun_of_error hload]
    exact hentry
  | unreachable =>
    rw [initRun_of_unreachable hentry]
    exact hentry

/-- Writing the settings twice is writing them once. -/
theorem initRun_again (s : Surroundings) :
    initRun (s.withSettings (initRun s).settingsFile) = initRun s := by
  have hsame (h : (initRun s).settingsFile = s.settingsFile) :
      initRun (s.withSettings (initRun s).settingsFile) = initRun s := by
    rw [h]
    rfl
  by_cases hwritable : s.settingsFile.isWritable
  · cases hload : Settings.load s.settingsFile with
    | error err => exact hsame (by rw [initRun_of_error hload]; rfl)
    | ok c =>
      have hrun := initRun_of_isWritable hload hwritable
      have hagain : Settings.load (s.withSettings (.file (utf8 c.fileText))).settingsFile = .ok c :=
        c.load_fileText
      rw [hrun]
      exact initRun_of_isWritable hagain rfl
  · exact hsame (settingsFile_initRun_of_not_isWritable hwritable)

/-- Settings that are saved are loaded again.  Only what loads is written over: it
    loads as the same settings afterwards, and writing it again changes nothing. -/
theorem saving_lossless :
    (∀ (c : Settings) (entry : FileEntry), entry.isWritable →
      ∃ saved, c.save entry = .ok saved ∧ Settings.load saved = .ok c) ∧
    Settings.load .absent = .ok .standard ∧
    ∀ s : Surroundings,
      (∀ err, Settings.load s.settingsFile = .error err →
        (initRun s).exitCode = 1 ∧ (initRun s).settingsFile = s.settingsFile) ∧
      (∀ c, Settings.load s.settingsFile = .ok c →
        Settings.load (initRun s).settingsFile = .ok c ∧
        if s.settingsFile.isWritable then
          (initRun s).exitCode = 0 ∧ (initRun s).settingsFile = .file (utf8 c.fileText)
        else (initRun s).exitCode = 1 ∧ (initRun s).settingsFile = s.settingsFile) ∧
      initRun (s.withSettings (initRun s).settingsFile) = initRun s := by
  refine ⟨fun c entry hwritable => ⟨_, c.save_of_isWritable hwritable, c.load_fileText⟩, rfl,
    fun s => ⟨fun err hload => ?_, fun c hload => ?_, initRun_again s⟩⟩
  · rw [initRun_of_error hload]
    exact ⟨rfl, rfl⟩
  · by_cases hwritable : s.settingsFile.isWritable
    · rw [if_pos hwritable, initRun_of_isWritable hload hwritable]
      exact ⟨c.load_fileText, rfl, rfl⟩
    · have hunreachable : s.settingsFile = .unreachable := by
        cases hentry : s.settingsFile with
        | absent | file _ => simp [hentry, FileEntry.isWritable] at hwritable
        | directory => rw [hentry] at hload; cases hload
        | unreachable => rfl
      rw [if_neg hwritable, settingsFile_initRun_of_not_isWritable hwritable,
        initRun_of_unreachable hunreachable]
      exact ⟨hload, rfl, rfl⟩

/-- Surroundings without files, with a text in the settings file. -/
def typedSettings (text : String) : Surroundings where
  hardware := 1
  input := []
  files := ⟨[], [], []⟩
  directories := ⟨[], []⟩
  hasColours := false
  settingsPath := "config.json"
  settingsFile := .file (utf8 text)

/-- Settings with a key that means nothing. -/
def spareText : String := "\x7b\"limit\": 5, \"colour\": [1]\x7d"

/-- Settings of which one has the wrong type. -/
def wrongText : String := "\x7b\"limit\": \"5\"\x7d"

theorem load_spareText : Settings.load (.file (utf8 spareText)) =
    .ok { Settings.standard with limit := 5 } := by
  have hvalue : (Settings.load (.file (utf8 spareText))).toOption =
      some { Settings.standard with limit := 5 } := by decide +kernel
  revert hvalue
  generalize Settings.load (.file (utf8 spareText)) = result
  cases result with
  | error err => exact fun h => nomatch h
  | ok c => exact fun h => congrArg Except.ok (Option.some.inj h)

theorem load_wrongText : ∃ err, Settings.load (.file (utf8 wrongText)) = .error err := by
  have hfails : (Settings.load (.file (utf8 wrongText))).isOk = false := by decide +kernel
  revert hfails
  generalize Settings.load (.file (utf8 wrongText)) = result
  cases result with
  | error err => exact fun _ => ⟨err, rfl⟩
  | ok c => exact fun h => nomatch h

/-- The setting that is understood is kept when the settings are written; where one
    is not, the file stays as it is. -/
theorem saving_lossless_typed :
    Settings.load (initRun (typedSettings spareText)).settingsFile =
      .ok { Settings.standard with limit := 5 } ∧
    (initRun (typedSettings wrongText)).settingsFile = .file (utf8 wrongText) := by
  obtain ⟨-, -, hrun⟩ := saving_lossless
  obtain ⟨err, hwrong⟩ := load_wrongText
  exact ⟨((hrun (typedSettings spareText)).2.1 _ load_spareText).1,
    ((hrun (typedSettings wrongText)).1 err hwrong).2⟩

end FuzzyPath
