/-
  FuzzyPath — the settings of the command line.

  They stand in a file and are the defaults of the command-line options;
  callers of the library give their options themselves.

  * `Settings` are the settings, `Settings.options` the options they stand for;
  * `Settings.load` reads them from the file, `Settings.save` writes them into
    it, and `Settings.fileText` is what is written;
  * `SettingsError` lists the reasons for which that fails.
-/
import FuzzyPath.Files.FileSet
import FuzzyPath.Service.Request

namespace FuzzyPath

/-- The defaults of the command line. -/
structure Settings where
  /-- The greatest number of results; zero for all. -/
  limit : UInt64
  /-- The greatest number of workers; zero for as many as the hardware has. -/
  maxThreads : UInt64
  highlightMode : HighlightMode
  /-- The character before each excluded text; empty for none. -/
  delimiter : String
  unicodeOn : Bool
  smartCase : Bool
  deriving DecidableEq, Repr

namespace Settings

/-- The settings used where there is no file, or where it says nothing. -/
def standard : Settings where
  limit := 20
  maxThreads := 0
  highlightMode := .full
  delimiter := "!"
  unicodeOn := false
  smartCase := true

/-- Settings as a record. -/
def form : RecordForm Settings where
  name := "AppConfig"
  strict := false
  initial := .standard
  fields :=
    [.optional "limit" .count (·.limit) fun v s => { s with limit := v },
     .optional "max_threads" .count (·.maxThreads) fun v s => { s with maxThreads := v },
     .optional "highlight_mode" HighlightMode.codec (·.highlightMode)
       fun v s => { s with highlightMode := v },
     .optional "query_inverting_delimiter" .string (·.delimiter)
       fun v s => { s with delimiter := v },
     .optional "unicode" .boolean (·.unicodeOn) fun v s => { s with unicodeOn := v },
     .optional "smart_case" .boolean (·.smartCase) fun v s => { s with smartCase := v }]

/-- The options that the settings stand for. -/
def options (s : Settings) : Options :=
  { Options.standard with
    limit := s.limit
    maxThreads := s.maxThreads
    highlightMode := s.highlightMode
    delimiter := s.delimiter
    unicodeOn := s.unicodeOn
    smartCase := s.smartCase }

/-- The number of workers that the settings allow. -/
def effectiveThreads (s : Settings) (hardware : Nat) : Nat :=
  if s.maxThreads = 0 then hardware else s.maxThreads.toNat

end Settings

/-! ## The file -/

/-- The text of bytes that are no UTF-8, where text is wanted. -/
def notUtf8 : String := "stream did not contain valid UTF-8"

/-- Why a settings file cannot be used. -/
inductive SettingsError where
  /-- A directory stands where the file is to be read. -/
  | unreadable
  | notUtf8
  | malformed (failure : JsonFailure)
  /-- A file stands where the directory of the file should be. -/
  | noDirectory
  /-- A directory stands where the file is to be written. -/
  | unwritable
  deriving DecidableEq, Repr

namespace SettingsError

/-- What could not be done with the file at `path`. -/
def context (path : String) : SettingsError → String
  | unreadable | notUtf8 => s!"Failed to read config file {path}"
  | malformed _ => s!"Failed to parse config file {path}"
  | noDirectory => "Failed to create app data directory"
  | unwritable => s!"Failed to write config file {path}"

/-- Why it could not be done. -/
def cause : SettingsError → String
  | unreadable | unwritable => "Is a directory (os error 21)"
  | notUtf8 => FuzzyPath.notUtf8
  | malformed failure => failure.message
  | noDirectory => "File exists (os error 17)"

end SettingsError

namespace Settings

/-- The settings in a file, given by what stands at its path; the standard ones
    if nothing does. -/
def load (entry : FileEntry) : Except SettingsError Settings :=
  match entry with
  | .absent | .unreachable => .ok standard
  | .directory => .error .unreadable
  | .file content =>
    if (String.fromUTF8? ⟨content.toArray⟩).isSome then
      match form.codec.decode content with
      | .ok settings => .ok settings
      | .error failure => .error (.malformed failure)
    else .error .notUtf8

/-- The content of a file with the settings. -/
def fileText (s : Settings) : String := form.codec.encodeIndented s

/-- What stands at the path of the file after the settings have been written;
    its directory is made if there is none. -/
def save (s : Settings) (entry : FileEntry) : Except SettingsError FileEntry :=
  match entry with
  | .absent | .file _ => .ok (.file (utf8 s.fileText))
  | .directory => .error .unwritable
  | .unreachable => .error .noDirectory

end Settings

end FuzzyPath
