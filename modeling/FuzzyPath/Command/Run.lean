/-
  FuzzyPath — what the commands do.

  A command is a function of its surroundings: the input, the files and the
  settings file.

  * `Surroundings` are what a command can see, `Outcome` what it does: output,
    an exit code, messages, and the settings file afterwards;
  * `candidateLines` are the lines of the input;
  * `runRank`, `runServe` and `runConfig` are the commands, `runCommand` runs
    whatever the words of the command line ask for.
-/
import FuzzyPath.Command.Arguments
import FuzzyPath.Config.Settings
import FuzzyPath.Files.Walk
import FuzzyPath.Report.Terminal
import FuzzyPath.Server.Serve

namespace FuzzyPath

/-- What a command can see. -/
structure Surroundings where
  /-- The number of threads that the hardware runs. -/
  hardware : Nat
  input : List UInt8
  files : FileSet
  directories : UserDirectories
  /-- Whether the terminal can show colours. -/
  hasColours : Bool
  settingsPath : String
  /-- What stands at the path of the settings file. -/
  settingsFile : FileEntry

/-- What a command does. -/
structure Outcome where
  exitCode : UInt8
  output : List UInt8
  /-- What it says beside its output. -/
  messages : String
  /-- What stands at the path of the settings file afterwards. -/
  settingsFile : FileEntry
  deriving DecidableEq, Repr

/-- Why a command fails, with the cause of it if there is another one. -/
structure CommandError where
  summary : String
  cause : Option String
  deriving DecidableEq, Repr

/-- The text of an error.  The cause has lines of its own, indented. -/
def CommandError.text (err : CommandError) : String :=
  let cause := match err.cause with
    | some cause => "\n\nCaused by:\n    " ++ "\n    ".intercalate (segments '\n' cause)
    | none => ""
  "Error: " ++ err.summary ++ cause ++ "\n"

namespace Surroundings

/-- The outcome of a command that gives `output` and leaves the settings file
    alone. -/
def success (s : Surroundings) (output : List UInt8) : Outcome := ⟨0, output, "", s.settingsFile⟩

/-- The outcome of a command that gives `output` and then fails. -/
def failure (s : Surroundings) (output : List UInt8) (err : CommandError) : Outcome :=
  ⟨1, output, err.text, s.settingsFile⟩

end Surroundings

/-! ## Ranking -/

/-- A line without the carriage return at its end. -/
def withoutReturn (line : String) : String :=
  match line.toList.reverse with
  | '\r' :: rest => String.ofList rest.reverse
  | _ => line

/-- The lines of a text.  A line ends with a line feed or a carriage return and
    a line feed; the last one may end with the text. -/
def textLines (text : String) : List String :=
  let pieces := segments '\n' text
  let ended := pieces.dropLast.map withoutReturn
  match pieces.getLast? with
  | some last => if last.isEmpty then ended else ended ++ [last]
  | none => ended

/-- The lines of an input, which has to be UTF-8. -/
def candidateLines (input : List UInt8) : Except CommandError (List String) :=
  match String.fromUTF8? ⟨input.toArray⟩ with
  | some text => .ok (textLines text)
  | none => .error ⟨"Failed to read candidates from stdin", some notUtf8⟩

/-- The files below a directory. -/
def candidateFiles (s : Surroundings) (root : String) : Except CommandError (List String) :=
  match (s.files.resolve? root).filter s.files.isDirectory with
  | some place => .ok (s.files.walk (s.files.userRules s.directories) ⟨root, place⟩)
  | none => .error ⟨s!"Not a directory: {root}", none⟩

/-- The candidates that the arguments ask for. -/
def candidates (s : Surroundings) (a : RankArguments) : Except CommandError (List String) :=
  match a.walk with
  | some root => candidateFiles s root
  | none => candidateLines s.input

/-- The options that the settings and the arguments make up; the arguments
    count more. -/
def rankOptions (settings : Settings) (a : RankArguments) : Options :=
  let base := settings.options
  { base with
    limit := a.limit.getD base.limit
    matchMode := a.mode
    isPath := !a.plain
    currentFile := a.current.getD ""
    highlightMode := a.highlight.getD base.highlightMode
    matchCurrent := a.matchCurrent
    maxThreads := a.threads.getD base.maxThreads
    delimiter := a.invert.getD base.delimiter
    lineLead := a.lineLead
    unicodeOn := base.unicodeOn || a.unicode
    smartCase := base.smartCase && !a.ignoreCase }

/-- The options of a ranking command.  A settings file that cannot be read
    counts as none. -/
def Surroundings.options (s : Surroundings) (a : RankArguments) : Options :=
  let settings := match Settings.load s.settingsFile with
    | .ok settings => settings
    | .error _ => .standard
  rankOptions settings a

/-- Whether output is in colour. -/
def Surroundings.isColoured (s : Surroundings) : ColourChoice → Bool
  | .auto => s.hasColours
  | .always => true
  | .never => false

/-- Ranks candidates, and prints the results or the response.

    The weights are the standard ones, so a fault of the matcher takes a line of
    4 GiB at least.  It would break off the run that prints the results; here this
    run fails with the text that the response has. -/
def runRank (s : Surroundings) (a : RankArguments) : Outcome :=
  let options := s.options a
  let query := a.query.getD ""
  match candidates s a with
  | .error err => s.failure [] err
  | .ok items =>
    if a.json then
      s.success (utf8 (Response.form.codec.encode (respond s.hardware items query options) ++ "\n"))
    else
      match rankItems s.hardware items query options with
      | .ok results => s.success (utf8 (reportText items results a.debug (s.isColoured a.colour)))
      | .error err => s.failure [] ⟨err.message, none⟩

/-! ## The server -/

/-- The failure of a server. -/
def serverError (err : StreamError) : CommandError := ⟨"Match server failed", some err.message⟩

/-- Answers the requests of the input. -/
def runServe (s : Surroundings) : Outcome :=
  let served := serve s.hardware [.bytes s.input]
  match served.failure with
  | none => s.success served.frames.flatten
  | some err => s.failure served.frames.flatten (serverError err)

/-! ## The settings -/

/-- Settings as they are shown. -/
def settingsText (hardware : Nat) (settings : Settings) : String :=
  s!"{settings.fileText}\nEffective worker threads: {settings.effectiveThreads hardware}\n"

/-- The outcome of a command that fails because of the settings file. -/
def Surroundings.settingsFailure (s : Surroundings) (err : SettingsError) : Outcome :=
  s.failure [] ⟨err.context s.settingsPath, some err.cause⟩

/-- Shows the settings; writes them first if `init` is given. -/
def runConfig (s : Surroundings) (init : Bool) : Outcome :=
  match Settings.load s.settingsFile with
  | .error err => s.settingsFailure err
  | .ok settings =>
    let shown := settingsText s.hardware settings
    if init then
      match settings.save s.settingsFile with
      | .error err => s.settingsFailure err
      | .ok entry =>
        { s.success (utf8 (s!"Wrote {s.settingsPath}\n" ++ shown)) with settingsFile := entry }
    else
      let note := match s.settingsFile with
        | .absent | .unreachable => "(not present, showing defaults)\n"
        | .file _ | .directory => ""
      s.success (utf8 (s!"Config file: {s.settingsPath}\n" ++ note ++ shown))

/-! ## All commands -/

/-- The name and the version of the program. -/
def versionText : String := "pathrank 0.1.0\n"

/-- How the program is used. -/
def usageText : String :=
  "Usage: pathrank [OPTIONS] [QUERY]\n" ++
  "       pathrank serve\n" ++
  "       pathrank config [--init]\n"

/-- Does what an invocation asks for. -/
def runInvocation (s : Surroundings) : Invocation → Outcome
  | .rank arguments => runRank s arguments
  | .serve => runServe s
  | .config init => runConfig s init
  | .help => { s.success [] with messages := usageText }
  | .version => s.success (utf8 versionText)

/-- Does what the words of a command line ask for. -/
def runCommand (s : Surroundings) (words : List String) : Outcome :=
  match Invocation.parse words with
  | .ok invocation => runInvocation s invocation
  | .error err => ⟨2, [], s!"error: {err.message}\n" ++ usageText, s.settingsFile⟩

end FuzzyPath
