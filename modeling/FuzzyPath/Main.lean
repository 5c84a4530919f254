/-
  FuzzyPath — the command line program.

  It fetches what a command can see, runs the command, and puts out what the
  command says.  Only the server reads and writes as it goes on.
-/
import FuzzyPath.Command.Run

namespace FuzzyPath

/-! ## Fetching -/

/-- The content of a file, if it can be read. -/
def readFile? (path : String) : IO (Option (List UInt8)) := do
  try
    return some (← IO.FS.readBinFile path).data.toList
  catch _ => return none

/-- At most `need` bytes; fewer only at the end of the stream. -/
partial def readUpTo (stream : IO.FS.Stream) (need : Nat) (done : ByteArray) : IO ByteArray := do
  if need ≤ done.size then return done
  let chunk ← stream.read (USize.ofNat (min (need - done.size) 65536))
  if chunk.isEmpty then return done
  readUpTo stream need (done ++ chunk)

/-- The names in a directory, each with what it stands for.  Links are not
    followed. -/
def directoryEntries (path : String) : IO (List (String × IO.FS.FileType)) := do
  try
    let directory := (← IO.currentDir) / path
    let entries ← directory.readDir
    entries.toList.mapM fun entry => do
      return (entry.fileName, (← entry.path.symlinkMetadata).type)
  catch _ => return []

/-- The file at a place, if there is one. -/
def fetchFile (place : List String) : IO (List (List String × List UInt8)) := do
  match ← readFile? (absolutePath place) with
  | some content => return [(place, content)]
  | none => return []

/-- Whether there is a directory at a place. -/
def isDirectoryAt (place : List String) : IO Bool := do
  ((← IO.currentDir) / absolutePath place).isDir

/-- What a path as typed leads through, and the file at its end. -/
def fetchAlong (working : List String) (path : String) : IO FileSet := do
  let names := path.splitOn "/"
  let places := (List.range (names.length + 1)).map fun n =>
    (names.take n).foldl pathStep (pathStart working path)
  return ⟨← fetchFile (resolvePath working path), ← places.filterM isDirectoryAt, working⟩

/-- The files whose content says which others are listed. -/
def ruleFileNames : List String := [".ignore", ".gitignore", ".git", "exclude"]

/-- The files at the entry `name` of a directory that is no directory itself;
    the content only of rule files. -/
def fetchListed (directory : List String) (name : String) (type : IO.FS.FileType) :
    IO (List (List String × List UInt8)) := do
  if ruleFileNames.contains name then fetchFile (directory ++ [name])
  else if type == .file then return [(directory ++ [name], [])]
  else return []

/-- All that is below a directory. -/
partial def filesUnder (working directory : List String) : IO FileSet := do
  let mut found : FileSet := ⟨[], [], working⟩
  for (name, type) in ← directoryEntries (absolutePath directory) do
    let place := directory ++ [name]
    if type == .dir then
      found := found ++ ⟨[], [place], working⟩ ++ (← filesUnder working place)
    else found := found ++ ⟨← fetchListed directory name type, [], working⟩
  return found

/-- What of a directory counts for listings below it: the rule files, and the
    data of a repository. -/
def fetchRules (working directory : List String) : IO FileSet := do
  let names := [[".ignore"], [".gitignore"], [".git"], [".jj"], [".git", "info", "exclude"]]
  let files ← names.mapM fun path => fetchFile (directory ++ path)
  let tops := [directory ++ [".git"], directory ++ [".jj"]]
  return ⟨files.flatten, ← tops.filterM isDirectoryAt, working⟩

/-- What says which files are listed in all repositories of a user. -/
def fetchUserFiles (working : List String) (user : UserDirectories) : IO FileSet := do
  let settings ← (FileSet.repositorySettings user).mapM fetchFile
  let found : FileSet := ⟨settings.flatten, [], working⟩
  return found ++ (← fetchAlong working (found.excludesPath user))

/-- What a listing of the directory can see that is typed as `root`. -/
def fetchFiles (working : List String) (user : UserDirectories) (root : String) :
    IO FileSet := do
  let place := resolvePath working root
  let mut found := (← fetchAlong working root) ++ (← filesUnder working place)
  for n in List.range place.length do
    found := found ++ (← fetchRules working (place.take n))
  for _ in [1, 2] do
    for path in found.linkFiles do
      found := found ++ (← fetchAlong working path)
  return found ++ (← fetchUserFiles working user)

/-- What stands at the path of a file whose directory is `directory`. -/
def fetchEntry (directory path : List String) : IO FileEntry := do
  if ← isDirectoryAt path then return .directory
  match ← readFile? (absolutePath path) with
  | some content => return .file content
  | none =>
    let there := (← IO.currentDir) / absolutePath directory
    return if (← there.pathExists) && !(← isDirectoryAt directory) then .unreachable else .absent

/-- The number of threads that the hardware runs. -/
def hardwareThreads : IO Nat := do
  let content := (← readFile? "/proc/cpuinfo").getD []
  let lines := segments '\n' ((String.fromUTF8? ⟨content.toArray⟩).getD "")
  return max 1 (lines.filter (·.startsWith "processor")).length

/-- The user's home. -/
def homeDirectory : IO String := return (← IO.getEnv "HOME").getD ""

/-- The directory in which programs keep their data. -/
def dataDirectory : IO String := do
  let standard := (← homeDirectory) ++ "/.local/share"
  match ← IO.getEnv "XDG_DATA_HOME" with
  | some directory => return if directory.startsWith "/" then directory else standard
  | none => return standard

/-- The directories of the user, whose paths start from the working
    directory. -/
def userDirectories (working : List String) : IO UserDirectories := do
  let home ← homeDirectory
  let config := match ← IO.getEnv "XDG_CONFIG_HOME" with
    | some directory => if directory.isEmpty then home ++ "/.config" else directory
    | none => home ++ "/.config"
  return ⟨resolvePath working home, resolvePath working config⟩

/-- Whether the terminal can show colours. -/
def terminalHasColours : IO Bool := do
  let terminal := (← IO.getEnv "TERM").getD "dumb"
  return terminal != "dumb" && (← IO.getEnv "NO_COLOR").isNone

/-- What the command can see; the input and the files only as far as it needs
    them. -/
def fetchSurroundings (invocation : Option Invocation) : IO Surroundings := do
  let working := resolvePath [] (← IO.currentDir).toString
  let directories ← userDirectories working
  let settingsDirectory := (← dataDirectory) ++ "/pathrank"
  let settingsPath := settingsDirectory ++ "/config.json"
  let (input, files) ← match invocation with
    | some (.rank arguments) =>
      match arguments.walk with
      | some root => pure (.empty, ← fetchFiles working directories root)
      | none => pure (← readUpTo (← IO.getStdin) (Nat.pow 2 62) .empty, ⟨[], [], working⟩)
    | _ => pure (.empty, ⟨[], [], working⟩)
  return {
    hardware := ← hardwareThreads
    input := input.data.toList
    files
    directories
    hasColours := ← terminalHasColours
    settingsPath
    settingsFile := ← fetchEntry (resolvePath working settingsDirectory)
      (resolvePath working settingsPath) }

/-! ## Putting out -/

/-- Puts out what a command says; the result is its exit code. -/
def putOut (s : Surroundings) (outcome : Outcome) : IO UInt32 := do
  if outcome.settingsFile ≠ s.settingsFile then
    if let .file content := outcome.settingsFile then
      IO.FS.createDirAll ((← dataDirectory) ++ "/pathrank")
      IO.FS.writeBinFile s.settingsPath ⟨content.toArray⟩
  let out ← IO.getStdout
  out.write ⟨outcome.output.toArray⟩
  out.flush
  IO.eprint outcome.messages
  return outcome.exitCode.toUInt32

/-- Answers requests as they come in. -/
partial def serveStandardStreams (hardware : Nat) : IO UInt32 := do
  let input ← IO.getStdin
  let out ← IO.getStdout
  let header ← readUpTo input 4 .empty
  let length := lengthOf header.data.toList
  let whole ← if header.size = 4 ∧ length ≤ maxFrameLength
    then readUpTo input (4 + length) header
    else pure header
  let failed (err : StreamError) : IO UInt32 := do
    IO.eprint (serverError err).text
    return 1
  match readFrame [.bytes whole.data.toList] with
  | (.done, _) => return 0
  | (.failed err, _) => failed err
  | (.frame request, _) =>
    match responseFrame hardware request with
    | .error err => failed err
    | .ok frame =>
      out.write ⟨frame.toArray⟩
      out.flush
      serveStandardStreams hardware

end FuzzyPath

/-- Runs the command that the arguments name. -/
def main (arguments : List String) : IO UInt32 := do
  let invocation := (FuzzyPath.Invocation.parse arguments).toOption
  match invocation with
  | some .serve => FuzzyPath.serveStandardStreams (← FuzzyPath.hardwareThreads)
  | invocation =>
    let surroundings ← FuzzyPath.fetchSurroundings invocation
    FuzzyPath.putOut surroundings (FuzzyPath.runCommand surroundings arguments)
