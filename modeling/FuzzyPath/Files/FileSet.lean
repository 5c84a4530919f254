/-
  FuzzyPath — what is known of a file system.

  * a `FileSet` is a set of files with their content, by their places;
    `FileSet.entryAt` says what stands at a place (`FileEntry`);
  * `FileSet.resolve?` is the place that a path as typed means.  All that the
    path goes through has to be directories;
  * `FileSet.contentAt?` is the content of the file at a path as typed.
-/
import FuzzyPath.Files.TypedPath

namespace FuzzyPath

/-- The files of a file system, by the components of their paths. -/
structure FileSet where
  files : List (List String × List UInt8)
  /-- Directories that are there even without files. -/
  directories : List (List String)
  /-- The directory from which paths start. -/
  working : List String

/-- What stands at a path. -/
inductive FileEntry where
  | absent
  | file (content : List UInt8)
  | directory
  /-- Nothing can stand there, as the path goes on behind a file. -/
  | unreachable
  deriving DecidableEq, Repr

namespace FileSet

/-- What is known from two sources, as seen from the working directory of the
    first. -/
instance : Append FileSet :=
  ⟨fun a b => ⟨a.files ++ b.files, a.directories ++ b.directories, a.working⟩⟩

/-! ## Places -/

/-- Whether there is a directory at a place. -/
def isDirectory (fs : FileSet) (place : List String) : Bool :=
  place.isEmpty || fs.directories.any (place.isPrefixOf ·) ||
    fs.files.any fun (file, _) => place.isPrefixOf file && place.length < file.length

/-- Whether there is anything at a place. -/
def isPresent (fs : FileSet) (place : List String) : Bool :=
  fs.isDirectory place || fs.files.any fun (file, _) => file == place

/-- The content of the file at a place. -/
def content? (fs : FileSet) (place : List String) : Option (List UInt8) :=
  (fs.files.find? fun (file, _) => file == place).map Prod.snd

/-- What stands at a place. -/
def entryAt (fs : FileSet) (place : List String) : FileEntry :=
  match fs.content? place with
  | some content => .file content
  | none =>
    if fs.isDirectory place then .directory
    else if fs.files.any fun (file, _) => file.isPrefixOf place then .unreachable
    else .absent

/-! ## Paths as typed -/

/-- Whether a component of a path leads on from directories only. -/
def needsDirectory (name : String) : Bool := name == "" || name == "." || name == ".."

/-- The place that the components `names` lead to from the place `place`. -/
def follow? (fs : FileSet) (place : List String) : (names : List String) → Option (List String)
  | [] => some place
  | name :: names =>
    if needsDirectory name ∧ !fs.isDirectory place then none
    else follow? fs (pathStep place name) names

/-- The place that a path means; `none` if it leads on from what is no
    directory. -/
def resolve? (fs : FileSet) (path : String) : Option (List String) :=
  fs.follow? (pathStart fs.working path) (path.splitOn "/")

/-- The content of the file at a path. -/
def contentAt? (fs : FileSet) (path : String) : Option (List UInt8) :=
  (fs.resolve? path).bind fs.content?

end FileSet

end FuzzyPath
