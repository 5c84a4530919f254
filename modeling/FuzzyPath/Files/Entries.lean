/-
  FuzzyPath — what a directory holds.

  Files and directories stand in the order of their names, a directory with
  what it holds itself.

  * `Entries.ofFiles` are the entries of a directory, of which the paths of all
    files below it are known;
  * `FileSet.entriesBelow` are those of a directory of a file system.
-/
import FuzzyPath.Files.FileSet

namespace FuzzyPath

/-- The entries of a directory, one after the other. -/
inductive Entries where
  | nothing
  | file (name : String) (others : Entries)
  | directory (name : String) (inner others : Entries)
  deriving Repr

namespace Entries

/-- Entries after the one that the path of a file begins with. -/
def withFront : (path : List String) → Entries → Entries
  | [], others => others
  | [name], others => .file name others
  | name :: path, others => .directory name (withFront path .nothing) others

/-- Entries with one more file, given by its path. -/
def insert (path : List String) : Entries → Entries
  | .nothing => withFront path .nothing
  | .file name others =>
    match compare (path.headD "") name with
    | .lt => withFront path (.file name others)
    | .eq => .file name others
    | .gt => .file name (insert path others)
  | .directory name inner others =>
    match compare (path.headD "") name with
    | .lt => withFront path (.directory name inner others)
    | .eq => .directory name (insert path.tail inner) others
    | .gt => .directory name inner (insert path others)

/-- The entries of a directory with the files of some paths. -/
def ofFiles (paths : List (List String)) : Entries := paths.foldr insert .nothing

end Entries

/-- The entries of the directory at a place.  Directories without files do not
    count. -/
def FileSet.entriesBelow (fs : FileSet) (place : List String) : Entries :=
  .ofFiles (fs.files.filterMap fun (file, _) =>
    if place.isPrefixOf file && place.length < file.length then some (file.drop place.length)
    else none)

end FuzzyPath
