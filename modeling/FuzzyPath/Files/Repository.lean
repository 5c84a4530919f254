/-
  FuzzyPath — where a repository keeps its data.

  The data stand in a directory at the top of the repository.  If a file
  stands there instead, it names a directory elsewhere, in which a further file
  names the one with the data.

  * `FileSet.repositoryData?` is the path of the directory with the data, and
    `FileSet.excludeRules` are the rules that stand there;
  * `FileSet.linkFiles` are the files that have to be read to find them.
-/
import FuzzyPath.Files.FileSet
import FuzzyPath.Files.Ignore

namespace FuzzyPath

/-- The first line of a file, if it has one. -/
def firstLine? (content : List UInt8) : Option String :=
  match bytePieces [] content with
  | line :: _ :: _ => String.fromUTF8? ⟨(withoutEndReturn line).toArray⟩
  | _ => if content.isEmpty then none else String.fromUTF8? ⟨content.toArray⟩

/-- The directory that a file at the top of a repository names. -/
def linkedDirectory? (content : List UInt8) : Option String :=
  (firstLine? content).bind (afterLead? "gitdir: ")

/-- The file in a named directory that names the directory with the data. -/
def commonFile (directory : String) : String := joinPath directory "commondir"

/-- The rule file in the directory with the data. -/
def excludeFile (data : String) : String := joinPath data "info/exclude"

namespace FileSet

/-- The directory with the data of the repository whose top is at `place`.  A
    name that begins with a dot is a path from the directory of its file on. -/
def repositoryData? (fs : FileSet) (place : List String) : Option String :=
  let top := place ++ [".git"]
  match fs.content? top with
  | none => some (absolutePath top)
  | some content => do
    let directory ← linkedDirectory? content
    let name ← (fs.contentAt? (commonFile directory)).bind firstLine?
    return if name.toList.head? = some '.' then joinPath directory name else name

/-- The rules of the repository whose top is at `place` that are no part of
    it. -/
def excludeRules (fs : FileSet) (place : List String) : List IgnoreRule :=
  match fs.repositoryData? place with
  | some data => ignoreRules ((fs.contentAt? (excludeFile data)).getD [])
  | none => []

/-- The files that say where the data of the known repositories are, and those
    with their rules. -/
def linkFiles (fs : FileSet) : List String :=
  fs.files.flatMap fun (file, content) =>
    if file.getLast? = some ".git" then
      ((linkedDirectory? content).map commonFile).toList ++
        ((fs.repositoryData? file.dropLast).map excludeFile).toList
    else []

end FileSet

end FuzzyPath
