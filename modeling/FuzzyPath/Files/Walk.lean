/-
  FuzzyPath — the files below a directory.

  The listing is in the order of the names, component by component.  It leaves
  out hidden files and whatever the rule files take out: those of a directory
  and of the directories above it, where the nearest rule counts.

  * `DirectoryRules` are what of a directory counts for the entries below it;
  * a `Listing` is what counts for all entries of a listing, and a
    `ListedDirectory` is one of its directories, as the listing comes to it;
  * `Listing.skips` says whether a listing goes past an entry, and
    `FileSet.walk` is the listing.
-/
import FuzzyPath.Files.Entries
import FuzzyPath.Files.Repository
import FuzzyPath.Files.UserRules

namespace FuzzyPath

/-! ## The rules of directories -/

/-- What of a directory counts for the entries below it. -/
structure DirectoryRules where
  /-- How the path of the directory is written when its rules are applied. -/
  path : String
  /-- Whether it is the top of a repository. -/
  isTop : Bool
  /-- The rules that count in and out of repositories. -/
  general : List IgnoreRule
  /-- The rules that count in repositories. -/
  shared : List IgnoreRule
  /-- The rules that are no part of the repository whose top it is. -/
  exclude : List IgnoreRule
  deriving Repr

namespace FileSet

/-- The rules in the rule file called `name` of a directory. -/
def rulesIn (fs : FileSet) (name : String) (place : List String) : List IgnoreRule :=
  ignoreRules ((fs.content? (place ++ [name])).getD [])

/-- Whether a directory is the top of a repository. -/
def isRepository (fs : FileSet) (place : List String) : Bool :=
  fs.isPresent (place ++ [".git"]) || fs.isPresent (place ++ [".jj"])

/-- What counts of the directory at a place, whose path is `path`. -/
def directoryRules (fs : FileSet) (place : List String) (path : String) : DirectoryRules :=
  { path
    isTop := fs.isRepository place
    general := fs.rulesIn ".ignore" place
    shared := fs.rulesIn ".gitignore" place
    exclude := fs.excludeRules place }

end FileSet

/-- What rules say about an entry: those of the nearest directory, and then
    those of the directories above.  Each comes with the path of the entry to
    which its rules are applied.  The search ends above a directory for which
    `isLast` holds. -/
def searchRules (rulesOf : DirectoryRules → List IgnoreRule) (isLast : DirectoryRules → Bool)
    (isDirectory : Bool) : List (DirectoryRules × String) → Option Verdict
  | [] => none
  | (directory, entry) :: above =>
    let rules : PlacedRules := ⟨directory.path, rulesOf directory⟩
    match rules.verdictOn entry isDirectory with
    | some found => some found
    | none => if isLast directory then none else searchRules rulesOf isLast isDirectory above

/-! ## Listings -/

/-- The directory of a listing. -/
structure ListingRoot where
  /-- The path as typed. -/
  path : String
  place : List String
  deriving DecidableEq, Repr

/-- The path from the root of the file system on of an entry whose path is
    `entry`. -/
def ListingRoot.absoluteEntry (root : ListingRoot) (entry : String) : String :=
  joinPath (absolutePath root.place)
    (if isHere root.path then entry
    else withoutLead "/" (withoutLead (withoutHere root.path) entry))

/-- What counts for all entries of a listing. -/
structure Listing where
  root : ListingRoot
  /-- What counts of the directories above, the nearest first. -/
  above : List DirectoryRules
  /-- The rules for all repositories. -/
  user : PlacedRules
  deriving Repr

/-- A directory of a listing. -/
structure ListedDirectory where
  place : List String
  /-- The path that goes on from the one as typed. -/
  path : String
  /-- What its entries begin with in the listing. -/
  lead : String
  /-- What counts of it and of the directories of the listing that it is in, the
      nearest first. -/
  rules : List DirectoryRules
  deriving Repr

/-- The directory `name` in a directory. -/
def ListedDirectory.enter (fs : FileSet) (d : ListedDirectory) (name : String) :
    ListedDirectory :=
  let place := d.place ++ [name]
  let path := joinPath d.path name
  ⟨place, path, d.lead ++ name ++ "/", fs.directoryRules place path :: d.rules⟩

namespace Listing

/-- The listing of a directory. -/
def ofRoot (fs : FileSet) (user : PlacedRules) (root : ListingRoot) : Listing :=
  let above := (List.range root.place.length).reverse.map fun n =>
    fs.directoryRules (root.place.take n) (absolutePath (root.place.take n))
  ⟨root, above, user⟩

/-- The directory where a listing starts. -/
def start (l : Listing) (fs : FileSet) : ListedDirectory :=
  ⟨l.root.place, l.root.path, "", [fs.directoryRules l.root.place l.root.path]⟩

/-- What all rule files say about the entry `name` of a directory, and then the
    user's rules.  Those for repositories count only within one. -/
def verdictOn (l : Listing) (d : ListedDirectory) (name : String) (isDirectory : Bool) :
    Option Verdict :=
  let entry := withoutHere (joinPath d.path name)
  let absolute := l.root.absoluteEntry entry
  let directories := d.rules.map (·, entry) ++ l.above.map (·, absolute)
  let search (rulesOf : DirectoryRules → List IgnoreRule) (isLast : DirectoryRules → Bool) :
      Option Verdict :=
    searchRules rulesOf isLast isDirectory directories
  (search (·.general) fun _ => false).or
    (if directories.any fun (directory, _) => directory.isTop then
      ((search (·.shared) (·.isTop)).or (search (·.exclude) (·.isTop))).or
        (l.user.verdictOn entry isDirectory)
    else none)

/-- Whether a listing goes past the entry `name` of a directory. -/
def skips (l : Listing) (d : ListedDirectory) (name : String) (isDirectory : Bool) : Bool :=
  match l.verdictOn d name isDirectory with
  | some .ignored => true
  | some .kept => false
  | none => name.toList.head? == some '.'

/-- The files that a listing shows of a directory. -/
def files (fs : FileSet) (l : Listing) (d : ListedDirectory) : Entries → List String
  | .nothing => []
  | .file name others =>
    let found := files fs l d others
    if l.skips d name false then found else (d.lead ++ name) :: found
  | .directory name inner others =>
    let found := files fs l d others
    if l.skips d name true then found else files fs l (d.enter fs name) inner ++ found

end Listing

/-- The listing of a directory; `user` are the rules for all repositories. -/
def FileSet.walk (fs : FileSet) (user : PlacedRules) (root : ListingRoot) : List String :=
  let l := Listing.ofRoot fs user root
  l.files fs (l.start fs) (fs.entriesBelow root.place)

end FuzzyPath
