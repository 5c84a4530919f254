/-
  FuzzyPath — paths as typed.

  A path as typed is a text with slashes.  It means a place, which is a list of
  components from the root of the file system on.  Several texts mean one
  place, and what is about texts can tell them apart.

  * `resolvePath` is the place that a path means, and `absolutePath` the plain
    path of a place;
  * `joinPath` writes a path that goes on from a directory;
  * `pathWithin` is what of a path follows a directory, as far as the texts
    show it.
-/
namespace FuzzyPath

/-! ## Places -/

/-- The place that a component of a path leads to from the place `place`. -/
def pathStep (place : List String) (name : String) : List String :=
  if name = "" ∨ name = "." then place
  else if name = ".." then place.dropLast
  else place ++ [name]

/-- The place from which a path starts that is typed in the directory
    `current`. -/
def pathStart (current : List String) (path : String) : List String :=
  if path.toList.head? = some '/' then [] else current

/-- The components of a path that is typed in the directory `current`, without
    `.` and `..`. -/
def resolvePath (current : List String) (path : String) : List String :=
  (path.splitOn "/").foldl pathStep (pathStart current path)

/-- The path of a place. -/
def absolutePath (place : List String) : String := "/" ++ "/".intercalate place

/-! ## Texts -/

/-- A path that goes on from a directory.  One that starts at the root does so
    from any directory. -/
def joinPath (directory path : String) : String :=
  if path.toList.head? = some '/' ∨ directory.isEmpty then path
  else if directory.toList.getLast? = some '/' then directory ++ path
  else directory ++ "/" ++ path

/-- What follows `lead` at the front of a text. -/
def afterLead? (lead text : String) : Option String :=
  if lead.toList.isPrefixOf text.toList then some (String.ofList (text.toList.drop lead.length))
  else none

/-- A text without `lead` at its front. -/
def withoutLead (lead text : String) : String := (afterLead? lead text).getD text

/-- A path without a step `./` at its front. -/
def withoutHere (path : String) : String := withoutLead "./" path

/-- Whether a path has steps `.` only. -/
def isHere (path : String) : Bool :=
  match path.splitOn "/" with
  | "." :: steps => steps.all fun step => step == "" || step == "."
  | _ => false

/-- What of a path follows a directory; the whole path if its text does not
    begin with that of the directory.  A step `./` at the front of either does
    not count. -/
def pathWithin (directory path : String) : String :=
  let directory := withoutHere directory
  let path := withoutHere path
  if isHere directory ∨ '/' ∉ path.toList then path
  else
    match afterLead? directory path with
    | some rest => withoutLead "/" rest
    | none => path

end FuzzyPath
