/-
  FuzzyPath — rules of a user for all repositories.

  They stand in a file that the user's settings for repositories name, or else
  in a file of a fixed name.

  * `excludesSetting?` finds the name in the settings;
  * `FileSet.excludesPath` is the path of the file, and `FileSet.userRules` are
    the rules, with the directory from which their paths start.
-/
import FuzzyPath.Files.FileSet
import FuzzyPath.Files.Ignore

namespace FuzzyPath

/-! ## The settings -/

/-- White space of ASCII. -/
def isSettingBlank (c : Char) : Bool := c = ' ' || ('\t' ≤ c && c ≤ '\r')

/-- Whether a line may end within the white space at the front of a text. -/
def endsLine (text : List Char) : Bool :=
  (text.dropWhile isSettingBlank).isEmpty || (text.takeWhile isSettingBlank).contains '\n'

/-- Whether a value may end before `text`: a line does, perhaps after a
    quotation mark. -/
def endsValue (text : List Char) : Bool :=
  endsLine text ||
    match text.dropWhile isSettingBlank with
    | '"' :: rest => endsLine rest
    | _ => false

/-- The shortest value at the front of a text; `done` are its characters so
    far, last first. -/
def settingValue? (done : List Char) : List Char → Option String
  | [] => none
  | c :: rest =>
    if isSettingBlank c then none
    else if endsValue rest then some (String.ofList (c :: done).reverse)
    else settingValue? (c :: done) rest

/-- The characters after a name and an equals sign.  Capitals do not matter. -/
def afterName? (name : List Char) (text : List Char) : Option (List Char) :=
  if (text.take name.length).map Char.toLower = name then
    match (text.drop name.length).dropWhile isSettingBlank with
    | '=' :: rest => some (rest.dropWhile isSettingBlank)
    | _ => none
  else none

/-- The value of the setting whose name is at the front of a text. -/
def excludesHere? (text : List Char) : Option String :=
  match afterName? "excludesfile".toList text with
  | some ('"' :: rest) =>
    (settingValue? [] (rest.dropWhile isSettingBlank)).or (settingValue? [] ('"' :: rest))
  | some rest => settingValue? [] rest
  | none => none

/-- The value of the first setting that names the file; `isFirst` if only white
    space stands before the text on its line. -/
def excludesFrom? (isFirst : Bool) : List Char → Option String
  | [] => none
  | c :: rest =>
    if isSettingBlank c then excludesFrom? (isFirst || c = '\n') rest
    else ((if isFirst then excludesHere? (c :: rest) else none)).or (excludesFrom? false rest)

/-- The value of the setting that names the file. -/
def excludesSetting? (content : List UInt8) : Option String :=
  (String.fromUTF8? ⟨content.toArray⟩).bind fun text => excludesFrom? true text.toList

/-! ## The file -/

/-- The directories of a user. -/
structure UserDirectories where
  home : List String
  /-- The directory for the settings of programs. -/
  config : List String
  deriving DecidableEq, Repr

namespace FileSet

/-- The files with settings for repositories, the first that says something
    first. -/
def repositorySettings (user : UserDirectories) : List (List String) :=
  [user.home ++ [".gitconfig"], user.config ++ ["git", "config"]]

/-- The path of the file with rules for all repositories.  A tilde in its name
    stands for the user's home. -/
def excludesPath (fs : FileSet) (user : UserDirectories) : String :=
  let named := (repositorySettings user).findSome? fun place =>
    (fs.content? place).bind excludesSetting?
  match named with
  | some name => (absolutePath user.home).intercalate (name.splitOn "~")
  | none => absolutePath (user.config ++ ["git", "ignore"])

/-- The rules for all repositories.  Their paths start from the working
    directory. -/
def userRules (fs : FileSet) (user : UserDirectories) : PlacedRules :=
  ⟨absolutePath fs.working, ignoreRules ((fs.contentAt? (fs.excludesPath user)).getD [])⟩

end FileSet

end FuzzyPath
