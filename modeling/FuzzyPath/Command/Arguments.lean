/-
  FuzzyPath — the words of a command line.

  A word is the name of a subcommand, an option, the value of the option before
  it, or the query.  Long options begin with two dashes and may hold their
  value after an equals sign; short ones are single letters that may stand
  together after one dash, the last of them with its value.  After a word `--`
  no word is an option.  No option may stand twice.

  * a `CommandOption` is an option with or without a value; `ofLong?` and
    `ofShort?` find one by its name;
  * an `Invocation` is what a command line asks for;
  * `Invocation.parse` reads the words, and says what is wrong with the first
    wrong one (`UsageError`).
-/
import FuzzyPath.Highlight.Mode
import FuzzyPath.Query.MatchMode

namespace FuzzyPath

/-! ## Options -/

/-- When output is in colour. -/
inductive ColourChoice where
  /-- Unless the terminal cannot show it. -/
  | auto
  | always
  | never
  deriving DecidableEq, Repr

def ColourChoice.ofName? : String → Option ColourChoice
  | "auto" => some auto
  | "always" => some always
  | "never" => some never
  | _ => none

/-- Options without a value. -/
inductive Flag where
  | plain
  | matchCurrent
  | unicode
  | ignoreCase
  | json
  | debug
  | verbose
  /-- Of the subcommand that is about the settings. -/
  | init
  | help
  | version
  deriving DecidableEq, Repr

/-- Options with a value. -/
inductive Setting where
  | limit
  | mode
  | current
  | threads
  | invert
  | walk
  | highlight
  | lineLead
  | colour
  deriving DecidableEq, Repr

/-- All options. -/
inductive CommandOption where
  | flag (flag : Flag)
  | setting (setting : Setting)
  deriving DecidableEq, Repr

/-- The commands that the words of a command line belong to. -/
inductive Subcommand where
  /-- Ranking, the command without a name. -/
  | rank
  | serve
  | config
  deriving DecidableEq, Repr

namespace CommandOption

/-- The option of a long name. -/
def ofLong? : String → Option CommandOption
  | "limit" => some (setting .limit)
  | "mode" => some (setting .mode)
  | "plain" => some (flag .plain)
  | "current" => some (setting .current)
  | "match-current" => some (flag .matchCurrent)
  | "threads" => some (setting .threads)
  | "invert" => some (setting .invert)
  | "unicode" => some (flag .unicode)
  | "ignore-case" => some (flag .ignoreCase)
  | "walk" => some (setting .walk)
  | "json" => some (flag .json)
  | "highlight" => some (setting .highlight)
  | "line-prefix" => some (setting .lineLead)
  | "debug" => some (flag .debug)
  | "color" => some (setting .colour)
  | "verbose" => some (flag .verbose)
  | "init" => some (flag .init)
  | "help" => some (flag .help)
  | "version" => some (flag .version)
  | _ => none

/-- The long name of an option. -/
def long : CommandOption → String
  | setting .limit => "limit"
  | setting .mode => "mode"
  | flag .plain => "plain"
  | setting .current => "current"
  | flag .matchCurrent => "match-current"
  | setting .threads => "threads"
  | setting .invert => "invert"
  | flag .unicode => "unicode"
  | flag .ignoreCase => "ignore-case"
  | setting .walk => "walk"
  | flag .json => "json"
  | setting .highlight => "highlight"
  | setting .lineLead => "line-prefix"
  | flag .debug => "debug"
  | setting .colour => "color"
  | flag .verbose => "verbose"
  | flag .init => "init"
  | flag .help => "help"
  | flag .version => "version"

/-- The option of a letter. -/
def ofShort? : Char → Option CommandOption
  | 'n' => some (setting .limit)
  | 'm' => some (setting .mode)
  | 'j' => some (setting .threads)
  | 'x' => some (setting .invert)
  | 'i' => some (flag .ignoreCase)
  | 'w' => some (setting .walk)
  | 'v' => some (flag .verbose)
  | 'h' => some (flag .help)
  | 'V' => some (flag .version)
  | _ => none

/-- Whether a command has an option. -/
def belongsTo : CommandOption → Subcommand → Bool
  | flag .verbose, _ | flag .help, _ => true
  | flag .init, command => command == .config
  | _, command => command == .rank

end CommandOption

/-! ## What a command line says -/

/-- The arguments of the ranking command. -/
structure RankArguments where
  query : Option String
  limit : Option UInt64
  mode : MatchMode
  /-- Whether the lines are not taken for paths. -/
  plain : Bool
  current : Option String
  matchCurrent : Bool
  threads : Option UInt64
  invert : Option String
  unicode : Bool
  ignoreCase : Bool
  /-- The directory whose files are the candidates. -/
  walk : Option String
  json : Bool
  highlight : Option HighlightMode
  lineLead : String
  debug : Bool
  colour : ColourChoice
  deriving DecidableEq, Repr

/-- The arguments of a command line without words. -/
def RankArguments.standard : RankArguments where
  query := none
  limit := none
  mode := .fullLine
  plain := false
  current := none
  matchCurrent := false
  threads := none
  invert := none
  unicode := false
  ignoreCase := false
  walk := none
  json := false
  highlight := none
  lineLead := ""
  debug := false
  colour := .auto

/-- What a command line asks for. -/
inductive Invocation where
  | rank (arguments : RankArguments)
  | serve
  /-- To show the settings, after they have been written if `init` is given. -/
  | config (init : Bool)
  | help
  | version
  deriving DecidableEq, Repr

/-- What is wrong with a command line. -/
inductive UsageError where
  | unknownOption (word : String)
  | unexpectedWord (word : String)
  /-- A flag has a value. -/
  | unexpectedValue (flag : Flag)
  | missingValue (setting : Setting)
  | invalidValue (setting : Setting) (value : String)
  | repeatedOption (option : CommandOption)
  deriving DecidableEq, Repr

def UsageError.message : UsageError → String
  | unknownOption word => s!"unknown option '{word}'"
  | unexpectedWord word => s!"unexpected argument '{word}'"
  | unexpectedValue flag => s!"'--{(CommandOption.flag flag).long}' takes no value"
  | missingValue setting => s!"'--{(CommandOption.setting setting).long}' needs a value"
  | invalidValue setting value =>
    s!"invalid value '{value}' for '--{(CommandOption.setting setting).long}'"
  | repeatedOption option => s!"'--{option.long}' is given twice"

/-! ## Values -/

/-- The value of some decimal digits. -/
def decimalValue? (digits : List Char) : Option Nat :=
  if digits.isEmpty ∨ !digits.all Char.isDigit then none
  else some (digits.foldl (fun n c => n * 10 + (c.toNat - '0'.toNat)) 0)

/-- A count of 64 bits, with or without a plus sign. -/
def countOf? (text : String) : Option UInt64 := do
  let digits := match text.toList with
    | '+' :: digits => digits
    | digits => digits
  let n ← decimalValue? digits
  if n < UInt64.size then some (UInt64.ofNat n) else none

/-- The arguments with a setting, if its value is one that it can have. -/
def RankArguments.set? (a : RankArguments) (setting : Setting) (value : String) :
    Option RankArguments :=
  match setting with
  | .limit => (countOf? value).map fun n => { a with limit := some n }
  | .mode => (MatchMode.ofName? value).map fun mode => { a with mode := mode }
  | .current => some { a with current := some value }
  | .threads => (countOf? value).map fun n => { a with threads := some n }
  | .invert => some { a with invert := some value }
  | .walk => if value.isEmpty then none else some { a with walk := some value }
  | .highlight => (HighlightMode.ofName? value).map fun mode => { a with highlight := some mode }
  | .lineLead => some { a with lineLead := value }
  | .colour => (ColourChoice.ofName? value).map fun colour => { a with colour := colour }

/-- The arguments with a flag.  Flags that are about no argument change
    nothing. -/
def RankArguments.raise (a : RankArguments) : Flag → RankArguments
  | .plain => { a with plain := true }
  | .matchCurrent => { a with matchCurrent := true }
  | .unicode => { a with unicode := true }
  | .ignoreCase => { a with ignoreCase := true }
  | .json => { a with json := true }
  | .debug => { a with debug := true }
  | .verbose | .init | .help | .version => a

/-! ## Reading words -/

/-- What has been read of a command line. -/
structure CommandLine where
  command : Subcommand
  arguments : RankArguments
  /-- The options that have been read. -/
  given : List CommandOption
  /-- The setting whose value has to come next. -/
  pending : Option Setting
  deriving DecidableEq, Repr

namespace CommandLine

/-- A command of which no word has been read. -/
def start (command : Subcommand) : CommandLine := ⟨command, .standard, [], none⟩

/-- Whether nothing but the end of the command line has been left open. -/
def checkPending (line : CommandLine) : Except UsageError Unit :=
  match line.pending with
  | some setting => .error (.missingValue setting)
  | none => .ok ()

/-- An option, unless it has been read before. -/
def give (line : CommandLine) (option : CommandOption) : Except UsageError CommandLine :=
  if line.given.contains option then .error (.repeatedOption option)
  else .ok { line with given := option :: line.given }

/-- A setting with its value. -/
def giveValue (line : CommandLine) (setting : Setting) (value : String) :
    Except UsageError CommandLine := do
  let line ← line.give (.setting setting)
  match line.arguments.set? setting value with
  | some arguments => return { line with arguments, pending := none }
  | none => throw (.invalidValue setting value)

/-- A flag. -/
def giveFlag (line : CommandLine) (flag : Flag) : Except UsageError CommandLine := do
  let line ← line.give (.flag flag)
  return { line with arguments := line.arguments.raise flag }

/-- The query, unless there is one. -/
def giveQuery (line : CommandLine) (word : String) : Except UsageError CommandLine := do
  line.checkPending
  if line.command = .rank ∧ line.arguments.query.isNone then
    return { line with arguments := { line.arguments with query := some word } }
  else throw (.unexpectedWord word)

/-- Whether nothing has been read. -/
def isFresh (line : CommandLine) : Bool :=
  line.command == .rank && line.given.isEmpty && line.pending.isNone &&
    line.arguments.query.isNone

/-- What a complete command line asks for. -/
def finish (line : CommandLine) : Except UsageError Invocation := do
  line.checkPending
  match line.command with
  | .rank => return .rank line.arguments
  | .serve => return .serve
  | .config => return .config (line.given.contains (.flag .init))

/-- The words after `--`. -/
def readQueries (line : CommandLine) : List String → Except UsageError Invocation
  | [] => line.finish
  | word :: words => do readQueries (← line.giveQuery word) words

/-- What comes of reading a word: the command line is read on, or what it asks
    for is known. -/
inductive Step where
  | next (line : CommandLine)
  | stop (invocation : Invocation)

/-- A flag; some end the command line. -/
def readFlag (line : CommandLine) (flag : Flag) : Except UsageError Step := do
  line.checkPending
  match flag with
  | .help => return .stop .help
  | .version => return .stop .version
  | flag => return .next (← line.giveFlag flag)

/-- A setting whose value is the next word. -/
def awaitValue (line : CommandLine) (setting : Setting) : Except UsageError Step := do
  line.checkPending
  return .next { line with pending := some setting }

/-- A setting with a value in the same word. -/
def readAttached (line : CommandLine) (setting : Setting) (value : String) :
    Except UsageError Step := do
  line.checkPending
  return .next (← line.giveValue setting value)

/-- The option of a name, if the command has it. -/
def option? (line : CommandLine) (option : Option CommandOption) : Option CommandOption :=
  option.filter (·.belongsTo line.command)

/-- A long option, given by its name and what follows an equals sign. -/
def readLong (line : CommandLine) (word name : String) (value : Option String) :
    Except UsageError Step :=
  match line.option? (CommandOption.ofLong? name), value with
  | some (.flag flag), none => line.readFlag flag
  | some (.flag flag), some _ => .error (.unexpectedValue flag)
  | some (.setting setting), none => line.awaitValue setting
  | some (.setting setting), some value => line.readAttached setting value
  | none, _ => .error (.unknownOption word)

/-- Short options that stand together. -/
def readShort (line : CommandLine) (word : String) : List Char → Except UsageError Step
  | [] => .ok (.next line)
  | c :: rest =>
    match line.option? (CommandOption.ofShort? c), rest with
    | some (.flag flag), rest => do
      match ← line.readFlag flag with
      | .next line => readShort line word rest
      | .stop invocation => return .stop invocation
    | some (.setting setting), [] => line.awaitValue setting
    | some (.setting setting), '=' :: value => line.readAttached setting (String.ofList value)
    | some (.setting setting), value => line.readAttached setting (String.ofList value)
    | none, _ => .error (.unknownOption word)

/-- A word that is no option: the value that is wanted, or the query. -/
def readPlain (line : CommandLine) (word : String) : Except UsageError Step :=
  match line.pending with
  | some setting => (line.giveValue setting word).map .next
  | none => (line.giveQuery word).map .next

/-- The name and the value of a long option, given without its dashes. -/
def splitLong (text : List Char) : String × Option String :=
  match text.dropWhile (· != '=') with
  | [] => (String.ofList text, none)
  | _ :: value => (String.ofList (text.takeWhile (· != '=')), some (String.ofList value))

/-- A word other than `--`. -/
def readWord (line : CommandLine) (word : String) : Except UsageError Step :=
  match word.toList with
  | '-' :: '-' :: text => line.readLong word (splitLong text).1 (splitLong text).2
  | '-' :: c :: rest => line.readShort word (c :: rest)
  | _ => line.readPlain word

/-- The words that follow the name of the subcommand for help: the name of at
    most one other subcommand. -/
def readHelp : List String → Except UsageError Invocation
  | [] => .ok .help
  | [word] =>
    if word = "serve" ∨ word = "config" ∨ word = "help" then .ok .help
    else .error (.unexpectedWord word)
  | word :: _ => .error (.unexpectedWord word)

/-- All words that are left.  A subcommand is named by the first word only. -/
def readWords (line : CommandLine) : List String → Except UsageError Invocation
  | [] => line.finish
  | word :: words =>
    if line.isFresh ∧ word = "serve" then readWords (start .serve) words
    else if line.isFresh ∧ word = "config" then readWords (start .config) words
    else if line.isFresh ∧ word = "help" then readHelp words
    else if word = "--" then readQueries line words
    else
      match line.readWord word with
      | .error err => .error err
      | .ok (.stop invocation) => .ok invocation
      | .ok (.next line) => readWords line words

end CommandLine

/-- What the words of a command line ask for. -/
def Invocation.parse (words : List String) : Except UsageError Invocation :=
  (CommandLine.start .rank).readWords words

end FuzzyPath
