/-
  FuzzyPath — requests and responses.

  * a `Request` is a matching call with all it needs, a `Response` its outcome
    for an editor: lines, and a highlight pattern for each;
  * a failed call has a response too: its only line is the error's text after
    `errorMarker`, and there are no patterns (`Response.ofError`,
    `Response.isError`);
  * `Request.form` and `Response.form` are the JSON forms.
-/
import FuzzyPath.Service.Options

namespace FuzzyPath

/-- The version of requests that is understood. -/
def requestVersion : UInt32 := 1

/-- A matching call. -/
structure Request where
  version : UInt32
  items : List String
  query : String
  options : Options
  deriving DecidableEq, Repr

/-- The lines that match, in rank order, and a pattern for each. -/
structure Response where
  lines : List String
  patterns : List String
  deriving DecidableEq, Repr

/-- What stands before the text of an error. -/
def errorMarker : String := "ERROR: "

namespace Response

/-- The response that reports an error. -/
def ofError (err : MatchError) : Response := ⟨[errorMarker ++ err.message], []⟩

/-- Whether a response reports an error. -/
def isError (r : Response) : Bool :=
  match r.lines with
  | [line] => r.patterns.isEmpty && errorMarker.toList.isPrefixOf line.toList
  | _ => false

end Response

/-! ## JSON forms -/

/-- Responses as a record. -/
def Response.form : RecordForm Response where
  name := "MatchResponse"
  strict := false
  initial := ⟨[], []⟩
  fields :=
    [.mandatory "matches" (.list .string) (·.lines) fun v r => { r with lines := v },
     .mandatory "regexes" (.list .string) (·.patterns) fun v r => { r with patterns := v }]

/-- Requests as a record. -/
def Request.form : RecordForm Request where
  name := "MatchRequest"
  strict := true
  initial := ⟨requestVersion, [], "", .standard⟩
  fields :=
    [.optional "version" .uint32 (·.version) fun v r => { r with version := v },
     .mandatory "items" (.list .string) (·.items) fun v r => { r with items := v },
     .optional "query" .string (·.query) fun v r => { r with query := v },
     .optional "options" Options.form.codec (·.options) fun v r => { r with options := v }]

/-- What the text of an error about an unknown key begins with. -/
def unknownMarker : String := "unknown field"

/-- Why something that was sent cannot be read: an option that does not exist
    gets an error of its own, and is told by the text. -/
def MatchError.ofJson (failure : JsonFailure) : MatchError :=
  let message := failure.message
  if unknownMarker.toList.isPrefixOf message.toList then .unrecognizedOption message
  else .invalidRequest message

end FuzzyPath
