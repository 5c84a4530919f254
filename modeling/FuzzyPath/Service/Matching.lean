/-
  FuzzyPath — matching calls from end to end.

  * `rankItems` gives the results of a call whose workers start, or the reason why
    there are none;
  * `respond` gives the response for an editor, which reports errors in band;
  * `decodeRequest` reads a request, and `answer` a request and gives its
    response.
-/
import FuzzyPath.Highlight.Pattern
import FuzzyPath.Service.Request

namespace FuzzyPath

/-- The results of a call on hardware that runs `hardware` threads.  The workers of
    the search are taken to start; `Search.execute` is the search where they may not.

    A fault of the matcher is given as an error, as the response for an editor has
    it.  A caller that asks for the results themselves does not get that far: the
    fault breaks off its own run. -/
def rankItems (hardware : Nat) (items : List String) (query : String) (options : Options) :
    Except MatchError (List Ranked) := do
  match options.weights.validate with
  | .error err => throw (.invalidRequest err.message)
  | .ok () => pure ()
  let query ← Query.parse query options.querySettings
  match (options.search query).run hardware items with
  | .ok results => return results
  | .error fault => throw (.internal fault.message)

/-- The line of a result and its pattern, if there is such a line. -/
def resultLine? (items : Array String) (options : Options) (r : Ranked) :
    Option (String × String) :=
  items[r.index]?.map fun line =>
    (line, highlightPattern options.highlightMode line r.positions options.lineLead)

/-- The lines of some results with their patterns. -/
def buildResponse (items : List String) (results : List Ranked) (options : Options) : Response :=
  let lines := items.toArray
  let shown := results.filterMap (resultLine? lines options)
  ⟨shown.map Prod.fst, shown.map Prod.snd⟩

/-- The response of a call. -/
def respond (hardware : Nat) (items : List String) (query : String) (options : Options) :
    Response :=
  match rankItems hardware items query options with
  | .ok results => buildResponse items results options
  | .error err => .ofError err

/-- A request from its JSON text; its version has to be the one understood. -/
def decodeRequest (bytes : List UInt8) : Except MatchError Request :=
  match Request.form.codec.decode bytes with
  | .error err => .error (.ofJson err)
  | .ok request =>
    if request.version = requestVersion then .ok request
    else .error (.unsupportedVersion request.version requestVersion)

/-- The response of a request. -/
def answer (hardware : Nat) (bytes : List UInt8) : Response :=
  match decodeRequest bytes with
  | .ok request => respond hardware request.items request.query request.options
  | .error err => .ofError err

end FuzzyPath
