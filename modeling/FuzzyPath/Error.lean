/-
  FuzzyPath — why a matching call fails.

  That nothing matches is no error: an empty result list is a normal outcome.

  * `Fault` lists what can go wrong inside the matcher itself;
  * `WorkerError` is the failure of the system to start the workers of a call;
  * `MatchError` lists the reasons for which a call whose workers start gives no
    result, with their texts (`message`); `isConfiguration` tells the caller's
    mistakes from the matcher's.
-/
namespace FuzzyPath

/-- A step of the matcher that has no result.  Plain sums and differences are checked:
    what does not fit is a fault, as in a build with overflow checks. -/
inductive Fault where
  /-- A sequence of `length` elements has none at `index`. -/
  | indexOutOfRange (index length : Nat)
  /-- A sum is beyond the 32-bit range it has to fit. -/
  | additionOverflow
  /-- A number would be taken from a smaller one. -/
  | subtractionOverflow
  deriving DecidableEq, Repr

def Fault.message : Fault → String
  | indexOutOfRange index length =>
    s!"index out of bounds: the len is {length} but the index is {index}"
  | additionOverflow => "attempt to add with overflow"
  | subtractionOverflow => "attempt to subtract with overflow"

/-- The workers of a call do not start; the text is the system's. -/
structure WorkerError where
  detail : String
  deriving DecidableEq, Repr

def WorkerError.message (err : WorkerError) : String :=
  s!"failed to start matcher threads: {err.detail}"

/-- The settings that are chosen by name. -/
inductive ModeKind where
  | matchMode
  | highlightMode
  deriving DecidableEq, Repr

def ModeKind.name : ModeKind → String
  | matchMode => "match mode"
  | highlightMode => "highlight mode"

/-- Why a matching call fails. -/
inductive MatchError where
  /-- A match mode that is known by name only. -/
  | unsupportedMode (name : String)
  /-- A name that belongs to no mode. -/
  | unknownMode (kind : ModeKind) (name : String)
  /-- A request of another version than the one understood. -/
  | unsupportedVersion (found expected : UInt32)
  /-- An option that does not exist; the text is the reader's. -/
  | unrecognizedOption (detail : String)
  /-- A request that cannot be read or has values out of range. -/
  | invalidRequest (detail : String)
  /-- A fault of the matcher. -/
  | internal (detail : String)
  deriving DecidableEq, Repr

namespace MatchError

def message : MatchError → String
  | unsupportedMode name => s!"match mode '{name}' is not supported"
  | unknownMode kind name => s!"unknown {kind.name} '{name}'"
  | unsupportedVersion found expected =>
    s!"unsupported request version {found} (expected {expected}); rebuild the caller"
  | unrecognizedOption detail =>
    s!"unrecognized option: {detail}; the caller may be built against a newer option set"
  | invalidRequest detail => s!"invalid request: {detail}"
  | internal detail => s!"internal error: {detail}"

/-- Whether the caller's settings are at fault. -/
def isConfiguration : MatchError → Bool
  | internal _ => false
  | _ => true

end MatchError

end FuzzyPath
