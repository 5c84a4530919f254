/-
  FuzzyPath — which characters separate the components of a path.
-/
namespace FuzzyPath

/-- The separators in use on the platform a path comes from. -/
inductive PathStyle where
  /-- Only the slash. -/
  | unix
  /-- The backslash and the slash, since tools mix them freely. -/
  | windows
  deriving DecidableEq, Repr

/-- Whether `c` separates components. -/
def PathStyle.isSeparator : PathStyle → Char → Bool
  | unix, c => c == '/'
  | windows, c => c == '\\' || c == '/'

end FuzzyPath
