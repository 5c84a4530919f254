/-
  FuzzyPath — the options of a matching call.

  * `Options` are the options, `Options.standard` their values where the caller
    gives none;
  * `Options.querySettings`, `Options.context` and `Options.search` are what the
    options say to the parts of the matcher;
  * `Weights.form` and `Options.form` are the JSON forms.
-/
import FuzzyPath.Highlight.Mode
import FuzzyPath.Json.Record
import FuzzyPath.Ranking.Search

namespace FuzzyPath

/-- The options of a matching call. -/
structure Options where
  /-- The greatest number of results; zero for all. -/
  limit : UInt64
  matchMode : MatchMode
  /-- Whether the lines are paths. -/
  isPath : Bool
  /-- The path of the file open in the editor; empty if there is none. -/
  currentFile : String
  highlightMode : HighlightMode
  /-- Whether the current file may be a result. -/
  matchCurrent : Bool
  /-- The greatest number of workers; zero for as many as the hardware has. -/
  maxThreads : UInt64
  /-- The character before each excluded text; empty for none. -/
  delimiter : String
  /-- What the editor draws before each line. -/
  lineLead : String
  /-- Whether characters are compared instead of bytes. -/
  unicodeOn : Bool
  /-- Whether an uppercase letter in the query makes case count. -/
  smartCase : Bool
  /-- The number of lines below which there is a single part. -/
  parallelThreshold : UInt64
  weights : Weights
  deriving DecidableEq, Repr

namespace Options

/-- The options used where the caller gives none. -/
def standard : Options where
  limit := 0
  matchMode := .fullLine
  isPath := false
  currentFile := ""
  highlightMode := .full
  matchCurrent := false
  maxThreads := 0
  delimiter := ""
  lineLead := ""
  unicodeOn := false
  smartCase := true
  parallelThreshold := .ofNat defaultParallelThreshold
  weights := .standard

/-- How queries are analysed. -/
def querySettings (o : Options) : QuerySettings where
  matchMode := o.matchMode
  isPath := o.isPath
  unicodeOn := o.unicodeOn
  smartCase := o.smartCase
  delimiter := o.delimiter

/-- What is known about the caller's side. -/
def context (o : Options) : EditorContext where
  currentFile := if o.currentFile.isEmpty then none else some o.currentFile
  matchCurrent := o.matchCurrent
  style := .unix

/-- The search for a query. -/
def search (o : Options) (query : Query) : Search where
  query := query
  weights := o.weights
  context := o.context
  limit := o.limit.toNat
  maxThreads := o.maxThreads.toNat
  parallelThreshold := o.parallelThreshold.toNat

end Options

/-! ## JSON forms -/

/-- Match modes by name. -/
def MatchMode.codec : Codec MatchMode :=
  .named ["", "full-line", "filename-only", "first-non-tab", "until-last-tab", "regex"]
    MatchMode.ofName? MatchMode.name

/-- Highlight modes by name. -/
def HighlightMode.codec : Codec HighlightMode :=
  .named ["", "none", "basic", "detailed", "full"] HighlightMode.ofName? HighlightMode.name

/-- Weights as a record. -/
def Weights.form : RecordForm Weights where
  name := "ScoringWeights"
  strict := true
  initial := .standard
  fields :=
    [.optional "match_base" .int32 (·.matchBase) fun v w => { w with matchBase := v },
     .optional "consecutive_bonus" .int32 (·.consecutiveBonus)
       fun v w => { w with consecutiveBonus := v },
     .optional "component_start_bonus" .int32 (·.componentStartBonus)
       fun v w => { w with componentStartBonus := v },
     .optional "word_start_bonus" .int32 (·.wordStartBonus)
       fun v w => { w with wordStartBonus := v },
     .optional "camel_case_bonus" .int32 (·.camelCaseBonus)
       fun v w => { w with camelCaseBonus := v },
     .optional "filename_bonus" .int32 (·.filenameBonus)
       fun v w => { w with filenameBonus := v },
     .optional "exact_case_bonus" .int32 (·.exactCaseBonus)
       fun v w => { w with exactCaseBonus := v },
     .optional "gap_open_penalty" .int32 (·.gapOpenPenalty)
       fun v w => { w with gapOpenPenalty := v },
     .optional "gap_extend_penalty" .int32 (·.gapExtendPenalty)
       fun v w => { w with gapExtendPenalty := v },
     .optional "component_gap_penalty" .int32 (·.componentGapPenalty)
       fun v w => { w with componentGapPenalty := v },
     .optional "length_scale" .int64 (·.lengthScale) fun v w => { w with lengthScale := v },
     .optional "current_file_penalty" .int64 (·.currentFilePenalty)
       fun v w => { w with currentFilePenalty := v },
     .optional "proximity_penalty" .int64 (·.proximityPenalty)
       fun v w => { w with proximityPenalty := v },
     .optional "max_proximity_distance" .count (·.maxProximityDistance)
       fun v w => { w with maxProximityDistance := v },
     .optional "shared_word_bonus" .int64 (·.sharedWordBonus)
       fun v w => { w with sharedWordBonus := v }]

/-- Options as a record. -/
def Options.form : RecordForm Options where
  name := "MatchOptions"
  strict := true
  initial := .standard
  fields :=
    [.optional "limit" .count (·.limit) fun v o => { o with limit := v },
     .optional "mmode" MatchMode.codec (·.matchMode) fun v o => { o with matchMode := v },
     .optional "ispath" .boolean (·.isPath) fun v o => { o with isPath := v },
     .optional "crfile" .string (·.currentFile) fun v o => { o with currentFile := v },
     .optional "highlight_mode" HighlightMode.codec (·.highlightMode)
       fun v o => { o with highlightMode := v },
     .optional "match_crfile" .boolean (·.matchCurrent) fun v o => { o with matchCurrent := v },
     .optional "max_threads" .count (·.maxThreads) fun v o => { o with maxThreads := v },
     .optional "query_inverting_delimiter" .string (·.delimiter)
       fun v o => { o with delimiter := v },
     .optional "regex_line_prefix" .string (·.lineLead) fun v o => { o with lineLead := v },
     .optional "unicode" .boolean (·.unicodeOn) fun v o => { o with unicodeOn := v },
     .optional "smart_case" .boolean (·.smartCase) fun v o => { o with smartCase := v },
     .optional "parallel_threshold" .count (·.parallelThreshold)
       fun v o => { o with parallelThreshold := v },
     .optional "weights" Weights.form.codec (·.weights) fun v o => { o with weights := v }]

end FuzzyPath
