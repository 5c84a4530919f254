/-
  FuzzyPath — options, weights, settings and requests of which only a part is given.

  What is not given has its default, wherever the object stands: in a request, in
  the options of one, in the weights of these, or in the settings file.

  * `Weights.withFields` and the others are a record with some fields of another one;
  * `Weights.replaces` and the others: so are the fields of the JSON forms put in;
  * `objects_fieldwise`: an object of some fields of a record, in any order, is
    decoded as the defaults with these fields.
-/
import FuzzyPath.Config.Settings
import FuzzyPath.Proofs.Json.Fieldwise
import FuzzyPath.Proofs.Service.Unrecognized
import FuzzyPath.Proofs.Service.Wire

namespace FuzzyPath

open Codec Json RecordForm

/-! ## Records with some fields of others -/

/-- `base` with the named fields of `v`. -/
def Weights.withFields (base : Weights) (names : List String) (v : Weights) : Weights where
  matchBase := if "match_base" ∈ names then v.matchBase else base.matchBase
  consecutiveBonus :=
    if "consecutive_bonus" ∈ names then v.consecutiveBonus else base.consecutiveBonus
  componentStartBonus :=
    if "component_start_bonus" ∈ names then v.componentStartBonus else base.componentStartBonus
  wordStartBonus := if "word_start_bonus" ∈ names then v.wordStartBonus else base.wordStartBonus
  camelCaseBonus := if "camel_case_bonus" ∈ names then v.camelCaseBonus else base.camelCaseBonus
  filenameBonus := if "filename_bonus" ∈ names then v.filenameBonus else base.filenameBonus
  exactCaseBonus := if "exact_case_bonus" ∈ names then v.exactCaseBonus else base.exactCaseBonus
  gapOpenPenalty := if "gap_open_penalty" ∈ names then v.gapOpenPenalty else base.gapOpenPenalty
  gapExtendPenalty :=
    if "gap_extend_penalty" ∈ names then v.gapExtendPenalty else base.gapExtendPenalty
  componentGapPenalty :=
    if "component_gap_penalty" ∈ names then v.componentGapPenalty else base.componentGapPenalty
  lengthScale := if "length_scale" ∈ names then v.lengthScale else base.lengthScale
  currentFilePenalty :=
    if "current_file_penalty" ∈ names then v.currentFilePenalty else base.currentFilePenalty
  proximityPenalty :=
    if "proximity_penalty" ∈ names then v.proximityPenalty else base.proximityPenalty
  maxProximityDistance :=
    if "max_proximity_distance" ∈ names then v.maxProximityDistance else base.maxProximityDistance
  sharedWordBonus := if "shared_word_bonus" ∈ names then v.sharedWordBonus else base.sharedWordBonus

/-- `base` with the named fields of `v`. -/
def Options.withFields (base : Options) (names : List String) (v : Options) : Options where
  limit := if "limit" ∈ names then v.limit else base.limit
  matchMode := if "mmode" ∈ names then v.matchMode else base.matchMode
  isPath := if "ispath" ∈ names then v.isPath else base.isPath
  currentFile := if "crfile" ∈ names then v.currentFile else base.currentFile
  highlightMode := if "highlight_mode" ∈ names then v.highlightMode else base.highlightMode
  matchCurrent := if "match_crfile" ∈ names then v.matchCurrent else base.matchCurrent
  maxThreads := if "max_threads" ∈ names then v.maxThreads else base.maxThreads
  delimiter := if "query_inverting_delimiter" ∈ names then v.delimiter else base.delimiter
  lineLead := if "regex_line_prefix" ∈ names then v.lineLead else base.lineLead
  unicodeOn := if "unicode" ∈ names then v.unicodeOn else base.unicodeOn
  smartCase := if "smart_case" ∈ names then v.smartCase else base.smartCase
  parallelThreshold :=
    if "parallel_threshold" ∈ names then v.parallelThreshold else base.parallelThreshold
  weights := if "weights" ∈ names then v.weights else base.weights

/-- `base` with the named fields of `v`. -/
def Settings.withFields (base : Settings) (names : List String) (v : Settings) : Settings where
  limit := if "limit" ∈ names then v.limit else base.limit
  maxThreads := if "max_threads" ∈ names then v.maxThreads else base.maxThreads
  highlightMode := if "highlight_mode" ∈ names then v.highlightMode else base.highlightMode
  delimiter := if "query_inverting_delimiter" ∈ names then v.delimiter else base.delimiter
  unicodeOn := if "unicode" ∈ names then v.unicodeOn else base.unicodeOn
  smartCase := if "smart_case" ∈ names then v.smartCase else base.smartCase

/-- `base` with the named fields of `v`. -/
def Request.withFields (base : Request) (names : List String) (v : Request) : Request where
  version := if "version" ∈ names then v.version else base.version
  items := if "items" ∈ names then v.items else base.items
  query := if "query" ∈ names then v.query else base.query
  options := if "options" ∈ names then v.options else base.options

/-- A field that is taken once more is taken. -/
theorem ite_mem_cons {α : Type} (field name : String) (names : List String) (new old : α) :
    (if field ∈ names then new else if field ∈ [name] then new else old) =
      if field ∈ name :: names then new else old := by
  by_cases hname : field = name <;> by_cases hnames : field ∈ names <;> simp [hname, hnames]

/-! ## Codecs of the fields -/

theorem whole_boolean : boolean.Whole := ⟨valueReader_boolean, boolean_readsBack⟩

theorem whole_string : Codec.string.Whole := ⟨valueReader_string _, string_readsBack⟩

theorem whole_int32 : int32.Whole := ⟨(valueReader_integer _).map _, int32_readsBack⟩

theorem whole_int64 : int64.Whole := ⟨(valueReader_integer _).map _, int64_readsBack⟩

theorem whole_uint32 : uint32.Whole := ⟨(valueReader_integer _).map _, uint32_readsBack⟩

theorem whole_count : count.Whole := ⟨(valueReader_integer _).map _, count_readsBack⟩

theorem whole_texts : (Codec.list .string).Whole :=
  ⟨valueReader_list (valueReader_string _), string_readsBack.list⟩

theorem whole_matchMode : MatchMode.codec.Whole :=
  ⟨valueReader_name _ _, MatchMode.codec_readsBack⟩

theorem whole_highlightMode : HighlightMode.codec.Whole :=
  ⟨valueReader_name _ _, HighlightMode.codec_readsBack⟩

/-! ## Forms -/

theorem Weights.replaces : Weights.form.Replaces Weights.withFields where
  nodup := by decide
  fields := by
    simp only [Weights.form, List.forall_mem_cons]
    and_intros
    iterate 10
      exact whole_int32.optional (fun _ _ => rfl) (fun _ => rfl) fun _ _ => by simp [withFields]
    iterate 3
      exact whole_int64.optional (fun _ _ => rfl) (fun _ => rfl) fun _ _ => by simp [withFields]
    · exact whole_count.optional (fun _ _ => rfl) (fun _ => rfl) fun _ _ => by simp [withFields]
    · exact whole_int64.optional (fun _ _ => rfl) (fun _ => rfl) fun _ _ => by simp [withFields]
    · simp
  nil _ _ := by simp [withFields]
  cons _ _ _ _ := by simp only [withFields, ite_mem_cons]

theorem whole_weights : Weights.form.codec.Whole :=
  ⟨strict_weights.valueReader, Weights.form_readsBack⟩

theorem Options.replaces : Options.form.Replaces Options.withFields where
  nodup := by decide
  fields := by
    simp only [Options.form, List.forall_mem_cons]
    and_intros
    · exact whole_count.optional (fun _ _ => rfl) (fun _ => rfl) fun _ _ => by simp [withFields]
    · exact whole_matchMode.optional (fun _ _ => rfl) (fun _ => rfl) fun _ _ => by simp [withFields]
    · exact whole_boolean.optional (fun _ _ => rfl) (fun _ => rfl) fun _ _ => by simp [withFields]
    · exact whole_string.optional (fun _ _ => rfl) (fun _ => rfl) fun _ _ => by simp [withFields]
    · exact whole_highlightMode.optional (fun _ _ => rfl) (fun _ => rfl)
        fun _ _ => by simp [withFields]
    · exact whole_boolean.optional (fun _ _ => rfl) (fun _ => rfl) fun _ _ => by simp [withFields]
    · exact whole_count.optional (fun _ _ => rfl) (fun _ => rfl) fun _ _ => by simp [withFields]
    · exact whole_string.optional (fun _ _ => rfl) (fun _ => rfl) fun _ _ => by simp [withFields]
    · exact whole_string.optional (fun _ _ => rfl) (fun _ => rfl) fun _ _ => by simp [withFields]
    · exact whole_boolean.optional (fun _ _ => rfl) (fun _ => rfl) fun _ _ => by simp [withFields]
    · exact whole_boolean.optional (fun _ _ => rfl) (fun _ => rfl) fun _ _ => by simp [withFields]
    · exact whole_count.optional (fun _ _ => rfl) (fun _ => rfl) fun _ _ => by simp [withFields]
    · exact whole_weights.optional (fun _ _ => rfl) (fun _ => rfl) fun _ _ => by simp [withFields]
    · simp
  nil _ _ := by simp [withFields]
  cons _ _ _ _ := by simp only [withFields, ite_mem_cons]

theorem whole_options : Options.form.codec.Whole :=
  ⟨(options_nests.toStrict strict_weights).valueReader, Options.form_readsBack⟩

theorem Settings.replaces : Settings.form.Replaces Settings.withFields where
  nodup := by decide
  fields := by
    simp only [Settings.form, List.forall_mem_cons]
    and_intros
    · exact whole_count.optional (fun _ _ => rfl) (fun _ => rfl) fun _ _ => by simp [withFields]
    · exact whole_count.optional (fun _ _ => rfl) (fun _ => rfl) fun _ _ => by simp [withFields]
    · exact whole_highlightMode.optional (fun _ _ => rfl) (fun _ => rfl)
        fun _ _ => by simp [withFields]
    · exact whole_string.optional (fun _ _ => rfl) (fun _ => rfl) fun _ _ => by simp [withFields]
    · exact whole_boolean.optional (fun _ _ => rfl) (fun _ => rfl) fun _ _ => by simp [withFields]
    · exact whole_boolean.optional (fun _ _ => rfl) (fun _ => rfl) fun _ _ => by simp [withFields]
    · simp
  nil _ _ := by simp [withFields]
  cons _ _ _ _ := by simp only [withFields, ite_mem_cons]

theorem Request.replaces : Request.form.Replaces Request.withFields where
  nodup := by decide
  fields := by
    simp only [Request.form, List.forall_mem_cons]
    and_intros
    · exact whole_uint32.optional (fun _ _ => rfl) (fun _ => rfl) fun _ _ => by simp [withFields]
    · exact whole_texts.mandatory (fun _ _ => rfl) (fun _ => rfl) fun _ _ => by simp [withFields]
    · exact whole_string.optional (fun _ _ => rfl) (fun _ => rfl) fun _ _ => by simp [withFields]
    · exact whole_options.optional (fun _ _ => rfl) (fun _ => rfl) fun _ _ => by simp [withFields]
    · simp
  nil _ _ := by simp [withFields]
  cons _ _ _ _ := by simp only [withFields, ite_mem_cons]

/-! ## Decoding -/

/-- Weights, options and settings are decoded field by field: those that an object
    holds, in whatever order, replace their defaults, and none is needed.  So are
    requests, of which only the items are needed.  What decodes to weights stands for
    them in options, and what decodes to options in a request, so that these may hold
    some of their fields only, too.  No object is decoded that has a known key twice. -/
theorem objects_fieldwise :
    Weights.form.Fieldwise [] .standard Weights.withFields ∧
    Options.form.Fieldwise [] .standard Options.withFields ∧
    Settings.form.Fieldwise [] .standard Settings.withFields ∧
    Request.form.Fieldwise ["items"] ⟨requestVersion, [], "", .standard⟩ Request.withFields ∧
    (∀ (o : Options) text, Weights.form.codec.decode text = .ok o.weights →
      Options.form.Holds o "weights" text) ∧
    ∀ (r : Request) text, Options.form.codec.decode text = .ok r.options →
      Request.form.Holds r "options" text :=
  ⟨Weights.replaces.fieldwise rfl, Options.replaces.fieldwise rfl, Settings.replaces.fieldwise rfl,
    Request.replaces.fieldwise rfl,
    fun _ _ hdecode => holds_of_decode hdecode rfl rfl rfl,
    fun _ _ hdecode => holds_of_decode hdecode rfl rfl rfl⟩

/-- Settings as a file may hold them, a request that gives a weight and another option,
    a request without items, and a setting that stands twice, with an unknown key
    between. -/
theorem objects_fieldwise_typed :
    Settings.form.codec.decode (utf8 "\x7b\"limit\": 5, \"highlight_mode\": \"basic\"\x7d") =
      .ok { Settings.standard with limit := 5, highlightMode := .basic } ∧
    Request.form.codec.decode (utf8 ("\x7b\"options\":\x7b\"weights\":\x7b\"match_base\":3\x7d," ++
        "\"limit\":2\x7d,\"items\":[\"a\"]\x7d")) =
      .ok ⟨1, ["a"], "",
        { Options.standard with limit := 2, weights := { Weights.standard with matchBase := 3 } }⟩ ∧
    (∃ place, Request.form.codec.decode (utf8 "\x7b\"query\":\"a\"\x7d") =
      .error ⟨.missingField "items", place⟩) ∧
    ∃ failure, Settings.form.codec.decode
        (utf8 "\x7b\"limit\":1,\"colour\":[1,\x7b\"limit\":2\x7d],\"limit\":3\x7d") =
      .error failure := by
  obtain ⟨hweights, hoptions, hsettings, hrequest, hinOptions, hinRequest⟩ := objects_fieldwise
  refine ⟨?_, ?_, ?_, ?_⟩
  · let v : Settings := { Settings.standard with limit := 5, highlightMode := .basic }
    have hfive : count.decode (utf8 " 5") = .ok v.limit := by decide +kernel
    have hbasic : HighlightMode.codec.decode (utf8 " \"basic\"") = .ok v.highlightMode := by
      decide +kernel
    have hkey : Codec.string.decode (utf8 " \"highlight_mode\"") = .ok "highlight_mode" := by
      decide +kernel
    exact hsettings.complete v ["limit", "highlight_mode"] _
      ⟨[], [], [utf8 "\"limit\": 5", utf8 " \"highlight_mode\": \"basic\""], [], by decide +kernel,
        blank_nil, blank_nil, blank_nil, by decide,
        .cons ⟨utf8 (writtenText "limit"), _, by decide +kernel, spells_written _,
          holds_of_decode hfive rfl rfl rfl⟩ <|
        .cons ⟨_, _, by decide +kernel, hkey, holds_of_decode hbasic rfl rfl rfl⟩ .nil⟩ (by simp)
  · let w : Weights := { Weights.standard with matchBase := 3 }
    let o : Options := { Options.standard with limit := 2, weights := w }
    let r : Request := ⟨1, ["a"], "", o⟩
    have hw : Weights.form.codec.decode (utf8 "\x7b\"match_base\":3\x7d") = .ok o.weights := by
      have htext : utf8 "\x7b\"match_base\":3\x7d" =
        utf8 (Weights.form.selected w ["match_base"]).compact := by decide +kernel
      rw [htext]
      exact hweights.complete w ["match_base"] _ (hweights.printed w _ (by decide) (by decide))
        (by simp)
    have htwo : count.decode (utf8 "2") = .ok o.limit := by decide +kernel
    have ho : Options.form.codec.decode
        (utf8 "\x7b\"weights\":\x7b\"match_base\":3\x7d,\"limit\":2\x7d") = .ok r.options :=
      hoptions.complete o ["weights", "limit"] _
        ⟨[], [], [utf8 "\"weights\":\x7b\"match_base\":3\x7d", utf8 "\"limit\":2"], [],
          by decide +kernel, blank_nil, blank_nil, blank_nil, by decide,
          .cons ⟨utf8 (writtenText "weights"), _, by decide +kernel, spells_written _,
            hinOptions o _ hw⟩ <|
          .cons ⟨utf8 (writtenText "limit"), _, by decide +kernel, spells_written _,
            holds_of_decode htwo rfl rfl rfl⟩ .nil⟩ (by simp)
    have ha : (Codec.list .string).decode (utf8 "[\"a\"]") = .ok r.items := by decide +kernel
    exact hrequest.complete r ["options", "items"] _
      ⟨[], [], [utf8 "\"options\":\x7b\"weights\":\x7b\"match_base\":3\x7d,\"limit\":2\x7d",
          utf8 "\"items\":[\"a\"]"], [], by decide +kernel, blank_nil, blank_nil, blank_nil,
        by decide,
        .cons ⟨utf8 (writtenText "options"), _, by decide +kernel, spells_written _,
          hinRequest r _ ho⟩ <|
        .cons ⟨utf8 (writtenText "items"), _, by decide +kernel, spells_written _,
          holds_of_decode ha rfl rfl rfl⟩ .nil⟩ (by simp)
  · let r : Request := ⟨requestVersion, [], "a", .standard⟩
    have htext : utf8 "\x7b\"query\":\"a\"\x7d" =
      utf8 (Request.form.selected r ["query"]).compact := by decide +kernel
    obtain ⟨name, hname, -, place, hmissing⟩ := hrequest.missing r ["query"] _
      (hrequest.printed r _ (by decide) (by decide)) ⟨"items", by simp, by decide⟩
    obtain rfl := List.mem_singleton.1 hname
    exact ⟨place, by rw [htext]; exact hmissing⟩
  · have hlimit : IsMemberOf "limit" (utf8 "\"limit\":1") :=
      ⟨utf8 (writtenText "limit"), utf8 "1", by decide +kernel, spells_written _,
        by decide +kernel⟩
    have hcolour : IsMember (utf8 "\"colour\":[1,\x7b\"limit\":2\x7d]") :=
      ⟨utf8 (writtenText "colour"), utf8 "[1,\x7b\"limit\":2\x7d]", "colour", by decide +kernel,
        spells_written _, by decide +kernel⟩
    exact hsettings.twice []
      (utf8 "\x7b\"limit\":1,\"colour\":[1,\x7b\"limit\":2\x7d],\"limit\":3\x7d") "limit" blank_nil
      (by decide)
      ⟨[], [utf8 "\"limit\":1", utf8 "\"colour\":[1,\x7b\"limit\":2\x7d]"],
        utf8 (writtenText "limit"), utf8 ":3\x7d", by decide +kernel, blank_nil,
        List.forall_mem_cons.2 ⟨isMember_iff.2 ⟨_, hlimit⟩, List.forall_mem_singleton.2 hcolour⟩,
        ⟨_, List.mem_cons_self, hlimit⟩, spells_written _⟩

end FuzzyPath
