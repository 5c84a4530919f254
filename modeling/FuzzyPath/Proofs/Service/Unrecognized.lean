/-
  FuzzyPath — unknown options are reported as such.

  * a `RequestObject` is one of the objects of a request, and
    `RequestObject.Opens` says what may stand before its opening brace;
  * `RequestObject.Opens.exists_objectText`: where a request that is read has an
    object, the text of it consists of members;
  * `RequestObject.Opens.read_insert`: an unknown key among them is the error of the
    request, and by `RequestObject.exists_writesKey` there is no other such error;
  * `decodeRequest_unrecognized`: a key that is unknown there is always reported, and
    nothing else is reported in the same way.
-/
import FuzzyPath.Proofs.Json.UnknownKeys
import FuzzyPath.Proofs.Service.InBand
import FuzzyPath.Proofs.Service.Replies

namespace FuzzyPath

open Json

/-! ## Forms -/

theorem plain_weights : ∀ field ∈ Weights.form.fields, PlainReader field.read := by
  have hint32 : PlainReader Codec.int32.read := (plain_integer _).map _
  have hint64 : PlainReader Codec.int64.read := (plain_integer _).map _
  have hcount : PlainReader Codec.count.read := (plain_integer _).map _
  simp only [Weights.form, List.forall_mem_cons]
  and_intros <;> first
    | exact hint32.map _
    | exact hint64.map _
    | exact hcount.map _
    | simp

theorem strict_weights : Weights.form.Strict where
  strict := rfl
  fields field hfield := (plain_weights field hfield).value

/-- Of the options, only the weights have keys of their own. -/
theorem options_nests : Options.form.Nests "weights" Weights.form where
  strict := rfl
  fields := by
    have hcount : PlainReader Codec.count.read := (plain_integer _).map _
    have hmatch : PlainReader MatchMode.codec.read := plain_named _ _ _
    have hhighlight : PlainReader HighlightMode.codec.read := plain_named _ _ _
    simp only [Options.form, List.forall_mem_cons]
    and_intros
    · exact .inl ⟨by decide, hcount.map _⟩
    · exact .inl ⟨by decide, hmatch.map _⟩
    · exact .inl ⟨by decide, plain_boolean.map _⟩
    · exact .inl ⟨by decide, plain_string.map _⟩
    · exact .inl ⟨by decide, hhighlight.map _⟩
    · exact .inl ⟨by decide, plain_boolean.map _⟩
    · exact .inl ⟨by decide, hcount.map _⟩
    · exact .inl ⟨by decide, plain_string.map _⟩
    · exact .inl ⟨by decide, plain_string.map _⟩
    · exact .inl ⟨by decide, plain_boolean.map _⟩
    · exact .inl ⟨by decide, plain_boolean.map _⟩
    · exact .inl ⟨by decide, hcount.map _⟩
    · exact .inr ⟨rfl, _, rfl⟩
    · simp

/-- Of a request, only the options have keys of their own. -/
theorem request_nests : Request.form.Nests "options" Options.form where
  strict := rfl
  fields := by
    have huint32 : PlainReader Codec.uint32.read := (plain_integer _).map _
    have htexts : PlainReader (Codec.list .string).read := plain_list plain_string
    simp only [Request.form, List.forall_mem_cons]
    and_intros
    · exact .inl ⟨by decide, huint32.map _⟩
    · exact .inl ⟨by decide, htexts.map _⟩
    · exact .inl ⟨by decide, plain_string.map _⟩
    · exact .inr ⟨rfl, _, rfl⟩
    · simp

/-! ## Objects of a request -/

/-- The objects of a request: the whole, its options and their weights. -/
inductive RequestObject where
  | request
  | options
  | weights
  deriving DecidableEq, Repr

namespace RequestObject

/-- What an object stands for. -/
def Value : RequestObject → Type
  | request => Request
  | options => Options
  | weights => Weights

def form : (object : RequestObject) → RecordForm object.Value
  | request => Request.form
  | options => Options.form
  | weights => Weights.form

/-- The keys that are known in an object. -/
def keys (object : RequestObject) : List String := object.form.fieldNames

/-- What may stand in a text before the opening bracket of an object. -/
inductive Opens : RequestObject → List UInt8 → Prop
  | request {front : List UInt8} (h : Blank front) : Opens request front
  | options {front lead : List UInt8} (h : Opens request front)
      (hlead : Request.form.LeadsTo "options" lead) : Opens options (front ++ lead)
  | weights {front lead : List UInt8} (h : Opens options front)
      (hlead : Options.form.LeadsTo "weights" lead) : Opens weights (front ++ lead)

/-- An object in a text has a key, whatever else the text may be. -/
def WritesKey (object : RequestObject) (key : String) (bytes : List UInt8) : Prop :=
  ∃ front text, bytes = front ++ text ∧ object.Opens front ∧ HasKey key text

theorem strict (object : RequestObject) : object.form.Strict := by
  cases object with
  | request => exact request_nests.toStrict (options_nests.toStrict strict_weights)
  | options => exact options_nests.toStrict strict_weights
  | weights => exact strict_weights

/-- An object of a request that is read is read itself, and its errors are those of
    the request. -/
theorem Opens.read {object : RequestObject} {front : List UInt8} (h : object.Opens front) :
    ∀ {tail tail' : List UInt8} {r : Request × List UInt8}, RecordForm.Opening tail →
      RecordForm.Opening tail' → Request.form.read (front ++ tail) = .ok r →
      (∃ y, object.form.read tail = .ok y) ∧ ∀ fault, object.form.read tail' = .error fault →
        Request.form.read (front ++ tail') = .error fault := by
  induction h with
  | request hfront =>
    intro tail tail' r htail htail' hread
    have hstrict : Request.form.Strict := strict .request
    rw [hstrict.valueReader.blank hfront] at hread ⊢
    exact ⟨⟨r, hread⟩, fun fault => id⟩
  | @options front lead h hlead ih =>
    intro tail tail' r htail htail' hread
    rw [List.append_assoc] at hread ⊢
    obtain ⟨⟨y, hy⟩, herror⟩ := ih (hlead.opening tail) (hlead.opening tail') hread
    obtain ⟨hok, herror'⟩ := request_nests.read_of_inner (strict .options) hlead htail htail' hy
    exact ⟨hok, fun fault hfault => herror fault (herror' fault hfault)⟩
  | @weights front lead h hlead ih =>
    intro tail tail' r htail htail' hread
    rw [List.append_assoc] at hread ⊢
    obtain ⟨⟨y, hy⟩, herror⟩ := ih (hlead.opening tail) (hlead.opening tail') hread
    obtain ⟨hok, herror'⟩ := options_nests.read_of_inner (strict .weights) hlead htail htail' hy
    exact ⟨hok, fun fault hfault => herror fault (herror' fault hfault)⟩

/-- An object of a request that is read consists of members. -/
theorem Opens.exists_objectText {object : RequestObject} {front tail : List UInt8}
    {r : Request × List UInt8} (h : object.Opens front)
    (hread : Request.form.read (front ++ 0x7b :: tail) = .ok r) :
    ∃ inner items back, Blank inner ∧ (∀ item ∈ items, IsMember item) ∧
      0x7b :: tail = objectText inner items ++ back := by
  have htail : RecordForm.Opening (0x7b :: tail) := ⟨0x7b, tail, rfl, .inr rfl⟩
  obtain ⟨⟨y, hy⟩, -⟩ := h.read htail htail hread
  obtain ⟨inner, items, hinner, hitems, heq⟩ := object.strict.exists_objectText hy
  exact ⟨inner, items, y.2, hinner, hitems, heq⟩

/-- An unknown key among the members of an object is the error of the request. -/
theorem Opens.read_insert {object : RequestObject} {front inner key value back : List UInt8}
    {before after : List (List UInt8)} {name : String} {r : Request × List UInt8}
    (h : object.Opens front) (hinner : Blank inner) (hbefore : ∀ item ∈ before, IsMember item)
    (hkey : Spells key name) (hname : name ∉ object.keys)
    (hread : Request.form.read (front ++ (objectText inner (before ++ after) ++ back)) = .ok r) :
    ∃ left, Request.form.read
        (front ++ (objectText inner (before ++ (key ++ value) :: after) ++ back)) =
      .error ⟨.unknownField name object.keys, left⟩ := by
  have hopening (items : List (List UInt8)) :
      RecordForm.Opening (objectText inner items ++ back) := ⟨0x7b, _, rfl, .inr rfl⟩
  obtain ⟨⟨y, hy⟩, herror⟩ :=
    h.read (hopening _) (hopening (before ++ (key ++ value) :: after)) hread
  obtain ⟨left, hleft⟩ := object.strict.read_of_unknown hinner hbefore hkey
    (RecordForm.field?_eq_none.2 hname) hy
  exact ⟨left, herror _ hleft⟩

/-- An error about an unknown key is about one that some object of the request has. -/
theorem exists_writesKey {bytes : List UInt8} {fault : JsonFault}
    (hunknown : fault.error.isUnknownField = true)
    (hread : Request.form.read bytes = .error fault) :
    ∃ object : RequestObject, ∃ key, key ∉ object.keys ∧ object.WritesKey key bytes := by
  obtain ⟨w, text, hw, rfl, ⟨key, hkey, hhas⟩ | ⟨lead, tail, rfl, hlead, hcause⟩⟩ :=
    request_nests.read_eq_unknown options.strict hunknown hread
  · exact ⟨request, key, hkey, w, text, rfl, .request hw, hhas⟩
  obtain ⟨w', text, hw', rfl, ⟨key, hkey, hhas⟩ | ⟨lead', tail, rfl, hlead', hcause⟩⟩ :=
    options_nests.read_eq_unknown weights.strict hunknown hcause
  · exact ⟨options, key, hkey, w ++ (lead ++ w'), text, by simp,
      .options (.request hw) (hlead.append hw'), hhas⟩
  obtain ⟨w'', text, hw'', rfl, ⟨key, hkey, hhas⟩ | ⟨field, hfield, lead'', tail, -, -, hcause⟩⟩ :=
    weights.strict.read_eq_unknown hunknown hcause
  · exact ⟨weights, key, RecordForm.field?_eq_none.1 hkey,
      w ++ (lead ++ w') ++ (lead' ++ w''), text, by simp,
      .weights (.options (.request hw) (hlead.append hw')) (hlead'.append hw''), hhas⟩
  · rw [(plain_weights field hfield).familiar tail fault hcause] at hunknown
    cases hunknown

end RequestObject

/-! ## Decoding -/

theorem ofJson_eq (failure : JsonFailure) : MatchError.ofJson failure =
    if failure.error.isUnknownField then .unrecognizedOption failure.message
    else .invalidRequest failure.message := by
  rw [MatchError.ofJson, unknownMarker, failure.isPrefixOf_message]

theorem decodeRequest_of_fault {bytes : List UInt8} {fault : JsonFault}
    (h : Request.form.read bytes = .error fault) :
    decodeRequest bytes = .error (.ofJson (fault.within bytes)) := by
  have hdecode : Request.form.codec.decode bytes = .error (fault.within bytes) := by
    rw [Codec.decode, readDocument, show Request.form.codec.read bytes = .error fault from h]
  rw [decodeRequest, hdecode]

theorem exists_read_of_decode {bytes : List UInt8} {request : Request}
    (h : Request.form.codec.decode bytes = .ok request) :
    ∃ r, Request.form.read bytes = .ok r := by
  obtain ⟨gap, -, hread⟩ := readDocument_eq_ok h
  exact ⟨_, hread⟩

/-- What is reported as an unknown option is an error about an unknown key. -/
theorem exists_fault_of_unrecognized {bytes : List UInt8} {detail : String}
    (h : decodeRequest bytes = .error (.unrecognizedOption detail)) :
    ∃ fault, Request.form.read bytes = .error fault ∧ fault.error.isUnknownField = true := by
  rw [decodeRequest] at h
  split at h
  · rename_i failure hdecode
    have hunknown : failure.error.isUnknownField = true := by
      by_contra hfamiliar
      rw [ofJson_eq, if_neg hfamiliar] at h
      cases h
    rw [Codec.decode, readDocument, RecordForm.codec] at hdecode
    split at hdecode
    · rename_i fault hread
      obtain rfl := Except.error.inj hdecode
      exact ⟨fault, hread, hunknown⟩
    · split at hdecode
      · cases hdecode
      · obtain rfl := Except.error.inj hdecode
        cases hunknown
  · split at h <;> cases h

theorem message_unknownField (key : String) (names : List String) (place : Option TextPlace) :
    ∃ more, (JsonFailure.mk (.unknownField key names) place).message =
      "unknown field `" ++ key ++ "`" ++ more := by
  have herror : (JsonError.unknownField key names).message =
      "unknown field `" ++ key ++ "`" ++ (", expected " ++ oneOf names) := by
    rw [JsonError.message.eq_def]
    simp only [toString, String.append_assoc]
    rfl
  cases place with
  | none => exact ⟨_, herror⟩
  | some place =>
    rw [JsonFailure.message]
    dsimp only
    rw [herror]
    simp only [toString, String.append_assoc]
    exact ⟨_, rfl⟩

/-- An unknown key is reported by its name. -/
theorem decodeRequest_of_unknown {bytes left : List UInt8} {key : String} {names : List String}
    (h : Request.form.read bytes = .error ⟨.unknownField key names, left⟩) :
    ∃ more, decodeRequest bytes =
      .error (.unrecognizedOption ("unknown field `" ++ key ++ "`" ++ more)) := by
  obtain ⟨more, hmore⟩ := message_unknownField key names
    (JsonFault.within bytes ⟨.unknownField key names, left⟩).place
  refine ⟨more, ?_⟩
  rw [decodeRequest_of_fault h, ofJson_eq, ← hmore]
  rfl

theorem answer_of_error {bytes : List UInt8} {err : MatchError} (hardware : Nat)
    (h : decodeRequest bytes = .error err) : (answer hardware bytes).isError = true := by
  rw [answer, h]
  exact isError_ofError err

/-- Where a request that is read has an object, as the whole, as its options or as
    their weights, the text of it is a list of members.  A key that the object does
    not know, put before, between or after them with any value, is reported as an
    unknown option that is named, and the response is an error.  A text in whose
    objects there are only known keys is never refused in that way, whatever else it
    may be. -/
theorem decodeRequest_unrecognized (hardware : Nat) :
    (∀ bytes request, Request.form.codec.decode bytes = .ok request →
      ∀ (object : RequestObject) (front tail : List UInt8), object.Opens front →
        bytes = front ++ 0x7b :: tail →
        ∃ inner items back, Blank inner ∧ (∀ item ∈ items, IsMember item) ∧
          bytes = front ++ (objectText inner items ++ back)) ∧
    (∀ (object : RequestObject) (front inner back : List UInt8) (before after : List (List UInt8))
        request, object.Opens front → Blank inner → (∀ item ∈ before, IsMember item) →
      Request.form.codec.decode (front ++ (objectText inner (before ++ after) ++ back)) =
        .ok request →
      ∀ key name value, Spells key name → name ∉ object.keys →
        let bytes := front ++
          (objectText inner (before ++ (key ++ 0x3a :: value) :: after) ++ back)
        (∃ more, decodeRequest bytes =
          .error (.unrecognizedOption ("unknown field `" ++ name ++ "`" ++ more))) ∧
        (answer hardware bytes).isError = true) ∧
    ∀ bytes, (∀ (object : RequestObject) name, object.WritesKey name bytes → name ∈ object.keys) →
      ∀ detail, decodeRequest bytes ≠ .error (.unrecognizedOption detail) := by
  refine ⟨?_, ?_, ?_⟩
  · rintro bytes request hdecode object front tail hopens rfl
    obtain ⟨r, hread⟩ := exists_read_of_decode hdecode
    obtain ⟨inner, items, back, hinner, hitems, heq⟩ := hopens.exists_objectText hread
    exact ⟨inner, items, back, hinner, hitems, by rw [heq]⟩
  · intro object front inner back before after request hopens hinner hbefore hdecode key name value
      hkey hname bytes
    obtain ⟨r, hread⟩ := exists_read_of_decode hdecode
    obtain ⟨left, hleft⟩ := hopens.read_insert hinner hbefore hkey hname hread
    obtain ⟨more, hmore⟩ := decodeRequest_of_unknown hleft
    exact ⟨⟨more, hmore⟩, answer_of_error hardware hmore⟩
  · intro bytes hknown detail hdetail
    obtain ⟨fault, hread, hunknown⟩ := exists_fault_of_unrecognized hdetail
    obtain ⟨object, key, hkey, hwrites⟩ := RequestObject.exists_writesKey hunknown hread
    exact hkey (hknown object key hwrites)

/-- An option `fuzziness` after another one, and a text that only quotes the words
    for unknown keys. -/
theorem decodeRequest_unrecognized_fuzziness :
    (∃ more, decodeRequest (utf8 ("\x7b\"items\":[\"a\"],\"query\":\"a\",\"options\":" ++
        "\x7b\"regex_line_prefix\":\"> \",\"fuzziness\":2\x7d\x7d")) =
      .error (.unrecognizedOption ("unknown field `" ++ "fuzziness" ++ "`" ++ more))) ∧
    ∀ detail, decodeRequest (utf8 "\"unknown field\"") ≠ .error (.unrecognizedOption detail) := by
  obtain ⟨-, hinsert, hknown⟩ := decodeRequest_unrecognized 8
  constructor
  · have hitems : IsMember (utf8 "\"items\":[\"a\"]") :=
      ⟨utf8 (writtenText "items"), utf8 "[\"a\"]", "items", by decide +kernel,
        spells_written _, by decide +kernel⟩
    have hquery : IsMember (utf8 "\"query\":\"a\"") :=
      ⟨utf8 (writtenText "query"), utf8 "\"a\"", "query", by decide +kernel,
        spells_written _, by decide +kernel⟩
    have hlead : IsMember (utf8 "\"regex_line_prefix\":\"> \"") :=
      ⟨utf8 (writtenText "regex_line_prefix"), utf8 "\"> \"", "regex_line_prefix",
        by decide +kernel, spells_written _, by decide +kernel⟩
    let front := 0x7b :: ([] ++ [0x2c].intercalate
      ([utf8 "\"items\":[\"a\"]", utf8 "\"query\":\"a\""] ++
        [utf8 (writtenText "options") ++ 0x3a :: []]))
    have hopens : RequestObject.options.Opens ([] ++ front) := .options (.request blank_nil)
      (.member blank_nil (List.forall_mem_cons.2 ⟨hitems, List.forall_mem_singleton.2 hquery⟩)
        (spells_written "options") blank_nil)
    have hdecode := Codec.decode_of_reads (reads_leadRequest ["a"] "a" "> ")
    have hbase : utf8 (leadRequest ["a"] "a" "> ").compact = [] ++ front ++
        (objectText [] ([utf8 "\"regex_line_prefix\":\"> \""] ++ []) ++ [0x7d]) := by
      decide +kernel
    rw [hbase] at hdecode
    have hinserted : utf8 ("\x7b\"items\":[\"a\"],\"query\":\"a\",\"options\":" ++
        "\x7b\"regex_line_prefix\":\"> \",\"fuzziness\":2\x7d\x7d") = [] ++ front ++
          (objectText [] ([utf8 "\"regex_line_prefix\":\"> \""] ++
            (utf8 (writtenText "fuzziness") ++ 0x3a :: [0x32]) :: []) ++ [0x7d]) := by
      decide +kernel
    rw [hinserted]
    exact (hinsert .options _ [] [0x7d] _ [] _ hopens blank_nil
      (List.forall_mem_singleton.2 hlead) hdecode _ _ [0x32] (spells_written "fuzziness")
      (by decide)).1
  · refine hknown _ fun object name hwrites => ?_
    obtain ⟨front, text, hbytes, -, inner, before, key, rest, rfl, -⟩ := hwrites
    have hbrace : 0x7b ∉ utf8 "\"unknown field\"" := by decide +kernel
    rw [hbytes] at hbrace
    simp at hbrace

end FuzzyPath
