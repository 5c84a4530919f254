/-
  FuzzyPath — responses that are longer than their requests.

  The pattern of each line in a response repeats the text that the editor draws
  before the line; a request gives that text once.

  * `leadRequest` is a request for some lines that gives such a text, and
    `decodeRequest_leadRequest` is what is read from it;
  * `respond_copies`: the response for copies of a line `a`;
  * `size_le_pattern` and `sum_le_payload`: a pattern is longer than the text it
    repeats, and a response at least as long as its patterns.
-/
import FuzzyPath.Proofs.Highlight.Shown
import FuzzyPath.Proofs.Json.Printed
import FuzzyPath.Proofs.Ranking.Search
import FuzzyPath.Proofs.Scoring.Columns
import FuzzyPath.Proofs.Service.Calls
import FuzzyPath.Server.Serve

namespace FuzzyPath

/-! ## Requests -/

/-- A request for some lines, with the text that is drawn before each. -/
def leadRequest (items : List String) (query lead : String) : Document :=
  .object [("items", .list (items.map .string)), ("query", .string query),
    ("options", .object [("regex_line_prefix", .string lead)])]

/-- The options of such a request. -/
def leadOptions (lead : String) : Options := { Options.standard with lineLead := lead }

theorem reads_leadOptions (lead : String) :
    Json.Reads Options.form.codec.read (.object [("regex_line_prefix", .string lead)])
      (leadOptions lead) := by
  let member : PrintedMember Options :=
    ⟨"regex_line_prefix", .string lead, fun o => { o with lineLead := lead }⟩
  have hlead := (Json.reads_string lead).map
    fun (v : String) (o : Options) => { o with lineLead := v }
  have hfields : ∀ m ∈ [member], m.IsField Options.form :=
    List.forall_mem_singleton.2 ⟨_, rfl, hlead⟩
  have hrequired : ∀ field ∈ Options.form.fields, field.required = true →
      field.name ∈ ["regex_line_prefix"] := by decide
  exact RecordForm.reads_object hfields (List.nodup_singleton _) hrequired

theorem reads_leadRequest (items : List String) (query lead : String) :
    Json.Reads Request.form.codec.read (leadRequest items query lead)
      ⟨requestVersion, items, query, leadOptions lead⟩ := by
  let members : List (PrintedMember Request) :=
    [⟨"items", .list (items.map .string), fun r => { r with items := items }⟩,
      ⟨"query", .string query, fun r => { r with query := query }⟩,
      ⟨"options", .object [("regex_line_prefix", .string lead)],
        fun r => { r with options := leadOptions lead }⟩]
  have hitems := (Json.reads_texts items).map
    fun (v : List String) (r : Request) => { r with items := v }
  have hquery := (Json.reads_string query).map
    fun (v : String) (r : Request) => { r with query := v }
  have hoptions := (reads_leadOptions lead).map
    fun (v : Options) (r : Request) => { r with options := v }
  have hfields : ∀ m ∈ members, m.IsField Request.form :=
    List.forall_mem_cons.2 ⟨⟨_, rfl, hitems⟩,
      List.forall_mem_cons.2 ⟨⟨_, rfl, hquery⟩, List.forall_mem_singleton.2 ⟨_, rfl, hoptions⟩⟩⟩
  have hnodup : ["items", "query", "options"].Nodup := by decide
  have hrequired : ∀ field ∈ Request.form.fields, field.required = true →
      field.name ∈ ["items", "query", "options"] := by decide
  exact RecordForm.reads_object hfields hnodup hrequired

theorem decodeRequest_leadRequest (items : List String) (query lead : String) :
    decodeRequest (utf8 (leadRequest items query lead).compact) =
      .ok ⟨requestVersion, items, query, leadOptions lead⟩ := by
  rw [decodeRequest, Codec.decode_of_reads (reads_leadRequest items query lead)]
  rfl

/-! ## Copies of a line -/

/-- The place of a line is carried along only. -/
theorem Search.result_index (s : Search) (line : String) (i : Nat) :
    s.result (line, i) = (s.result (line, 0)).map (·.map fun r => { r with index := i }) := by
  have hevaluate : (Scorer.new s.query s.weights s.context).evaluate
        (.ofLine i line s.query.matchMode s.context.style) =
      (Scorer.new s.query s.weights s.context).evaluate
        (.ofLine 0 line s.query.matchMode s.context.style) := rfl
  rw [result, result, hevaluate]
  rcases (Scorer.new s.query s.weights s.context).evaluate _ with err | ⟨_ | m, t⟩
  · rfl
  · rfl
  · rfl

/-- The query `a`, as the standard options read it. -/
def queryA : Query where
  text := "a"
  excluded := []
  matchMode := .fullLine
  keyKind := .plain
  textMode := .bytes
  units := TextMode.bytes.decode "a" 0
  caseSensitive := false

theorem parse_a (lead : String) : Query.parse "a" (leadOptions lead).querySettings = .ok queryA := by
  have : Query.parse "a" Options.standard.querySettings = .ok queryA := by decide +kernel
  exact this

theorem result_a (i : Nat) :
    (Options.standard.search queryA).result ("a", i) = .ok (some ⟨31000, i, [0]⟩) := by
  have hzero : (Options.standard.search queryA).result ("a", 0) = .ok (some ⟨31000, 0, [0]⟩) := by
    decide +kernel
  rw [Search.result_index, hzero]
  rfl

/-- Every copy of the line is found, with its only character matched. -/
theorem rankItems_copies (hardware n : Nat) (lead : String) : ∃ results,
    rankItems hardware (List.replicate n "a") "a" (leadOptions lead) = .ok results ∧
      results.length = n ∧ ∀ r ∈ results, r.index < n ∧ r.positions = [0] := by
  let s := Options.standard.search queryA
  let lines := (List.replicate n "a").zipIdx
  let found : List Ranked := lines.map fun line => ⟨31000, line.2, [0]⟩
  have hlines : ∀ line ∈ lines, line.1 = "a" ∧ line.2 < n := by
    intro line hline
    obtain ⟨hlt, heq⟩ := List.getElem?_eq_some_iff.1 (List.mem_zipIdx_iff_getElem?.1 hline)
    rw [List.length_replicate] at hlt
    exact ⟨heq.symm.trans (List.getElem_replicate ..), hlt⟩
  have hresult : ∀ line ∈ lines, s.result line = .ok (some ⟨31000, line.2, [0]⟩) := by
    rintro ⟨text, i⟩ hline
    obtain rfl := (hlines _ hline).1
    exact result_a i
  have hfound : lines.filterMap s.found = found := by
    refine List.filterMap_eq_map_iff_forall_eq_some.2 fun line hline => ?_
    rw [Search.found, hresult line hline]
  have hrun := Search.run_eq_best (fun line hline => ⟨_, hresult line hline⟩) hardware
  have hlimit : s.limit = 0 := rfl
  rw [hfound, Ranked.best, Ranked.first, if_pos hlimit] at hrun
  have hperm := Ranked.sort_perm found
  have hcall : rankItems hardware (List.replicate n "a") "a" (leadOptions lead) =
      .ok (Ranked.sort found) :=
    rankItems_eq_ok_iff.2 ⟨Weights.validate_standard, queryA, parse_a lead, hrun⟩
  refine ⟨Ranked.sort found, hcall, ?_, fun r hr => ?_⟩
  · rw [hperm.length_eq, List.length_map, List.length_zipIdx, List.length_replicate]
  · obtain ⟨line, hline, rfl⟩ := List.mem_map.1 (hperm.mem_iff.1 hr)
    exact ⟨(hlines line hline).2, rfl⟩

/-- The response for copies of the line has as many patterns. -/
theorem respond_copies (hardware n : Nat) (lead : String) :
    respond hardware (List.replicate n "a") "a" (leadOptions lead) =
      ⟨List.replicate n "a", List.replicate n (highlightPattern .full "a" [0] lead)⟩ := by
  obtain ⟨results, hresults, hlength, hall⟩ := rankItems_copies hardware n lead
  have hshown : results.filterMap (resultLine? (List.replicate n "a").toArray (leadOptions lead)) =
      List.replicate n ("a", highlightPattern .full "a" [0] lead) := by
    have hline : ∀ r ∈ results,
        resultLine? (List.replicate n "a").toArray (leadOptions lead) r =
          some ("a", highlightPattern .full "a" [0] lead) := by
      intro r hr
      obtain ⟨hindex, hpositions⟩ := hall r hr
      simp [resultLine?, hindex, hpositions, leadOptions, Options.standard]
    rw [List.filterMap_eq_map_iff_forall_eq_some.2 hline, List.map_const', hlength]
  rw [respond, hresults]
  change (⟨_, _⟩ : Response) = _
  rw [hshown, List.map_replicate, List.map_replicate]

/-! ## Sizes -/

theorem utf8Size_le_literal (c : Char) : c.utf8Size ≤ (utf8Chars (Atom.literal c).text).length := by
  rw [Atom.text]
  split
  · subst c
    decide
  · rw [length_utf8Chars_cons]
    exact Nat.le_add_right _ _

theorem size_le_literals (text : String) :
    text.utf8ByteSize ≤ (utf8Chars ((Pattern.literals text).flatMap Atom.text)).length := by
  have := length_utf8Chars_le_flatMap utf8Size_le_literal text.toList
  rw [length_utf8Chars_toList] at this
  rwa [Pattern.literals, List.flatMap_map]

/-- The pattern of a matched line is longer than the text before the line. -/
theorem size_le_pattern (lead : String) :
    lead.utf8ByteSize + 4 ≤ (highlightPattern .full "a" [0] lead).utf8ByteSize := by
  have hruns : matchedRuns "a" [0] = [⟨0, 1⟩] := by decide +kernel
  have hlead := size_le_literals lead
  have hmark : (utf8Chars ['\\', 'V', '\\', 'C']).length = 4 := rfl
  rw [highlightPattern, hruns]
  simp only [Pattern.ofRuns, Option.map_some, Option.getD_some, Pattern.text, List.map_cons,
    List.map_nil, List.intercalate_singleton, Pattern.surrounded, List.singleton_append,
    List.flatMap_cons, Piece.text, groupText, ← length_utf8Chars, utf8Chars_append,
    List.length_append, List.flatMap_append]
  omega

/-- A response has at least as many bytes as its patterns. -/
theorem sum_le_payload (r : Response) :
    (r.patterns.map String.utf8ByteSize).sum ≤ r.payload.size := by
  have hpatterns := sum_le_length_texts r.patterns 1
  have hsize : r.payload.size = ((Response.form.print r).bytes 0).length := by
    rw [Document.bytes, length_utf8]
    rfl
  have hprint : Response.form.print r = .object [("matches", .list (r.lines.map .string)),
      ("regexes", .list (r.patterns.map .string))] := rfl
  rw [hsize, hprint, Document.bytes_object]
  simp only [List.map_cons, List.map_nil, Document.bytes_member, List.length_cons,
    List.length_append, List.intercalate_cons_cons, List.intercalate_singleton, Nat.zero_add]
  omega

/-- A text of copies of a character that is written as it is. -/
theorem size_copies {c : Char} (hc : Json.writtenChar c = [c]) (k : Nat) :
    (utf8 (Json.writtenText (String.ofList (List.replicate k c)))).length = k * c.utf8Size + 2 := by
  have hchars : (List.replicate k c).flatMap Json.writtenChar = List.replicate k c := by
    induction k with
    | zero => rfl
    | succ k ih => rw [List.replicate_succ, List.flatMap_cons, ih, hc]; rfl
  rw [Json.utf8_writtenText, String.toList_ofList, hchars, List.length_cons, List.length_append,
    length_utf8Chars_replicate]
  rfl

/-- A request gives every line once, and the text before the lines once. -/
theorem size_leadRequest_le {c : Char} (hc : Json.writtenChar c = [c]) (n k : Nat) :
    (utf8 (leadRequest (List.replicate n "a") "a" (String.ofList (List.replicate k c))).compact).length
      ≤ 4 * n + k * c.utf8Size + 100 := by
  have hitems : ((Document.list ((List.replicate n "a").map .string)).bytes 1).length ≤
      4 * n + 2 := by
    have hle := length_intercalate_le
      (((List.replicate n "a").map Document.string).map (·.bytes 2))
    have ha : (utf8 (Json.writtenText "a")).length = 3 := by decide
    rw [List.map_replicate, List.map_replicate, List.map_replicate, Document.bytes_string, ha,
      List.sum_replicate_nat] at hle
    rw [Document.bytes_list, List.map_replicate, List.map_replicate, Document.bytes_string,
      List.length_cons, List.length_append, List.length_singleton]
    omega
  have hlead := size_copies hc k
  have hnames : (utf8 (Json.writtenText "items")).length + (utf8 (Json.writtenText "query")).length
      + (utf8 (Json.writtenText "options")).length
      + (utf8 (Json.writtenText "regex_line_prefix")).length = 42 := by decide
  have hquery : (utf8 (Json.writtenText "a")).length = 3 := by decide
  have hbytes : ∀ d : Document, utf8 d.compact = d.bytes 0 := fun _ => rfl
  rw [hbytes, leadRequest, Document.bytes_object]
  simp only [List.map_cons, List.map_nil, Document.bytes_member, Document.bytes_object,
    Document.bytes_string, List.length_cons, List.length_append, List.length_nil,
    List.intercalate_cons_cons, List.intercalate_singleton, Nat.zero_add]
  omega

end FuzzyPath
