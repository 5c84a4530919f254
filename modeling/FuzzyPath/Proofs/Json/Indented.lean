/-
  FuzzyPath — JSON on several lines is read back.

  Between the tokens of a document that is printed on several lines stands blank
  space, which a reader passes over.

  * `Document.indentedBytes` are the bytes of a document on several lines, and
    `indentedBytes_enclosed` the lines between two brackets;
  * `Json.ReadsIndented` says that a reader takes them for a value;
    `Reads.indented` carries this over from the same document on one line, if it
    looks the same there;
  * `RecordForm.readsIndented_object`: an object on several lines is read;
  * `RecordForm.readsBackIndented`: a record on several lines is read back.
-/
import FuzzyPath.Proofs.Json.Codecs
import FuzzyPath.Proofs.Json.Insertion

namespace FuzzyPath

open Json

/-! ## Bytes of documents -/

/-- The bytes of a document on several lines, at a depth. -/
def Document.indentedBytes (depth : Nat) (d : Document) : List UInt8 := utf8 (d .indented depth)

/-- The bytes of a new line, at a depth. -/
def lineBreak (depth : Nat) : List UInt8 := utf8 (Layout.indented.lineBreak depth)

theorem blank_lineBreak (depth : Nat) : Blank (lineBreak depth) := by
  intro b hb
  rw [lineBreak, Layout.lineBreak, utf8, String.toList_append] at hb
  obtain ⟨c, hc, hb⟩ := List.mem_flatMap.1 hb
  rcases List.mem_append.1 hc with hc | hc
  · obtain rfl : c = '\n' := by simpa using hc
    obtain rfl : b = 0x0a := List.mem_singleton.1 hb
    rfl
  · rw [String.toList_ofList] at hc
    obtain rfl := List.eq_of_mem_replicate hc
    obtain rfl : b = 0x20 := List.mem_singleton.1 hb
    rfl

namespace Document

/-- Between two brackets, each part has a line of its own. -/
theorem indentedBytes_enclosed (opening closing : String) {parts : List Document}
    (hparts : parts ≠ []) (depth : Nat) :
    (enclosed opening closing parts).indentedBytes depth =
      utf8 opening ++ listed true (parts.map
        fun part => lineBreak (depth + 1) ++ part.indentedBytes (depth + 1)) ++
      lineBreak depth ++ utf8 closing := by
  obtain ⟨part, parts, rfl⟩ := List.exists_cons_of_ne_nil hparts
  have hcomma : utf8 "," = [0x2c] := rfl
  rw [indentedBytes, enclosed.eq_2 _ _ _ _ _ hparts]
  simp only [utf8_append, utf8_intercalate, hcomma, List.map_cons, intercalate_cons_eq,
    listed_cons, separator]
  simp [lineBreak, indentedBytes, listed, List.flatMap_map, Function.comp_def]

theorem indentedBytes_member (name : String) (value : Document) (depth : Nat) :
    (member name value).indentedBytes depth =
      utf8 (writtenText name) ++ 0x3a :: 0x20 :: value.indentedBytes depth := by
  rw [indentedBytes, member, utf8_append, utf8_append, List.append_assoc]
  rfl

end Document

/-! ## Values -/

namespace Json

variable {α β : Type} {reader : JsonReader α} {d : Document} {value : α}

/-- A reader takes a document on several lines for `value`, at any depth, after blank
    space and before whatever may stand after a value. -/
def ReadsIndented (reader : JsonReader α) (d : Document) (value : α) : Prop :=
  ∀ depth w rest, Blank w → Stops rest →
    reader (w ++ (d.indentedBytes depth ++ rest)) = .ok (value, rest)

theorem ReadsIndented.map (h : ReadsIndented reader d value) (f : α → β) :
    ReadsIndented (f <$> reader) d (f value) := by
  intro depth w rest hw hrest
  change (reader (w ++ (d.indentedBytes depth ++ rest)) >>= fun p => pure (f p.1, p.2)) = _
  rw [h depth w rest hw hrest]
  rfl

/-- A document that looks the same under any layout is read under any. -/
theorem Reads.indented (h : Reads reader d value) (hreader : ValueReader reader)
    (hd : ∀ layout depth, d layout depth = d .compact 0) : ReadsIndented reader d value := by
  intro depth w rest hw hrest
  have hread := h.read 0 [] ends_nil
  obtain ⟨used, hused, -, hother⟩ := hreader.takes [] hread
  rw [hreader.blank hw, Document.indentedBytes, hd, ← Document.bytes]
  rw [List.append_nil, List.append_nil] at hused
  rw [hused]
  exact hother rest (.inr hrest)

theorem stops_listed {items : List (List UInt8)} {rest : List UInt8} (h : Stops rest) :
    Stops (listed false items ++ rest) := by
  cases items with
  | nil => exact h
  | cons item items =>
    intro b hb
    obtain rfl : b = 0x2c := by simpa [listed, eq_comm] using hb
    exact .inr (.inl rfl)

theorem isKey_line (name : String) (depth : Nat) :
    IsKey (lineBreak depth ++ utf8 (writtenText name)) name := by
  have hread := (reads_string name).read 0 [] ends_nil
  rw [List.append_nil, Document.bytes_string] at hread
  exact ((valueReader_string _).blank (blank_lineBreak depth) _).trans hread

end Json

/-! ## Objects -/

namespace RecordForm

variable {ρ : Type} {form : RecordForm ρ} {members : List (PrintedMember ρ)}

/-- The member is a field of a form, whose reader takes its value on several lines. -/
def IsIndentedField (form : RecordForm ρ) (m : PrintedMember ρ) : Prop :=
  ∃ field, form.field? m.name = some field ∧ ReadsIndented field.read m.value m.put

/-- A member on a line of its own. -/
def memberLine (depth : Nat) (m : PrintedMember ρ) : List UInt8 :=
  lineBreak depth ++ m.document.indentedBytes depth

theorem readMembers_lines (depth : Nat) {w : List UInt8} (hw : Blank w) (rest : List UInt8) :
    ∀ {members : List (PrintedMember ρ)} {first : Bool} {seen : List String} {record : ρ}
      {fuel : Nat}, (∀ m ∈ members, form.IsIndentedField m) →
      (members.map (·.name)).Nodup → (∀ m ∈ members, m.name ∉ seen) →
      (∀ field ∈ form.fields, field.required = true →
        field.name ∈ seen ∨ field.name ∈ members.map (·.name)) →
      members.length < fuel →
      form.readMembers first seen record fuel
          (listed first (members.map (memberLine depth)) ++ (w ++ 0x7d :: rest)) =
        .ok (members.foldl (fun r m => m.put r) record, rest)
  | [], first, seen, record, fuel + 1, _, _, _, hrequired, _ => by
    have hend : form.readMembers first seen record (fuel + 1) (0x7d :: rest) = .ok (record, rest) :=
      readMembers_end fun field hfield h => (hrequired field hfield h).resolve_right (by simp)
    rw [List.map_nil, listed_nil, List.nil_append, readMembers_blank hw, hend]
    rfl
  | m :: members, first, seen, record, fuel + 1, hfields, hnodup, hseen, hrequired, hfuel => by
    obtain ⟨⟨field, hfield, hreads⟩, hfields⟩ := List.forall_mem_cons.1 hfields
    obtain ⟨hmseen, hseen⟩ := List.forall_mem_cons.1 hseen
    obtain ⟨hnew, hnodup⟩ := List.nodup_cons.1 hnodup
    have hstops : Stops (listed false (members.map (memberLine depth)) ++ (w ++ 0x7d :: rest)) :=
      stops_listed (Delimited.stops_append hw ⟨0x7d, rest, rfl, .inr (.inr rfl)⟩)
    have hinput : listed first ((m :: members).map (memberLine depth)) ++ (w ++ 0x7d :: rest) =
        separator first ++ (lineBreak depth ++ utf8 (writtenText m.name)) ++
          (0x3a :: ([0x20] ++ (m.value.indentedBytes depth ++
            (listed false (members.map (memberLine depth)) ++ (w ++ 0x7d :: rest))))) := by
      rw [List.map_cons, listed_cons, memberLine, PrintedMember.document,
        Document.indentedBytes_member]
      simp only [List.append_assoc, List.cons_append, List.nil_append]
    rw [hinput, readMembers_field (isKey_line m.name depth) hfield, if_neg hmseen]
    refine (bind_of_ok (readColon_colon _)).trans ?_
    refine (bind_of_ok (hreads depth [0x20] _ (by simp [Blank, isBlank]) hstops)).trans ?_
    refine readMembers_lines depth hw rest hfields hnodup (fun other hother => ?_)
      (fun field hfield h => ?_) (Nat.lt_of_succ_lt_succ hfuel)
    · rw [List.mem_cons, not_or]
      exact ⟨fun heq => hnew (List.mem_map.2 ⟨other, hother, heq⟩), hseen other hother⟩
    · have := hrequired field hfield h
      rw [List.map_cons, List.mem_cons] at this
      rw [List.mem_cons]
      tauto

/-- An object on several lines is read if its members are fields, each of them once,
    and all required fields are among them. -/
theorem readsIndented_object (hfields : ∀ m ∈ members, form.IsIndentedField m)
    (hnodup : (members.map (·.name)).Nodup)
    (hrequired : ∀ field ∈ form.fields, field.required = true →
      field.name ∈ members.map (·.name)) :
    ReadsIndented form.read (.object (members.map fun m => (m.name, m.value)))
      (members.foldl (fun r m => m.put r) form.initial) := by
  intro depth w rest hw _
  have hobject : Document.object (members.map fun m => (m.name, m.value)) =
      Document.enclosed "\x7b" "\x7d" (members.map PrintedMember.document) := by
    rw [Document.object, List.map_map]
    rfl
  have hopen (more : List UInt8) : form.read (w ++ 0x7b :: more) =
      form.readMembers true [] form.initial (more.length + 1) more := by
    rw [read, skipBlank_token hw rfl]
    rfl
  rw [hobject]
  cases members with
  | nil =>
    have hbytes : (Document.enclosed "\x7b" "\x7d" []).indentedBytes depth = [0x7b, 0x7d] := by
      rw [Document.indentedBytes, Document.enclosed, utf8_append]
      rfl
    rw [List.map_nil, hbytes]
    refine (hopen (0x7d :: rest)).trans (readMembers_end fun field hfield h => ?_)
    exact absurd (hrequired field hfield h) (by simp)
  | cons m members =>
    have hbytes : (Document.enclosed "\x7b" "\x7d"
        ((m :: members).map PrintedMember.document)).indentedBytes depth ++ rest =
          0x7b :: (listed true ((m :: members).map (memberLine (depth + 1))) ++
            (lineBreak depth ++ 0x7d :: rest)) := by
      have hopening : utf8 "\x7b" = [0x7b] := rfl
      have hclosing : utf8 "\x7d" = [0x7d] := rfl
      rw [Document.indentedBytes_enclosed _ _ (by simp), List.map_map, hopening, hclosing]
      simp only [List.append_assoc, List.cons_append, List.nil_append]
      rfl
    rw [hbytes, hopen]
    refine readMembers_lines (depth + 1) (blank_lineBreak depth) rest hfields hnodup
      (fun _ _ => List.not_mem_nil) (fun field hfield h => .inr (hrequired field hfield h)) ?_
    have hlines := length_le_listed true ((m :: members).map (memberLine (depth + 1)))
    simp only [List.length_map, List.length_append, List.length_cons] at hlines ⊢
    omega

end RecordForm

/-! ## Records -/

variable {ρ α : Type}

/-- Each value is read back from the way it is printed on several lines. -/
def Codec.ReadsBackIndented (codec : Codec α) : Prop :=
  ∀ value, ReadsIndented codec.read (codec.print value) value

theorem Codec.ReadsBackIndented.decode_encode {codec : Codec α} (h : codec.ReadsBackIndented)
    (value : α) : codec.decode (utf8 (codec.encodeIndented value)) = .ok value := by
  have hread := h value 0 [] [] blank_nil (by simp [Stops])
  rw [List.nil_append, List.append_nil] at hread
  rw [Codec.decode, readDocument, Codec.encodeIndented, Document.indented, ← Document.indentedBytes,
    hread]
  rfl

/-- What looks the same under any layout is read back if it is from one line. -/
theorem Codec.ReadsBack.indented {codec : Codec α} (h : codec.ReadsBack)
    (hreader : ValueReader codec.read)
    (hprint : ∀ value layout depth, codec.print value layout depth = codec.print value .compact 0) :
    codec.ReadsBackIndented :=
  fun value => (h value).indented hreader (hprint value)

/-- Reading the field of a record that is printed on several lines puts it into another
    one by `put`. -/
def Field.KeepsIndented (field : Field ρ) (put : ρ → ρ → ρ) : Prop :=
  ∀ record, ReadsIndented field.read (field.print record) (put record)

theorem Codec.ReadsBackIndented.optional {codec : Codec α} {name : String} {get : ρ → α}
    {put : α → ρ → ρ} (h : codec.ReadsBackIndented) :
    (Field.optional name codec get put).KeepsIndented fun record => put (get record) :=
  fun record => (h (get record)).map put

/-- A record on several lines is read back if its fields together put back all of it. -/
theorem RecordForm.readsBackIndented {form : RecordForm ρ} {puts : List (ρ → ρ → ρ)}
    (h : List.Forall₂ Field.KeepsIndented form.fields puts) (hnodup : form.fieldNames.Nodup)
    (hputs : ∀ record, (puts.map (· record)).foldl (fun r put => put r) form.initial = record) :
    form.codec.ReadsBackIndented := by
  intro record
  obtain ⟨members, hprinted, hnames, hrecord, hmember⟩ := exists_printed h hnodup hputs record
  have hrequired : ∀ field ∈ form.fields, field.required = true →
      field.name ∈ members.map PrintedMember.name := by
    intro field hfield _
    rw [hnames]
    exact List.mem_map_of_mem hfield
  have hobject := readsIndented_object hmember (by rwa [hnames]) hrequired
  rw [hrecord, ← hprinted] at hobject
  exact hobject

end FuzzyPath
