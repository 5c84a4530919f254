/-
  FuzzyPath — printed JSON is read back.

  Values are printed on one line, without blank space, so what stands after one
  is a comma, a closing bracket, or nothing.

  * `Document.bytes` are the bytes of a document on one line; `bytes_list` and
    `bytes_object` tell what they are, and `sum_le_length_texts` how many at
    least;
  * `Json.Reads` says that a reader takes a document for a value, whatever may
    stand after it;
  * `reads_string`, `reads_list` and `RecordForm.reads_object` are the documents
    of each form: an object is read if its members are fields, each of them once,
    and all required fields are there;
  * `Codec.decode_of_reads`: what is read to the end is decoded.
-/
import FuzzyPath.Json.Record
import FuzzyPath.Proofs.Json.Text
import Mathlib.Algebra.GroupWithZero.Nat
import Mathlib.Algebra.Order.BigOperators.Group.List
import Mathlib.Algebra.Order.Group.Nat

namespace FuzzyPath

/-! ## Bytes of documents -/

/-- The bytes of a document on one line, at a depth. -/
def Document.bytes (depth : Nat) (d : Document) : List UInt8 := utf8 (d .compact depth)

theorem utf8_intercalate (separator : String) (parts : List String) :
    utf8 (separator.intercalate parts) = (utf8 separator).intercalate (parts.map utf8) := by
  induction parts with
  | nil => simp [utf8]
  | cons part parts ih =>
    cases parts with
    | nil => simp
    | cons next parts =>
      simp only [String.intercalate_cons_cons, utf8_append, ih, List.map_cons,
        List.intercalate_cons_cons]

namespace Json

theorem utf8_writtenText (text : String) : utf8 (writtenText text) =
    0x22 :: (utf8Chars (text.toList.flatMap writtenChar) ++ [0x22]) := by
  rw [writtenText, utf8_append, utf8_append, utf8_ofList (text.toList.flatMap writtenChar)]
  rfl

end Json

namespace Document

theorem bytes_string (text : String) (depth : Nat) :
    (string text).bytes depth = utf8 (Json.writtenText text) := rfl

theorem bytes_enclosed (opening closing : String) (parts : List Document) (depth : Nat) :
    (enclosed opening closing parts).bytes depth =
      utf8 opening ++ [0x2c].intercalate (parts.map (·.bytes (depth + 1))) ++ utf8 closing := by
  rw [bytes]
  cases parts with
  | nil => simp [enclosed, utf8_append]
  | cons part parts =>
    have hcomma : utf8 "," = [0x2c] := rfl
    simp [enclosed, Layout.lineBreak, utf8_append, utf8_intercalate, hcomma, Function.comp_def]
    rfl

theorem bytes_list (values : List Document) (depth : Nat) :
    (list values).bytes depth =
      0x5b :: ([0x2c].intercalate (values.map (·.bytes (depth + 1))) ++ [0x5d]) :=
  bytes_enclosed "[" "]" values depth

theorem bytes_member (name : String) (value : Document) (depth : Nat) :
    (member name value).bytes depth =
      utf8 (Json.writtenText name) ++ 0x3a :: value.bytes depth := by
  rw [bytes, member, utf8_append, utf8_append, List.append_assoc]
  rfl

theorem bytes_object (members : List (String × Document)) (depth : Nat) :
    (object members).bytes depth =
      0x7b :: ([0x2c].intercalate
        ((members.map fun (name, value) => member name value).map (·.bytes (depth + 1))) ++ [0x7d]) :=
  bytes_enclosed "\x7b" "\x7d" _ depth

end Document

/-! ## Reading before other text -/

namespace Json

/-- A comma, a closing bracket or nothing: what may stand after a value. -/
def Ends (rest : List UInt8) : Prop := ∀ b ∈ rest.head?, b = 0x2c ∨ b = 0x5d ∨ b = 0x7d

theorem ends_nil : Ends [] := by simp [Ends]

/-- Each of some values is followed by a comma or the bracket after them. -/
theorem ends_others {closing : UInt8} (h : closing = 0x5d ∨ closing = 0x7d)
    (others : List (List UInt8)) (rest : List UInt8) :
    Ends (others.flatMap (0x2c :: ·) ++ closing :: rest) := by
  cases others with
  | nil => rcases h with rfl | rfl <;> simp [Ends]
  | cons next others => simp [Ends]

/-- A value begins with some byte other than blank space and the end of a list. -/
def StartsValue (bytes : List UInt8) : Prop :=
  ∃ b rest, bytes = b :: rest ∧ isBlank b = false ∧ b ≠ 0x5d

/-- A reader takes a document for `value`, at any depth and whatever may stand
    after it. -/
structure Reads {α : Type} (reader : JsonReader α) (d : Document) (value : α) : Prop where
  starts : ∀ depth, StartsValue (d.bytes depth)
  read : ∀ depth rest, Ends rest → reader (d.bytes depth ++ rest) = .ok (value, rest)

theorem bind_of_ok {α β : Type} {reader : JsonReader α} {next : α → JsonReader β}
    {input rest : List UInt8} {a : α} (h : reader input = .ok (a, rest)) :
    (reader >>= next) input = next a rest := by
  change (reader input >>= fun p => next p.1 p.2) = _
  rw [h]
  rfl

/-- A reader whose result is put to some use reads the same documents. -/
theorem Reads.map {α β : Type} {reader : JsonReader α} {d : Document} {value : α}
    (h : Reads reader d value) (f : α → β) : Reads (f <$> reader) d (f value) where
  starts := h.starts
  read depth rest hrest := by
    change (reader (d.bytes depth ++ rest) >>= fun p => pure (f p.1, p.2)) = _
    rw [h.read depth rest hrest]
    rfl

theorem skipBlank_cons {b : UInt8} (h : isBlank b = false) (rest : List UInt8) :
    skipBlank (b :: rest) = b :: rest := List.dropWhile_cons_of_neg (by simp [h])

/-! ## Strings -/

theorem reads_stringAs (expected text : String) :
    Reads (readStringAs expected) (.string text) text where
  starts depth := ⟨_, _, utf8_writtenText text, rfl, by decide⟩
  read depth rest _ := by
    rw [Document.bytes_string, utf8_writtenText, readStringAs, List.cons_append,
      skipBlank_cons rfl]
    simpa using readText_written text rest

theorem reads_string (text : String) : Reads readString (.string text) text :=
  reads_stringAs "a string" text

/-! ## Lists -/

/-- A separator stands in front of each part but the first. -/
theorem intercalate_cons_eq {α : Type} (separator first : List α) (others : List (List α)) :
    separator.intercalate (first :: others) = first ++ others.flatMap (separator ++ ·) := by
  induction others generalizing first with
  | nil => simp
  | cons next others ih => rw [List.intercalate_cons_cons, ih]; simp

/-- Values with commas between them. -/
theorem intercalate_comma (first : List UInt8) (others : List (List UInt8)) :
    [0x2c].intercalate (first :: others) = first ++ others.flatMap (0x2c :: ·) :=
  intercalate_cons_eq [0x2c] first others

theorem length_le_others (others : List (List UInt8)) :
    others.length ≤ (others.flatMap (0x2c :: ·)).length := by
  induction others with
  | nil => exact Nat.le_refl 0
  | cons next others ih =>
    rw [List.flatMap_cons, List.length_append, List.length_cons, List.length_cons]
    omega

theorem nextElement_end (first : Bool) (rest : List UInt8) :
    nextElement first (0x5d :: rest) = .ok (false, 0x5d :: rest) := rfl

theorem nextElement_first {bytes : List UInt8} (h : StartsValue bytes) (rest : List UInt8) :
    nextElement true (bytes ++ rest) = .ok (true, bytes ++ rest) := by
  obtain ⟨b, more, rfl, hblank, hend⟩ := h
  rw [nextElement, List.cons_append, skipBlank_cons hblank]
  simp [hend]

theorem nextElement_comma {bytes : List UInt8} (h : StartsValue bytes) (rest : List UInt8) :
    nextElement false (0x2c :: (bytes ++ rest)) = .ok (true, bytes ++ rest) := by
  obtain ⟨b, more, rfl, hblank, hend⟩ := h
  rw [nextElement, skipBlank_cons rfl]
  simp [skipBlank_cons hblank, hend]

theorem endList_end (rest : List UInt8) : endList (0x5d :: rest) = .ok ((), rest) := rfl

section
variable {α : Type} {element : JsonReader α}

/-- The elements of a list, of which some have been read, and its end. -/
theorem readElements_others {others : List Document} {values : List α}
    (h : List.Forall₂ (Reads element) others values) (depth : Nat) (rest : List UInt8) :
    ∀ {done : List α} {fuel : Nat}, done ≠ [] → others.length < fuel →
      readElements element done fuel
          ((others.map (·.bytes depth)).flatMap (0x2c :: ·) ++ 0x5d :: rest) =
        .ok (done.reverse ++ values, rest) := by
  induction h with
  | nil =>
    intro done fuel hdone hfuel
    obtain ⟨fuel, rfl⟩ := Nat.exists_eq_add_one.2 hfuel
    rw [readElements, List.map_nil, List.flatMap_nil, List.nil_append, List.append_nil]
    exact (bind_of_ok (nextElement_end _ rest)).trans (bind_of_ok (endList_end rest))
  | @cons d value others values hread hothers ih =>
    intro done fuel hdone hfuel
    obtain ⟨fuel, rfl⟩ := Nat.exists_eq_add_one.2 (Nat.zero_lt_of_lt hfuel)
    have hends := ends_others (.inl rfl) (others.map (·.bytes depth)) rest
    rw [readElements, List.isEmpty_eq_false_iff.2 hdone, List.map_cons, List.flatMap_cons,
      List.cons_append, List.cons_append, List.append_assoc]
    refine (bind_of_ok (nextElement_comma (hread.starts depth) _)).trans ?_
    refine (bind_of_ok (hread.read depth _ hends)).trans ?_
    rw [ih (List.cons_ne_nil value done) (Nat.lt_of_succ_lt_succ hfuel), List.reverse_cons,
      List.append_assoc, List.singleton_append]

/-- A list is read if its elements are. -/
theorem reads_list {parts : List Document} {values : List α}
    (h : List.Forall₂ (Reads element) parts values) :
    Reads (readList element) (.list parts) values where
  starts depth := ⟨_, _, Document.bytes_list parts depth, rfl, by decide⟩
  read depth rest _ := by
    rw [Document.bytes_list, readList, List.cons_append, skipBlank_cons rfl, List.append_assoc,
      List.singleton_append]
    cases h with
    | nil => exact (bind_of_ok (nextElement_end _ rest)).trans (bind_of_ok (endList_end rest))
    | @cons d value others values hread hothers =>
      have hends := ends_others (.inl rfl) (others.map (·.bytes (depth + 1))) rest
      rw [List.map_cons, intercalate_comma, List.append_assoc]
      refine (bind_of_ok (nextElement_first (hread.starts _) _)).trans ?_
      refine (bind_of_ok (hread.read _ _ hends)).trans ?_
      refine readElements_others hothers (depth + 1) rest (List.cons_ne_nil value []) ?_
      have := length_le_others (others.map (·.bytes (depth + 1)))
      simp only [List.length_map, List.length_append, List.length_cons] at this ⊢
      omega

end

theorem reads_texts (texts : List String) :
    Reads (readList readString) (.list (texts.map .string)) texts :=
  reads_list (List.forall₂_map_left_iff.2 (List.forall₂_same.2 fun t _ => reads_string t))

/-! ## Objects -/

theorem readColon_colon (rest : List UInt8) : readColon (0x3a :: rest) = .ok ((), rest) := rfl

theorem nextKey_end (first : Bool) (rest : List UInt8) :
    nextKey first (0x7d :: rest) = .ok (none, rest) := rfl

theorem nextKey_first (name : String) (rest : List UInt8) :
    nextKey true (utf8 (writtenText name) ++ rest) = .ok (some name, rest) := by
  rw [utf8_writtenText, nextKey, List.cons_append, skipBlank_cons rfl]
  simp [readText_written, Except.map]

theorem nextKey_comma (name : String) (rest : List UInt8) :
    nextKey false (0x2c :: (utf8 (writtenText name) ++ rest)) = .ok (some name, rest) := by
  have hquote : isBlank 0x22 = false := rfl
  rw [utf8_writtenText, nextKey, skipBlank_cons rfl]
  simp [skipBlank_cons hquote, readText_written, Except.map]

end Json

/-- A member of a printed object: its name, its value, and what reading it does to
    a record. -/
structure PrintedMember (ρ : Type) where
  name : String
  value : Document
  put : ρ → ρ

namespace PrintedMember

variable {ρ : Type}

def document (m : PrintedMember ρ) : Document := .member m.name m.value

/-- The member is a field of a form, whose reader takes its value. -/
def IsField (form : RecordForm ρ) (m : PrintedMember ρ) : Prop :=
  ∃ field, form.field? m.name = some field ∧ Json.Reads field.read m.value m.put

end PrintedMember

namespace RecordForm

open Json

variable {ρ : Type} {form : RecordForm ρ} {m : PrintedMember ρ} {first : Bool}
  {seen : List String} {record : ρ} {fuel depth : Nat} {input rest : List UInt8}

/-- One member is read, of a field that has not been read yet. -/
theorem readMembers_member (hm : m.IsField form) (hseen : m.name ∉ seen)
    (hkey : nextKey first input = .ok (some m.name, 0x3a :: (m.value.bytes depth ++ rest)))
    (hends : Ends rest) :
    form.readMembers first seen record (fuel + 1) input =
      form.readMembers false (m.name :: seen) (m.put record) fuel rest := by
  obtain ⟨field, hfield, hreads⟩ := hm
  have hnew : seen.contains m.name = false := by simpa using hseen
  rw [readMembers]
  refine (bind_of_ok hkey).trans ?_
  simp only [hfield, hnew]
  refine (bind_of_ok (readColon_colon _)).trans ?_
  exact bind_of_ok (hreads.read depth rest hends)

/-- The end of an object from which all required fields have been read. -/
theorem readMembers_end
    (hrequired : ∀ field ∈ form.fields, field.required = true → field.name ∈ seen) :
    form.readMembers first seen record (fuel + 1) (0x7d :: rest) = .ok (record, rest) := by
  have hmissing : form.missing? seen = none := by
    rw [missing?, List.find?_eq_none]
    intro field hfield
    have := hrequired field hfield
    simpa using this
  rw [readMembers]
  refine (bind_of_ok (nextKey_end first rest)).trans ?_
  simp only [hmissing]
  rfl

/-- The members of an object after some others, and its end. -/
theorem readMembers_others {others : List (PrintedMember ρ)} (depth : Nat) (rest : List UInt8) :
    ∀ {seen : List String} {record : ρ} {fuel : Nat}, (∀ m ∈ others, m.IsField form) →
      (others.map (·.name)).Nodup → (∀ m ∈ others, m.name ∉ seen) →
      (∀ field ∈ form.fields, field.required = true →
        field.name ∈ seen ∨ field.name ∈ others.map (·.name)) →
      others.length < fuel →
      form.readMembers false seen record fuel
          ((others.map (·.document.bytes depth)).flatMap (0x2c :: ·) ++ 0x7d :: rest) =
        .ok (others.foldl (fun r m => m.put r) record, rest) := by
  induction others with
  | nil =>
    intro seen record fuel _ _ _ hrequired hfuel
    obtain ⟨fuel, rfl⟩ := Nat.exists_eq_add_one.2 hfuel
    exact readMembers_end fun field hfield h => (hrequired field hfield h).resolve_right (by simp)
  | cons m others ih =>
    intro seen record fuel hfields hnodup hseen hrequired hfuel
    obtain ⟨fuel, rfl⟩ := Nat.exists_eq_add_one.2 (Nat.zero_lt_of_lt hfuel)
    obtain ⟨hm, hfields⟩ := List.forall_mem_cons.1 hfields
    obtain ⟨hmseen, hseen⟩ := List.forall_mem_cons.1 hseen
    obtain ⟨hnew, hnodup⟩ := List.nodup_cons.1 hnodup
    have hends := ends_others (.inr rfl) (others.map (·.document.bytes depth)) rest
    rw [List.map_cons, List.flatMap_cons, List.cons_append, List.cons_append, List.append_assoc,
      PrintedMember.document, Document.bytes_member, List.append_assoc]
    refine (readMembers_member hm hmseen (nextKey_comma m.name _) hends).trans ?_
    refine ih hfields hnodup (fun other hother => ?_) (fun field hfield h => ?_)
      (Nat.lt_of_succ_lt_succ hfuel)
    · rw [List.mem_cons, not_or]
      exact ⟨fun heq => hnew (List.mem_map.2 ⟨other, hother, heq⟩), hseen other hother⟩
    · have := hrequired field hfield h
      rw [List.map_cons, List.mem_cons] at this
      rw [List.mem_cons]
      tauto

/-- An object is read if its members are fields, each of them once, and all
    required fields are among them. -/
theorem reads_object {members : List (PrintedMember ρ)} (hfields : ∀ m ∈ members, m.IsField form)
    (hnodup : (members.map (·.name)).Nodup)
    (hrequired : ∀ field ∈ form.fields, field.required = true →
      field.name ∈ members.map (·.name)) :
    Reads form.read (.object (members.map fun m => (m.name, m.value)))
      (members.foldl (fun r m => m.put r) form.initial) := by
  have hbytes (depth : Nat) :
      (Document.object (members.map fun m => (m.name, m.value))).bytes depth =
        0x7b :: ([0x2c].intercalate (members.map (·.document.bytes (depth + 1))) ++ [0x7d]) := by
    simp only [Document.bytes_object, List.map_map, Function.comp_def, PrintedMember.document]
  refine ⟨fun depth => ⟨_, _, hbytes depth, rfl, by decide⟩, fun depth rest _ => ?_⟩
  rw [hbytes, read, List.cons_append, skipBlank_cons rfl, List.append_assoc, List.singleton_append]
  cases members with
  | nil => exact readMembers_end hrequired
  | cons m others =>
    obtain ⟨hm, hfields⟩ := List.forall_mem_cons.1 hfields
    obtain ⟨hnew, hnodup⟩ := List.nodup_cons.1 hnodup
    have hends := ends_others (.inr rfl) (others.map (·.document.bytes (depth + 1))) rest
    rw [List.map_cons, intercalate_comma, List.append_assoc, PrintedMember.document,
      Document.bytes_member, List.append_assoc]
    refine (readMembers_member hm List.not_mem_nil (nextKey_first m.name _) hends).trans ?_
    refine readMembers_others (depth + 1) rest hfields hnodup (fun other hother => ?_)
      (fun field hfield h => ?_) ?_
    · rw [List.mem_singleton]
      exact fun heq => hnew (List.mem_map.2 ⟨other, hother, heq⟩)
    · simpa using hrequired field hfield h
    · have := length_le_others (others.map (·.document.bytes (depth + 1)))
      simp only [List.length_map, List.length_append, List.length_cons] at this ⊢
      omega

end RecordForm

/-- A document that is the whole input is decoded. -/
theorem Codec.decode_of_reads {α : Type} {codec : Codec α} {d : Document} {value : α}
    (h : Json.Reads codec.read d value) : codec.decode (utf8 d.compact) = .ok value := by
  have hread := h.read 0 [] Json.ends_nil
  rw [List.append_nil] at hread
  rw [Codec.decode, Json.readDocument, Document.compact]
  rw [Document.bytes] at hread
  rw [hread]
  rfl

/-! ## Sizes -/

/-- No character gets shorter by the way it is written. -/
theorem utf8Size_le_writtenChar (c : Char) :
    c.utf8Size ≤ (utf8Chars (Json.writtenChar c)).length := by
  rw [Json.writtenChar.eq_def]
  split
  · decide
  · decide
  · decide
  · decide
  · decide
  · decide
  · decide
  · split
    · rename_i hcontrol
      have hsize : c.utf8Size = 1 :=
        Char.utf8Size_eq_one_iff.2 (UInt32.le_of_lt (UInt32.lt_trans hcontrol (by decide)))
      have := Char.utf8Size_pos '\\'
      rw [hsize, Json.controlEscape, length_utf8Chars_cons]
      omega
    · rw [length_utf8Chars_cons]
      exact Nat.le_add_right _ _

theorem size_le_writtenText (text : String) :
    text.utf8ByteSize ≤ (utf8 (Json.writtenText text)).length := by
  have := length_utf8Chars_le_flatMap utf8Size_le_writtenChar text.toList
  rw [length_utf8Chars_toList] at this
  rw [Json.utf8_writtenText, List.length_cons, List.length_append]
  omega

theorem length_intercalate_comma (first : List UInt8) (others : List (List UInt8)) :
    ([0x2c].intercalate (first :: others)).length =
      first.length + (others.map (·.length + 1)).sum := by
  rw [Json.intercalate_comma, List.length_append, List.length_flatMap]
  rfl

theorem sum_le_length_intercalate (parts : List (List UInt8)) :
    (parts.map List.length).sum ≤ ([0x2c].intercalate parts).length := by
  cases parts with
  | nil => exact Nat.le_refl 0
  | cons first others =>
    rw [length_intercalate_comma, List.map_cons, List.sum_cons]
    exact Nat.add_le_add_left (List.sum_le_sum fun part _ => Nat.le_succ part.length) _

theorem length_intercalate_le (parts : List (List UInt8)) :
    ([0x2c].intercalate parts).length ≤ (parts.map (·.length + 1)).sum := by
  cases parts with
  | nil => exact Nat.le_refl 0
  | cons first others =>
    rw [length_intercalate_comma, List.map_cons, List.sum_cons]
    exact Nat.add_le_add_right (Nat.le_succ _) _

/-- A list of texts is printed with at least as many bytes as the texts have. -/
theorem sum_le_length_texts (texts : List String) (depth : Nat) :
    (texts.map String.utf8ByteSize).sum ≤
      ((Document.list (texts.map .string)).bytes depth).length := by
  rw [Document.bytes_list, List.length_cons, List.length_append]
  calc (texts.map String.utf8ByteSize).sum
      ≤ (texts.map fun t => (utf8 (Json.writtenText t)).length).sum :=
        List.sum_le_sum fun t _ => size_le_writtenText t
    _ = (((texts.map Document.string).map (·.bytes (depth + 1))).map List.length).sum := by
        simp only [List.map_map, Function.comp_def, Document.bytes_string]
    _ ≤ ([0x2c].intercalate ((texts.map Document.string).map (·.bytes (depth + 1)))).length :=
        sum_le_length_intercalate _
    _ ≤ _ := Nat.le_succ_of_le (Nat.le_add_right _ _)

end FuzzyPath
