/-
  FuzzyPath — records are read as whole values, one member after another.

  * `Spells` says which bytes are the key for a name, `IsKey` which end just with
    it; `nextKey_eq_ok` and `IsKey.nextKey` are the two directions of reading keys;
  * `listed` puts commas between items; `listed_cons` takes off the first;
  * `RecordForm.readMember` reads the value of a member, `RecordForm.finish` ends
    an object; `RecordForm.readMembers_strict` reads objects by them;
  * `RecordForm.Strict` forms refuse unknown keys, and their fields are whole
    values; `RecordForm.Strict.valueReader` : then so is the record.
-/
import FuzzyPath.Json.Record
import FuzzyPath.Proofs.Json.Values

namespace FuzzyPath

namespace Json

open Scan

variable {first : Bool} {key input rest : List UInt8} {name : String}

/-! ## Keys -/

/-- A string for `name`, with blank space around it. -/
def Spells (key : List UInt8) (name : String) : Prop := Codec.string.decode key = .ok name

/-- A string for `name`, with blank space in front of it. -/
def IsKey (key : List UInt8) (name : String) : Prop := readString key = .ok (name, [])

theorem readString_eq_ok (h : readString input = .ok (name, rest)) :
    ∃ w used, Blank w ∧ input = w ++ 0x22 :: used ++ rest ∧
      (∀ closing, (inText closing).through used = some (outside closing)) ∧
      ∀ other, readText (used ++ other) = .ok (name, other) := by
  obtain ⟨w, b, more, hw, -, rfl, htext⟩ := afterBlank_eq_ok h fun _ => rfl
  split at htext
  · rename_i hb
    obtain rfl : b = 0x22 := by simpa using hb
    obtain ⟨used, rfl, -, hother⟩ := local_readTextFrom [] [] htext
    refine ⟨w, used, hw, by simp, fun closing => ?_, fun other => hother other (.inr trivial)⟩
    obtain ⟨used', hinput, hused, -⟩ := local_readTextFrom closing [] htext
    rw [List.append_cancel_right hinput]
    exact hused
  · cases htext

theorem readString_of_readText {w used : List UInt8} (hw : Blank w)
    (h : readText used = .ok (name, rest)) : readString (w ++ 0x22 :: used) = .ok (name, rest) := by
  rw [readString, readStringAs, skipBlank_token hw rfl]
  exact h

/-- A string ends at its closing quote, and blank space may stand after it. -/
theorem Spells.exists_isKey (h : Spells key name) :
    ∃ key' gap, key = key' ++ gap ∧ IsKey key' name ∧ Blank gap := by
  obtain ⟨gap, hgap, hread⟩ := readDocument_eq_ok h
  obtain ⟨w, used, hw, rfl, -, hother⟩ := readString_eq_ok hread
  have htext := hother []
  rw [List.append_nil] at htext
  exact ⟨_, gap, rfl, readString_of_readText hw htext, hgap⟩

theorem IsKey.spells (h : IsKey key name) {gap : List UInt8} (hgap : Blank gap) :
    Spells (key ++ gap) name := by
  obtain ⟨w, used, hw, rfl, -, hother⟩ := readString_eq_ok h
  have hread : readString (w ++ 0x22 :: (used ++ gap)) = .ok (name, gap) :=
    readString_of_readText hw (hother gap)
  have hkey : w ++ 0x22 :: used ++ [] ++ gap = w ++ 0x22 :: (used ++ gap) := by simp
  rw [hkey]
  exact readDocument_of_read hread hgap

/-- A printed name is a key. -/
theorem spells_written (name : String) : Spells (utf8 (writtenText name)) name := by
  have h := (reads_string name).read 0 [] ends_nil
  rw [List.append_nil, Document.bytes_string] at h
  simpa using IsKey.spells h blank_nil

theorem IsKey.through (h : IsKey key name) (closing : List UInt8) :
    (outside closing).through key = some (outside closing) := by
  obtain ⟨w, used, hw, rfl, hthrough, -⟩ := readString_eq_ok h
  rw [List.append_nil]
  refine through_append_of (hw.through closing) ?_
  simpa [step, outside] using hthrough closing

/-- A key after the comma that belongs there is read. -/
theorem IsKey.nextKey (h : IsKey key name) {w : List UInt8} (hw : Blank w) (first : Bool)
    (more : List UInt8) :
    nextKey first (w ++ separator first ++ key ++ more) = .ok (some name, more) := by
  obtain ⟨w', used, hw', rfl, -, hother⟩ := readString_eq_ok h
  cases first with
  | true =>
    have hskip : skipBlank (w ++ separator true ++ (w' ++ 0x22 :: used ++ []) ++ more) =
        0x22 :: (used ++ more) := by
      simpa [separator] using skipBlank_token (hw.append hw') rfl (used ++ more)
    rw [Json.nextKey, hskip]
    simp [hother, Except.map]
  | false =>
    have hskip : skipBlank (w ++ separator false ++ (w' ++ 0x22 :: used ++ []) ++ more) =
        0x2c :: (w' ++ 0x22 :: (used ++ more)) := by
      simpa [separator] using skipBlank_token hw rfl (w' ++ 0x22 :: (used ++ more))
    have hskip' : skipBlank (w' ++ 0x22 :: (used ++ more)) = 0x22 :: (used ++ more) :=
      skipBlank_token hw' rfl _
    rw [Json.nextKey, hskip]
    simp [hskip', hother, Except.map]

/-- Where another key follows, it stands after a comma, unless it is the first; else
    the end of the object follows. -/
theorem nextKey_eq_ok {next : Option String} (h : nextKey first input = .ok (next, rest)) :
    ∃ w, Blank w ∧ ((next = none ∧ input = w ++ 0x7d :: rest) ∨
      ∃ name key, next = some name ∧ IsKey key name ∧
        input = w ++ separator first ++ key ++ rest) := by
  have hkey {w' after : List UInt8} (hw' : Blank w')
      (hread : (readText after).map (fun p => (some p.1, p.2)) = .ok (next, rest)) :
      ∃ name key, next = some name ∧ IsKey key name ∧ w' ++ 0x22 :: after = key ++ rest := by
    obtain ⟨⟨name, rest'⟩, htext, heq⟩ := map_eq_ok hread
    obtain ⟨rfl, rfl⟩ := Prod.mk.inj heq
    obtain ⟨w'', used, hw'', heq, -, hother⟩ := readString_eq_ok (readString_of_readText hw' htext)
    have htext := hother []
    rw [List.append_nil] at htext
    exact ⟨name, _, rfl, readString_of_readText hw'' htext, heq⟩
  obtain ⟨w, b, after, hw, -, rfl, hnext⟩ := afterBlank_eq_ok h fun _ => rfl
  refine ⟨w, hw, ?_⟩
  split at hnext
  · rename_i hb
    obtain ⟨rfl, rfl⟩ := Prod.mk.inj (Except.ok.inj hnext)
    obtain rfl : b = 0x7d := by simpa using hb
    exact .inl ⟨rfl, rfl⟩
  · right
    split at hnext
    · rename_i hfirst
      split at hnext
      · rename_i hb
        obtain rfl : b = 0x22 := by simpa using hb
        obtain ⟨name, key, rfl, hname, heq⟩ := hkey blank_nil hnext
        rw [List.nil_append] at heq
        exact ⟨name, key, rfl, hname, by simp [separator, hfirst, heq]⟩
      · cases hnext
    · rename_i hfirst
      split at hnext
      · rename_i hb
        obtain rfl : b = 0x2c := by simpa using hb
        cases hskip : skipBlank after with
        | nil =>
          rw [hskip] at hnext
          cases hnext
        | cons c after' =>
          obtain ⟨-, w', hw', rfl⟩ := skipBlank_eq_cons hskip
          rw [hskip] at hnext
          dsimp only at hnext
          split at hnext
          · rename_i hc
            obtain rfl : c = 0x22 := by simpa using hc
            obtain ⟨name, key, rfl, hname, heq⟩ := hkey hw' hnext
            exact ⟨name, key, rfl, hname, by simp [separator, hfirst, heq]⟩
          · split at hnext <;> cases hnext
      · cases hnext

theorem nextKey_bracket (first : Bool) {w : List UInt8} (hw : Blank w) (rest : List UInt8) :
    nextKey first (w ++ 0x7d :: rest) = .ok (none, rest) := by
  rw [nextKey, skipBlank_token hw rfl]
  rfl

theorem local_nextKey (first : Bool) (closing : List UInt8) :
    Local (nextKey first) (outside (0x7d :: closing))
      (fun next => if next.isSome then outside (0x7d :: closing) else outside closing)
      fun _ => True := by
  rintro input next rest h
  obtain ⟨w, hw, ⟨rfl, rfl⟩ | ⟨name, key, rfl, hkey, rfl⟩⟩ := nextKey_eq_ok h
  · refine ⟨w ++ [0x7d], by simp, through_append_of (hw.through _) rfl, fun other _ => ?_⟩
    rw [List.append_assoc]
    exact nextKey_bracket first hw other
  · exact ⟨w ++ separator first ++ key, rfl,
      through_append_of
        (through_append_of (hw.through _) (through_separator first _ closing)) (hkey.through _),
      fun other _ => hkey.nextKey hw first other⟩

/-! ## Items between commas -/

/-- Items with a comma in front of each, but not of the first. -/
def listed (first : Bool) (items : List (List UInt8)) : List UInt8 :=
  if first then [0x2c].intercalate items else items.flatMap (0x2c :: ·)

theorem listed_nil (first : Bool) : listed first [] = [] := by
  cases first <;> rfl

theorem listed_cons (first : Bool) (item : List UInt8) (items : List (List UInt8)) :
    listed first (item :: items) = separator first ++ item ++ listed false items := by
  cases first with
  | true => exact intercalate_comma item items
  | false => rfl

theorem listed_append (first : Bool) (items more : List (List UInt8)) :
    listed first (items ++ more) = listed first items ++ listed (first && items.isEmpty) more := by
  cases items with
  | nil => simp [listed_nil]
  | cons item items =>
    rw [List.cons_append, listed_cons, listed_cons]
    simp [listed]

theorem length_le_listed (first : Bool) (items : List (List UInt8)) :
    items.length ≤ (listed first items).length + 1 := by
  cases items with
  | nil => exact Nat.zero_le _
  | cons item items =>
    have := length_le_others items
    rw [listed_cons]
    simp only [listed, List.length_append, List.length_cons, Bool.false_eq_true, if_false] at this ⊢
    omega

theorem delimited_listed {items : List (List UInt8)} {tail : List UInt8}
    (h : items = [] → Delimited tail) : Delimited (listed false items ++ tail) := by
  cases items with
  | nil => exact h rfl
  | cons item items => exact ⟨0x2c, _, rfl, .inl rfl⟩

/-- An item after others begins with a comma. -/
theorem delimited_separator {before : List (List UInt8)} (hbefore : before ≠ [])
    (more : List UInt8) : Delimited (separator before.isEmpty ++ more) := by
  rw [List.isEmpty_eq_false_iff.2 hbefore]
  exact ⟨0x2c, more, rfl, .inl rfl⟩

end Json

/-! ## Objects -/

namespace RecordForm

open Json Scan

variable {ρ : Type} {form : RecordForm ρ} {first : Bool} {seen : List String} {record : ρ}
  {fuel : Nat} {name : String}

/-- The end of an object, whose members have been the fields `seen`. -/
def finish (form : RecordForm ρ) (seen : List String) (record : ρ) : JsonReader ρ :=
  match form.missing? seen with
  | some field => fail (.missingField field.name)
  | none => pure record

/-- What stands after the key `name` in an object where unknown keys are errors. -/
def readMember (form : RecordForm ρ) (seen : List String) (name : String) : JsonReader (ρ → ρ) :=
  match form.field? name with
  | some field =>
    if seen.contains name then failObject (.duplicateField name)
    else do
      readColon
      field.read
  | none => failObject (.unknownField name form.fieldNames)

theorem failObject_bind {α β : Type} (err : JsonError) (next : α → JsonReader β) :
    (failObject err >>= next) = failObject err := by
  funext input
  change (failObject err input >>= fun p => next p.1 p.2) = _
  rw [failObject, failObject]
  split <;> rfl

/-- A key that is a field is an error the second time; else its value is read. -/
theorem readMembers_field {key : List UInt8} (hkey : IsKey key name) {field : Field ρ}
    (hfield : form.field? name = some field) (rest : List UInt8) :
    form.readMembers first seen record (fuel + 1) (separator first ++ key ++ rest) =
      (if name ∈ seen then failObject (.duplicateField name) else do
        readColon
        let put ← field.read
        form.readMembers false (name :: seen) (put record) fuel) rest := by
  rw [readMembers]
  refine (bind_of_ok (hkey.nextKey blank_nil first rest)).trans ?_
  simp only [hfield, List.contains_iff_mem]
  split
  · rw [failObject_bind]
  · rfl

/-- Any other key is an error, or its value is passed over. -/
theorem readMembers_unknown {key : List UInt8} (hkey : IsKey key name)
    (hname : form.field? name = none) (rest : List UInt8) :
    form.readMembers first seen record (fuel + 1) (separator first ++ key ++ rest) =
      (if form.strict then failObject (.unknownField name form.fieldNames) else do
        readColon
        skipValue
        form.readMembers false seen record fuel) rest := by
  rw [readMembers]
  refine (bind_of_ok (hkey.nextKey blank_nil first rest)).trans ?_
  simp only [hname]
  split
  · rw [failObject_bind]
  · rfl

/-- Unknown keys apart, objects are read one member after another. -/
theorem readMembers_strict (h : form.strict = true) (first : Bool) (seen : List String)
    (record : ρ) (fuel : Nat) :
    form.readMembers first seen record (fuel + 1) = (do
      match ← nextKey first with
      | none => form.finish seen record
      | some name =>
        let put ← form.readMember seen name
        form.readMembers false (name :: seen) (put record) fuel) := by
  rw [readMembers]
  congr 1
  funext next
  cases next with
  | none => rfl
  | some name =>
    dsimp only
    rw [readMember]
    cases form.field? name with
    | none => simp only [h, if_true, failObject_bind]
    | some field =>
      dsimp only
      split <;> simp [failObject_bind]

/-- Unknown keys are errors, and what the fields are read from are whole values. -/
structure Strict (form : RecordForm ρ) : Prop where
  strict : form.strict = true
  fields : ∀ field ∈ form.fields, ValueReader field.read

theorem mem_of_field? {field : Field ρ} (h : form.field? name = some field) :
    field ∈ form.fields ∧ field.name = name :=
  ⟨List.mem_of_find?_eq_some h, by simpa using List.find?_some h⟩

theorem failObject_ne_ok {α : Type} {err : JsonError} {input : List UInt8}
    {x : α × List UInt8} : (failObject err : JsonReader α) input ≠ .ok x := by
  rw [failObject]
  split <;> simp

/-- Nothing is read where there is only an error. -/
theorem valueReader_failObject {α : Type} (err : JsonError) :
    ValueReader (failObject err : JsonReader α) where
  takes _ _ _ _ hread := absurd hread failObject_ne_ok
  eats _ _ _ hread := absurd hread failObject_ne_ok
  blank w hw input := by rw [failObject, skipBlank_append hw, ← failObject]

theorem readColon_blank {w : List UInt8} (hw : Blank w) (input : List UInt8) :
    readColon (w ++ input) = readColon input := by
  rw [readColon, skipBlank_append hw, ← readColon]

namespace Strict

variable (h : form.Strict)
include h

/-- A colon and a value. -/
theorem valueReader_readMember (seen : List String) (name : String) :
    ValueReader (form.readMember seen name) := by
  rw [readMember]
  cases hfield : form.field? name with
  | none => exact valueReader_failObject _
  | some field =>
    have hvalue := h.fields field (mem_of_field? hfield).1
    dsimp only
    split
    · exact valueReader_failObject _
    · refine ⟨fun closing => .bind (local_readColon closing) (fun _ => hvalue.takes closing)
        fun _ _ _ => .inr trivial, fun input put rest hread => ?_,
        fun w hw input => readBind_blank (readColon_blank hw input)⟩
      obtain ⟨_, mid, hcolon, hread⟩ := readBind_eq_ok hread
      exact Nat.lt_of_lt_of_le (hvalue.eats hread) ((local_readColon []).length_le hcolon)

theorem local_readMembers (closing : List UInt8) : ∀ (fuel : Nat) (first : Bool)
    (seen : List String) (record : ρ), Local (form.readMembers first seen record fuel)
      (outside (0x7d :: closing)) (fun _ => outside closing) fun _ => True
  | 0, first, seen, record => .fail _
  | fuel + 1, first, seen, record => by
    have hne : outside (0x7d :: closing) ≠ outside closing := by simp [outside]
    rw [readMembers_strict h.strict]
    refine .bind (local_nextKey first closing) (fun next => ?_) fun _ _ _ => .inr trivial
    cases next with
    | none =>
      dsimp only [finish]
      cases form.missing? seen with
      | some field => exact .fail _
      | none => exact .pure _ _ _
    | some name =>
      exact .bind ((h.valueReader_readMember seen name).takes _)
        (fun put => local_readMembers closing fuel false (name :: seen) (put record))
        fun _ _ _ => .inl hne

/-- More fuel than bytes is enough. -/
theorem readMembers_fuel : ∀ {fuel fuel' : Nat} {first : Bool} {seen : List String} {record : ρ}
    {input : List UInt8}, input.length < fuel → input.length < fuel' →
      form.readMembers first seen record fuel input = form.readMembers first seen record fuel' input
  | fuel + 1, fuel' + 1, first, seen, record, input, hlt, hlt' => by
    rw [readMembers_strict h.strict, readMembers_strict h.strict]
    refine readBind_congr fun next mid hnext => ?_
    have hmid := (local_nextKey first []).length_le hnext
    cases next with
    | none => rfl
    | some name =>
      refine readBind_congr fun put rest hput => ?_
      have hrest := (h.valueReader_readMember seen name).eats hput
      exact readMembers_fuel (by omega) (by omega)

theorem local_readInOrder (closing : List UInt8) : ∀ (index : Nat) (record : ρ)
    {fields : List (Field ρ)}, (∀ field ∈ fields, field ∈ form.fields) →
      Local (form.readInOrder index record fields) (outside (0x5d :: closing))
        (fun _ => outside closing) fun _ => True
  | index, record, [], _ => .bind (local_endList closing) (fun _ => .pure _ _ _)
    fun _ _ _ => .inr trivial
  | index, record, field :: fields, hfields => by
    have hne : outside (0x5d :: closing) ≠ outside closing := by simp [outside]
    obtain ⟨hfield, hfields⟩ := List.forall_mem_cons.1 hfields
    refine .bind (local_nextElement _ closing) (fun more => ?_) fun _ _ _ => .inl hne
    cases more with
    | true =>
      exact .bind ((h.fields field hfield).takes _)
        (fun put => local_readInOrder closing (index + 1) (put record) hfields)
        fun _ _ _ => .inl hne
    | false =>
      rw [if_neg Bool.false_ne_true]
      split
      · exact .bind (local_endList closing) (fun _ => .fail _) fun _ _ _ => .inr trivial
      · exact local_readInOrder closing (index + 1) record hfields

theorem valueReader : ValueReader form.read := by
  refine .afterBlank (fun _ => rfl) fun closing b rest x rest' hread => ?_
  split at hread
  · rename_i hb
    obtain rfl : b = 0x5b := by simpa using hb
    have hlocal := h.local_readInOrder closing 0 form.initial fun _ => id
    exact ⟨outside (0x5d :: closing), rfl, hlocal.weaken hread⟩
  · split at hread
    · rename_i hb
      obtain rfl : b = 0x7b := by simpa using hb
      have hlocal := Local.ofFuel (h.local_readMembers closing · true [] form.initial)
        h.readMembers_fuel
      exact ⟨outside (0x7d :: closing), rfl, hlocal.weaken hread⟩
    · cases hread

end Strict

end RecordForm

end FuzzyPath
