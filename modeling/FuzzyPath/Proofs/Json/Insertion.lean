/-
  FuzzyPath — what is put into a text that can be read.

  * `IsMember` and `IsElement` are the items of objects and lists as they are
    written, `RecordForm.LeadsTo` what stands before the value of a field;
  * `Strict.readMembers_skim` and `Strict.readInOrder_skim`: what has been read
    without an error is read in the same way in front of anything else;
  * `Strict.read_of_unknown`: a key that is no field is the error of any object
    into which it is put after members that can be read;
  * `Strict.read_of_field`: the error of a field's value is that of the record.
-/
import FuzzyPath.Proofs.Json.Members

namespace FuzzyPath

namespace Json

/-! ## Items as they are written -/

/-- A member of an object: a key, a colon and a value. -/
def IsMember (item : List UInt8) : Prop :=
  ∃ key value name, item = key ++ 0x3a :: value ∧ Spells key name ∧ Balanced value

/-- A member of an object with the key `name`. -/
def IsMemberOf (name : String) (item : List UInt8) : Prop :=
  ∃ key value, item = key ++ 0x3a :: value ∧ Spells key name ∧ Balanced value

/-- An element of a list: a value, which cannot be missing. -/
def IsElement (item : List UInt8) : Prop := Balanced item ∧ ∃ b ∈ item, isBlank b = false

/-- An object as it is written: blank space, and items with commas between them. -/
def objectText (inner : List UInt8) (items : List (List UInt8)) : List UInt8 :=
  0x7b :: (inner ++ ([0x2c].intercalate items ++ [0x7d]))

/-- A text begins with an object that has the key `name`, after members that are
    complete. -/
def HasKey (name : String) (text : List UInt8) : Prop :=
  ∃ inner before key rest,
    text = 0x7b :: (inner ++ ([0x2c].intercalate (before ++ [key]) ++ rest)) ∧
    Blank inner ∧ (∀ item ∈ before, IsMember item) ∧ Spells key name

theorem Blank.balanced {w : List UInt8} (h : Blank w) : Balanced w := h.through []

theorem isMember_iff {item : List UInt8} : IsMember item ↔ ∃ name, IsMemberOf name item :=
  ⟨fun ⟨key, value, name, h⟩ => ⟨name, key, value, h⟩,
    fun ⟨name, key, value, h⟩ => ⟨key, value, name, h⟩⟩

theorem IsMemberOf.exists_isKey {name : String} {item : List UInt8} (h : IsMemberOf name item) :
    ∃ key more, item = key ++ more ∧ IsKey key name ∧ Balanced more := by
  obtain ⟨key, value, rfl, hkey, hvalue⟩ := h
  obtain ⟨key, gap, rfl, hkey, hgap⟩ := hkey.exists_isKey
  have hcolon : Balanced [0x3a] := by decide
  exact ⟨key, gap ++ 0x3a :: value, by simp, hkey, hgap.balanced.append (hcolon.append hvalue)⟩

theorem IsMember.exists_isKey {item : List UInt8} (h : IsMember item) :
    ∃ key more name, item = key ++ more ∧ IsKey key name ∧ Balanced more := by
  obtain ⟨name, hname⟩ := isMember_iff.1 h
  obtain ⟨key, more, hitem⟩ := hname.exists_isKey
  exact ⟨key, more, name, hitem⟩

/-- The value begins after blank space, and not with a closing bracket. -/
theorem IsElement.exists_value {item : List UInt8} (h : IsElement item) :
    ∃ w b more, item = w ++ b :: more ∧ Blank w ∧ isBlank b = false ∧ b ≠ 0x5d ∧
      Balanced (b :: more) := by
  obtain ⟨hitem, b, hb, hblank⟩ := h
  cases hskip : skipBlank item with
  | nil =>
    have hall := (List.dropWhile_eq_nil_iff.1 hskip) b hb
    rw [hblank] at hall
    cases hall
  | cons c more =>
    obtain ⟨hc, w, hw, rfl⟩ := skipBlank_eq_cons hskip
    have hvalue : Balanced (c :: more) := by
      rwa [Balanced, Scan.through_append, hw.through] at hitem
    refine ⟨w, c, more, rfl, hw, hc, ?_, hvalue⟩
    rintro rfl
    cases hvalue

end Json

namespace RecordForm

open Json

variable {ρ : Type} {form : RecordForm ρ}

/-- What may stand in a record's text from its opening bracket up to the value of
    the field `name`. -/
inductive LeadsTo (form : RecordForm ρ) (name : String) : List UInt8 → Prop
  | member {inner key gap : List UInt8} {before : List (List UInt8)} (hinner : Blank inner)
      (hbefore : ∀ item ∈ before, IsMember item) (hkey : Spells key name) (hgap : Blank gap) :
      LeadsTo form name (0x7b :: (inner ++ [0x2c].intercalate (before ++ [key ++ 0x3a :: gap])))
  | element {inner gap : List UInt8} {before : List (List UInt8)} (hinner : Blank inner)
      (hbefore : ∀ item ∈ before, IsElement item)
      (hname : form.fieldNames[before.length]? = some name) (hgap : Blank gap) :
      LeadsTo form name (0x5b :: (inner ++ [0x2c].intercalate (before ++ [gap])))

/-- Blank space may stand in front of the value. -/
theorem LeadsTo.append {name : String} {lead w : List UInt8} (h : form.LeadsTo name lead)
    (hw : Blank w) : form.LeadsTo name (lead ++ w) := by
  have hlast (front : List UInt8) (before : List (List UInt8)) (item : List UInt8) :
      front ++ listed true (before ++ [item]) ++ w =
        front ++ listed true (before ++ [item ++ w]) := by
    simp [listed_append, listed_cons, listed_nil]
  cases h with
  | @member inner key gap before hinner hbefore hkey hgap =>
    have hlead : form.LeadsTo name _ := .member hinner hbefore hkey (hgap.append hw)
    have heq := hlast (0x7b :: inner) before (key ++ 0x3a :: gap)
    rw [List.append_assoc key, List.cons_append] at heq
    exact heq ▸ hlead
  | @element inner gap before hinner hbefore hname hgap =>
    have hlead := LeadsTo.element hinner hbefore hname (hgap.append hw)
    exact hlast (0x5b :: inner) before gap ▸ hlead

/-! ## Objects -/

theorem exists_failObject {α : Type} (err : JsonError) (input : List UInt8) :
    ∃ rest, (failObject err : JsonReader α) input = .error ⟨err, rest⟩ := by
  rw [failObject]
  split
  · exact ⟨_, rfl⟩
  · exact ⟨_, rfl⟩

/-- A key is an error, or its value is read by the field with its name. -/
theorem readMember_cases (form : RecordForm ρ) (seen : List String) (name : String) :
    (form.field? name = none ∧
        form.readMember seen name = failObject (.unknownField name form.fieldNames)) ∨
      (name ∈ seen ∧ form.readMember seen name = failObject (.duplicateField name)) ∨
      ∃ field, form.field? name = some field ∧
        form.readMember seen name = (readColon >>= fun _ => field.read) := by
  rw [readMember]
  cases form.field? name with
  | none => exact .inl ⟨rfl, rfl⟩
  | some field =>
    dsimp only
    split
    · rename_i hseen
      exact .inr (.inl ⟨by simpa using hseen, rfl⟩)
    · exact .inr (.inr ⟨field, rfl, rfl⟩)

theorem readColon_token {gap : List UInt8} (hgap : Blank gap) (more : List UInt8) :
    readColon (gap ++ 0x3a :: more) = .ok ((), more) :=
  readColon_blank hgap _

section
variable {first : Bool} {seen : List String} {record : ρ} {fuel : Nat} {w tail : List UInt8}

theorem readMembers_blank (hw : Blank w) (input : List UInt8) :
    form.readMembers first seen record (fuel + 1) (w ++ input) =
      form.readMembers first seen record (fuel + 1) input :=
  readBind_blank (by rw [nextKey, skipBlank_append hw, ← nextKey])

/-- After a member, another one or the end of the object follows. -/
theorem delimited_of_readMembers {r : ρ × List UInt8}
    (h : form.readMembers false seen record fuel tail = .ok r) :
    Delimited (skipBlank tail) ∧ ∃ fuel', fuel = fuel' + 1 := by
  cases fuel with
  | zero => cases h
  | succ fuel =>
    refine ⟨?_, fuel, rfl⟩
    obtain ⟨next, mid, hnext, -⟩ := readBind_eq_ok h
    obtain ⟨w, hw, ⟨-, rfl⟩ | ⟨name, key, -, -, rfl⟩⟩ := nextKey_eq_ok hnext
    · exact ⟨0x7d, mid, skipBlank_token hw rfl mid, .inr (.inr rfl)⟩
    · refine ⟨0x2c, key ++ mid, ?_, .inl rfl⟩
      rw [List.append_assoc, List.append_assoc]
      exact skipBlank_token hw rfl (key ++ mid)

end

namespace Strict

variable (h : form.Strict)
include h

theorem readMembers_key {first : Bool} {key : List UInt8} {name : String} (hkey : IsKey key name)
    (seen : List String) (record : ρ) (fuel : Nat) (more : List UInt8) :
    form.readMembers first seen record (fuel + 1) (separator first ++ key ++ more) =
      (form.readMember seen name >>= fun put =>
        form.readMembers false (name :: seen) (put record) fuel) more := by
  rw [readMembers_strict h.strict]
  exact bind_of_ok (hkey.nextKey blank_nil first more)

/-- Members that are read in front of some text are read in front of any. -/
theorem readMembers_skim {before : List (List UInt8)} (hbefore : ∀ item ∈ before, IsMember item) :
    ∀ {first : Bool} {seen : List String} {record : ρ} {fuel : Nat} {tail : List UInt8}
      {r : ρ × List UInt8}, (before ≠ [] → Delimited tail) →
      form.readMembers first seen record fuel (listed first before ++ tail) = .ok r →
      ∃ seen' record' fuel', ∀ other, (before ≠ [] → Delimited other) →
        form.readMembers first seen record fuel (listed first before ++ other) =
          form.readMembers (first && before.isEmpty) seen' record' fuel' other := by
  induction before with
  | nil =>
    intro first seen record fuel tail r _ _
    exact ⟨seen, record, fuel, fun other _ => by simp [listed_nil]⟩
  | cons item before ih =>
    intro first seen record fuel tail r htail hread
    obtain ⟨hitem, hitems⟩ := List.forall_mem_cons.1 hbefore
    obtain ⟨key, more, name, rfl, hkey, hmore⟩ := hitem.exists_isKey
    have hinput (other : List UInt8) : listed first ((key ++ more) :: before) ++ other =
        separator first ++ key ++ (more ++ (listed false before ++ other)) := by
      simp [listed_cons]
    cases fuel with
    | zero => cases hread
    | succ fuel =>
      rw [hinput, h.readMembers_key hkey] at hread
      obtain ⟨put, rest, hput, hread⟩ := readBind_eq_ok hread
      obtain ⟨hrest, fuel, rfl⟩ := delimited_of_readMembers hread
      -- the value ends in front of its delimiter, so it ends there in the other text too
      obtain ⟨w, hw, rfl, hother⟩ := (h.valueReader_readMember seen name).in_front hmore
        (delimited_listed fun _ => htail (List.cons_ne_nil _ _)) hput hrest
      rw [readMembers_blank hw] at hread
      obtain ⟨seen', record', fuel', heq⟩ :=
        ih hitems (fun _ => htail (List.cons_ne_nil _ _)) hread
      refine ⟨seen', record', fuel', fun other hdelimited => ?_⟩
      have hdelimited := hdelimited (List.cons_ne_nil _ _)
      rw [hinput, h.readMembers_key hkey]
      refine (bind_of_ok (hother _ (delimited_listed fun _ => hdelimited))).trans ?_
      rw [readMembers_blank hw, heq other fun _ => hdelimited]
      simp

theorem read_object {rest : List UInt8} {fuel : Nat} (hlt : rest.length < fuel) :
    form.read (0x7b :: rest) = form.readMembers true [] form.initial fuel rest :=
  h.readMembers_fuel (Nat.lt_succ_self _) hlt

/-- The first members of an object that is read are read in front of anything else. -/
theorem read_skim {inner tail other : List UInt8} {before : List (List UInt8)}
    {r : ρ × List UInt8} (hinner : Blank inner) (hbefore : ∀ item ∈ before, IsMember item)
    (htail : before ≠ [] → Delimited tail) (hother : before ≠ [] → Delimited other)
    (hread : form.read (0x7b :: (inner ++ (listed true before ++ tail))) = .ok r) :
    ∃ seen record fuel, form.readMembers before.isEmpty seen record (fuel + 1) tail = .ok r ∧
      form.read (0x7b :: (inner ++ (listed true before ++ other))) =
        form.readMembers before.isEmpty seen record (fuel + 1) other := by
  -- fuel that is enough for both texts
  let enough := (inner ++ (listed true before ++ tail)).length +
    (inner ++ (listed true before ++ other)).length
  have hstart : ∀ text, (inner ++ text).length < enough + 1 →
      form.read (0x7b :: (inner ++ text)) =
        form.readMembers true [] form.initial (enough + 1) text :=
    fun text hlt => (h.read_object hlt).trans (readMembers_blank hinner text)
  rw [hstart _ (by omega)] at hread ⊢
  obtain ⟨seen, record, fuel, heq⟩ := h.readMembers_skim hbefore htail hread
  rw [Bool.true_and] at heq
  rw [heq tail htail] at hread
  cases fuel with
  | zero => cases hread
  | succ fuel => exact ⟨seen, record, fuel, hread, heq other hother⟩

/-- A key that is no field, after members that can be read, is the error. -/
theorem read_of_unknown {inner key value back : List UInt8} {before after : List (List UInt8)}
    {name : String} {r : ρ × List UInt8} (hinner : Blank inner)
    (hbefore : ∀ item ∈ before, IsMember item) (hkey : Spells key name)
    (hname : form.field? name = none)
    (hread : form.read (objectText inner (before ++ after) ++ back) = .ok r) :
    ∃ left, form.read (objectText inner (before ++ (key ++ value) :: after) ++ back) =
      .error ⟨.unknownField name form.fieldNames, left⟩ := by
  obtain ⟨key, gap, rfl, hkey, -⟩ := hkey.exists_isKey
  have hinput (items : List (List UInt8)) : objectText inner (before ++ items) ++ back =
      0x7b :: (inner ++ (listed true before ++ (listed before.isEmpty items ++ 0x7d :: back))) := by
    change 0x7b :: (inner ++ (listed true (before ++ items) ++ [0x7d])) ++ back = _
    simp [listed_append]
  -- the comma or the bracket after the members that are skimmed
  have hends (items : List (List UInt8)) (hne : before ≠ []) :
      Delimited (listed before.isEmpty items ++ 0x7d :: back) := by
    rw [List.isEmpty_eq_false_iff.2 hne]
    exact delimited_listed fun _ => ⟨0x7d, back, rfl, .inr (.inr rfl)⟩
  rw [hinput] at hread ⊢
  obtain ⟨seen, record, fuel, -, heq⟩ :=
    h.read_skim hinner hbefore (hends after) (hends ((key ++ gap ++ value) :: after)) hread
  let rest := gap ++ (value ++ (listed false after ++ 0x7d :: back))
  have hrest : listed before.isEmpty ((key ++ gap ++ value) :: after) ++ 0x7d :: back =
      separator before.isEmpty ++ key ++ rest := by
    simp [listed_cons, rest]
  obtain ⟨left, hleft⟩ := exists_failObject (α := ρ) (.unknownField name form.fieldNames) rest
  refine ⟨left, ?_⟩
  rw [heq, hrest, h.readMembers_key hkey, readMember, hname]
  dsimp only
  rw [failObject_bind]
  exact hleft

end Strict

/-! ## Lists -/

section
variable {index : Nat} {record : ρ} {fields : List (Field ρ)} {w tail : List UInt8}

theorem readInOrder_blank (hw : Blank w) (input : List UInt8) :
    form.readInOrder index record fields (w ++ input) =
      form.readInOrder index record fields input := by
  cases fields with
  | nil => exact readBind_blank (by rw [endList, skipBlank_append hw, ← endList])
  | cons field fields =>
    exact readBind_blank (by rw [nextElement, skipBlank_append hw, ← nextElement])

theorem delimited_of_readInOrder {r : ρ × List UInt8}
    (h : form.readInOrder (index + 1) record fields tail = .ok r) :
    Delimited (skipBlank tail) := by
  cases fields with
  | nil =>
    obtain ⟨_, mid, hend, -⟩ := readBind_eq_ok h
    obtain ⟨w, b, rest, hw, hb, rfl, hnext⟩ := afterBlank_eq_ok hend fun _ => rfl
    refine ⟨b, rest, skipBlank_token hw hb rest, .inr (.inl ?_)⟩
    split at hnext
    · rename_i hbracket
      simpa using hbracket
    · split at hnext
      · split at hnext <;> cases hnext
      · cases hnext
  | cons field fields =>
    obtain ⟨more, mid, hmore, -⟩ := readBind_eq_ok h
    obtain ⟨b, rest, rfl, hb, ⟨-, rfl, w, hw, rfl⟩ | ⟨-, -, w, w', hw, hw', rfl⟩⟩ :=
      nextElement_eq_ok hmore
    · exact ⟨0x5d, rest, skipBlank_token hw rfl rest, .inr (.inl rfl)⟩
    · refine ⟨0x2c, w' ++ b :: rest, ?_, .inl rfl⟩
      rw [List.append_assoc, List.append_assoc]
      exact skipBlank_token hw rfl (w' ++ b :: rest)

theorem readInOrder_element {b : UInt8} (hw : Blank w) (hb : isBlank b = false) (hend : b ≠ 0x5d)
    (index : Nat) (record : ρ) (field : Field ρ) (fields : List (Field ρ)) (more : List UInt8) :
    form.readInOrder index record (field :: fields) (separator (index == 0) ++ w ++ b :: more) =
      (field.read >>= fun put => form.readInOrder (index + 1) (put record) fields) (b :: more) := by
  rw [readInOrder]
  exact bind_of_ok (nextElement_value (index == 0) blank_nil hw hb hend more)

end

namespace Strict

variable (h : form.Strict)
include h

/-- Elements that are read in front of some text are read in front of any. -/
theorem readInOrder_skim {before : List (List UInt8)} (hbefore : ∀ item ∈ before, IsElement item) :
    ∀ {index : Nat} {record : ρ} {fields : List (Field ρ)} {tail : List UInt8}
      {r : ρ × List UInt8}, (∀ field ∈ fields, field ∈ form.fields) →
      before.length ≤ fields.length → (before ≠ [] → Delimited tail) →
      form.readInOrder index record fields (listed (index == 0) before ++ tail) = .ok r →
      ∃ record', ∀ other, (before ≠ [] → Delimited other) →
        form.readInOrder index record fields (listed (index == 0) before ++ other) =
          form.readInOrder (index + before.length) record' (fields.drop before.length) other := by
  induction before with
  | nil =>
    intro index record fields tail r _ _ _ _
    exact ⟨record, fun other _ => by simp [listed_nil]⟩
  | cons item before ih =>
    intro index record fields tail r hfields hlength htail hread
    obtain ⟨hitem, hitems⟩ := List.forall_mem_cons.1 hbefore
    obtain ⟨w, b, more, rfl, hw, hb, hend, hvalue⟩ := hitem.exists_value
    have hinput (other : List UInt8) : listed (index == 0) ((w ++ b :: more) :: before) ++ other =
        separator (index == 0) ++ w ++ b :: (more ++ (listed false before ++ other)) := by
      simp [listed_cons]
    cases fields with
    | nil => simp at hlength
    | cons field fields =>
      obtain ⟨hfield, hfields⟩ := List.forall_mem_cons.1 hfields
      rw [hinput, readInOrder_element hw hb hend] at hread
      obtain ⟨put, rest, hput, hread⟩ := readBind_eq_ok hread
      obtain ⟨w', hw', rfl, hother⟩ := (h.fields field hfield).in_front hvalue
        (delimited_listed fun _ => htail (List.cons_ne_nil _ _)) hput
        (delimited_of_readInOrder hread)
      rw [readInOrder_blank hw'] at hread
      obtain ⟨record', heq⟩ := ih hitems hfields (Nat.le_of_succ_le_succ hlength)
        (fun _ => htail (List.cons_ne_nil _ _)) hread
      refine ⟨record', fun other hdelimited => ?_⟩
      have hdelimited := hdelimited (List.cons_ne_nil _ _)
      rw [hinput, readInOrder_element hw hb hend]
      refine (bind_of_ok (hother _ (delimited_listed fun _ => hdelimited))).trans ?_
      rw [readInOrder_blank hw', List.length_cons, List.drop_succ_cons, Nat.add_comm before.length,
        ← Nat.add_assoc]
      exact heq other fun _ => hdelimited

end Strict

/-! ## Values of fields -/

/-- The text of a record begins with its opening bracket. -/
def Opening (text : List UInt8) : Prop := ∃ b more, text = b :: more ∧ (b = 0x5b ∨ b = 0x7b)

theorem LeadsTo.opening {name : String} {lead : List UInt8} (h : form.LeadsTo name lead)
    (tail : List UInt8) : Opening (lead ++ tail) := by
  cases h with
  | member => exact ⟨0x7b, _, rfl, .inr rfl⟩
  | element => exact ⟨0x5b, _, rfl, .inl rfl⟩

theorem exists_of_fieldNames {n : Nat} {name : String} (hname : form.fieldNames[n]? = some name) :
    ∃ field ∈ form.fields, field.name = name ∧
      form.fields.drop n = field :: form.fields.drop (n + 1) := by
  rw [fieldNames, List.getElem?_map, Option.map_eq_some_iff] at hname
  obtain ⟨field, hfield, rfl⟩ := hname
  obtain ⟨hn, rfl⟩ := List.getElem?_eq_some_iff.1 hfield
  exact ⟨_, List.getElem_mem hn, rfl, List.drop_eq_getElem_cons hn⟩

/-- The error of a field's value is that of the record, if what stands before the
    value can be read. -/
theorem Strict.read_of_field (h : form.Strict) {name : String} {lead tail tail' : List UInt8}
    {r : ρ × List UInt8} (hlead : form.LeadsTo name lead) (htail : Opening tail)
    (htail' : Opening tail') (hread : form.read (lead ++ tail) = .ok r) :
    ∃ field ∈ form.fields, field.name = name ∧ (∃ y, field.read tail = .ok y) ∧
      ∀ fault, field.read tail' = .error fault → form.read (lead ++ tail') = .error fault := by
  cases hlead with
  | @member inner key gap before hinner hbefore hkey hgap =>
    obtain ⟨key, gap', rfl, hkey, hgap'⟩ := hkey.exists_isKey
    have hinput (text : List UInt8) :
        0x7b :: (inner ++ [0x2c].intercalate (before ++ [key ++ gap' ++ 0x3a :: gap])) ++ text =
          0x7b :: (inner ++ (listed true before ++ (separator before.isEmpty ++ (key ++
            (gap' ++ 0x3a :: (gap ++ text)))))) := by
      change 0x7b :: (inner ++ listed true (before ++ [key ++ gap' ++ 0x3a :: gap])) ++ text = _
      simp [listed_append, listed_cons, listed_nil]
    rw [hinput] at hread ⊢
    obtain ⟨seen, record, fuel, hok, heq⟩ := h.read_skim hinner hbefore
      (fun hne => delimited_separator hne _)
      (fun hne => delimited_separator hne (key ++ (gap' ++ 0x3a :: (gap ++ tail')))) hread
    rw [← List.append_assoc, h.readMembers_key hkey] at hok
    rw [heq, ← List.append_assoc, h.readMembers_key hkey]
    obtain ⟨put, rest, hput, -⟩ := readBind_eq_ok hok
    rcases readMember_cases form seen name with
      ⟨-, hmember⟩ | ⟨-, hmember⟩ | ⟨field, hfield, hmember⟩
    · rw [hmember] at hput
      exact absurd hput failObject_ne_ok
    · rw [hmember] at hput
      exact absurd hput failObject_ne_ok
    · obtain ⟨hmem, hname⟩ := mem_of_field? hfield
      have hvalue (text : List UInt8) : form.readMember seen name (gap' ++ 0x3a :: (gap ++ text)) =
          field.read text := by
        rw [hmember]
        exact (bind_of_ok (readColon_token hgap' _)).trans ((h.fields field hmem).blank hgap text)
      rw [hvalue] at hput
      refine ⟨field, hmem, hname, ⟨_, hput⟩, fun fault hfault => ?_⟩
      exact readBind_of_error ((hvalue tail').trans hfault)
  | @element inner gap before hinner hbefore hname hgap =>
    obtain ⟨b, more, rfl, hb⟩ := htail
    obtain ⟨b', more', rfl, hb'⟩ := htail'
    obtain ⟨field, hmem, hfield, hdrop⟩ := exists_of_fieldNames hname
    have hlength : before.length ≤ form.fields.length := by
      have hlt := (List.getElem?_eq_some_iff.1 hname).1
      rw [fieldNames, List.length_map] at hlt
      exact Nat.le_of_lt hlt
    have hinput (text : List UInt8) :
        form.read (0x5b :: (inner ++ [0x2c].intercalate (before ++ [gap])) ++ text) =
          form.readInOrder 0 form.initial form.fields
            (listed true before ++ (separator before.isEmpty ++ (gap ++ text))) := by
      have hitems : inner ++ listed true (before ++ [gap]) ++ text =
          inner ++ (listed true before ++ (separator before.isEmpty ++ (gap ++ text))) := by
        simp [listed_append, listed_cons, listed_nil]
      rw [← readInOrder_blank hinner, ← hitems]
      rfl
    have hvalue {c : UInt8} (hc : c = 0x5b ∨ c = 0x7b) (record : ρ) (text : List UInt8) :
        form.readInOrder (0 + before.length) record (form.fields.drop before.length)
            (separator before.isEmpty ++ (gap ++ c :: text)) =
          (field.read >>= fun put => form.readInOrder (0 + before.length + 1) (put record)
            (form.fields.drop (before.length + 1))) (c :: text) := by
      have hblank : isBlank c = false := by rcases hc with rfl | rfl <;> rfl
      have hne : c ≠ 0x5d := by rcases hc with rfl | rfl <;> decide
      have hfirst : before.isEmpty = (0 + before.length == 0) := by cases before <;> simp
      rw [hdrop, hfirst, ← List.append_assoc]
      exact readInOrder_element hgap hblank hne _ _ _ _ _
    rw [hinput] at hread ⊢
    obtain ⟨record, heq⟩ := h.readInOrder_skim hbefore (fun _ => id) hlength
      (fun hne => delimited_separator hne (gap ++ b :: more)) hread
    have hok : _ = Except.ok r := (heq _ fun hne => delimited_separator hne _).symm.trans hread
    rw [hvalue hb] at hok
    obtain ⟨put, rest, hput, -⟩ := readBind_eq_ok hok
    refine ⟨field, hmem, hfield, ⟨_, hput⟩, fun fault hfault => ?_⟩
    refine (heq _ fun hne => delimited_separator hne _).trans ?_
    rw [hvalue hb']
    exact readBind_of_error hfault

end RecordForm

end FuzzyPath
