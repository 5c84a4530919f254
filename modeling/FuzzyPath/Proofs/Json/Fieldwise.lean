/-
  FuzzyPath — objects are read field by field.

  An object need not hold all fields of a record.  What it holds is put into the
  record that there is at first, in the order of the members; the order makes no
  difference, as each field is put in a place of its own.

  * `RecordForm.Holds` says that a text stands for a record's value of a field, and
    `RecordForm.ObjectOf` that it is an object of some fields of a record;
  * `Field.Sets` says that reading a field changes this field only, and
    `RecordForm.Replaces` that all fields of a form do;
  * `Replaces.readMembers` is the run over the members of an object;
  * `RecordForm.Fieldwise` is what can be said of a form as a whole, and
    `Replaces.fieldwise` proves it.
-/
import FuzzyPath.Proofs.Json.Codecs
import FuzzyPath.Proofs.Json.Repeated

namespace FuzzyPath

open Json

variable {ρ α : Type}

namespace Json

variable {reader : JsonReader α} {text : List UInt8} {x : α}

/-- A value that is a whole text is read in front of a delimiter, too. -/
theorem ValueReader.in_object (h : ValueReader reader) (hread : readDocument reader text = .ok x)
    {tail : List UInt8} (htail : Delimited tail) :
    ∃ gap, Blank gap ∧ reader (text ++ tail) = .ok (x, gap ++ tail) := by
  obtain ⟨gap, hgap, hread⟩ := readDocument_eq_ok hread
  obtain ⟨used, rfl, -, hother⟩ := h.takes [] hread
  refine ⟨gap, hgap, ?_⟩
  rw [List.append_assoc]
  exact hother _ (.inr (htail.stops_append hgap))

end Json

/-! ## Objects of some fields -/

namespace RecordForm

/-- A text stands for the value that a field has in `v`: it is read as a value of the
    field, which changes nothing when it is put into `v`. -/
def Holds (form : RecordForm ρ) (v : ρ) (name : String) (text : List UInt8) : Prop :=
  ∃ field put, form.field? name = some field ∧ readDocument field.read text = .ok put ∧ put v = v

/-- A member of an object: the key for a field, and the value that the field has in
    `v`. -/
def HoldsMember (form : RecordForm ρ) (v : ρ) (name : String) (item : List UInt8) : Prop :=
  ∃ key value, item = key ++ 0x3a :: value ∧ Spells key name ∧ form.Holds v name value

/-- A text is an object that holds just the named fields of `v`, in the order of
    their names. -/
def ObjectOf (form : RecordForm ρ) (v : ρ) (names : List String) (text : List UInt8) : Prop :=
  ∃ front inner items back, text = front ++ (objectText inner items ++ back) ∧
    Blank front ∧ Blank inner ∧ Blank back ∧ names.Nodup ∧
    List.Forall₂ (form.HoldsMember v) names items

/-- The named fields of `v` as they are printed. -/
def selected (form : RecordForm ρ) (v : ρ) (names : List String) : Document :=
  .object (names.filterMap fun name =>
    (form.field? name).map fun field => (name, field.print v))

/-- Objects of a form are read field by field, where some fields are `required`,
    the others have their values in `base`, and `withFields base names v` is `base`
    with the named fields of `v`. -/
structure Fieldwise (form : RecordForm ρ) (required : List String) (base : ρ)
    (withFields : ρ → List String → ρ → ρ) : Prop where
  /-- Any fields in any order, as they are printed, are an object of these fields. -/
  printed : ∀ v names, names.Nodup → (∀ name ∈ names, name ∈ form.fieldNames) →
    form.ObjectOf v names (utf8 (form.selected v names).compact)
  /-- From an object with all required fields just its fields are taken. -/
  complete : ∀ v names text, form.ObjectOf v names text → (∀ name ∈ required, name ∈ names) →
    form.codec.decode text = .ok (withFields base names v)
  /-- A required field that is not there is the error. -/
  missing : ∀ v names text, form.ObjectOf v names text → (∃ name ∈ required, name ∉ names) →
    ∃ name ∈ required, name ∉ names ∧
      ∃ place, form.codec.decode text = .error ⟨.missingField name, place⟩
  /-- So is a field that is there twice, whatever else there is. -/
  twice : ∀ front text name, Blank front → name ∈ form.fieldNames → HasKeyTwice name text →
    ∃ failure, form.codec.decode (front ++ text) = .error failure

end RecordForm

/-! ## Fields in their places -/

/-- A field reads whole values, reads back its own, and puts them into its own place
    only. -/
structure Field.Sets (field : Field ρ) (withFields : ρ → List String → ρ → ρ) : Prop where
  reader : ValueReader field.read
  printed : ∀ v, ∃ put, Reads field.read (field.print v) put ∧ put v = v
  sets : ∀ ⦃input put rest⦄, field.read input = .ok (put, rest) → ∀ ⦃v⦄, put v = v →
    ∀ base, put base = withFields base [field.name] v

/-- A codec reads whole values, and reads back its own. -/
structure Codec.Whole (codec : Codec α) : Prop where
  reader : ValueReader codec.read
  readsBack : codec.ReadsBack

section
variable {codec : Codec α} {name : String} {get : ρ → α} {put : α → ρ → ρ}
  {withFields : ρ → List String → ρ → ρ}

/-- A place of its own is one from which is taken what has been put there, and
    nothing else is changed. -/
theorem Codec.Whole.optional (h : codec.Whole) (hget : ∀ x v, get (put x v) = x)
    (hput : ∀ v, put (get v) v = v)
    (hwith : ∀ v base, put (get v) base = withFields base [name] v) :
    (Field.optional name codec get put).Sets withFields where
  reader := h.reader.map put
  printed v := ⟨put (get v), (h.readsBack (get v)).map put, hput v⟩
  sets input p rest hread v hv base := by
    obtain ⟨⟨x, rest'⟩, -, hx⟩ := bind_eq_ok hread
    obtain ⟨rfl, rfl⟩ := Prod.mk.inj (Except.ok.inj hx)
    have hx : get v = x := by rw [← hget x v, hv]
    rw [← hx]
    exact hwith v base

theorem Codec.Whole.mandatory (h : codec.Whole) (hget : ∀ x v, get (put x v) = x)
    (hput : ∀ v, put (get v) v = v)
    (hwith : ∀ v base, put (get v) base = withFields base [name] v) :
    (Field.mandatory name codec get put).Sets withFields :=
  have hsets := h.optional hget hput hwith
  ⟨hsets.reader, hsets.printed, hsets.sets⟩

end

namespace RecordForm

/-- The fields of a form are put into places of their own, so `withFields` is what
    putting several of them comes to. -/
structure Replaces (form : RecordForm ρ) (withFields : ρ → List String → ρ → ρ) : Prop where
  nodup : form.fieldNames.Nodup
  fields : ∀ field ∈ form.fields, field.Sets withFields
  nil : ∀ base v, withFields base [] v = base
  cons : ∀ base name names v,
    withFields (withFields base [name] v) names v = withFields base (name :: names) v

variable {form : RecordForm ρ} {v record : ρ} {name : String} {text : List UInt8}

theorem mem_map_required {field : Field ρ} (hfield : field ∈ form.fields)
    (hneeded : field.required = true) :
    field.name ∈ (form.fields.filter Field.required).map Field.name :=
  List.mem_map_of_mem (List.mem_filter.2 ⟨hfield, hneeded⟩)

theorem finish_of_missing {seen : List String} {field : Field ρ}
    (h : form.missing? seen = some field) (record : ρ) (rest : List UInt8) :
    form.finish seen record rest = .error ⟨.missingField field.name, rest⟩ := by
  rw [finish, h]
  rfl

theorem finish_of_complete {seen : List String} (h : form.missing? seen = none) (record : ρ)
    (rest : List UInt8) : form.finish seen record rest = .ok (record, rest) := by
  rw [finish, h]
  rfl

namespace Replaces

variable {withFields : ρ → List String → ρ → ρ} (h : form.Replaces withFields)
include h

/-- The members of an object are put in one after another. -/
theorem readMembers {names : List String} {items : List (List UInt8)}
    (hitems : List.Forall₂ (form.HoldsMember v) names items) (rest : List UInt8) :
    ∀ {first : Bool} {seen : List String} {record : ρ} {fuel : Nat}, names.Nodup →
      (∀ name ∈ names, name ∉ seen) → items.length < fuel →
      form.readMembers first seen record fuel (listed first items ++ 0x7d :: rest) =
        form.finish (names.reverse ++ seen) (withFields record names v) rest := by
  induction hitems with
  | nil =>
    intro first seen record fuel _ _ hfuel
    obtain ⟨fuel, rfl⟩ := Nat.exists_eq_add_one.2 hfuel
    rw [listed_nil, List.nil_append, List.reverse_nil, List.nil_append, h.nil,
      RecordForm.readMembers]
    exact bind_of_ok (nextKey_end first rest)
  | @cons name item names items hitem _ ih =>
    intro first seen record fuel hnodup hseen hfuel
    obtain ⟨fuel, rfl⟩ := Nat.exists_eq_add_one.2 (Nat.zero_lt_of_lt hfuel)
    obtain ⟨hnew, hothers⟩ := List.nodup_cons.1 hnodup
    obtain ⟨hname, hunread⟩ := List.forall_mem_cons.1 hseen
    obtain ⟨key, value, rfl, hkey, field, put, hfield, hvalue, hput⟩ := hitem
    obtain ⟨key, gap, rfl, hkey, hgap⟩ := hkey.exists_isKey
    obtain ⟨hmem, rfl⟩ := mem_of_field? hfield
    have htail : Delimited (listed false items ++ 0x7d :: rest) :=
      delimited_listed fun _ => ⟨0x7d, rest, rfl, .inr (.inr rfl)⟩
    obtain ⟨gap', hgap', hread⟩ := (h.fields field hmem).reader.in_object hvalue htail
    have hinput : listed first ((key ++ gap ++ 0x3a :: value) :: items) ++ 0x7d :: rest =
        separator first ++ key ++
          (gap ++ 0x3a :: (value ++ (listed false items ++ 0x7d :: rest))) := by
      simp [listed_cons]
    obtain ⟨fuel, rfl⟩ := Nat.exists_eq_add_one.2 (Nat.lt_of_lt_of_le (Nat.succ_pos _)
      (Nat.le_of_lt_succ hfuel))
    rw [hinput, readMembers_field hkey hfield, if_neg hname]
    refine (bind_of_ok (readColon_token hgap _)).trans ((bind_of_ok hread).trans ?_)
    obtain ⟨gap, hgap, hread⟩ := readDocument_eq_ok hvalue
    rw [readMembers_blank hgap', ih hothers _ (Nat.lt_of_succ_lt_succ hfuel),
      (h.fields field hmem).sets hread hput, h.cons, List.reverse_cons, List.append_assoc]
    · rfl
    · intro other hother
      rw [List.mem_cons, not_or]
      exact ⟨fun heq => hnew (heq ▸ hother), hunread other hother⟩

/-- An object of some fields is read to its end. -/
theorem read_objectOf {names : List String} (htext : form.ObjectOf v names text) :
    ∃ back, Blank back ∧
      form.read text = form.finish names.reverse (withFields form.initial names v) back := by
  obtain ⟨front, inner, items, back, rfl, hfront, hinner, hback, hnodup, hitems⟩ := htext
  refine ⟨back, hback, ?_⟩
  have hinput : front ++ (objectText inner items ++ back) =
      front ++ 0x7b :: (inner ++ (listed true items ++ 0x7d :: back)) := by
    change front ++ (0x7b :: (inner ++ (listed true items ++ [0x7d])) ++ back) = _
    simp
  have hlength := length_le_listed true items
  have hfuel : items.length < (inner ++ (listed true items ++ 0x7d :: back)).length + 1 := by
    simp only [List.length_append, List.length_cons] at hlength ⊢
    omega
  rw [hinput, read, skipBlank_token hfront rfl]
  change form.readMembers true [] form.initial (_ + 1) _ = _
  rw [readMembers_blank hinner,
    h.readMembers hitems back hnodup (fun _ _ => List.not_mem_nil) hfuel, List.append_nil]

/-- The named fields as they are printed, each of them a member. -/
theorem exists_items (v : ρ) : ∀ {names : List String}, (∀ name ∈ names, name ∈ form.fieldNames) →
    ∃ items, List.Forall₂ (form.HoldsMember v) names items ∧
      ((names.filterMap fun name => (form.field? name).map fun field => (name, field.print v)).map
        fun (name, value) => Document.member name value).map (·.bytes 1) = items
  | [], _ => ⟨[], .nil, rfl⟩
  | name :: names, hnames => by
    obtain ⟨hname, hnames⟩ := List.forall_mem_cons.1 hnames
    obtain ⟨items, hitems, hbytes⟩ := exists_items v hnames
    obtain ⟨field, hfield⟩ := exists_field? hname
    obtain ⟨put, hreads, hput⟩ := (h.fields field (mem_of_field? hfield).1).printed v
    have hread := hreads.read 1 [] ends_nil
    rw [List.append_nil] at hread
    have hholds : form.Holds v name ((field.print v).bytes 1) :=
      ⟨field, put, hfield, readDocument_of_read hread blank_nil, hput⟩
    refine ⟨_, .cons ⟨_, _, rfl, spells_written name, hholds⟩ hitems, ?_⟩
    rw [List.filterMap_cons, hfield, ← hbytes]
    simp only [Option.map_some, List.map_cons, Document.bytes_member]

/-- Objects of a form are read field by field if its fields have places of their
    own. -/
theorem fieldwise {required : List String}
    (hrequired : (form.fields.filter Field.required).map Field.name = required) :
    form.Fieldwise required form.initial withFields where
  printed v names hnodup hnames := by
    obtain ⟨items, hitems, hbytes⟩ := h.exists_items v hnames
    refine ⟨[], [], items, [], ?_, blank_nil, blank_nil, blank_nil, hnodup, hitems⟩
    rw [Document.compact, ← Document.bytes, selected, Document.bytes_object, hbytes]
    simp [objectText]
  complete v names text htext hall := by
    obtain ⟨back, hback, hread⟩ := h.read_objectOf htext
    have hmissing : form.missing? names.reverse = none := by
      rw [missing?, List.find?_eq_none]
      intro field hfield
      have hname (hneeded : field.required = true) : field.name ∈ names :=
        hall _ (hrequired ▸ mem_map_required hfield hneeded)
      simpa using hname
    rw [finish_of_complete hmissing] at hread
    exact readDocument_of_read hread hback
  missing v names text htext hsome := by
    obtain ⟨back, -, hread⟩ := h.read_objectOf htext
    cases hmissing : form.missing? names.reverse with
    | none =>
      obtain ⟨name, hname, hnot⟩ := hsome
      rw [← hrequired, List.mem_map] at hname
      obtain ⟨field, hfield, rfl⟩ := hname
      obtain ⟨hmem, hneeded⟩ := List.mem_filter.1 hfield
      rw [missing?, List.find?_eq_none] at hmissing
      have hread := hmissing field hmem
      simp only [hneeded, Bool.true_and, Bool.not_eq_true', Bool.not_eq_false,
        List.contains_iff_mem, List.mem_reverse] at hread
      exact absurd hread hnot
    | some field =>
      have hneeded := List.find?_some hmissing
      simp only [Bool.and_eq_true, Bool.not_eq_true', ← Bool.not_eq_true, List.contains_iff_mem,
        List.mem_reverse] at hneeded
      refine ⟨field.name, hrequired ▸ mem_map_required (List.mem_of_find?_eq_some hmissing)
        hneeded.1, hneeded.2, (JsonFault.within text ⟨.missingField field.name, back⟩).place, ?_⟩
      rw [finish_of_missing hmissing] at hread
      rw [Codec.decode, readDocument, show form.codec.read text = _ from hread]
      rfl
  twice front text name hfront hname htext :=
    decode_twice (fun field hfield => (h.fields field hfield).reader) hfront hname htext

end Replaces

/-- Whatever text decodes to the value of a field stands for the field. -/
theorem holds_of_decode {codec : Codec α} {field : Field ρ} {put : α → ρ → ρ} {x : α}
    (hdecode : codec.decode text = .ok x) (hfield : form.field? name = some field)
    (hread : field.read = put <$> codec.read) (hput : put x v = v) : form.Holds v name text := by
  obtain ⟨gap, hgap, hvalue⟩ := readDocument_eq_ok hdecode
  refine ⟨field, put x, hfield, ?_, hput⟩
  have hmap : (put <$> codec.read) text = .ok (put x, gap) := by
    rw [map_eq_pure_bind]
    exact bind_of_ok hvalue
  rw [hread]
  exact readDocument_of_read hmap hgap

end RecordForm

end FuzzyPath
