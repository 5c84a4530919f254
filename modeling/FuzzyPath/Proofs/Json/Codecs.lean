/-
  FuzzyPath — what a codec prints, it reads back.

  * `Codec.ReadsBack` says so of a codec, for all values of its type;
  * `Codec.boolean_readsBack`, `Codec.string_readsBack` and the others: the
    codecs that records are made of, with integers in their whole range;
  * `Field.Keeps` says what reading a printed field puts into a record;
  * `RecordForm.readsBack`: a record is read back if its fields have different
    names and together put back all of it.
-/
import FuzzyPath.Proofs.Json.Integers

namespace FuzzyPath

/-! ## Values -/

/-- A value is read from its name. -/
theorem Json.reads_name {α : Type} (names : List String) {ofName? : String → Option α}
    {name : String} {value : α} (h : ofName? name = some value) :
    Reads (readName names ofName?) (.string name) value := by
  have hname := reads_stringAs "variant identifier" name
  refine ⟨hname.starts, fun depth rest hrest => ?_⟩
  have hnamed : readNamed names ofName? ((Document.string name).bytes depth ++ rest) =
      .ok (value, rest) := by
    rw [readNamed, bind_of_ok (hname.read depth rest hrest), h]
    rfl
  rw [Document.bytes_string, utf8_writtenText, List.cons_append] at hnamed ⊢
  rw [readName, skipBlank_cons rfl]
  exact hnamed

namespace Codec

variable {α β : Type}

/-- Each value is read back from the way it is printed. -/
def ReadsBack (codec : Codec α) : Prop :=
  ∀ value, Json.Reads codec.read (codec.print value) value

theorem ReadsBack.decode_encode {codec : Codec α} (h : codec.ReadsBack) (value : α) :
    codec.decode (utf8 (codec.encode value)) = .ok value :=
  decode_of_reads (h value)

theorem boolean_readsBack : boolean.ReadsBack := by
  intro value
  have hfalse : utf8 "false" = [0x66, 0x61, 0x6c, 0x73, 0x65] := by decide
  have htrue : utf8 "true" = [0x74, 0x72, 0x75, 0x65] := by decide
  cases value with
  | false =>
    have hbytes (depth : Nat) : (boolean.print false).bytes depth = _ := hfalse
    exact ⟨fun depth => ⟨_, _, hbytes depth, rfl, by decide⟩,
      fun depth _ _ => by rw [hbytes depth]; rfl⟩
  | true =>
    have hbytes (depth : Nat) : (boolean.print true).bytes depth = _ := htrue
    exact ⟨fun depth => ⟨_, _, hbytes depth, rfl, by decide⟩,
      fun depth _ _ => by rw [hbytes depth]; rfl⟩

theorem string_readsBack : string.ReadsBack := Json.reads_string

/-- A type is read back if the values that stand for its own are. -/
theorem readsBack_map {codec : Codec α} {forth : α → β} {back : β → α}
    (h : ∀ value, Json.Reads codec.read (codec.print (back value)) (back value))
    (hback : ∀ value, forth (back value) = value) : (codec.map forth back).ReadsBack := by
  intro value
  have := (h value).map forth
  rwa [hback value] at this

theorem int32_readsBack : int32.ReadsBack := by
  refine readsBack_map (fun value => ?_) Int32.ofInt_toInt
  have hmin := value.le_toInt
  have hmax := value.toInt_lt
  exact Json.reads_integer (by decide) (by decide) ⟨hmin, by omega⟩

theorem int64_readsBack : int64.ReadsBack := by
  refine readsBack_map (fun value => ?_) Int64.ofInt_toInt
  have hmin := value.le_toInt
  have hmax := value.toInt_lt
  exact Json.reads_integer (by decide) (by decide) ⟨hmin, by omega⟩

theorem uint32_readsBack : uint32.ReadsBack := by
  refine readsBack_map (fun value => ?_) fun value => UInt32.ofNat_toNat
  have hmax := value.toNat_lt
  exact Json.reads_integer (by decide) (by decide) ⟨Int.natCast_nonneg _, by omega⟩

theorem count_readsBack : count.ReadsBack := by
  refine readsBack_map (fun value => ?_) fun value => UInt64.ofNat_toNat
  have hmax := value.toNat_lt
  exact Json.reads_integer (by decide) (by decide) ⟨Int.natCast_nonneg _, by omega⟩

theorem ReadsBack.list {codec : Codec α} (h : codec.ReadsBack) : codec.list.ReadsBack :=
  fun _ => Json.reads_list (List.forall₂_map_left_iff.2 (List.forall₂_same.2 fun v _ => h v))

/-- Names are read back if they are the values' own. -/
theorem named_readsBack {names : List String} {ofName? : String → Option α} {name : α → String}
    (h : ∀ value, ofName? (name value) = some value) : (named names ofName? name).ReadsBack :=
  fun value => Json.reads_name names (h value)

end Codec

/-! ## Records -/

variable {ρ α : Type}

/-- Reading the field of a printed record puts it into another one by `put`. -/
def Field.Keeps (field : Field ρ) (put : ρ → ρ → ρ) : Prop :=
  ∀ record, Json.Reads field.read (field.print record) (put record)

section
variable {codec : Codec α} {name : String} {get : ρ → α} {put : α → ρ → ρ}

theorem Codec.ReadsBack.optional (h : codec.ReadsBack) :
    (Field.optional name codec get put).Keeps fun record => put (get record) :=
  fun record => (h (get record)).map put

theorem Codec.ReadsBack.mandatory (h : codec.ReadsBack) :
    (Field.mandatory name codec get put).Keeps fun record => put (get record) :=
  fun record => (h (get record)).map put

end

namespace RecordForm

variable {form : RecordForm ρ} {puts : List (ρ → ρ → ρ)}

/-- A field is found by its name if no other field has the name. -/
theorem field?_of_mem (hnodup : form.fieldNames.Nodup) {field : Field ρ}
    (h : field ∈ form.fields) : form.field? field.name = some field := by
  obtain ⟨before, after, hfields⟩ := List.append_of_mem h
  rw [fieldNames, hfields, List.map_append, List.map_cons, List.nodup_append] at hnodup
  rw [field?, List.find?_eq_some_iff_append]
  refine ⟨beq_self_eq_true _, before, after, hfields, fun other hother => ?_⟩
  have := hnodup.2.2 other.name (List.mem_map_of_mem hother) field.name List.mem_cons_self
  simpa using this

section
variable {R : Field ρ → Document → (ρ → ρ) → Prop}

/-- The members of a printed record, and what reading them puts into another; `R` is
    what is known of each field. -/
theorem exists_members {fields : List (Field ρ)} (h : List.Forall₂
      (fun field put => ∀ record, R field (field.print record) (put record)) fields puts)
    (record : ρ) : ∃ members : List (PrintedMember ρ),
      members.map (fun m => (m.name, m.value)) =
        fields.map (fun field => (field.name, field.print record)) ∧
      members.map PrintedMember.put = puts.map (· record) ∧
      ∀ m ∈ members, ∃ field ∈ fields, m.name = field.name ∧ R field m.value m.put := by
  induction h with
  | nil => exact ⟨[], rfl, rfl, by simp⟩
  | @cons field put fields puts hfield _ ih =>
    obtain ⟨members, hprinted, hputs, hknown⟩ := ih
    refine ⟨⟨field.name, field.print record, put record⟩ :: members, ?_, ?_, ?_⟩
    · rw [List.map_cons, hprinted, List.map_cons]
    · rw [List.map_cons, hputs, List.map_cons]
    · intro m hm
      rcases List.mem_cons.1 hm with rfl | hm
      · exact ⟨field, List.mem_cons_self, rfl, hfield record⟩
      · obtain ⟨other, hother, hname, hread⟩ := hknown m hm
        exact ⟨other, List.mem_cons_of_mem field hother, hname, hread⟩

/-- A record is printed as an object of all its fields, which together put back all
    of it. -/
theorem exists_printed (h : List.Forall₂
      (fun field put => ∀ record, R field (field.print record) (put record)) form.fields puts)
    (hnodup : form.fieldNames.Nodup)
    (hputs : ∀ record, (puts.map (· record)).foldl (fun r put => put r) form.initial = record)
    (record : ρ) : ∃ members : List (PrintedMember ρ),
      form.print record = .object (members.map fun m => (m.name, m.value)) ∧
      members.map PrintedMember.name = form.fieldNames ∧
      members.foldl (fun r m => m.put r) form.initial = record ∧
      ∀ m ∈ members, ∃ field, form.field? m.name = some field ∧ R field m.value m.put := by
  obtain ⟨members, hprinted, hmembers, hknown⟩ := exists_members h record
  refine ⟨members, by rw [hprinted]; rfl, ?_, ?_, fun m hm => ?_⟩
  · have := congrArg (List.map Prod.fst) hprinted
    rwa [List.map_map, List.map_map] at this
  · rw [← hputs record, ← hmembers, List.foldl_map]
  · obtain ⟨field, hfield, hname, hread⟩ := hknown m hm
    exact ⟨field, by rw [hname, field?_of_mem hnodup hfield], hread⟩

end

/-- A record is read back if its fields together put back all of it. -/
theorem readsBack (h : List.Forall₂ Field.Keeps form.fields puts)
    (hnodup : form.fieldNames.Nodup)
    (hputs : ∀ record, (puts.map (· record)).foldl (fun r put => put r) form.initial = record) :
    form.codec.ReadsBack := by
  intro record
  obtain ⟨members, hprinted, hnames, hrecord, hmember⟩ := exists_printed h hnodup hputs record
  have hrequired : ∀ field ∈ form.fields, field.required = true →
      field.name ∈ members.map PrintedMember.name := by
    intro field hfield _
    rw [hnames]
    exact List.mem_map_of_mem hfield
  have hobject := reads_object hmember (by rwa [hnames]) hrequired
  rw [hrecord, ← hprinted] at hobject
  exact hobject

end RecordForm

end FuzzyPath
