/-
  FuzzyPath — where errors about unknown keys come from.

  * `Strict.exists_objectText`: an object that is read is written as members with
    commas between them;
  * `Strict.read_eq_unknown`: an error about an unknown key is about a key of the
    record, which stands after such members, or about one in the value of a field;
  * a form `Nests` another one if only the field that holds it has keys of its own.
-/
import FuzzyPath.Proofs.Json.Errors
import FuzzyPath.Proofs.Json.Insertion

namespace FuzzyPath

namespace RecordForm

open Json

variable {ρ : Type} {form : RecordForm ρ}

theorem readColon_eq_ok {input rest : List UInt8} (hread : readColon input = .ok ((), rest)) :
    ∃ gap, Blank gap ∧ input = gap ++ 0x3a :: rest := by
  obtain ⟨gap, b, more, hgap, -, rfl, hcolon⟩ := afterBlank_eq_ok hread fun _ => rfl
  split at hcolon
  · rename_i hb
    obtain rfl : b = 0x3a := by simpa using hb
    obtain ⟨-, rfl⟩ := Prod.mk.inj (Except.ok.inj hcolon)
    exact ⟨gap, hgap, rfl⟩
  · cases hcolon

/-- The texts of a member whose value meets an unknown key. -/
theorem readMember_eq_unknown {seen : List String} {name : String} {input : List UInt8}
    {fault : JsonFault} (hread : form.readMember seen name input = .error fault)
    (hunknown : fault.error.isUnknownField = true) :
    form.field? name = none ∨ ∃ field gap tail, form.field? name = some field ∧ Blank gap ∧
      input = gap ++ 0x3a :: tail ∧ field.read tail = .error fault := by
  rcases readMember_cases form seen name with
    ⟨hname, -⟩ | ⟨-, hmember⟩ | ⟨field, hfield, hmember⟩
  · exact .inl hname
  · rw [hmember] at hread
    have hfamiliar : Familiar ((failObject (.duplicateField name) : JsonReader (ρ → ρ)) input) :=
      familiar_failObject rfl input
    rw [hfamiliar fault hread] at hunknown
    cases hunknown
  · rw [hmember] at hread
    rcases readBind_eq_error hread with hcolon | ⟨_, tail, hcolon, hvalue⟩
    · rw [familiar_readColon input fault hcolon] at hunknown
      cases hunknown
    · obtain ⟨gap, hgap, rfl⟩ := readColon_eq_ok hcolon
      exact .inr ⟨field, gap, tail, hfield, hgap, rfl, hvalue⟩

theorem familiar_finish (seen : List String) (record : ρ) (input : List UInt8) :
    Familiar (form.finish seen record input) := by
  rw [finish]
  cases form.missing? seen with
  | some field => exact familiar_fail rfl input
  | none => exact familiar_pure record input

/-- After the end of a list there are no more values. -/
theorem familiar_readInOrder_end : ∀ {fields : List (Field ρ)} (index : Nat) (record : ρ)
    (rest : List UInt8), Familiar (form.readInOrder index record fields (0x5d :: rest))
  | [], index, record, rest => .bind familiar_endList (fun _ => familiar_pure record) _
  | field :: fields, index, record, rest => by
    rw [readInOrder, bind_of_ok (nextElement_end _ rest), if_neg Bool.false_ne_true]
    split
    · exact .bind familiar_endList (fun _ => familiar_fail rfl) _
    · exact familiar_readInOrder_end (index + 1) record rest

namespace Strict

variable (h : form.Strict)
include h

/-- A member that is read, with blank space after it. -/
theorem exists_isMember {seen : List String} {key mid rest : List UInt8} {name : String}
    {put : ρ → ρ} (hkey : IsKey key name)
    (hread : form.readMember seen name mid = .ok (put, rest)) :
    ∃ more, mid = more ++ rest ∧ ∀ w, Blank w → IsMember (key ++ (more ++ w)) := by
  rcases readMember_cases form seen name with
    ⟨-, hmember⟩ | ⟨-, hmember⟩ | ⟨field, hfield, hmember⟩
  · rw [hmember] at hread
    exact absurd hread failObject_ne_ok
  · rw [hmember] at hread
    exact absurd hread failObject_ne_ok
  · rw [hmember] at hread
    obtain ⟨_, mid, hcolon, hvalue⟩ := readBind_eq_ok hread
    obtain ⟨gap, hgap, rfl⟩ := readColon_eq_ok hcolon
    obtain ⟨value, rfl, hused, -⟩ := (h.fields field (mem_of_field? hfield).1).takes [] hvalue
    have hbalanced : Balanced value := hused
    exact ⟨gap ++ 0x3a :: value, by simp, fun w hw =>
      ⟨key ++ gap, value ++ w, name, by simp, hkey.spells hgap, hbalanced.append hw.balanced⟩⟩

/-- An object that is read consists of members. -/
theorem readMembers_eq_ok : ∀ {fuel : Nat} {first : Bool} {seen : List String} {record r : ρ}
    {input rest : List UInt8}, form.readMembers first seen record fuel input = .ok (r, rest) →
      ∃ w items, Blank w ∧ (∀ item ∈ items, IsMember item) ∧
        input = w ++ (listed first items ++ 0x7d :: rest)
  | 0, first, seen, record, r, input, rest, hread => by cases hread
  | fuel + 1, first, seen, record, r, input, rest, hread => by
    rw [readMembers_strict h.strict] at hread
    obtain ⟨next, mid, hnext, hmembers⟩ := readBind_eq_ok hread
    obtain ⟨w, hw, ⟨rfl, rfl⟩ | ⟨name, key, rfl, hkey, rfl⟩⟩ := nextKey_eq_ok hnext
    · have hmid : mid = rest := by
        dsimp only [finish] at hmembers
        cases hmissing : form.missing? seen with
        | some field =>
          rw [hmissing] at hmembers
          cases hmembers
        | none =>
          rw [hmissing] at hmembers
          exact (Prod.mk.inj (Except.ok.inj hmembers)).2
      exact ⟨w, [], hw, by simp, by rw [hmid, listed_nil, List.nil_append]⟩
    · obtain ⟨put, rest', hmember, hothers⟩ := readBind_eq_ok hmembers
      obtain ⟨more, rfl, hitem⟩ := h.exists_isMember hkey hmember
      obtain ⟨w', items, hw', hitems, rfl⟩ := readMembers_eq_ok hothers
      refine ⟨w, (key ++ (more ++ w')) :: items, hw,
        List.forall_mem_cons.2 ⟨hitem w' hw', hitems⟩, ?_⟩
      simp [listed_cons]

/-- An object meets an unknown key after members that are read: it is one of its own
    keys, or one within the value of a field. -/
theorem readMembers_eq_unknown {fault : JsonFault} (hunknown : fault.error.isUnknownField = true) :
    ∀ {fuel : Nat} {first : Bool} {seen : List String} {record : ρ} {input : List UInt8},
      form.readMembers first seen record fuel input = .error fault →
      ∃ w before key name rest, Blank w ∧ (∀ item ∈ before, IsMember item) ∧ IsKey key name ∧
        input = w ++ (listed first (before ++ [key]) ++ rest) ∧
        (form.field? name = none ∨ ∃ field gap tail, form.field? name = some field ∧ Blank gap ∧
          rest = gap ++ 0x3a :: tail ∧ field.read tail = .error fault)
  | 0, first, seen, record, input, hread => by
    obtain rfl := Except.error.inj hread
    cases hunknown
  | fuel + 1, first, seen, record, input, hread => by
    rw [readMembers_strict h.strict] at hread
    rcases readBind_eq_error hread with hnext | ⟨next, mid, hnext, hmembers⟩
    · rw [familiar_nextKey first input fault hnext] at hunknown
      cases hunknown
    · obtain ⟨w, hw, ⟨rfl, rfl⟩ | ⟨name, key, rfl, hkey, rfl⟩⟩ := nextKey_eq_ok hnext
      · rw [familiar_finish seen record mid fault hmembers] at hunknown
        cases hunknown
      · rcases readBind_eq_error hmembers with hmember | ⟨put, rest, hmember, hothers⟩
        · refine ⟨w, [], key, name, mid, hw, by simp, hkey, by simp [listed_cons, listed_nil], ?_⟩
          exact readMember_eq_unknown hmember hunknown
        · -- this member has been read, so the error is in one of the others
          obtain ⟨more, rfl, hitem⟩ := h.exists_isMember hkey hmember
          obtain ⟨w', before, key', name', rest', hw', hbefore, hkey', rfl, hcause⟩ :=
            readMembers_eq_unknown hunknown hothers
          refine ⟨w, (key ++ (more ++ w')) :: before, key', name', rest', hw,
            List.forall_mem_cons.2 ⟨hitem w' hw', hbefore⟩, hkey', ?_, hcause⟩
          simp [listed_cons]

/-- A list meets one after elements that are read, within the value of a field. -/
theorem readInOrder_eq_unknown {fault : JsonFault} (hunknown : fault.error.isUnknownField = true) :
    ∀ {fields : List (Field ρ)} {index : Nat} {record : ρ} {input : List UInt8},
      (∀ field ∈ fields, field ∈ form.fields) →
      form.readInOrder index record fields input = .error fault →
      ∃ w before gap tail field, Blank w ∧ (∀ item ∈ before, IsElement item) ∧ Blank gap ∧
        input = w ++ (listed (index == 0) (before ++ [gap]) ++ tail) ∧
        fields[before.length]? = some field ∧ field.read tail = .error fault
  | [], index, record, input, _, hread => by
    rcases readBind_eq_error hread with hend | ⟨_, mid, -, hread⟩
    · rw [familiar_endList input fault hend] at hunknown
      cases hunknown
    · cases hread
  | field :: fields, index, record, input, hfields, hread => by
    obtain ⟨hfield, hfields⟩ := List.forall_mem_cons.1 hfields
    rw [readInOrder] at hread
    rcases readBind_eq_error hread with hnext | ⟨more, mid, hnext, hvalues⟩
    · rw [familiar_nextElement _ input fault hnext] at hunknown
      cases hunknown
    · obtain ⟨b, rest, rfl, hb, ⟨rfl, rfl, w, hw, rfl⟩ | ⟨rfl, hend, w, gap, hw, hgap, rfl⟩⟩ :=
        nextElement_eq_ok hnext
      · have hfamiliar : Familiar (form.readInOrder index record (field :: fields) _) :=
          familiar_readInOrder_end index record rest
        rw [readInOrder, bind_of_ok (nextElement_end _ rest)] at hfamiliar
        rw [hfamiliar fault hvalues] at hunknown
        cases hunknown
      · rw [if_pos rfl] at hvalues
        rcases readBind_eq_error hvalues with hvalue | ⟨put, rest', hvalue, hvalues⟩
        · exact ⟨w, [], gap, b :: rest, field, hw, by simp, hgap,
            by simp [listed_cons, listed_nil], rfl, hvalue⟩
        · have hreader := h.fields field hfield
          obtain ⟨value, hinput, hused, -⟩ := hreader.takes [] hvalue
          have hbalanced : Balanced value := hused
          obtain ⟨w', before, gap', tail, field', hw', hbefore, hgap', rfl, hfield', hcause⟩ :=
            readInOrder_eq_unknown hunknown hfields hvalues
          have hitem : IsElement (gap ++ (value ++ w')) := by
            refine ⟨hgap.balanced.append (hbalanced.append hw'.balanced), b, ?_, hb⟩
            cases value with
            | nil =>
              have heats := hreader.eats hvalue
              rw [hinput] at heats
              exact absurd heats (Nat.lt_irrefl _)
            | cons c value =>
              obtain ⟨rfl, -⟩ := List.cons.inj hinput
              simp
          refine ⟨w, (gap ++ (value ++ w')) :: before, gap', tail, field', hw,
            List.forall_mem_cons.2 ⟨hitem, hbefore⟩, hgap', ?_, hfield', hcause⟩
          rw [List.append_assoc, List.append_assoc, hinput]
          simp [listed_cons]

/-- An object that is read is written as one. -/
theorem exists_objectText {tail : List UInt8} {r : ρ × List UInt8}
    (hread : form.read (0x7b :: tail) = .ok r) :
    ∃ inner items, Blank inner ∧ (∀ item ∈ items, IsMember item) ∧
      0x7b :: tail = objectText inner items ++ r.2 := by
  rw [h.read_object (Nat.lt_succ_self _)] at hread
  obtain ⟨r, rest⟩ := r
  obtain ⟨inner, items, hinner, hitems, rfl⟩ := h.readMembers_eq_ok hread
  exact ⟨inner, items, hinner, hitems, by simp [objectText, listed]⟩

/-- An error about an unknown key is about a key of the record itself, or about one
    in the value of a field. -/
theorem read_eq_unknown {input : List UInt8} {fault : JsonFault}
    (hunknown : fault.error.isUnknownField = true) (hread : form.read input = .error fault) :
    ∃ w text, Blank w ∧ input = w ++ text ∧
      ((∃ name, form.field? name = none ∧ HasKey name text) ∨
        ∃ field ∈ form.fields, ∃ lead tail, text = lead ++ tail ∧ form.LeadsTo field.name lead ∧
          field.read tail = .error fault) := by
  cases hskip : skipBlank input with
  | nil =>
    rw [read, hskip] at hread
    obtain rfl := Except.error.inj hread
    cases hunknown
  | cons b rest =>
    obtain ⟨-, w, hw, rfl⟩ := skipBlank_eq_cons hskip
    refine ⟨w, b :: rest, hw, rfl, ?_⟩
    rw [read, hskip] at hread
    dsimp only at hread
    split at hread
    · rename_i hb
      obtain rfl : b = 0x5b := by simpa using hb
      obtain ⟨inner, before, gap, tail, field, hinner, hbefore, hgap, rfl, hfield, hcause⟩ :=
        h.readInOrder_eq_unknown hunknown (fun _ => id) hread
      have hname : form.fieldNames[before.length]? = some field.name := by
        rw [fieldNames, List.getElem?_map, hfield, Option.map_some]
      exact .inr ⟨field, List.mem_of_getElem? hfield, _, tail, by simp [listed],
        .element hinner hbefore hname hgap, hcause⟩
    · split at hread
      · rename_i hb
        obtain rfl : b = 0x7b := by simpa using hb
        obtain ⟨inner, before, key, name, rest, hinner, hbefore, hkey, rfl, hcause⟩ :=
          h.readMembers_eq_unknown hunknown hread
        rcases hcause with hname | ⟨field, gap, tail, hfield, hgap, rfl, hcause⟩
        · exact .inl ⟨name, hname, inner, before, key, rest, rfl, hinner, hbefore,
            by simpa using hkey.spells blank_nil⟩
        · obtain ⟨hmem, rfl⟩ := mem_of_field? hfield
          refine .inr ⟨field, hmem, 0x7b :: (inner ++ listed true (before ++
            [key ++ gap ++ 0x3a :: []])), tail, ?_, .member hinner hbefore (hkey.spells hgap)
            blank_nil, hcause⟩
          simp [listed_append, listed_cons, listed_nil]
      · obtain rfl := Except.error.inj hread
        rw [familiar_mismatch] at hunknown
        cases hunknown

end Strict

theorem field?_eq_none {name : String} : form.field? name = none ↔ name ∉ form.fieldNames := by
  simp [field?, fieldNames]

/-! ## Records within records -/

/-- One field of a form holds a record of another form, and all others are plain. -/
structure Nests {σ : Type} (form : RecordForm ρ) (name : String) (inner : RecordForm σ) :
    Prop where
  strict : form.strict = true
  fields : ∀ field ∈ form.fields, (field.name ≠ name ∧ PlainReader field.read) ∨
    (field.name = name ∧ ∃ put : σ → ρ → ρ, field.read = (put <$> inner.read))

namespace Nests

variable {σ : Type} {name : String} {inner : RecordForm σ} (h : form.Nests name inner)
  (hinner : inner.Strict)
include h hinner

theorem toStrict : form.Strict where
  strict := h.strict
  fields field hfield := by
    rcases h.fields field hfield with ⟨-, hplain⟩ | ⟨-, put, hread⟩
    · exact hplain.value
    · rw [hread]
      exact hinner.valueReader.map put

/-- The error of the record within is that of the record. -/
theorem read_of_inner {lead tail tail' : List UInt8} {r : ρ × List UInt8}
    (hlead : form.LeadsTo name lead) (htail : Opening tail) (htail' : Opening tail')
    (hread : form.read (lead ++ tail) = .ok r) :
    (∃ y, inner.read tail = .ok y) ∧
      ∀ fault, inner.read tail' = .error fault → form.read (lead ++ tail') = .error fault := by
  obtain ⟨field, hfield, hname, ⟨⟨x, rest⟩, hok⟩, herror⟩ :=
    (h.toStrict hinner).read_of_field hlead htail htail' hread
  obtain ⟨put, hput⟩ := ((h.fields field hfield).resolve_left fun hother => hother.1 hname).2
  rw [hput, map_eq_pure_bind] at hok herror
  obtain ⟨y, mid, hy, -⟩ := readBind_eq_ok hok
  exact ⟨⟨_, hy⟩, fun fault hfault => herror fault (readBind_of_error hfault)⟩

/-- An error about an unknown key is about a key of the record or of the one within. -/
theorem read_eq_unknown {input : List UInt8} {fault : JsonFault}
    (hunknown : fault.error.isUnknownField = true) (hread : form.read input = .error fault) :
    ∃ w text, Blank w ∧ input = w ++ text ∧ ((∃ key, key ∉ form.fieldNames ∧ HasKey key text) ∨
      ∃ lead tail, text = lead ++ tail ∧ form.LeadsTo name lead ∧
        inner.read tail = .error fault) := by
  obtain ⟨w, text, hw, rfl, ⟨key, hkey, hhas⟩ | ⟨field, hfield, lead, tail, rfl, hlead, hcause⟩⟩ :=
    (h.toStrict hinner).read_eq_unknown hunknown hread
  · exact ⟨w, text, hw, rfl, .inl ⟨key, field?_eq_none.1 hkey, hhas⟩⟩
  · refine ⟨w, lead ++ tail, hw, rfl, .inr ⟨lead, tail, rfl, ?_⟩⟩
    rcases h.fields field hfield with ⟨-, hplain⟩ | ⟨rfl, put, hput⟩
    · rw [hplain.familiar tail fault hcause] at hunknown
      cases hunknown
    · rw [hput, map_eq_pure_bind] at hcause
      rcases readBind_eq_error hcause with hcause | ⟨y, mid, -, hcause⟩
      · exact ⟨hlead, hcause⟩
      · cases hcause

end Nests

end RecordForm

end FuzzyPath
