/-
  FuzzyPath — a key that stands twice.

  A value that is passed over unread ends where it would end if it were read:
  before a delimiter that stands outside of its own strings and brackets.  So an
  object is read one member after another, whether its keys are known or not, and a
  field that comes again has been seen.

  * `Spans` says how far a look at a text comes with some bytes of it, `Passes` that
    a reader takes balanced bytes only;
  * `SkipSpans` says the same of what passes over values, step by step, and
    `skipFrom_spans` and `passes_skipValue` that it holds;
  * `RecordForm.readMembers_past` is the step over one member, and
    `RecordForm.not_readMembers_seen` and `RecordForm.not_readMembers_twice` are the
    runs over those in front of a repeated key;
  * `RecordForm.decode_twice`: an object with a known key twice is never decoded.
-/
import FuzzyPath.Proofs.Json.UnknownKeys

namespace FuzzyPath

namespace Json

open Scan

variable {α : Type}

/-! ## What is taken of a text -/

/-- The bytes of `input` in front of `rest` lead from `s` to `t`. -/
def Spans (s t : Scan) (input rest : List UInt8) : Prop :=
  ∃ used, input = used ++ rest ∧ s.through used = some t

namespace Spans

variable {s t u : Scan} {input mid rest : List UInt8} {b : UInt8} {closing : List UInt8}

theorem refl (s : Scan) (input : List UInt8) : Spans s s input input := ⟨[], rfl, rfl⟩

theorem trans (h : Spans s t input mid) (h' : Spans t u mid rest) : Spans s u input rest := by
  obtain ⟨front, rfl, hfront⟩ := h
  obtain ⟨back, rfl, hback⟩ := h'
  exact ⟨front ++ back, (List.append_assoc ..).symm, through_append_of hfront hback⟩

theorem cons (hb : s.step b = some t) (h : Spans t u input rest) : Spans s u (b :: input) rest := by
  obtain ⟨used, rfl, hused⟩ := h
  exact ⟨b :: used, rfl, by rw [through_cons, hb]; exact hused⟩

theorem plain (hb : Plain b) (h : Spans (outside closing) t input rest) :
    Spans (outside closing) t (b :: input) rest :=
  h.cons (by simpa using through_plain closing (List.forall_mem_singleton.2 hb))

theorem afterBlank (hskip : skipBlank input = mid) (h : Spans (outside closing) t mid rest) :
    Spans (outside closing) t input rest := by
  obtain ⟨w, hw, hinput⟩ := exists_skipBlank input
  rw [hskip] at hinput
  exact Spans.trans ⟨w, hinput, hw.through closing⟩ h

end Spans

/-- What a reader takes is balanced. -/
def Passes (reader : JsonReader α) : Prop :=
  ∀ ⦃input x rest⦄, reader input = .ok (x, rest) → Spans (outside []) (outside []) input rest

theorem ValueReader.passes {reader : JsonReader α} (h : ValueReader reader) : Passes reader := by
  rintro input x rest hread
  obtain ⟨used, hinput, hused, -⟩ := h.takes [] hread
  exact ⟨used, hinput, hused⟩

theorem readColon_spans (closing : List UInt8) {input rest : List UInt8}
    (h : readColon input = .ok ((), rest)) :
    Spans (outside closing) (outside closing) input rest := by
  obtain ⟨used, hinput, hused, -⟩ := local_readColon closing h
  exact ⟨used, hinput, hused⟩

/-! ## Passing over values -/

section
variable (closing : List UInt8) {input rest : List UInt8}

theorem skipText_spans (h : skipText input = .ok rest) :
    Spans (inText closing) (outside closing) input rest := by
  fun_induction skipText input with
  | case2 b input hb =>
    obtain rfl := Except.ok.inj h
    obtain rfl : b = 0x22 := by simpa using hb
    exact (Spans.refl _ _).cons rfl
  | case6 b hquote hcontrol hslash e he h1 h2 h3 h4 input n hn ih =>
    obtain rfl : b = 0x5c := by simpa using hslash
    obtain rfl : e = 0x75 := by simpa using he
    have hescape : Spans (inText closing) (inText closing)
        (0x5c :: 0x75 :: h1 :: h2 :: h3 :: h4 :: input) input :=
      ⟨[0x5c, 0x75] ++ [h1, h2, h3, h4], rfl,
        through_append_of (through_escape closing _) (through_hexValue4? hn closing)⟩
    exact hescape.trans (ih h)
  | case8 b hquote hcontrol hslash e input he byte hbyte ih =>
    obtain rfl : b = 0x5c := by simpa using hslash
    have hescape : Spans (inText closing) (inText closing) (0x5c :: e :: input) input :=
      ⟨[0x5c, e], rfl, through_escape closing e⟩
    exact hescape.trans (ih h)
  | case10 b input hquote hcontrol hslash ih =>
    exact (ih h).cons (by simp_all [step, inText])
  | _ => cases h

theorem spans_digits (input : List UInt8) :
    Spans (outside closing) (outside closing) input (input.dropWhile isDigit) :=
  ⟨input.takeWhile isDigit, List.takeWhile_append_dropWhile.symm,
    through_plain closing fun _ hb => plain_of_isDigit (List.mem_takeWhile_imp hb)⟩

theorem skipDigits_spans (h : skipDigits input = .ok rest) :
    Spans (outside closing) (outside closing) input rest := by
  cases input with
  | nil => cases h
  | cons b input =>
    rw [skipDigits] at h
    split at h
    · rename_i hb
      obtain rfl := Except.ok.inj h
      exact (spans_digits closing input).plain (plain_of_isDigit hb)
    · cases h

theorem plain_of_isExponentMark {b : UInt8} (h : isExponentMark b = true) : Plain b := by
  simp only [isExponentMark, Bool.or_eq_true, beq_iff_eq] at h
  rcases h with rfl | rfl <;> decide

theorem plain_of_isSign {b : UInt8} (h : (b == 0x2b || b == 0x2d) = true) : Plain b := by
  simp only [Bool.or_eq_true, beq_iff_eq] at h
  rcases h with rfl | rfl <;> decide

theorem skipExponent_spans (h : skipExponent input = .ok rest) :
    Spans (outside closing) (outside closing) input rest := by
  cases input with
  | nil =>
    obtain rfl := Except.ok.inj h
    exact .refl _ _
  | cons b input =>
    rw [skipExponent.eq_def] at h
    dsimp only at h
    split at h
    · rename_i hb
      cases input with
      | nil => cases h
      | cons s after =>
        dsimp only at h
        split at h
        · rename_i hs
          exact ((skipDigits_spans closing h).plain (plain_of_isSign hs)).plain
            (plain_of_isExponentMark hb)
        · exact (skipDigits_spans closing h).plain (plain_of_isExponentMark hb)
    · obtain rfl := Except.ok.inj h
      exact .refl _ _

theorem skipUnsigned_spans (h : skipUnsigned input = .ok rest) :
    Spans (outside closing) (outside closing) input rest := by
  cases input with
  | nil => cases h
  | cons b input =>
    rw [skipUnsigned] at h
    split at h
    · cases h
    · rename_i hb
      split at h
      · cases h
      · refine .plain (plain_of_isDigit (by simpa using hb)) ((spans_digits closing input).trans ?_)
        split at h
        · rename_i p after hdrop
          rw [hdrop]
          split at h
          · rename_i hp
            obtain rfl : p = 0x2e := by simpa using hp
            obtain ⟨mid, hmid, h⟩ := bind_eq_ok h
            exact .plain (by decide) ((skipDigits_spans closing hmid).trans
              (skipExponent_spans closing h))
          · exact skipExponent_spans closing h
        · rename_i hdrop
          obtain rfl := Except.ok.inj h
          rw [hdrop]
          exact .refl _ _

theorem skipNumber_spans (h : skipNumber input = .ok rest) :
    Spans (outside closing) (outside closing) input rest := by
  cases input with
  | nil => cases h
  | cons b input =>
    rw [skipNumber] at h
    split at h
    · rename_i hb
      obtain rfl : b = 0x2d := by simpa using hb
      exact .plain (by decide) (skipUnsigned_spans closing h)
    · exact skipUnsigned_spans closing h

theorem readLiteral_spans {name : List UInt8} (hname : ∀ b ∈ name, Plain b)
    (h : readLiteral name input = .ok rest) :
    Spans (outside closing) (outside closing) input rest :=
  ⟨name, readLiteral_eq_ok h, through_plain closing hname⟩

end

/-- The bracket that ends an object or a list. -/
def closingBracket (isObject : Bool) : UInt8 := if isObject then 0x7d else 0x5d

theorem step_closingBracket (object : Bool) (closing : List UInt8) :
    (outside (closingBracket object :: closing)).step (closingBracket object) =
      some (outside closing) := by
  cases object <;> simp [step, outside, closingBracket]

theorem step_comma (c : UInt8) (closing : List UInt8) :
    (outside (c :: closing)).step 0x2c = some (outside (c :: closing)) := by
  simp [step, outside]

/-- What `fuel` steps pass over ends with the last closing bracket of a value. -/
def SkipSpans (fuel : Nat) : Prop :=
  ∀ ⦃isObject : List Bool⦄ ⦃next : Skipping⦄ ⦃input rest : List UInt8⦄,
    skipFrom isObject next fuel input = .ok rest →
      Spans (outside (isObject.map closingBracket)) (outside []) input rest

namespace SkipSpans

variable {fuel : Nat} (hskip : SkipSpans fuel) {isObject : List Bool} {input rest : List UInt8}
include hskip

/-- A literal is passed over, and then what follows the value. -/
theorem literal {b first : UInt8} {name : List UInt8} (hb : (b == first) = true)
    (hname : ∀ b ∈ first :: name, Plain b)
    (h : (readLiteral name input >>= skipFrom isObject .rest fuel) = .ok rest) :
    Spans (outside (isObject.map closingBracket)) (outside []) (b :: input) rest := by
  obtain rfl : b = first := eq_of_beq hb
  obtain ⟨hfirst, hname⟩ := List.forall_mem_cons.1 hname
  obtain ⟨mid, hmid, h⟩ := bind_eq_ok h
  exact .plain hfirst ((readLiteral_spans _ hname hmid).trans (hskip h))

theorem value (h : skipFrom isObject .value (fuel + 1) input = .ok rest) :
    Spans (outside (isObject.map closingBracket)) (outside []) input rest := by
  rw [skipFrom] at h
  split at h
  · cases h
  rename_i b more hblank
  refine .afterBlank hblank ?_
  split at h
  · rename_i hb
    exact hskip.literal hb (by decide +kernel) h
  split at h
  · rename_i hb
    exact hskip.literal hb (by decide +kernel) h
  split at h
  · rename_i hb
    exact hskip.literal hb (by decide +kernel) h
  split at h
  · obtain ⟨mid, hmid, h⟩ := bind_eq_ok h
    exact (skipNumber_spans _ hmid).trans (hskip h)
  split at h
  · rename_i hb
    obtain rfl : b = 0x22 := eq_of_beq hb
    obtain ⟨mid, hmid, h⟩ := bind_eq_ok h
    exact ((skipText_spans _ hmid).trans (hskip h)).cons rfl
  split at h
  · rename_i hb
    have hopen : (outside (isObject.map closingBracket)).step b =
        some (outside (((b == 0x7b) :: isObject).map closingBracket)) := by
      simp only [Bool.or_eq_true, beq_iff_eq] at hb
      rcases hb with rfl | rfl <;> rfl
    have hclosing : (if b == 0x7b then (0x7d : UInt8) else 0x5d) =
      closingBracket (b == 0x7b) := rfl
    refine .cons hopen ?_
    rw [hclosing] at h
    dsimp only at h
    split at h
    · cases h
    · rename_i c after hinner
      refine .afterBlank hinner ?_
      -- the bracket closes at once, or has something in it
      split at h
      · rename_i hc
        obtain rfl := eq_of_beq hc
        exact (hskip h).cons (step_closingBracket _ _)
      · exact hskip h
  · cases h

theorem entry (h : skipFrom isObject .entry (fuel + 1) input = .ok rest) :
    Spans (outside (isObject.map closingBracket)) (outside []) input rest := by
  match isObject, h with
  | true :: outer, h =>
    rw [skipFrom] at h
    split at h
    · cases h
    · rename_i b more hblank
      refine .afterBlank hblank ?_
      split at h
      · rename_i hb
        obtain rfl : b = 0x22 := eq_of_beq hb
        obtain ⟨mid, hmid, h⟩ := bind_eq_ok h
        obtain ⟨⟨_, mid'⟩, hcolon, h⟩ := bind_eq_ok h
        exact ((skipText_spans _ hmid).trans
          ((readColon_spans _ hcolon).trans (hskip h))).cons rfl
      · cases h
  | false :: outer, h =>
    have hvalue : skipFrom (false :: outer) .value fuel input = .ok rest := h
    exact hskip hvalue
  | [], h =>
    have hvalue : skipFrom [] .value fuel input = .ok rest := h
    exact hskip hvalue

theorem afterValue (h : skipFrom isObject .rest (fuel + 1) input = .ok rest) :
    Spans (outside (isObject.map closingBracket)) (outside []) input rest := by
  match isObject, h with
  | [], h =>
    obtain rfl := Except.ok.inj h
    exact .refl _ _
  | object :: outer, h =>
    rw [skipFrom] at h
    split at h
    · cases h
    · rename_i b more hblank
      refine .afterBlank hblank ?_
      split at h
      · rename_i hb
        obtain rfl : b = 0x2c := eq_of_beq hb
        exact (hskip h).cons (step_comma _ _)
      · have hclosing : (if object then (0x7d : UInt8) else 0x5d) = closingBracket object := rfl
        rw [hclosing] at h
        split at h
        · rename_i hb
          obtain rfl : b = closingBracket object := eq_of_beq hb
          exact (hskip h).cons (step_closingBracket _ _)
        · cases h

end SkipSpans

/-- What is left of a value is passed over up to the last of its closing brackets. -/
theorem skipFrom_spans : ∀ fuel : Nat, SkipSpans fuel
  | 0 => fun _ _ _ _ h => by cases h
  | fuel + 1 => fun _ next _ _ h =>
    match next, h with
    | .value, h => (skipFrom_spans fuel).value h
    | .entry, h => (skipFrom_spans fuel).entry h
    | .rest, h => (skipFrom_spans fuel).afterValue h

theorem passes_skipValue : Passes skipValue := by
  rintro input x rest h
  obtain ⟨rest', hskip, heq⟩ := map_eq_ok h
  obtain ⟨-, rfl⟩ := Prod.mk.inj heq
  exact skipFrom_spans _ hskip

/-! ## Members -/

/-- A text begins with an object that has the key `name` after members that are
    complete, one of which has it too. -/
def HasKeyTwice (name : String) (text : List UInt8) : Prop :=
  ∃ inner before key rest,
    text = 0x7b :: (inner ++ ([0x2c].intercalate (before ++ [key]) ++ rest)) ∧
    Blank inner ∧ (∀ item ∈ before, IsMember item) ∧ (∃ item ∈ before, IsMemberOf name item) ∧
    Spells key name

end Json

namespace RecordForm

open Json

variable {ρ : Type} {form : RecordForm ρ} {first : Bool} {seen : List String} {record : ρ}
  {fuel : Nat} {name : String} {key : List UInt8} {r : ρ × List UInt8}

theorem exists_field? (hname : name ∈ form.fieldNames) :
    ∃ field, form.field? name = some field :=
  Option.ne_none_iff_exists'.1 fun hnone => field?_eq_none.1 hnone hname

/-- A field that has been read before is not read again. -/
theorem not_readMembers_seen (hkey : IsKey key name) (hname : name ∈ form.fieldNames)
    (hseen : name ∈ seen) (rest : List UInt8) :
    form.readMembers first seen record fuel (separator first ++ key ++ rest) ≠ .ok r := by
  intro hread
  cases fuel with
  | zero => cases hread
  | succ fuel =>
    obtain ⟨field, hfield⟩ := exists_field? hname
    rw [readMembers_field hkey hfield, if_pos hseen] at hread
    exact failObject_ne_ok hread

/-- An object that is read goes on after each member, known or not; the fields seen
    then are those before, and the member's own. -/
theorem readMembers_past (hfields : ∀ field ∈ form.fields, Passes field.read)
    {more tail : List UInt8} (hkey : IsKey key name) (hmore : Balanced more)
    (htail : Delimited tail)
    (hread : form.readMembers first seen record fuel (separator first ++ key ++ (more ++ tail)) =
      .ok r) :
    ∃ seen' record' fuel', (∀ other ∈ seen, other ∈ seen') ∧
      (name ∈ form.fieldNames → name ∈ seen') ∧
      form.readMembers false seen' record' fuel' tail = .ok r := by
  -- what is read next begins after the delimiter that ends the member
  have hpast {seen' : List String} {record' : ρ} {fuel' : Nat} {rest : List UInt8}
      (hspans : Spans (.outside []) (.outside []) (more ++ tail) rest)
      (hread : form.readMembers false seen' record' fuel' rest = .ok r) :
      form.readMembers false seen' record' fuel' tail = .ok r := by
    obtain ⟨hrest, fuel', rfl⟩ := delimited_of_readMembers hread
    obtain ⟨used, hinput, hused⟩ := hspans
    obtain ⟨w, hw, -, rfl⟩ := exists_blank_of_append hused hmore htail hrest hinput
    rwa [readMembers_blank hw] at hread
  cases fuel with
  | zero => cases hread
  | succ fuel =>
    cases hfield : form.field? name with
    | some field =>
      rw [readMembers_field hkey hfield] at hread
      split at hread
      · exact absurd hread failObject_ne_ok
      · obtain ⟨_, mid, hcolon, hread⟩ := readBind_eq_ok hread
        obtain ⟨put, rest, hvalue, hread⟩ := readBind_eq_ok hread
        have hspans := (readColon_spans [] hcolon).trans
          (hfields field (mem_of_field? hfield).1 hvalue)
        exact ⟨name :: seen, put record, fuel, fun _ => List.mem_cons_of_mem name,
          fun _ => List.mem_cons_self, hpast hspans hread⟩
    | none =>
      rw [readMembers_unknown hkey hfield] at hread
      split at hread
      · exact absurd hread failObject_ne_ok
      · obtain ⟨_, mid, hcolon, hread⟩ := readBind_eq_ok hread
        obtain ⟨_, rest, hvalue, hread⟩ := readBind_eq_ok hread
        have hspans := (readColon_spans [] hcolon).trans (passes_skipValue hvalue)
        exact ⟨seen, record, fuel, fun _ => id,
          fun hname => absurd hname (field?_eq_none.1 hfield), hpast hspans hread⟩

/-- Whatever other members there are, a field is not read again after them if it has
    been read before, or by one of them. -/
theorem not_readMembers_twice (hfields : ∀ field ∈ form.fields, Passes field.read)
    (hkey : IsKey key name) (hname : name ∈ form.fieldNames) (rest : List UInt8) :
    ∀ {before : List (List UInt8)} {first : Bool} {seen : List String} {record : ρ} {fuel : Nat},
      (∀ item ∈ before, IsMember item) →
      name ∈ seen ∨ (∃ item ∈ before, IsMemberOf name item) →
      form.readMembers first seen record fuel (listed first (before ++ [key]) ++ rest) ≠ .ok r
  | [], first, seen, record, fuel, _, hseen => by
    have hseen : name ∈ seen := hseen.resolve_right (by simp)
    rw [List.nil_append, listed_cons, listed_nil, List.append_nil]
    exact not_readMembers_seen hkey hname hseen rest
  | item :: before, first, seen, record, fuel, hbefore, hseen => by
    intro hread
    obtain ⟨hitem, hothers⟩ := List.forall_mem_cons.1 hbefore
    obtain ⟨name', hitem, hcase⟩ : ∃ name', IsMemberOf name' item ∧
        (name ∈ seen ∨ name' = name ∨ ∃ other ∈ before, IsMemberOf name other) := by
      obtain ⟨name', hname'⟩ := isMember_iff.1 hitem
      rcases hseen with hseen | ⟨other, hother, hmember⟩
      · exact ⟨name', hname', .inl hseen⟩
      · rcases List.mem_cons.1 hother with rfl | hother
        · exact ⟨name, hmember, .inr (.inl rfl)⟩
        · exact ⟨name', hname', .inr (.inr ⟨other, hother, hmember⟩)⟩
    obtain ⟨key', more, rfl, hkey', hmore⟩ := hitem.exists_isKey
    have htail : Delimited (listed false (before ++ [key]) ++ rest) :=
      delimited_listed fun hnil => absurd hnil (by simp)
    rw [List.cons_append, listed_cons, ← List.append_assoc, List.append_assoc _ _ rest,
      List.append_assoc _ more] at hread
    obtain ⟨seen', record', fuel', hkept, hown, hread⟩ :=
      readMembers_past hfields hkey' hmore htail hread
    refine not_readMembers_twice hfields hkey hname rest hothers ?_ hread
    rcases hcase with hseen | rfl | hlater
    · exact .inl (hkept name hseen)
    · exact .inl (hown hname)
    · exact .inr hlater

/-- An object that has a key of the form twice is not decoded. -/
theorem decode_twice (hfields : ∀ field ∈ form.fields, ValueReader field.read)
    {front text : List UInt8} (hfront : Blank front) (hname : name ∈ form.fieldNames)
    (htext : HasKeyTwice name text) :
    ∃ failure, form.codec.decode (front ++ text) = .error failure := by
  obtain ⟨inner, before, key, rest, rfl, hinner, hbefore, htwice, hkey⟩ := htext
  obtain ⟨key, gap, rfl, hkey, -⟩ := hkey.exists_isKey
  have hitems : inner ++ ([0x2c].intercalate (before ++ [key ++ gap]) ++ rest) =
      inner ++ (listed true (before ++ [key]) ++ (gap ++ rest)) := by
    change inner ++ (listed true (before ++ [key ++ gap]) ++ rest) = _
    simp [listed_append, listed_cons, listed_nil]
  have hread (r : ρ × List UInt8) : form.read (front ++ 0x7b ::
      (inner ++ (listed true (before ++ [key]) ++ (gap ++ rest)))) ≠ .ok r := by
    rw [read, skipBlank_token hfront rfl]
    change form.readMembers true [] form.initial (_ + 1) _ ≠ _
    rw [readMembers_blank hinner]
    exact not_readMembers_twice (fun field hfield => (hfields field hfield).passes) hkey hname _
      hbefore (.inr htwice)
  rw [hitems, Codec.decode, readDocument, show form.codec.read = form.read from rfl]
  split
  · exact ⟨_, rfl⟩
  · rename_i hok
    exact absurd hok (hread _)

end RecordForm

end FuzzyPath
