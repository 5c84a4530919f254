/-
  FuzzyPath — readers of whole values.

  * `valueReader_boolean`, `valueReader_null` and `valueReader_string` are the
    readers of scalars, `valueReader_integer` of integers, which stand in front of
    no digit, point or exponent (`EndsNumber`);
  * `valueReader_list` and `valueReader_name` are those of lists and names;
  * `nextElement_eq_ok` and `nextElement_value` are the two directions of reading
    what stands between elements.
-/
import FuzzyPath.Proofs.Json.Local

namespace FuzzyPath.Json

open Scan

variable {α : Type}

/-! ## Strings -/

theorem step_inText_of_hexValue? {b : UInt8} {n : Nat} (h : hexValue? b = some n)
    (closing : List UInt8) : (inText closing).step b = some (inText closing) := by
  have hquote : b ≠ 0x22 := by
    rintro rfl
    cases h
  have hslash : b ≠ 0x5c := by
    rintro rfl
    cases h
  simp [step, inText, hquote, hslash]

theorem through_hexValue4? {a b c d : UInt8} {n : Nat} (h : hexValue4? a b c d = some n)
    (closing : List UInt8) : (inText closing).through [a, b, c, d] = some (inText closing) := by
  simp only [hexValue4?, Option.bind_eq_bind, Option.bind_eq_some_iff] at h
  obtain ⟨_, ha, _, hb, _, hc, _, hd, -⟩ := h
  simp [step_inText_of_hexValue? ha, step_inText_of_hexValue? hb, step_inText_of_hexValue? hc,
    step_inText_of_hexValue? hd]

theorem through_escape (closing : List UInt8) (e : UInt8) :
    (inText closing).through [0x5c, e] = some (inText closing) := by
  simp [step, inText]

theorem textOfBytes_eq_ok {done input rest : List UInt8} {text : String}
    (h : textOfBytes done input = .ok (text, rest)) :
    input = rest ∧ ∀ other, textOfBytes done other = .ok (text, other) := by
  simp only [textOfBytes] at h ⊢
  split at h
  · obtain ⟨rfl, rfl⟩ := Prod.mk.inj (Except.ok.inj h)
    exact ⟨rfl, fun other => rfl⟩
  · cases h

theorem local_readTextFrom (closing : List UInt8) (done : List UInt8) :
    Local (readTextFrom done) (inText closing) (fun _ => outside closing) fun _ => True := by
  rintro input x rest h
  fun_induction readTextFrom done input with
  | case2 done b input hb =>
    obtain ⟨rfl, hother⟩ := textOfBytes_eq_ok h
    obtain rfl : b = 0x22 := by simpa using hb
    refine ⟨[0x22], rfl, by simp [step, inText], fun other _ => ?_⟩
    rw [List.singleton_append, readTextFrom.eq_def]
    exact hother other
  | case13 done b hquote hcontrol hslash e he h1 h2 h3 h4 high hhigh hnot hin b' hb' e' he' l1 l2 l3
      l4 input low hlow hin' ih =>
    obtain rfl : b = 0x5c := by simpa using hslash
    obtain rfl : e = 0x75 := by simpa using he
    obtain rfl : b' = 0x5c := by simpa using hb'
    obtain rfl : e' = 0x75 := by simpa using he'
    have hthrough : (inText closing).through
        ([0x5c, 0x75] ++ [h1, h2, h3, h4] ++ [0x5c, 0x75] ++ [l1, l2, l3, l4]) =
          some (inText closing) :=
      through_append_of (through_append_of (through_append_of (through_escape closing _)
        (through_hexValue4? hhigh closing)) (through_escape closing _))
        (through_hexValue4? hlow closing)
    refine (ih h).prepend hthrough fun more y hy => ?_
    rw [readTextFrom.eq_def]
    simp [hhigh, hnot, hin, hlow, hin', hy]
  | case15 done b hquote hcontrol hslash e he h1 h2 h3 h4 input n hn hlow hhigh ih =>
    obtain rfl : b = 0x5c := by simpa using hslash
    obtain rfl : e = 0x75 := by simpa using he
    have hthrough : (inText closing).through ([0x5c, 0x75] ++ [h1, h2, h3, h4]) =
        some (inText closing) :=
      through_append_of (through_escape closing _) (through_hexValue4? hn closing)
    refine (ih h).prepend hthrough fun more y hy => ?_
    rw [readTextFrom.eq_def]
    simp [hn, hlow, hhigh, hy]
  | case17 done b hquote hcontrol hslash e input he byte hbyte ih =>
    obtain rfl : b = 0x5c := by simpa using hslash
    refine (ih h).prepend (through_escape closing e) fun more y hy => ?_
    rw [readTextFrom.eq_def]
    simp_all
  | case19 done b input hquote hcontrol hslash ih =>
    have hthrough : (inText closing).through [b] = some (inText closing) := by
      simp_all [step, inText]
    refine (ih h).prepend hthrough fun more y hy => ?_
    rw [readTextFrom.eq_def]
    simp_all
  | _ => cases h

/-! ## Scalars -/

theorem readLiteral_append (name rest : List UInt8) :
    readLiteral name (name ++ rest) = .ok rest := by
  induction name with
  | nil => rfl
  | cons n name ih => simpa [readLiteral] using ih

theorem readLiteral_eq_ok : ∀ {name input rest : List UInt8},
    readLiteral name input = .ok rest → input = name ++ rest
  | [], input, rest, h => Except.ok.inj h
  | n :: name, [], rest, h => by cases h
  | n :: name, b :: input, rest, h => by
    rw [readLiteral] at h
    split at h
    · rename_i hb
      rw [readLiteral_eq_ok h, eq_of_beq hb, List.cons_append]
    · cases h

theorem takes_literal {name : List UInt8} (hname : ∀ b ∈ name, Plain b) (x : α)
    {closing : List UInt8} {free : List UInt8 → Prop} {input rest : List UInt8} {y : α}
    (h : (readLiteral name input).map (x, ·) = .ok (y, rest)) :
    Takes (fun input => (readLiteral name input).map (x, ·)) (outside closing) (outside closing)
      free input y rest := by
  obtain ⟨rest', hrest, hy⟩ := map_eq_ok h
  obtain ⟨rfl, rfl⟩ := Prod.mk.inj hy
  refine ⟨name, readLiteral_eq_ok hrest, through_plain closing hname, fun other _ => ?_⟩
  dsimp only
  rw [readLiteral_append]
  rfl

theorem valueReader_boolean : ValueReader readBoolean := by
  refine .afterBlank (fun _ => rfl) fun closing b rest x rest' h => ?_
  split at h
  · rename_i hb
    obtain rfl : b = 0x74 := by simpa using hb
    exact ⟨outside closing, rfl, takes_literal (by decide +kernel) true h⟩
  · split at h
    · rename_i hb
      obtain rfl : b = 0x66 := by simpa using hb
      exact ⟨outside closing, rfl, takes_literal (by decide +kernel) false h⟩
    · cases h

theorem valueReader_null : ValueReader readNull := by
  refine .afterBlank (fun _ => rfl) fun closing b rest x rest' h => ?_
  split at h
  · rename_i hb
    obtain rfl : b = 0x6e := by simpa using hb
    exact ⟨outside closing, rfl, takes_literal (by decide +kernel) () h⟩
  · cases h

theorem valueReader_string (expected : String) : ValueReader (readStringAs expected) := by
  refine .afterBlank (fun _ => rfl) fun closing b rest x rest' h => ?_
  split at h
  · rename_i hb
    obtain rfl : b = 0x22 := by simpa using hb
    exact ⟨inText closing, rfl, (local_readTextFrom closing []).weaken h⟩
  · cases h

/-! ## Integers -/

/-- What stands after a whole number: no digit, point or exponent. -/
def EndsNumber (rest : List UInt8) : Prop :=
  ∀ b ∈ rest.head?, isDigit b = false ∧ (b == 0x2e) = false ∧ isExponentMark b = false

theorem Stops.endsNumber {rest : List UInt8} (h : Stops rest) : EndsNumber rest := by
  intro b hb
  rcases h b hb with hblank | rfl | rfl | rfl
  · simp only [isBlank, Bool.or_eq_true, beq_iff_eq] at hblank
    rcases hblank with ((rfl | rfl) | rfl) | rfl <;> decide
  · decide
  · decide
  · decide

theorem floatNumber_ne_integer {negative : Bool} {significand : Nat} {e value : Int}
    {input rest : List UInt8} :
    floatNumber negative significand e input ≠ .ok (.integer value, rest) := by
  intro h
  rw [floatNumber] at h
  split at h
  · obtain ⟨hfloat, -⟩ := Prod.mk.inj (Except.ok.inj h)
    cases hfloat
  · cases h

theorem readExponent_ne_integer {negative : Bool} {significand : Nat} {e value : Int}
    {input rest : List UInt8} :
    readExponent negative significand e input ≠ .ok (.integer value, rest) := by
  intro h
  rw [readExponent.eq_def] at h
  split at h
  split at h
  · cases h
  · split at h
    · cases h
    · dsimp only at h
      split at h
      · split at h
        · cases h
        · obtain ⟨hfloat, -⟩ := Prod.mk.inj (Except.ok.inj h)
          cases hfloat
      · exact floatNumber_ne_integer h

theorem readFraction_ne_integer {negative : Bool} {significand : Nat} {e value : Int}
    {input rest : List UInt8} :
    readFraction negative significand e input ≠ .ok (.integer value, rest) := by
  intro h
  rw [readFraction] at h
  dsimp only at h
  split at h
  · cases h
  · split at h
    · split at h
      · exact readExponent_ne_integer h
      · exact floatNumber_ne_integer h
    · exact floatNumber_ne_integer h

theorem wholeNumber_eq_ok {negative : Bool} {significand dropped : Nat} {value : Int}
    {input rest : List UInt8}
    (h : wholeNumber negative significand dropped input = .ok (.integer value, rest)) :
    input = rest ∧ ∀ other,
      wholeNumber negative significand dropped other = .ok (.integer value, other) := by
  simp only [wholeNumber] at h ⊢
  by_cases hdropped : 0 < dropped
  · rw [if_pos hdropped] at h
    exact absurd h floatNumber_ne_integer
  · simp only [if_neg hdropped] at h ⊢
    by_cases hsign : (!negative) = true
    · simp only [if_pos hsign] at h ⊢
      obtain ⟨hvalue, rfl⟩ := Prod.mk.inj (Except.ok.inj h)
      exact ⟨rfl, fun other => by rw [hvalue]⟩
    · simp only [if_neg hsign] at h ⊢
      by_cases hrange : significand = 0 ∨ 9223372036854775808 < significand
      · rw [if_pos hrange] at h
        exact absurd h floatNumber_ne_integer
      · simp only [if_neg hrange] at h ⊢
        obtain ⟨hvalue, rfl⟩ := Prod.mk.inj (Except.ok.inj h)
        exact ⟨rfl, fun other => by rw [hvalue]⟩

/-- Digits that no other part of a number follows are a whole number. -/
theorem readUnsigned_of_digits (negative : Bool) {first : UInt8} {more rest : List UInt8}
    (hdigits : ∀ b ∈ first :: more, isDigit b = true)
    (hzero : ¬ ((first == 0x30) = true ∧ (!more.isEmpty) = true)) (hrest : EndsNumber rest) :
    readUnsigned negative (first :: more ++ rest) =
      wholeNumber negative (absorb 0 0 (first :: more)).1
        ((first :: more).length - (absorb 0 0 (first :: more)).2) rest := by
  have htake : (first :: more ++ rest).takeWhile isDigit = first :: more := by
    rw [List.takeWhile_append_of_pos hdigits]
    cases rest with
    | nil => simp
    | cons b rest => simp [(hrest b rfl).1]
  have hdrop : (first :: more ++ rest).dropWhile isDigit = rest := by
    rw [List.dropWhile_append_of_pos hdigits]
    cases rest with
    | nil => rfl
    | cons b rest => simp [(hrest b rfl).1]
  rw [readUnsigned, htake, hdrop]
  dsimp only
  rw [if_neg hzero]
  cases rest with
  | nil => rfl
  | cons b rest =>
    obtain ⟨-, hpoint, hmark⟩ := hrest b rfl
    simp [hpoint, hmark]

/-- An integer is all the digits at the front of the input. -/
theorem readUnsigned_eq_ok {negative : Bool} {value : Int} {input rest : List UInt8}
    (h : readUnsigned negative input = .ok (.integer value, rest)) :
    ∃ first more, input = first :: more ++ rest ∧ (∀ b ∈ first :: more, isDigit b = true) ∧
      EndsNumber rest ∧ ∀ other, EndsNumber other →
        readUnsigned negative (first :: more ++ other) = .ok (.integer value, other) := by
  have hsplit : input = input.takeWhile isDigit ++ input.dropWhile isDigit :=
    List.takeWhile_append_dropWhile.symm
  have hdigits : ∀ b ∈ input.takeWhile isDigit, isDigit b = true :=
    fun b hb => List.mem_takeWhile_imp hb
  have hhead : ∀ b ∈ (input.dropWhile isDigit).head?, isDigit b = false := by
    intro b hb
    have hnot := List.head?_dropWhile_not isDigit input
    rw [Option.mem_def.1 hb] at hnot
    exact hnot
  generalize hall : input.takeWhile isDigit = all at hsplit hdigits
  generalize hleft : input.dropWhile isDigit = left at hsplit hhead
  cases all with
  | nil =>
    rw [readUnsigned, hall] at h
    cases h
  | cons first more =>
    by_cases hzero : (first == 0x30) = true ∧ (!more.isEmpty) = true
    · rw [readUnsigned, hall] at h
      simp only [if_pos hzero] at h
      cases h
    · have hends : EndsNumber left := by
        intro b hb
        refine ⟨hhead b hb, ?_⟩
        obtain ⟨after, rfl⟩ : ∃ after, left = b :: after := by
          cases left with
          | nil => cases hb
          | cons c after => exact ⟨after, by rw [Option.some.inj hb]⟩
        rw [readUnsigned, hall, hleft] at h
        simp only [if_neg hzero] at h
        split at h
        · exact absurd h readFraction_ne_integer
        · split at h
          · exact absurd h readExponent_ne_integer
          · rename_i hpoint hmark
            exact ⟨by simpa using hpoint, by simpa using hmark⟩
      have hread := fun rest (hrest : EndsNumber rest) =>
        readUnsigned_of_digits negative hdigits hzero hrest
      rw [hsplit, hread left hends] at h
      obtain ⟨rfl, hother⟩ := wholeNumber_eq_ok h
      exact ⟨first, more, hsplit, hdigits, hends, fun other hrest =>
        (hread other hrest).trans (hother other)⟩

/-- So is it with its sign, from its first byte on. -/
theorem readNumber_eq_ok {b : UInt8} {value : Int} {input rest : List UInt8}
    (hb : (b == 0x2d || isDigit b) = true)
    (h : readNumber (b :: input) = .ok (.integer value, rest)) :
    Plain b ∧ ∃ digits, input = digits ++ rest ∧ (∀ b ∈ digits, Plain b) ∧
      EndsNumber rest ∧ ∀ other, EndsNumber other →
        readNumber (b :: (digits ++ other)) = .ok (.integer value, other) := by
  by_cases hminus : b = 0x2d
  · subst hminus
    refine ⟨by decide, ?_⟩
    obtain ⟨first, more, rfl, hdigits, hends, hother⟩ := readUnsigned_eq_ok h
    exact ⟨first :: more, rfl, fun b hb => plain_of_isDigit (hdigits b hb), hends, hother⟩
  · have hsign (more : List UInt8) : readNumber (b :: more) = readUnsigned false (b :: more) :=
      if_neg (by simpa using hminus)
    rw [hsign] at h
    obtain ⟨first, more, hinput, hdigits, hends, hother⟩ := readUnsigned_eq_ok h
    obtain ⟨rfl, rfl⟩ := List.cons.inj hinput
    obtain ⟨hfirst, hmore⟩ := List.forall_mem_cons.1 hdigits
    refine ⟨plain_of_isDigit hfirst, more, rfl, fun b hb => plain_of_isDigit (hmore b hb), hends,
      fun other hrest => ?_⟩
    rw [hsign]
    exact hother other hrest

theorem valueReader_integer (type : IntegerType) : ValueReader (readInteger type) := by
  refine .afterBlank (fun _ => rfl) fun closing b rest x rest' h => ?_
  by_cases hb : (b == 0x2d || isDigit b) = true
  · simp only [if_pos hb] at h ⊢
    split at h
    · cases h
    · rename_i value rest'' hnumber
      split at h
      · rename_i hrange
        obtain ⟨rfl, rfl⟩ := Prod.mk.inj (Except.ok.inj h)
        obtain ⟨hplain, digits, rfl, hdigits, hends, hother⟩ := readNumber_eq_ok hb hnumber
        refine ⟨outside closing, ?_, digits, rfl, through_plain closing hdigits,
          fun other hrest => ?_⟩
        · have hstep := through_plain closing (List.forall_mem_singleton.2 hplain)
          simpa using hstep
        · have hstop : EndsNumber other := by
            rcases hrest with hsame | hstops
            · rw [EndsNumber, hsame]
              exact hends
            · exact hstops.endsNumber
          dsimp only
          rw [hother other hstop]
          exact if_pos hrange
      · cases h
    · cases h
  · simp only [if_neg hb] at h
    cases h

/-! ## Lists -/

/-- The comma in front of an element or a member, unless it is the first. -/
def separator (first : Bool) : List UInt8 := if first then [] else [0x2c]

theorem through_separator (first : Bool) (c : UInt8) (closing : List UInt8) :
    (outside (c :: closing)).through (separator first) = some (outside (c :: closing)) := by
  cases first <;> simp [separator, step, outside]

theorem nextElement_bracket (first : Bool) {w : List UInt8} (hw : Blank w) (rest : List UInt8) :
    nextElement first (w ++ 0x5d :: rest) = .ok (false, 0x5d :: rest) := by
  rw [nextElement, skipBlank_token hw rfl]
  rfl

theorem nextElement_value (first : Bool) {w w' : List UInt8} (hw : Blank w) (hw' : Blank w')
    {b : UInt8} (hb : isBlank b = false) (hend : b ≠ 0x5d) (rest : List UInt8) :
    nextElement first (w ++ separator first ++ w' ++ b :: rest) = .ok (true, b :: rest) := by
  cases first with
  | true =>
    rw [separator, if_pos rfl, List.append_nil, nextElement, skipBlank_token (hw.append hw') hb]
    simp [hend]
  | false =>
    rw [separator, if_neg Bool.false_ne_true, List.append_assoc, List.append_assoc, nextElement,
      List.singleton_append, skipBlank_token hw rfl]
    simp [skipBlank_token hw' hb, hend]

/-- Where another element follows, it stands after a comma, unless it is the first;
    else the end of the list follows. -/
theorem nextElement_eq_ok {first more : Bool} {input rest : List UInt8}
    (h : nextElement first input = .ok (more, rest)) :
    ∃ b rest', rest = b :: rest' ∧ isBlank b = false ∧
      ((more = false ∧ b = 0x5d ∧ ∃ w, Blank w ∧ input = w ++ rest) ∨
        (more = true ∧ b ≠ 0x5d ∧ ∃ w w', Blank w ∧ Blank w' ∧
          input = w ++ separator first ++ w' ++ rest)) := by
  obtain ⟨w, b, after, hw, hb, rfl, hnext⟩ := afterBlank_eq_ok h fun _ => rfl
  split at hnext
  · rename_i hend
    obtain ⟨rfl, rfl⟩ := Prod.mk.inj (Except.ok.inj hnext)
    exact ⟨b, after, rfl, hb, .inl ⟨rfl, by simpa using hend, w, hw, rfl⟩⟩
  · rename_i hend
    split at hnext
    · rename_i hfirst
      obtain ⟨rfl, rfl⟩ := Prod.mk.inj (Except.ok.inj hnext)
      refine ⟨b, after, rfl, hb, .inr ⟨rfl, by simpa using hend, w, [], hw, blank_nil, ?_⟩⟩
      simp [separator, hfirst]
    · rename_i hfirst
      split at hnext
      · rename_i hcomma
        obtain rfl : b = 0x2c := by simpa using hcomma
        cases hskip : skipBlank after with
        | nil =>
          rw [hskip] at hnext
          cases hnext
        | cons c after' =>
          obtain ⟨hc, w', hw', rfl⟩ := skipBlank_eq_cons hskip
          rw [hskip] at hnext
          dsimp only at hnext
          split at hnext
          · cases hnext
          · rename_i hend'
            obtain ⟨rfl, rfl⟩ := Prod.mk.inj (Except.ok.inj hnext)
            refine ⟨c, after', rfl, hc, .inr ⟨rfl, by simpa using hend', w, w', hw, hw', ?_⟩⟩
            simp [separator, hfirst]
      · cases hnext

theorem local_nextElement (first : Bool) (closing : List UInt8) :
    Local (nextElement first) (outside (0x5d :: closing)) (fun _ => outside (0x5d :: closing))
      fun _ => False := by
  rintro input more rest h
  obtain ⟨b, rest', rfl, hb, ⟨rfl, rfl, w, hw, rfl⟩ | ⟨rfl, hend, w, w', hw, hw', rfl⟩⟩ :=
    nextElement_eq_ok h
  · refine ⟨w, rfl, hw.through _, fun other hrest => ?_⟩
    obtain ⟨after, rfl⟩ := List.head?_eq_some_iff.1 (hrest.resolve_right id)
    exact nextElement_bracket first hw after
  · refine ⟨w ++ separator first ++ w', rfl,
      through_append_of
        (through_append_of (hw.through _) (through_separator first _ closing)) (hw'.through _),
      fun other hrest => ?_⟩
    obtain ⟨after, rfl⟩ := List.head?_eq_some_iff.1 (hrest.resolve_right id)
    exact nextElement_value first hw hw' hb hend after

theorem local_endList (closing : List UInt8) :
    Local endList (outside (0x5d :: closing)) (fun _ => outside closing) fun _ => True := by
  refine .afterBlank (fun _ => rfl) fun b rest x rest' h => ?_
  split at h
  · rename_i hb
    obtain rfl : b = 0x5d := by simpa using hb
    exact ⟨outside closing, rfl, Local.pure () (outside closing) _ h⟩
  · split at h
    · split at h <;> cases h
    · cases h

section
variable {element : JsonReader α} (h : ValueReader element)
include h

theorem local_readElements (closing : List UInt8) : ∀ (fuel : Nat) (done : List α),
    Local (readElements element done fuel) (outside (0x5d :: closing)) (fun _ => outside closing)
      fun _ => True
  | 0, done => .fail _
  | fuel + 1, done => by
    have hne : outside (0x5d :: closing) ≠ outside closing := by simp [outside]
    refine .bind (local_nextElement done.isEmpty closing) (fun more => ?_) fun _ _ _ => .inl hne
    cases more with
    | true =>
      exact .bind (h.takes (0x5d :: closing))
        (fun value => local_readElements closing fuel (value :: done)) fun _ _ _ => .inl hne
    | false =>
      exact .bind (local_endList closing) (fun _ => .pure _ _ _) fun _ _ _ => .inr trivial

/-- More fuel than bytes is enough. -/
theorem readElements_fuel : ∀ {fuel fuel' : Nat} {done : List α} {input : List UInt8},
    input.length < fuel → input.length < fuel' →
      readElements element done fuel input = readElements element done fuel' input
  | fuel + 1, fuel' + 1, done, input, hlt, hlt' => by
    refine readBind_congr fun more mid hmore => ?_
    have hmid := (local_nextElement done.isEmpty []).length_le hmore
    cases more with
    | true =>
      refine readBind_congr fun value rest hvalue => ?_
      have hrest := h.eats hvalue
      exact readElements_fuel (by omega) (by omega)
    | false => rfl

theorem valueReader_list : ValueReader (readList element) := by
  refine .afterBlank (fun _ => rfl) fun closing b rest x rest' hread => ?_
  split at hread
  · rename_i hb
    obtain rfl : b = 0x5b := by simpa using hb
    have hlocal := Local.ofFuel (local_readElements h closing · []) (readElements_fuel h)
    exact ⟨outside (0x5d :: closing), rfl, hlocal.weaken hread⟩
  · cases hread

end

/-! ## Names -/

theorem readNamed_eq_ok {names : List String} {ofName? : String → Option α}
    {input rest : List UInt8} {x : α} (h : readNamed names ofName? input = .ok (x, rest)) :
    ∃ name, readStringAs "variant identifier" input = .ok (name, rest) ∧
      ofName? name = some x := by
  obtain ⟨name, mid, hname, h⟩ := readBind_eq_ok h
  cases hvalue : ofName? name with
  | none =>
    rw [hvalue] at h
    cases h
  | some value =>
    rw [hvalue] at h
    obtain ⟨rfl, rfl⟩ := Prod.mk.inj (Except.ok.inj h)
    exact ⟨name, hname, hvalue⟩

theorem valueReader_named (names : List String) (ofName? : String → Option α) :
    ValueReader (readNamed names ofName?) where
  takes closing input x rest h := by
    obtain ⟨name, hname, hvalue⟩ := readNamed_eq_ok h
    obtain ⟨used, rfl, hused, hother⟩ := (valueReader_string _).takes closing hname
    refine ⟨used, rfl, hused, fun other hrest => (bind_of_ok (hother other hrest)).trans ?_⟩
    rw [hvalue]
    rfl
  eats input x rest h := by
    obtain ⟨name, hname, -⟩ := readNamed_eq_ok h
    exact (valueReader_string _).eats hname
  blank w hw input := readBind_blank ((valueReader_string _).blank hw input)

theorem local_startSingle (closing : List UInt8) :
    Local startSingle (outside closing) (fun _ => outside closing) fun _ => False := by
  rintro input x rest h
  obtain ⟨w, b, more, hw, hb, rfl, hnext⟩ := afterBlank_eq_ok h fun _ => rfl
  split at hnext
  · rename_i hquote
    obtain ⟨-, rfl⟩ := Prod.mk.inj (Except.ok.inj hnext)
    refine ⟨w, rfl, hw.through closing, fun other hrest => ?_⟩
    obtain ⟨after, rfl⟩ := List.head?_eq_some_iff.1 (hrest.resolve_right id)
    rw [startSingle, skipBlank_token hw hb]
    exact if_pos hquote
  · cases hnext

theorem local_readColon (closing : List UInt8) :
    Local readColon (outside closing) (fun _ => outside closing) fun _ => True := by
  refine .afterBlank (fun _ => rfl) fun b rest x rest' h => ?_
  split at h
  · rename_i hb
    obtain rfl : b = 0x3a := by simpa using hb
    exact ⟨outside closing, rfl, Local.pure () (outside closing) _ h⟩
  · cases h

theorem local_endSingle (closing : List UInt8) :
    Local endSingle (outside (0x7d :: closing)) (fun _ => outside closing) fun _ => True := by
  refine .afterBlank (fun _ => rfl) fun b rest x rest' h => ?_
  split at h
  · rename_i hb
    obtain rfl : b = 0x7d := by simpa using hb
    exact ⟨outside closing, rfl, Local.pure () (outside closing) _ h⟩
  · cases h
/-- The name in an object that has nothing else. -/
theorem local_single (names : List String) (ofName? : String → Option α) (closing : List UInt8) :
    Local (do
        startSingle
        let value ← readNamed names ofName?
        readColon
        readNull
        endSingle
        return value : JsonReader α)
      (outside (0x7d :: closing)) (fun _ => outside closing) fun _ => True := by
  have hne : outside (0x7d :: closing) ≠ outside closing := by simp [outside]
  have hnamed := valueReader_named names ofName?
  refine .bind (local_startSingle (0x7d :: closing)) (fun _ => ?_) fun _ _ _ => .inl hne
  refine .bind (hnamed.takes (0x7d :: closing)) (fun value => ?_) fun _ _ _ => .inl hne
  refine .bind (local_readColon (0x7d :: closing)) (fun _ => ?_) fun _ _ _ => .inr trivial
  refine .bind (valueReader_null.takes (0x7d :: closing)) (fun _ => ?_) fun _ _ _ => .inl hne
  exact .bind (local_endSingle closing) (fun _ => .pure _ _ _) fun _ _ _ => .inr trivial

theorem valueReader_name (names : List String) (ofName? : String → Option α) :
    ValueReader (readName names ofName?) := by
  refine .afterBlank (fun _ => rfl) fun closing b rest x rest' h => ?_
  split at h
  · rename_i hb
    obtain rfl : b = 0x22 := by simpa using hb
    have hnamed := valueReader_named names ofName?
    exact (hnamed.takes closing h).tail (hnamed.eats h)
  · split at h
    · rename_i hb
      obtain rfl : b = 0x7b := by simpa using hb
      exact ⟨outside (0x7d :: closing), rfl, (local_single names ofName? closing).weaken h⟩
    · cases h

end FuzzyPath.Json
