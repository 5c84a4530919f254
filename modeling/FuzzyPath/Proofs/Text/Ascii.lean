/-
  FuzzyPath — ASCII texts.

  The two ways of reading text differ on characters beyond ASCII only.

  * `IsAscii` texts have none of them; `utf8_of_isAscii`: they have one byte for
    each character;
  * `IsAscii.slice` and `IsAscii.of_append`: so it is with their parts;
  * `classify_of_isAscii` and `TextMode.decode_of_isAscii`: their characters are
    of the same classes, and their units are the same, in either mode.
-/
import FuzzyPath.Proofs.Text.Offsets
import FuzzyPath.Text.CharClass

namespace FuzzyPath

/-- A text of ASCII characters. -/
def IsAscii (text : String) : Prop := ∀ c ∈ text.toList, c.val < 0x80

instance (text : String) : Decidable (IsAscii text) := List.decidableBAll _ text.toList

namespace IsAscii
variable {text front back : String}

theorem of_append (h : IsAscii (front ++ text ++ back)) : IsAscii text := by
  intro c hc
  exact h c (by simp [hc])

theorem of_append_left (h : IsAscii (text ++ back)) : IsAscii text := by
  intro c hc
  exact h c (by simp [hc])

theorem empty : IsAscii "" := fun _ hc => by cases hc

theorem slice (h : IsAscii text) (span : Span) : IsAscii (span.slice text) := by
  rcases span.exists_append_slice text with hnil | ⟨front, back, htext⟩
  · exact hnil ▸ empty
  · rw [htext] at h
    exact h.of_append

/-- The last of some parts of an ASCII text, if there are any. -/
theorem last (h : IsAscii text) (spans : List Span) :
    IsAscii ((spans.getLast?.map (·.slice text)).getD "") := by
  cases spans.getLast? with
  | none => exact empty
  | some span => exact h.slice span

end IsAscii

/-! ## Bytes -/

theorem utf8Size_of_isAscii {c : Char} (h : c.val < 0x80) : c.utf8Size = 1 := by
  rw [Char.utf8Size_eq_one_iff, UInt32.le_iff_toNat_le]
  exact Nat.le_of_lt_succ (UInt32.lt_iff_toNat_lt.1 h)

theorem ofNat_toUInt8 {c : Char} (h : c.val < 0x80) : Char.ofNat c.val.toUInt8.toNat = c := by
  have hlt : c.toNat < 0x80 := UInt32.lt_iff_toNat_lt.1 h
  have hbyte : c.val.toUInt8.toNat = c.toNat := by
    rw [UInt32.toNat_toUInt8]
    exact Nat.mod_eq_of_lt (Nat.lt_trans hlt (by decide))
  rw [hbyte, Char.ofNat_toNat]

/-- An ASCII text has a byte for each of its characters. -/
theorem utf8Chars_of_isAscii : ∀ {cs : List Char}, (∀ c ∈ cs, c.val < 0x80) →
    utf8Chars cs = cs.map (·.val.toUInt8)
  | [], _ => rfl
  | c :: cs, h => by
    obtain ⟨hc, hcs⟩ := List.forall_mem_cons.1 h
    rw [utf8Chars, List.flatMap_cons, String.utf8EncodeChar_eq_singleton (utf8Size_of_isAscii hc),
      ← utf8Chars, utf8Chars_of_isAscii hcs]
    rfl

/-! ## Classes -/

section
variable {c : Char} (h : c.val < 0x80) (mode : TextMode)
include h

theorem TextMode.isUpper_eq_bytes : mode.isUpper c = bytes.isUpper c := by
  cases mode with
  | bytes => rfl
  | unicode => exact isUpper_of_isAscii h

theorem TextMode.isAlphanumeric_eq_bytes : mode.isAlphanumeric c = bytes.isAlphanumeric c := by
  cases mode with
  | bytes => rfl
  | unicode => exact isAlphanumeric_of_isAscii h

theorem classify_of_isAscii (style : Option PathStyle) :
    classify mode style c = classify .bytes style c := by
  cases mode with
  | bytes => rfl
  | unicode =>
    rw [classify, TextMode.isUpper_of_isAscii h, TextMode.isNumber_of_isAscii h,
      TextMode.isLower_of_isAscii h, TextMode.isAlphanumeric_of_isAscii h, ← classify]

end

/-! ## Units -/

namespace TextMode

theorem decodeBytes_cons (offset : Nat) (b : UInt8) (bytes : List UInt8) :
    decodeBytes offset (b :: bytes) =
      unitAt .bytes offset 1 (Char.ofNat b.toNat) :: decodeBytes (offset + 1) bytes := by
  rw [decodeBytes, decodeBytes, List.mapIdx_cons]
  simp only [Nat.add_zero, Nat.add_assoc, Nat.add_comm 1]

theorem decodeChars_of_isAscii : ∀ {cs : List Char}, (∀ c ∈ cs, c.val < 0x80) → ∀ offset,
    decodeChars offset [] cs = decodeBytes offset (cs.map (·.val.toUInt8))
  | [], _, _ => rfl
  | c :: cs, h, offset => by
    obtain ⟨hc, hcs⟩ := List.forall_mem_cons.1 h
    have hunit : unitAt .unicode offset 1 c = unitAt .bytes offset 1 c := by
      rw [unitAt, unitAt, fold_of_isAscii hc]
    rw [decodeChars_cons, utf8Size_of_isAscii hc, decodeChars_of_isAscii hcs, hunit, List.map_cons,
      decodeBytes_cons, ofNat_toUInt8 hc]

/-- The units of an ASCII text are the same in either mode. -/
theorem decode_of_isAscii {text : String} (h : IsAscii text) (mode : TextMode) (base : Nat) :
    mode.decode text base = bytes.decode text base := by
  cases mode with
  | bytes => rfl
  | unicode => rw [decode, decode, utf8, utf8Chars_of_isAscii h, decodeChars_of_isAscii h]

theorem ch_of_mem_decodeChars {u : TextUnit} : ∀ {cs : List Char} {offset : Nat},
    u ∈ decodeChars offset [] cs → u.ch ∈ cs
  | [], _, h => by simp [decodeChars] at h
  | c :: cs, offset, h => by
    rw [decodeChars_cons] at h
    rcases List.mem_cons.1 h with rfl | h
    · exact List.mem_cons_self
    · exact List.mem_cons_of_mem c (ch_of_mem_decodeChars h)

theorem ch_of_mem_decode {text : String} (h : IsAscii text) {mode : TextMode} {base : Nat}
    {u : TextUnit} (hu : u ∈ mode.decode text base) : u.ch.val < 0x80 := by
  rw [decode_of_isAscii h, ← decode_of_isAscii h .unicode] at hu
  exact h u.ch (ch_of_mem_decodeChars hu)

end TextMode

end FuzzyPath
