/-
  FuzzyPath — a written JSON string is read back.

  * `readTextFrom_writtenChar`: whatever way a character is written, its bytes
    are read;
  * `readText_written`: a written text is read, up to its last quote.
-/
import FuzzyPath.Json.Text
import FuzzyPath.Proofs.Text.Offsets

namespace FuzzyPath.Json

/-! ## Characters -/

/-- Bytes that are no quotes, backslashes or control characters stand for
    themselves. -/
theorem readTextFrom_plain {bytes : List UInt8} (done rest : List UInt8)
    (h : ∀ b ∈ bytes, b ≠ 0x22 ∧ ¬ b < 0x20 ∧ b ≠ 0x5c) :
    readTextFrom done (bytes ++ rest) = readTextFrom (bytes.reverse ++ done) rest := by
  induction bytes generalizing done with
  | nil => rfl
  | cons b bytes ih =>
    obtain ⟨⟨hquote, hcontrol, hslash⟩, hbytes⟩ := List.forall_mem_cons.1 h
    rw [List.cons_append, readTextFrom.eq_def]
    simp [hquote, hcontrol, hslash, ih _ hbytes]

/-- An escape of one character stands for a byte. -/
theorem readTextFrom_escape {e byte : UInt8} (done rest : List UInt8) (hmark : e ≠ 0x75)
    (h : shortEscape? e = some byte) :
    readTextFrom done (0x5c :: e :: rest) = readTextFrom (byte :: done) rest := by
  rw [readTextFrom.eq_def]
  simp [hmark, h]

/-- An escape of four digits stands for a character that is no surrogate. -/
theorem readTextFrom_digits {h1 h2 h3 h4 : UInt8} {n : Nat} (done rest : List UInt8)
    (hvalue : hexValue4? h1 h2 h3 h4 = some n) (hn : n < 0xD800) :
    readTextFrom done (0x5c :: 0x75 :: h1 :: h2 :: h3 :: h4 :: rest) =
      readTextFrom (pushCodePoint n done) rest := by
  rw [readTextFrom.eq_def]
  have hlow : ¬ (0xDC00 ≤ n ∧ n ≤ 0xDFFF) := by omega
  have hhigh : ¬ (0xD800 ≤ n ∧ n ≤ 0xDBFF) := by omega
  simp [hvalue, hlow, hhigh]

/-- The bytes of a control character's escape, and what they stand for. -/
theorem controlEscape_bytes : ∀ n < 32, ∃ high low,
    utf8Chars (controlEscape (Char.ofNat n)) = [0x5c, 0x75, 0x30, 0x30, high, low] ∧
      hexValue4? 0x30 0x30 high low = some n := by
  intro n hn
  refine ⟨.ofNat (Nat.digitChar (n / 16)).toNat, .ofNat (Nat.digitChar (n % 16)).toNat, ?_⟩
  revert n
  decide

theorem readTextFrom_writtenChar (done : List UInt8) (c : Char) (rest : List UInt8) :
    readTextFrom done (utf8Chars (writtenChar c) ++ rest) =
      readTextFrom ((String.utf8EncodeChar c).reverse ++ done) rest := by
  rw [writtenChar.eq_def]
  split
  · exact readTextFrom_escape done rest (by decide) (by decide)
  · exact readTextFrom_escape done rest (by decide) (by decide)
  · exact readTextFrom_escape done rest (by decide) (by decide)
  · exact readTextFrom_escape done rest (by decide) (by decide)
  · exact readTextFrom_escape done rest (by decide) (by decide)
  · exact readTextFrom_escape done rest (by decide) (by decide)
  · exact readTextFrom_escape done rest (by decide) (by decide)
  · rename_i hquote hslash _ _ _ _ _
    split
    · rename_i hcontrol
      obtain ⟨high, low, hbytes, hvalue⟩ := controlEscape_bytes c.toNat hcontrol
      rw [Char.ofNat_toNat] at hbytes
      have := readTextFrom_digits done rest hvalue (Nat.lt_trans hcontrol (by decide))
      rw [hbytes]
      exact this.trans (by rw [pushCodePoint, Char.ofNat_toNat])
    · rename_i hcontrol
      have hchars : utf8Chars [c] = String.utf8EncodeChar c := List.append_nil _
      rw [hchars]
      refine readTextFrom_plain done rest fun b hb => ⟨?_, ?_, ?_⟩
      · rintro rfl
        have := toNat_of_mem_utf8EncodeChar hb (by decide)
        exact hquote (Char.toNat_inj.1 this.symm)
      · intro hlt
        have := toNat_of_mem_utf8EncodeChar hb (Nat.lt_trans hlt (by decide))
        have hlt' : c.toNat < 0x20 := this ▸ UInt8.lt_iff_toNat_lt.1 hlt
        exact hcontrol (UInt32.lt_iff_toNat_lt.2 hlt')
      · rintro rfl
        have := toNat_of_mem_utf8EncodeChar hb (by decide)
        exact hslash (Char.toNat_inj.1 this.symm)

theorem readTextFrom_written (cs : List Char) (done rest : List UInt8) :
    readTextFrom done (utf8Chars (cs.flatMap writtenChar) ++ rest) =
      readTextFrom ((utf8Chars cs).reverse ++ done) rest := by
  induction cs generalizing done with
  | nil => rfl
  | cons c cs ih =>
    rw [List.flatMap_cons, utf8Chars_append, List.append_assoc, readTextFrom_writtenChar, ih,
      utf8Chars, utf8Chars, List.flatMap_cons, List.reverse_append, List.append_assoc]

theorem textOfBytes_utf8 (text : String) (rest : List UInt8) :
    textOfBytes (utf8 text).reverse rest = .ok (text, rest) := by
  rw [textOfBytes, List.reverse_reverse, fromUTF8?_utf8]

theorem readText_written (text : String) (rest : List UInt8) :
    readText (utf8Chars (text.toList.flatMap writtenChar) ++ 0x22 :: rest) = .ok (text, rest) := by
  rw [readText, readTextFrom_written, List.append_nil, readTextFrom.eq_def]
  exact textOfBytes_utf8 text rest

end FuzzyPath.Json
