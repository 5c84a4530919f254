/-
  FuzzyPath — byte offsets.

  * `length_utf8`: the size of a text is the number of its bytes;
  * `Span.slice_append`: the text between two boundaries is what stands there,
    and `Span.slice_append_slice`: two such texts that meet are one;
  * `Span.exists_append_slice`: what any span covers is a part of the text;
  * `TextMode.decode_increasing`: the units of a text stand one after the
    other, and `mem_decode` says that they stand in it.
-/
import FuzzyPath.Text.Span
import FuzzyPath.Text.Units
import Mathlib.Data.List.Basic

namespace FuzzyPath

/-! ## Sizes -/

@[simp] theorem utf8Chars_nil : utf8Chars [] = [] := rfl

theorem length_utf8Chars_cons (c : Char) (cs : List Char) :
    (utf8Chars (c :: cs)).length = c.utf8Size + (utf8Chars cs).length := by
  simp [utf8Chars]

theorem length_utf8Chars : ∀ cs : List Char,
    (utf8Chars cs).length = (String.ofList cs).utf8ByteSize
  | [] => rfl
  | c :: cs => by
    rw [length_utf8Chars_cons, length_utf8Chars cs, String.ofList_cons, String.utf8ByteSize_append,
      String.utf8ByteSize_singleton]

@[simp] theorem length_utf8 (text : String) : (utf8 text).length = text.utf8ByteSize := by
  rw [utf8, length_utf8Chars, String.ofList_toList]

@[simp] theorem length_utf8Chars_toList (text : String) :
    (utf8Chars text.toList).length = text.utf8ByteSize := length_utf8 text

theorem length_utf8Chars_replicate (n : Nat) (c : Char) :
    (utf8Chars (List.replicate n c)).length = n * c.utf8Size := by
  induction n with
  | zero => simp
  | succ n ih => rw [List.replicate_succ, length_utf8Chars_cons, ih, Nat.succ_mul, Nat.add_comm]

/-- A text gets no shorter if no character of it does. -/
theorem length_utf8Chars_le_flatMap {write : Char → List Char}
    (h : ∀ c, c.utf8Size ≤ (utf8Chars (write c)).length) (cs : List Char) :
    (utf8Chars cs).length ≤ (utf8Chars (cs.flatMap write)).length := by
  induction cs with
  | nil => exact Nat.le_refl 0
  | cons c cs ih =>
    rw [length_utf8Chars_cons, List.flatMap_cons, utf8Chars_append, List.length_append]
    exact Nat.add_le_add (h c) ih

/-- The bytes that a text is kept as. -/
theorem data_toByteArray (text : String) : text.toByteArray.data = (utf8 text).toArray := by
  have hchars := congrArg String.toByteArray (String.ofList_toList (s := text))
  rw [String.toByteArray_ofList] at hchars
  rw [← hchars, List.utf8Encode, List.data_toByteArray]
  rfl

theorem toList_data_toUTF8 (text : String) : text.toUTF8.data.toList = utf8 text := by
  rw [String.toUTF8_eq_toByteArray, data_toByteArray]

/-- The bytes of a text are UTF-8. -/
theorem fromUTF8?_utf8 (text : String) : String.fromUTF8? ⟨(utf8 text).toArray⟩ = some text := by
  have hbytes : (⟨(utf8 text).toArray⟩ : ByteArray) = text.toByteArray :=
    ByteArray.ext (data_toByteArray text).symm
  rw [hbytes, String.fromUTF8?, dif_pos text.isValidUTF8]
  rfl

theorem size_toUTF8 (text : String) : text.toUTF8.size = (utf8 text).length := by
  rw [length_utf8]
  rfl

theorem utf8_ofList (cs : List Char) : utf8 (String.ofList cs) = utf8Chars cs := by
  rw [utf8, String.toList_ofList]

/-- Only a character that takes one byte has an ASCII byte: itself. -/
theorem toNat_of_mem_utf8EncodeChar {c : Char} {b : UInt8} (h : b ∈ String.utf8EncodeChar c)
    (hb : b.toNat < 0x80) : b.toNat = c.toNat := by
  simp only [String.utf8EncodeChar] at h
  split at h
  · rename_i hc
    obtain rfl := List.mem_singleton.1 h
    rw [UInt8.toNat_ofNat']
    exact Nat.mod_eq_of_lt (Nat.lt_of_le_of_lt hc (by decide))
  -- all bytes of the longer forms have their highest bit set
  split at h
  · simp only [List.mem_cons, List.not_mem_nil, or_false] at h
    rcases h with rfl | rfl <;> simp only [UInt8.toNat_ofNat'] at hb <;> omega
  split at h
  · simp only [List.mem_cons, List.not_mem_nil, or_false] at h
    rcases h with rfl | rfl | rfl <;> simp only [UInt8.toNat_ofNat'] at hb <;> omega
  · simp only [List.mem_cons, List.not_mem_nil, or_false] at h
    rcases h with rfl | rfl | rfl | rfl <;> simp only [UInt8.toNat_ofNat'] at hb <;> omega

/-! ## Slices -/

/-- Of two beginnings of a text, the longer one begins with the shorter one. -/
theorem exists_append_of_size_le {front rest before back : String}
    (h : front ++ rest = before ++ back) (hle : front.utf8ByteSize ≤ before.utf8ByteSize) :
    ∃ middle, before = front ++ middle := by
  have hchars : front.toList ++ rest.toList = before.toList ++ back.toList := by
    rw [← String.toList_append, h, String.toList_append]
  rcases List.append_eq_append_iff.1 hchars with ⟨cs, hcs, -⟩ | ⟨cs, hcs, -⟩
  · exact ⟨.ofList cs, by rw [← String.toList_inj, String.toList_append, String.toList_ofList, hcs]⟩
  · obtain rfl : front = before ++ .ofList cs := by
      rw [← String.toList_inj, String.toList_append, String.toList_ofList, hcs]
    rw [String.utf8ByteSize_append] at hle
    have hnil : String.ofList cs = "" := String.utf8ByteSize_eq_zero_iff.1 (by omega)
    exact ⟨"", by rw [hnil, String.append_empty, String.append_empty]⟩

theorem isBoundary_append (front back : String) :
    isBoundary (front ++ back) front.utf8ByteSize = true := by
  rw [isBoundary, String.Pos.Raw.isValid_eq_true_iff, String.Pos.Raw.isValid_iff_exists_append]
  exact ⟨front, back, rfl, rfl⟩

namespace Span

theorem contains_iff {s : Span} {offset : Nat} :
    s.contains offset = true ↔ s.start ≤ offset ∧ offset < s.stop := by
  simp [contains]

theorem toByteArray_slice {s : Span} {text : String} (hle : s.start ≤ s.stop)
    (hstart : isBoundary text s.start = true) (hstop : isBoundary text s.stop = true) :
    (s.slice text).toByteArray = text.toByteArray.extract s.start s.stop := by
  rw [slice, slice?, if_pos hle, dif_pos hstart, dif_pos hstop]
  exact String.toByteArray_extract

theorem slice_append (front text back : String) :
    (⟨front.utf8ByteSize, front.utf8ByteSize + text.utf8ByteSize⟩ : Span).slice
      (front ++ text ++ back) = text := by
  have hstart : isBoundary (front ++ text ++ back) front.utf8ByteSize = true := by
    rw [String.append_assoc]; exact isBoundary_append front (text ++ back)
  have hstop : isBoundary (front ++ text ++ back)
      (front.utf8ByteSize + text.utf8ByteSize) = true := by
    rw [← String.utf8ByteSize_append]; exact isBoundary_append (front ++ text) back
  rw [← String.toByteArray_inj, toByteArray_slice (Nat.le_add_right _ _) hstart hstop]
  rw [String.toByteArray_append, String.toByteArray_append, ByteArray.append_assoc]
  exact (ByteArray.extract_append_size_add (i := 0)).trans (ByteArray.extract_append_eq_left rfl)

theorem slice_prefix (text back : String) :
    (⟨0, text.utf8ByteSize⟩ : Span).slice (text ++ back) = text := by
  simpa using slice_append "" text back

theorem slice_suffix (front text : String) :
    (⟨front.utf8ByteSize, (front ++ text).utf8ByteSize⟩ : Span).slice (front ++ text) = text := by
  simpa using slice_append front text ""

theorem slice_all (text : String) : (⟨0, text.utf8ByteSize⟩ : Span).slice text = text := by
  simpa using slice_prefix text ""

/-- Two pieces of a text that meet are one. -/
theorem slice_append_slice {text : String} {start mid stop : Nat}
    (hstart : isBoundary text start = true) (hmid : isBoundary text mid = true)
    (hstop : isBoundary text stop = true) (hle : start ≤ mid) (hle' : mid ≤ stop) :
    (⟨start, mid⟩ : Span).slice text ++ (⟨mid, stop⟩ : Span).slice text =
      (⟨start, stop⟩ : Span).slice text := by
  have hlt : start ≤ stop := Nat.le_trans hle hle'
  rw [← String.toByteArray_inj, String.toByteArray_append,
    toByteArray_slice (s := ⟨start, mid⟩) hle hstart hmid,
    toByteArray_slice (s := ⟨mid, stop⟩) hle' hmid hstop,
    toByteArray_slice (s := ⟨start, stop⟩) hlt hstart hstop]
  rw [ByteArray.extract_append_extract, Nat.min_eq_left hle, Nat.max_eq_right hle']

theorem slice_self {text : String} {offset : Nat} (h : isBoundary text offset = true) :
    (⟨offset, offset⟩ : Span).slice text = "" := by
  rw [← String.toByteArray_inj, toByteArray_slice (s := ⟨offset, offset⟩) (Nat.le_refl _) h h]
  exact ByteArray.extract_eq_empty_iff.2 (Nat.min_le_left _ _)

/-- What a span covers is a part of the text. -/
theorem exists_append_slice (span : Span) (text : String) :
    span.slice text = "" ∨ ∃ front back, text = front ++ span.slice text ++ back := by
  by_cases h : span.start ≤ span.stop ∧ isBoundary text span.start = true ∧
      isBoundary text span.stop = true
  · right
    obtain ⟨hle, hstart, hstop⟩ := h
    rw [isBoundary, String.Pos.Raw.isValid_eq_true_iff,
      String.Pos.Raw.isValid_iff_exists_append] at hstart hstop
    obtain ⟨front, rest, hfront, hstart⟩ := hstart
    obtain ⟨before, back, hbefore, hstop⟩ := hstop
    have hstart : span.start = front.utf8ByteSize := congrArg String.Pos.Raw.byteIdx hstart
    have hstop : span.stop = before.utf8ByteSize := congrArg String.Pos.Raw.byteIdx hstop
    obtain ⟨middle, rfl⟩ := exists_append_of_size_le (hfront.symm.trans hbefore)
      (hstart ▸ hstop ▸ hle)
    have hspan : span = ⟨front.utf8ByteSize, front.utf8ByteSize + middle.utf8ByteSize⟩ := by
      rw [← String.utf8ByteSize_append, ← hstart, ← hstop]
    rw [hbefore, hspan, slice_append]
    exact ⟨front, back, rfl⟩
  · left
    rw [slice, slice?]
    split_ifs with hle hstart hstop
    · exact absurd ⟨hle, hstart, hstop⟩ h
    all_goals rfl

theorem size_slice_le (span : Span) (text : String) :
    (span.slice text).utf8ByteSize ≤ text.utf8ByteSize := by
  rcases span.exists_append_slice text with hnone | ⟨front, back, htext⟩
  · rw [hnone]
    exact Nat.zero_le _
  · have hsize := congrArg String.utf8ByteSize htext
    rw [String.utf8ByteSize_append, String.utf8ByteSize_append] at hsize
    omega

end Span

/-! ## Units -/

namespace TextMode

/-- The units of some characters are those of the first one and of the rest. -/
theorem decodeChars_eq (cs : List Char) : ∀ (offset : Nat) (before : List TextUnit),
    decodeChars offset before cs = before.reverse ++ decodeChars offset [] cs := by
  induction cs with
  | nil => intro offset before; simp [decodeChars]
  | cons c cs ih =>
    intro offset before
    rw [decodeChars, decodeChars, ih, ih _ [_]]
    simp

theorem decodeChars_cons (offset : Nat) (c : Char) (cs : List Char) :
    decodeChars offset [] (c :: cs) =
      unitAt .unicode offset c.utf8Size c :: decodeChars (offset + c.utf8Size) [] cs := by
  rw [decodeChars, decodeChars_eq]; rfl

theorem mem_decodeChars {u : TextUnit} : ∀ {cs : List Char} {offset : Nat},
    u ∈ decodeChars offset [] cs →
      offset ≤ u.offset ∧ u.offset + u.len ≤ offset + (utf8Chars cs).length ∧ 0 < u.len
  | [], _, h => by simp [decodeChars] at h
  | c :: cs, offset, h => by
    rw [length_utf8Chars_cons]
    rw [decodeChars_cons] at h
    rcases List.mem_cons.1 h with rfl | h
    · have := c.utf8Size_pos
      simp only [unitAt]; omega
    · have := mem_decodeChars h
      omega

theorem mem_decodeBytes {u : TextUnit} {bytes : List UInt8} {offset : Nat}
    (h : u ∈ decodeBytes offset bytes) :
    offset ≤ u.offset ∧ u.offset + u.len ≤ offset + bytes.length ∧ 0 < u.len := by
  obtain ⟨i, hi, rfl⟩ := List.mem_mapIdx.1 h
  simp only [unitAt]; omega

/-- A unit stands in the text that it is a unit of. -/
theorem mem_decode {mode : TextMode} {text : String} {base : Nat} {u : TextUnit}
    (h : u ∈ mode.decode text base) :
    base ≤ u.offset ∧ u.offset + u.len ≤ base + text.utf8ByteSize ∧ 0 < u.len := by
  rw [← length_utf8]
  cases mode with
  | bytes => exact mem_decodeBytes h
  | unicode => exact mem_decodeChars h

theorem decodeChars_increasing : ∀ (cs : List Char) (offset : Nat),
    (decodeChars offset [] cs).Pairwise fun u v => u.offset + u.len ≤ v.offset
  | [], _ => by simp [decodeChars]
  | c :: cs, offset => by
    rw [decodeChars_cons]
    refine List.pairwise_cons.2 ⟨fun u hu => ?_, decodeChars_increasing cs _⟩
    exact (mem_decodeChars hu).1

/-- The units of a text stand one after the other. -/
theorem decode_increasing (mode : TextMode) (text : String) (base : Nat) :
    (mode.decode text base).Pairwise fun u v => u.offset + u.len ≤ v.offset := by
  cases mode with
  | bytes =>
    rw [decode, decodeBytes, List.pairwise_iff_getElem]
    intro i j hi hj hij
    simp only [List.getElem_mapIdx, unitAt]; omega
  | unicode => exact decodeChars_increasing _ _

theorem decode_eq_nil_iff {mode : TextMode} {text : String} {base : Nat} :
    mode.decode text base = [] ↔ text = "" := by
  rw [← String.toList_eq_nil_iff]
  cases mode with
  | bytes =>
    rw [decode, decodeBytes, List.mapIdx_eq_nil_iff, ← List.length_eq_zero_iff, length_utf8,
      String.utf8ByteSize_eq_zero_iff, String.toList_eq_nil_iff]
  | unicode =>
    rw [decode]
    cases text.toList with
    | nil => simp [decodeChars]
    | cons c cs => simp [decodeChars_cons]

/-- A text has no more units than bytes. -/
theorem length_decode_le (mode : TextMode) (text : String) (base : Nat) :
    (mode.decode text base).length ≤ text.utf8ByteSize := by
  cases mode with
  | bytes => simp [decode, decodeBytes]
  | unicode =>
    rw [decode, ← length_utf8Chars_toList]
    generalize text.toList = cs
    induction cs generalizing base with
    | nil => simp [decodeChars]
    | cons c cs ih =>
      have hsize := c.utf8Size_pos
      have hrest := ih (base + c.utf8Size)
      rw [decodeChars_cons, List.length_cons, length_utf8Chars_cons]
      omega

end TextMode

end FuzzyPath
