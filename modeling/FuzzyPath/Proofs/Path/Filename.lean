/-
  FuzzyPath — the file name of a path.

  * `Path.IsFilename` says what the file name of a path is, and where it
    stands;
  * `Path.getLast?_components`: the last component is the file name;
  * `Path.exists_isFilename`: only a path of nothing but separators has none.
-/
import FuzzyPath.Path.Components
import FuzzyPath.Proofs.Text.Offsets
import Mathlib.Data.List.Induction

namespace FuzzyPath.Path

/-- `name` is the file name of `path`, and stands after `front`: it has no
    separator, and is between the last separator before it and those at the
    end. -/
def IsFilename (style : PathStyle) (path front name : String) : Prop :=
  ∃ back, path = front ++ name ++ back ∧ name ≠ "" ∧
    (∀ c ∈ front.toList.getLast?, style.isSeparator c = true) ∧
    (∀ c ∈ name.toList, style.isSeparator c = false) ∧
    ∀ c ∈ back.toList, style.isSeparator c = true

variable {style : PathStyle}

/-! ## Pieces -/

theorem closePiece_self (found : List Span) (offset : Nat) :
    closePiece found offset offset = found := if_neg (Nat.lt_irrefl offset)

/-- Characters that do not separate make the current piece longer. -/
theorem pieces_append_of_not_separator (found : List Span) (start : Nat) (back : List Char) :
    ∀ (name : List Char) (offset : Nat), (∀ c ∈ name, style.isSeparator c = false) →
      pieces style found start offset (name ++ back) =
        pieces style found start (offset + (utf8Chars name).length) back
  | [], offset, _ => by simp
  | c :: name, offset, h => by
    rw [List.cons_append, pieces, if_neg (by simp [h c]),
      pieces_append_of_not_separator found start back name _ fun d hd => h d (by simp [hd]),
      length_utf8Chars_cons, Nat.add_assoc]

/-- After separators there is only the piece before them. -/
theorem pieces_of_separators : ∀ (back : List Char) (found : List Span) (start offset : Nat),
    (∀ c ∈ back, style.isSeparator c = true) →
      pieces style found start offset back = (closePiece found start offset).reverse
  | [], _, _, _, _ => rfl
  | c :: back, found, start, offset, h => by
    rw [pieces, if_pos (h c (by simp)),
      pieces_of_separators back _ _ _ fun d hd => h d (by simp [hd]), closePiece_self]

/-- Whatever stands in front of a character, the pieces go on after it. -/
theorem exists_pieces_append : ∀ (front back : List Char) (found : List Span) (start offset : Nat),
    ∃ found' start', pieces style found start offset (front ++ back) =
      pieces style found' start' (offset + (utf8Chars front).length) back
  | [], back, found, start, offset => ⟨found, start, by simp⟩
  | c :: front, back, found, start, offset => by
    rw [List.cons_append, pieces, length_utf8Chars_cons, ← Nat.add_assoc]
    split
    · exact exists_pieces_append front back _ _ _
    · exact exists_pieces_append front back _ _ _

/-- After a separator a new piece begins. -/
theorem exists_pieces_append_of_separator {front : List Char}
    (hfront : ∀ c ∈ front.getLast?, style.isSeparator c = true) (back : List Char) :
    ∃ found, pieces style [] 0 0 (front ++ back) =
      pieces style found (utf8Chars front).length (utf8Chars front).length back := by
  rcases List.eq_nil_or_concat front with rfl | ⟨front, c, rfl⟩
  · exact ⟨[], rfl⟩
  · obtain ⟨found, start, hpieces⟩ := exists_pieces_append front (c :: back) [] 0 0
    have hc : style.isSeparator c = true := hfront c (by simp)
    refine ⟨closePiece found start (0 + (utf8Chars front).length), ?_⟩
    rw [List.concat_eq_append, List.append_assoc, List.singleton_append, hpieces, pieces, if_pos hc,
      utf8Chars_append, List.length_append, length_utf8Chars_cons]
    simp

/-! ## The file name -/

/-- The last component of a path is its file name. -/
theorem getLast?_components {path front name : String} (h : IsFilename style path front name) :
    (components style path).getLast? =
      some ⟨front.utf8ByteSize, front.utf8ByteSize + name.utf8ByteSize⟩ := by
  obtain ⟨back, rfl, hne, hfront, hname, hback⟩ := h
  obtain ⟨found, hpieces⟩ := exists_pieces_append_of_separator hfront (name.toList ++ back.toList)
  have hsize : 0 < name.utf8ByteSize :=
    Nat.pos_of_ne_zero fun h => hne (String.utf8ByteSize_eq_zero_iff.1 h)
  rw [components, String.toList_append, String.toList_append, List.append_assoc, hpieces,
    pieces_append_of_not_separator _ _ _ _ _ hname, pieces_of_separators _ _ _ _ hback,
    length_utf8Chars_toList, length_utf8Chars_toList, closePiece, if_pos (by omega)]
  simp

/-- A list ends in what satisfies a predicate, after something that does not. -/
theorem exists_append_of_all_last {α : Type} (p : α → Bool) (l : List α) :
    ∃ front back, l = front ++ back ∧ (∀ a ∈ front.getLast?, p a = false) ∧
      ∀ a ∈ back, p a = true := by
  induction l using List.reverseRecOn with
  | nil => exact ⟨[], [], by simp⟩
  | append_singleton l a ih =>
    obtain ⟨front, back, rfl, hfront, hback⟩ := ih
    by_cases ha : p a = true
    · refine ⟨front, back ++ [a], by simp, hfront, fun b hb => ?_⟩
      rcases List.mem_append.1 hb with hb | hb
      · exact hback b hb
      · rwa [List.mem_singleton.1 hb]
    · exact ⟨front ++ back ++ [a], [], by simp, by simpa using ha, by simp⟩

/-- A path has a file name unless it has no component at all. -/
theorem exists_isFilename (style : PathStyle) (path : String) :
    (∃ front name, IsFilename style path front name) ∨ components style path = [] := by
  obtain ⟨rest, back, hpath, hrest, hback⟩ :=
    exists_append_of_all_last style.isSeparator path.toList
  obtain ⟨front, name, rfl, hfront, hname⟩ :=
    exists_append_of_all_last (fun c => !style.isSeparator c) rest
  simp only [Bool.not_eq_true', Bool.not_eq_false'] at hfront hname
  by_cases hempty : name = []
  · -- What is left of the path ends both in a separator and in something else.
    subst hempty
    obtain rfl : front = [] := by
      rw [List.append_nil] at hrest
      rcases List.eq_nil_or_concat front with rfl | ⟨front, c, rfl⟩
      · rfl
      · have hc := (hfront c (by simp)).symm.trans (hrest c (by simp))
        cases hc
    rw [List.append_nil, List.nil_append] at hpath
    exact Or.inr (by rw [components, hpath, pieces_of_separators _ _ _ _ hback]; rfl)
  · refine Or.inl ⟨.ofList front, .ofList name, .ofList back, ?_, ?_, ?_⟩
    · rw [← String.toList_inj, hpath]; simp
    · rw [Ne, ← String.toList_inj]; simpa using hempty
    · simpa using ⟨hfront, hname, hback⟩

end FuzzyPath.Path
