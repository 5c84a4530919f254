/-
  FuzzyPath — which part of a line is its key.

  * `MatchMode.IsKey` says what the key of a line is, in terms of its tabs;
  * `MatchMode.exists_isKey` and `MatchMode.key_of_isKey`: every line has a
    key, and it is the one that is matched.
-/
import FuzzyPath.Query.MatchMode
import FuzzyPath.Proofs.Text.Offsets

namespace FuzzyPath

/-! ## Tabs -/

theorem firstTab?_of_not_mem : ∀ {cs : List Char} (offset : Nat), '\t' ∉ cs →
    firstTab? offset cs = none
  | [], _, _ => rfl
  | c :: cs, offset, h => by
    rw [List.mem_cons, not_or] at h
    rw [firstTab?, if_neg (Ne.symm h.1), firstTab?_of_not_mem _ h.2]

theorem firstTab?_append : ∀ {front : List Char} (offset : Nat) (back : List Char), '\t' ∉ front →
    firstTab? offset (front ++ '\t' :: back) = some (offset + (utf8Chars front).length)
  | [], offset, back, _ => by simp [firstTab?]
  | c :: front, offset, back, h => by
    rw [List.mem_cons, not_or] at h
    rw [List.cons_append, firstTab?, if_neg (Ne.symm h.1), firstTab?_append _ _ h.2,
      length_utf8Chars_cons, Nat.add_assoc]

theorem lastTab?_of_not_mem : ∀ {cs : List Char} (found : Option Nat) (offset : Nat), '\t' ∉ cs →
    lastTab? found offset cs = found
  | [], _, _, _ => rfl
  | c :: cs, found, offset, h => by
    rw [List.mem_cons, not_or] at h
    rw [lastTab?, if_neg (Ne.symm h.1), lastTab?_of_not_mem _ _ h.2]

theorem lastTab?_append {back : List Char} (h : '\t' ∉ back) : ∀ (front : List Char)
    (found : Option Nat) (offset : Nat),
    lastTab? found offset (front ++ '\t' :: back) = some (offset + (utf8Chars front).length)
  | [], found, offset => by
    rw [List.nil_append, lastTab?, if_pos rfl, lastTab?_of_not_mem _ _ h]; rfl
  | c :: front, found, offset => by
    rw [List.cons_append, lastTab?, lastTab?_append h, length_utf8Chars_cons, Nat.add_assoc]

/-! ## Keys -/

namespace MatchMode

/-- The key of a line: what stands before its first or its last tab, or all of
    a line without a tab; in the other modes always all of it. -/
def IsKey (mode : MatchMode) (line key : String) : Prop :=
  match mode with
  | firstNonTab => '\t' ∉ key.toList ∧ (line = key ∨ ∃ rest, line = key ++ ("\t" ++ rest))
  | untilLastTab =>
    (line = key ∧ '\t' ∉ key.toList) ∨ ∃ rest, line = key ++ ("\t" ++ rest) ∧ '\t' ∉ rest.toList
  | fullLine | filenameOnly | regex => line = key

variable {mode : MatchMode} {line key : String}

theorem exists_isKey (mode : MatchMode) (line : String) : ∃ key, mode.IsKey line key := by
  by_cases htab : '\t' ∈ line.toList
  · cases mode with
    | firstNonTab =>
      obtain ⟨front, back, hline, hfront⟩ := List.eq_append_cons_of_mem htab
      refine ⟨.ofList front, by simpa using hfront, Or.inr ⟨.ofList back, ?_⟩⟩
      rw [← String.toList_inj, hline]; simp
    | untilLastTab =>
      obtain ⟨back, front, hline, hback⟩ := List.eq_append_cons_of_mem (List.mem_reverse.2 htab)
      refine ⟨.ofList front.reverse, Or.inr ⟨.ofList back.reverse, ?_, by simpa using hback⟩⟩
      rw [← String.toList_inj, ← List.reverse_reverse line.toList, hline]; simp
    | fullLine | filenameOnly | regex => exact ⟨line, rfl⟩
  · cases mode with
    | firstNonTab => exact ⟨line, htab, Or.inl rfl⟩
    | untilLastTab => exact ⟨line, Or.inl ⟨rfl, htab⟩⟩
    | fullLine | filenameOnly | regex => exact ⟨line, rfl⟩

/-- A key is where its line begins. -/
theorem IsKey.exists_append (h : mode.IsKey line key) : ∃ rest, line = key ++ rest := by
  cases mode with
  | firstNonTab =>
    obtain ⟨-, rfl | ⟨rest, rfl⟩⟩ := h
    · exact ⟨"", String.append_empty.symm⟩
    · exact ⟨_, rfl⟩
  | untilLastTab =>
    rcases h with ⟨rfl, -⟩ | ⟨rest, rfl, -⟩
    · exact ⟨"", String.append_empty.symm⟩
    · exact ⟨_, rfl⟩
  | fullLine | filenameOnly | regex => exact ⟨"", h ▸ String.append_empty.symm⟩

/-- The key of a line is the part that is matched. -/
theorem key_of_isKey (h : mode.IsKey line key) : mode.key line = ⟨0, key.utf8ByteSize⟩ := by
  have htab (rest : String) :
      (key ++ ("\t" ++ rest)).toList = key.toList ++ '\t' :: rest.toList := by simp
  cases mode with
  | firstNonTab =>
    obtain ⟨hkey, rfl | ⟨rest, rfl⟩⟩ := h
    · rw [MatchMode.key, firstTab?_of_not_mem 0 hkey]; rfl
    · rw [MatchMode.key, htab, firstTab?_append 0 _ hkey]; simp
  | untilLastTab =>
    rcases h with ⟨rfl, hkey⟩ | ⟨rest, rfl, hrest⟩
    · rw [MatchMode.key, lastTab?_of_not_mem none 0 hkey]; rfl
    · rw [MatchMode.key, htab, lastTab?_append hrest]; simp
  | fullLine | filenameOnly | regex => obtain rfl : line = key := h; rfl

theorem IsKey.slice_eq (h : mode.IsKey line key) : (mode.key line).slice line = key := by
  obtain ⟨rest, rfl⟩ := h.exists_append
  rw [key_of_isKey h, Span.slice_prefix]

end MatchMode

end FuzzyPath
