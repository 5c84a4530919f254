/-
  FuzzyPath — a highlight pattern matches its line, and there what is to be
  shown.

  * `Pattern.Finds` says where the rows of a pattern match, and with which span;
    `Finds.matches_iff` and `Finds.search_eq` are the matches of the pattern and
    those that the editor shows;
  * `finds_bounded` and `finds_surrounded` tell what the patterns made here
    find;
  * `HighlightMode.shown` are the spans that a mode shows of some runs;
    `highlightPattern_shows`: the text of a pattern is read as one that matches
    its line only, and there the spans to be shown.
-/
import FuzzyPath.Proofs.Highlight.Rows
import FuzzyPath.Proofs.Highlight.Reading
import FuzzyPath.Proofs.Highlight.Runs
import Mathlib.Data.List.Nodup

namespace FuzzyPath

/-! ## Patterns for one line -/

namespace Pattern

theorem literals_append (front back : String) :
    literals (front ++ back) = literals front ++ literals back := by
  simp [literals]

theorem before_append (front back : String) :
    before (front ++ back) front.utf8ByteSize = literals front := by
  rw [before, Span.slice_prefix]

theorem after_append (front back : String) :
    after (front ++ back) front.utf8ByteSize = literals back := by
  rw [after, Span.slice_suffix]

/-- The row of pieces for a piece of the text, with its bounds. -/
theorem bounded_eq (lead front text back : String) :
    bounded lead (front ++ text ++ back)
        ⟨front.utf8ByteSize, front.utf8ByteSize + text.utf8ByteSize⟩ =
      (Walk.marked (lead ++ front) text back).map .atom := by
  have hbefore := before_append front (text ++ back)
  have hafter := after_append (front ++ text) back
  rw [← String.append_assoc] at hbefore
  rw [String.utf8ByteSize_append] at hafter
  simp [bounded, Walk.marked, hbefore, hafter, Span.slice_append, literals_append]

theorem surrounded_eq (lead front text back : String) :
    surrounded lead (front ++ text ++ back)
        ⟨front.utf8ByteSize, front.utf8ByteSize + text.utf8ByteSize⟩ =
      Walk.framed (lead ++ front) text back := by
  have hbefore := before_append front (text ++ back)
  have hafter := after_append (front ++ text) back
  rw [← String.append_assoc] at hbefore
  rw [String.utf8ByteSize_append] at hafter
  simp [surrounded, Walk.framed, hbefore, hafter, Span.slice_append, literals_append]

/-! ## What a pattern finds -/

/-- The rows of a pattern match in `line` only: at the places listed, which
    follow each other, each with its span. -/
structure Finds (p : Pattern) (line : String) (found : List (Place × Span)) : Prop where
  match_iff : ∀ place span,
    (∃ row ∈ p.alternatives, Walk.match? row place = some span) ↔ (place, span) ∈ found
  inLine : ∀ x ∈ found, x.1 ∈ places line.toList
  increasing : found.Pairwise fun x y => x.1.offset < y.1.offset
  apart : found.Pairwise fun x y => x.2.stop ≤ y.1.offset

namespace Finds
variable {p : Pattern} {line : String} {found : List (Place × Span)}

theorem matches_iff (h : p.Finds line found) {other : String} {span : Span} :
    p.Matches other span ↔ other = line ∧ span ∈ found.map Prod.snd := by
  constructor
  · rintro ⟨place, hplace, row, hrow, hmatch⟩
    have hmem := (h.match_iff place span).1 ⟨row, hrow, hmatch⟩
    have hline := (mem_places.1 hplace).symm.trans (mem_places.1 (h.inLine _ hmem))
    exact ⟨String.toList_inj.1 hline, List.mem_map_of_mem hmem⟩
  · rintro ⟨rfl, hspan⟩
    obtain ⟨⟨place, _⟩, hmem, rfl⟩ := List.mem_map.1 hspan
    obtain ⟨row, hrow, hmatch⟩ := (h.match_iff place _).2 hmem
    exact ⟨place, h.inLine _ hmem, row, hrow, hmatch⟩

/-- The match at a place is the one that is listed with it. -/
theorem matchAt?_eq_some_iff (h : p.Finds line found) {place : Place} {span : Span} :
    p.matchAt? place = some span ↔ (place, span) ∈ found := by
  have listed {other : Span} (hother : p.matchAt? place = some other) : (place, other) ∈ found :=
    (h.match_iff place other).1 (List.exists_of_findSome?_eq_some hother)
  refine ⟨listed, fun hmem => ?_⟩
  obtain ⟨row, hrow, hmatch⟩ := (h.match_iff place span).2 hmem
  cases hother : p.matchAt? place with
  | none =>
    rw [matchAt?, List.findSome?_eq_none_iff] at hother
    rw [hother row hrow] at hmatch
    cases hmatch
  | some other =>
    have hplaces : (found.map Prod.fst).Nodup := by
      refine List.pairwise_map.2 (h.increasing.imp fun {x y} hlt heq => ?_)
      rw [heq] at hlt
      exact Nat.lt_irrefl _ hlt
    have hsame := List.inj_on_of_nodup_map hplaces (listed hother) hmem rfl
    exact congrArg some (congrArg Prod.snd hsame)

/-- The matches from some place on are those listed with the places there, if
    none of them begins before `free`. -/
theorem searchFrom_eq {later : List Place} : ∀ {found : List (Place × Span)} {free : Nat},
    later.Pairwise (fun x y => x.offset < y.offset) →
    (∀ place ∈ later, ∀ span, p.matchAt? place = some span ↔ (place, span) ∈ found) →
    (∀ x ∈ found, x.1 ∈ later ∧ free ≤ x.1.offset) →
    found.Pairwise (fun x y => x.1.offset < y.1.offset) →
    found.Pairwise (fun x y => x.2.stop ≤ y.1.offset) →
    p.searchFrom free later = found.map Prod.snd := by
  induction later with
  | nil =>
    intro found free _ _ hin _ _
    obtain rfl : found = [] := List.eq_nil_iff_forall_not_mem.2 fun x hx => by
      cases (hin x hx).1
    rfl
  | cons place later ih =>
    intro found free hplaces hmatch hin hincreasing hapart
    obtain ⟨hfirst, hlater⟩ := List.pairwise_cons.1 hplaces
    have hmatchLater := fun q hq => hmatch q (List.mem_cons_of_mem place hq)
    -- what is listed, but not with the first place, is listed with a later one
    have skip (hne : ∀ x ∈ found, x.1 ≠ place) : p.searchFrom free later = found.map Prod.snd :=
      ih hlater hmatchLater
        (fun x hx => ⟨(List.mem_cons.1 (hin x hx).1).resolve_left (hne x hx), (hin x hx).2⟩)
        hincreasing hapart
    rw [searchFrom]
    by_cases hfree : place.offset < free
    · rw [if_pos hfree]
      refine skip fun x hx heq => ?_
      have := (hin x hx).2
      rw [heq] at this
      omega
    rw [if_neg hfree]
    cases hat : p.matchAt? place with
    | none =>
      refine skip fun x hx heq => ?_
      have := (hmatch place List.mem_cons_self x.2).2 (heq ▸ hx)
      rw [hat] at this
      cases this
    | some span =>
      have hmem := (hmatch place List.mem_cons_self span).1 hat
      cases found with
      | nil => cases hmem
      | cons x found =>
        obtain ⟨hx, hincreasing'⟩ := List.pairwise_cons.1 hincreasing
        obtain ⟨hstop, hapart'⟩ := List.pairwise_cons.1 hapart
        have hle : place.offset ≤ x.1.offset := by
          rcases List.mem_cons.1 (hin x List.mem_cons_self).1 with heq | h
          · exact Nat.le_of_eq (congrArg Place.offset heq.symm)
          · exact Nat.le_of_lt (hfirst x.1 h)
        obtain rfl : (place, span) = x := by
          refine (List.mem_cons.1 hmem).resolve_right fun htail => ?_
          exact absurd (hx _ htail) (Nat.not_lt_of_le hle)
        refine congrArg (span :: ·) (ih hlater ?_ ?_ hincreasing' hapart')
        · intro q hq other
          rw [hmatchLater q hq other, List.mem_cons, or_iff_right]
          rintro heq
          cases heq
          exact Nat.lt_irrefl _ (hfirst _ hq)
        · intro y hy
          have hlt := hx y hy
          have := hstop y hy
          refine ⟨(List.mem_cons.1 (hin y (List.mem_cons_of_mem _ hy)).1).resolve_left ?_, ?_⟩
          · rintro heq
            rw [heq] at hlt
            exact Nat.lt_irrefl _ hlt
          · exact Nat.max_le.2 ⟨this, hlt⟩

/-- The editor shows in the line all that is listed, and in other lines nothing. -/
theorem search_eq (h : p.Finds line found) (other : String) :
    p.search other = if other = line then found.map Prod.snd else [] := by
  split
  · subst other
    exact searchFrom_eq (places_increasing _) (fun place _ span => h.matchAt?_eq_some_iff)
      (fun x hx => ⟨h.inLine x hx, Nat.zero_le _⟩) h.increasing h.apart
  · rename_i hne
    have hnone : ∀ place ∈ places other.toList, ∀ span,
        p.matchAt? place = some span ↔ (place, span) ∈ [] := by
      intro place hplace span
      rw [h.matchAt?_eq_some_iff]
      refine iff_of_false (fun hmem => hne (String.toList_inj.1 ?_)) List.not_mem_nil
      exact (mem_places.1 hplace).symm.trans (mem_places.1 (h.inLine _ hmem))
    exact searchFrom_eq (places_increasing _) hnone (by simp) .nil .nil

end Finds

end Pattern

/-! ## Patterns of runs -/

/-- The place of the line made of `lead` and `item` at an offset of the item. -/
def Place.ofItem (lead item : String) (offset : Nat) : Place :=
  ⟨(lead ++ (⟨0, offset⟩ : Span).slice item).toList,
    ((⟨offset, item.utf8ByteSize⟩ : Span).slice item).toList⟩

theorem Place.ofItem_append (lead front back : String) :
    Place.ofItem lead (front ++ back) front.utf8ByteSize = ⟨(lead ++ front).toList, back.toList⟩ := by
  rw [Place.ofItem, Span.slice_prefix, Span.slice_suffix]

theorem Place.ofItem_mem {lead item : String} {offset : Nat} (h : isBoundary item offset = true) :
    Place.ofItem lead item offset ∈ places (lead ++ item).toList := by
  obtain ⟨front, back, rfl, rfl⟩ := isBoundary_iff.1 h
  rw [Place.ofItem_append, mem_places, ← String.toList_append, String.append_assoc]

theorem Place.offset_ofItem {lead item : String} {offset : Nat} (h : isBoundary item offset = true) :
    (Place.ofItem lead item offset).offset = offset + lead.utf8ByteSize := by
  obtain ⟨front, back, rfl, rfl⟩ := isBoundary_iff.1 h
  rw [Place.ofItem_append, Place.offset, String.ofList_toList, String.utf8ByteSize_append,
    Nat.add_comm]

section
variable {lead item : String} {run : Span} {place : Place} {span : Span}

theorem match?_bounded (h : run.IsPiece item) :
    Walk.match? (Pattern.bounded lead item run) place = some span ↔
      (place, span) = (⟨[], (lead ++ item).toList⟩, run.shift lead.utf8ByteSize) := by
  obtain ⟨front, text, back, rfl, rfl⟩ := h.cut
  rw [Pattern.bounded_eq, Walk.match?_marked, Prod.mk.injEq]
  simp [Span.shift, String.append_assoc, Nat.add_comm]

theorem match?_surrounded (h : run.IsPiece item) :
    Walk.match? (Pattern.surrounded lead item run) place = some span ↔
      (place, span) = (.ofItem lead item run.start, run.shift lead.utf8ByteSize) := by
  obtain ⟨front, text, back, rfl, rfl⟩ := h.cut
  have hplace := Place.ofItem_append lead front (text ++ back)
  rw [← String.append_assoc] at hplace
  rw [Pattern.surrounded_eq, Walk.match?_framed, Prod.mk.injEq, hplace]
  simp [Span.shift, String.append_assoc, Nat.add_comm]

end

theorem finds_bounded {lead item : String} {run : Span} (h : run.IsPiece item) :
    Pattern.Finds ⟨[Pattern.bounded lead item run]⟩ (lead ++ item)
      [(⟨[], (lead ++ item).toList⟩, run.shift lead.utf8ByteSize)] where
  match_iff place span := by simp [match?_bounded h]
  inLine := by simp [mem_places]
  increasing := List.pairwise_singleton _ _
  apart := List.pairwise_singleton _ _

theorem finds_surrounded {lead item : String} {runs : List Span}
    (hruns : ∀ run ∈ runs, run.IsPiece item)
    (hapart : runs.Pairwise fun earlier later => earlier.stop < later.start) :
    Pattern.Finds ⟨runs.map (Pattern.surrounded lead item)⟩ (lead ++ item)
      (runs.map fun run => (.ofItem lead item run.start, run.shift lead.utf8ByteSize)) where
  match_iff place span := by
    simp only [List.mem_map, exists_exists_and_eq_and]
    refine exists_congr fun run => and_congr_right fun hrun => ?_
    rw [match?_surrounded (hruns run hrun), eq_comm]
  inLine := by
    refine List.forall_mem_map.2 fun run hrun => ?_
    exact Place.ofItem_mem (hruns run hrun).start
  increasing := by
    refine List.pairwise_map.2 (hapart.imp_of_mem fun {run later} hrun hlater hlt => ?_)
    rw [Place.offset_ofItem (hruns run hrun).start, Place.offset_ofItem (hruns later hlater).start]
    have := (hruns run hrun).nonempty
    omega
  apart := by
    refine List.pairwise_map.2 (hapart.imp_of_mem fun {run later} _ hlater hlt => ?_)
    rw [Place.offset_ofItem (hruns later hlater).start, Span.shift]
    exact Nat.add_le_add_right (Nat.le_of_lt hlt) _

/-! ## Highlight patterns -/

/-- The spans that a highlight mode shows of some runs. -/
def HighlightMode.shown : HighlightMode → List Span → List Span
  | .none, _ | _, [] => []
  | .basic, first :: rest => [⟨first.start, (rest.getLastD first).stop⟩]
  | .full, runs => runs

/-- From the start of the first of some runs to the end of the last one. -/
theorem isPiece_whole {item : String} {first : Span} {rest : List Span}
    (hruns : ∀ run ∈ first :: rest, run.IsPiece item)
    (hapart : (first :: rest).Pairwise fun earlier later => earlier.stop < later.start) :
    (⟨first.start, (rest.getLastD first).stop⟩ : Span).IsPiece item := by
  have hfirst := hruns first List.mem_cons_self
  cases rest with
  | nil => exact hfirst
  | cons next rest =>
    have hlast : (next :: rest).getLastD first ∈ next :: rest := by
      rw [List.getLastD_cons]
      exact List.getLastD_mem_cons
    have hpiece := hruns _ (List.mem_cons_of_mem _ hlast)
    have hlt := (List.pairwise_cons.1 hapart).1 _ hlast
    have := hpiece.nonempty
    exact hfirst.join hpiece (by omega)

/-- The pattern for some runs finds in its line what its mode shows of them. -/
theorem exists_finds_ofRuns {mode : HighlightMode} {item : String} {runs : List Span}
    (lead : String) (hmode : mode ≠ .none) (hne : runs ≠ [])
    (hruns : ∀ run ∈ runs, run.IsPiece item)
    (hapart : runs.Pairwise fun earlier later => earlier.stop < later.start) :
    ∃ p found, Pattern.ofRuns mode lead item runs = some p ∧ p.alternatives ≠ [] ∧
      p.Finds (lead ++ item) found ∧
      found.map Prod.snd = (mode.shown runs).map (·.shift lead.utf8ByteSize) := by
  obtain ⟨first, rest, rfl⟩ := List.exists_cons_of_ne_nil hne
  cases mode with
  | none => exact absurd rfl hmode
  | basic => exact ⟨_, _, rfl, by simp, finds_bounded (isPiece_whole hruns hapart), rfl⟩
  | full => exact ⟨_, _, rfl, by simp, finds_surrounded hruns hapart, by simp [HighlightMode.shown]⟩

theorem HighlightMode.shown_ne_nil {mode : HighlightMode} {runs : List Span}
    (hmode : mode ≠ .none) (hne : runs ≠ []) : mode.shown runs ≠ [] := by
  obtain ⟨first, rest, rfl⟩ := List.exists_cons_of_ne_nil hne
  cases mode with
  | none => exact absurd rfl hmode
  | basic => simp [shown]
  | full => simp [shown]

/-- The pattern is read as one that has a match in its line and in no other, and
    its matches there are the spans that its mode shows of the matched runs. -/
theorem highlightPattern_shows {mode : HighlightMode} {item lead : String} {positions : List Nat}
    (hmode : mode ≠ .none) (hpos : ∃ pos ∈ positions, pos < item.utf8ByteSize) :
    ∃ p, Pattern.ofText? (highlightPattern mode item positions lead) = some p ∧
      (∀ line, (∃ span, p.Matches line span) ↔ line = lead ++ item) ∧
      (∀ span, p.Matches (lead ++ item) span ↔
        span ∈ (mode.shown (matchedRuns item positions)).map (·.shift lead.utf8ByteSize)) ∧
      p.search (lead ++ item) =
        (mode.shown (matchedRuns item positions)).map (·.shift lead.utf8ByteSize) := by
  obtain ⟨pos, hmem, hlt⟩ := hpos
  have hne := matchedRuns_ne_nil hmem hlt
  obtain ⟨hruns, hapart⟩ := separate_matchedRuns item positions
  obtain ⟨p, found, hof, halternatives, hfinds, hfound⟩ :=
    exists_finds_ofRuns lead hmode hne hruns hapart
  refine ⟨p, ?_, fun line => ?_, fun span => ?_, ?_⟩
  · rw [highlightPattern, hof]
    exact Pattern.ofText?_text halternatives
  · simp only [hfinds.matches_iff, hfound, exists_and_left, and_iff_left_iff_imp]
    intro _
    exact List.exists_mem_of_ne_nil _ (by simpa using HighlightMode.shown_ne_nil hmode hne)
  · rw [hfinds.matches_iff, hfound, and_iff_right rfl]
  · rw [hfinds.search_eq, if_pos rfl, hfound]

/-- Two runs of a text that reads like a mark of the match, after a prefix that
    reads like the start of a line; the first offset lies within a character. -/
theorem highlightPattern_shows_marks :
    HighlightMode.full ≠ .none ∧ (∃ pos ∈ [1, 3], pos < "é\\zs".utf8ByteSize) ∧
    ∃ p, Pattern.ofText? (highlightPattern .full "é\\zs" [1, 3] "\\^") = some p ∧
      (∀ line, (∃ span, p.Matches line span) ↔ line = "\\^é\\zs") ∧
      p.search "\\^é\\zs" = [⟨2, 4⟩, ⟨5, 6⟩] := by
  have hmode : HighlightMode.full ≠ .none := by decide
  have hpos : ∃ pos ∈ [1, 3], pos < "é\\zs".utf8ByteSize := by decide
  obtain ⟨p, hp, hline, -, hsearch⟩ := @highlightPattern_shows .full "é\\zs" "\\^" [1, 3] hmode hpos
  exact ⟨hmode, hpos, p, hp, hline, hsearch.trans (by decide +kernel)⟩

end FuzzyPath
