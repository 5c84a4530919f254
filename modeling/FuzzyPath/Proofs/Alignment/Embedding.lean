/-
  FuzzyPath — the ways of putting a query on a row of columns.

  * `Embeds` says that a list of column numbers puts every query unit on a
    column that accepts it, from left to right;
  * `earliest_least` and `latest_greatest`: if there is an embedding, the scans from
    either end succeed, and they give the embeddings that are pointwise the
    least and the greatest;
  * `exists_embeds_iff`: an embedding exists iff the query is a subsequence.
-/
import FuzzyPath.Alignment.Bounds
import Mathlib.Data.List.Forall2

namespace FuzzyPath.Alignment

/-- The query is put on the columns of `path`, from left to right. -/
structure Embeds (accepts : TextUnit → Column → Bool) (columns : List Column)
    (query : List TextUnit) (path : List Nat) : Prop where
  increasing : path.Pairwise (· < ·)
  matching : List.Forall₂ (fun q j => ∃ c, columns[j]? = some c ∧ accepts q c = true) query path

namespace Embeds
variable {accepts : TextUnit → Column → Bool} {columns : List Column} {query : List TextUnit}
  {path : List Nat}

theorem length_eq (h : Embeds accepts columns query path) : query.length = path.length :=
  h.matching.length_eq

theorem lt_length (h : Embeds accepts columns query path) {j : Nat} (hj : j ∈ path) :
    j < columns.length := by
  obtain ⟨i, hi, rfl⟩ := List.getElem_of_mem hj
  obtain ⟨c, hc, -⟩ := h.matching.get (i := i) (h.length_eq ▸ hi) hi
  exact (List.getElem?_eq_some_iff.1 hc).1

theorem nil_iff : Embeds accepts columns [] path ↔ path = [] := by
  constructor
  · intro h; exact List.forall₂_nil_left_iff.1 h.matching
  · rintro rfl; exact ⟨List.Pairwise.nil, .nil⟩

/-- A column in front moves an embedding by one place. -/
theorem shift (h : Embeds accepts columns query path) (c : Column) :
    Embeds accepts (c :: columns) query (path.map (· + 1)) := by
  refine ⟨List.pairwise_map.2 (h.increasing.imp fun hab => by omega), ?_⟩
  rw [List.forall₂_map_right_iff]
  exact h.matching.imp fun q j hj => by simpa using hj

/-- A query unit that the column in front accepts can be put there. -/
theorem cons (h : Embeds accepts columns query path) {q : TextUnit} {c : Column}
    (hq : accepts q c = true) :
    Embeds accepts (c :: columns) (q :: query) (0 :: path.map (· + 1)) := by
  obtain ⟨hinc, hmatch⟩ := h.shift c
  refine ⟨List.pairwise_cons.2 ⟨fun j hj => ?_, hinc⟩, .cons ⟨c, rfl, hq⟩ hmatch⟩
  obtain ⟨i, -, rfl⟩ := List.mem_map.1 hj
  omega

/-- An embedding that does not use the column in front. -/
theorem exists_shift {c : Column} (h : Embeds accepts (c :: columns) query path)
    (hpos : ∀ j ∈ path, 0 < j) :
    ∃ path', path = path'.map (· + 1) ∧ Embeds accepts columns query path' := by
  have hpath : path = (path.map (· - 1)).map (· + 1) := by
    rw [List.map_map]
    conv_lhs => rw [← List.map_id path]
    exact List.map_congr_left fun j hj => by have := hpos j hj; simp; omega
  refine ⟨path.map (· - 1), hpath, ?_, ?_⟩
  · rw [hpath] at h
    exact (List.pairwise_map.1 h.increasing).imp fun hab => by omega
  · have hmatch := h.matching
    rw [hpath, List.forall₂_map_right_iff] at hmatch
    exact hmatch.imp fun q j hj => by simpa using hj

/-- An embedding uses the column in front for its first unit or not at all. -/
theorem cons_cases {q : TextUnit} {c : Column}
    (h : Embeds accepts (c :: columns) (q :: query) path) :
    (∃ path', path = 0 :: path'.map (· + 1) ∧ accepts q c = true ∧
        Embeds accepts columns query path') ∨
      ∃ path', path = path'.map (· + 1) ∧ Embeds accepts columns (q :: query) path' := by
  obtain ⟨j, rest, ⟨c', hc', hq⟩, hrest, rfl⟩ := List.forall₂_cons_left_iff.1 h.matching
  obtain ⟨hlt, hinc⟩ := List.pairwise_cons.1 h.increasing
  cases j with
  | zero =>
    obtain rfl : c = c' := by simpa using hc'
    obtain ⟨path', rfl, h'⟩ := exists_shift ⟨hinc, hrest⟩ hlt
    exact Or.inl ⟨path', rfl, hq, h'⟩
  | succ j =>
    refine Or.inr (h.exists_shift fun i hi => ?_)
    rcases List.mem_cons.1 hi with rfl | hi
    · omega
    · have := hlt i hi; omega

/-- Seen from the other end, an embedding is an embedding. -/
theorem reverse (h : Embeds accepts columns query path) :
    Embeds accepts columns.reverse query.reverse
      (path.map (columns.length - 1 - ·)).reverse := by
  refine ⟨?_, ?_⟩
  · rw [List.pairwise_reverse, List.pairwise_map]
    refine h.increasing.imp_of_mem fun {a b} ha hb hab => ?_
    have := h.lt_length hb
    omega
  · rw [← List.map_reverse, List.forall₂_map_right_iff, List.forall₂_reverse_iff]
    refine h.matching.imp fun q j hj => ?_
    obtain ⟨c, hc, hq⟩ := hj
    have hlt := (List.getElem?_eq_some_iff.1 hc).1
    refine ⟨c, ?_, hq⟩
    rw [List.getElem?_reverse (by omega), ← hc]
    congr 1; omega

/-- A column may be exchanged for one that accepts what it accepts. -/
theorem imp {accepts' : TextUnit → Column → Bool} {columns' : List Column}
    (h : Embeds accepts columns query path)
    (himp : ∀ q ∈ query, ∀ (j : Nat) (c : Column), columns[j]? = some c → accepts q c = true →
      ∃ c', columns'[j]? = some c' ∧ accepts' q c' = true) :
    Embeds accepts' columns' query path := by
  refine ⟨h.increasing, List.forall₂_iff_get.2 ⟨h.length_eq, fun i hi hi' => ?_⟩⟩
  obtain ⟨c, hc, hq⟩ := h.matching.get hi hi'
  exact himp _ (List.get_mem ..) _ c hc hq

/-- The query without its first unit. -/
theorem tail {q : TextUnit} {j : Nat} (h : Embeds accepts columns (q :: query) (j :: path)) :
    Embeds accepts columns query path :=
  ⟨(List.pairwise_cons.1 h.increasing).2, (List.forall₂_cons.1 h.matching).2⟩

end Embeds

/-! ## The scans -/

section Scans
variable {accepts : TextUnit → Column → Bool}

/-- The columns given out so far stand in front of the rest, which is numbered
    from the column at hand. -/
theorem earliestFrom_eq (columns : List Column) : ∀ (found : List Nat) (j : Nat)
    (query : List TextUnit), earliestFrom accepts found j query columns =
      (earliest accepts query columns).map fun path => found.reverse ++ path.map (· + j) := by
  induction columns with
  | nil => intro found j query; cases query <;> simp [earliest, earliestFrom]
  | cons c columns ih =>
    intro found j query
    cases query with
    | nil => simp [earliest, earliestFrom]
    | cons q query =>
      have hshift (path : List Nat) :
          path.map (· + (j + 1)) = (path.map (· + 1)).map (· + j) := by
        rw [List.map_map]
        exact List.map_congr_left fun i _ => by simp only [Function.comp_apply]; omega
      rw [earliest, earliestFrom, earliestFrom]
      by_cases hq : accepts q c = true
      · rw [if_pos hq, if_pos hq, ih, ih, Option.map_map]
        congr 1; funext path
        simp [hshift]
      · rw [if_neg hq, if_neg hq, ih, ih, Option.map_map]
        congr 1; funext path
        simp [hshift]

theorem earliest_cons_cons (q : TextUnit) (query : List TextUnit) (c : Column)
    (columns : List Column) : earliest accepts (q :: query) (c :: columns) =
      if accepts q c then (earliest accepts query columns).map fun path => 0 :: path.map (· + 1)
      else (earliest accepts (q :: query) columns).map fun path => path.map (· + 1) := by
  simp [earliest, earliestFrom, earliestFrom_eq columns [0] 1, earliestFrom_eq columns [] 1]

/-- The scans depend only on which columns accept which units. -/
theorem earliest_congr {accepts' : TextUnit → Column → Bool} {columns columns' : List Column}
    (h : List.Forall₂ (fun c c' => ∀ q, accepts q c = accepts' q c') columns columns') :
    ∀ query, earliest accepts query columns = earliest accepts' query columns' := by
  induction h with
  | nil => intro query; cases query <;> rfl
  | cons hc _ ih =>
    intro query
    cases query with
    | nil => simp [earliest, earliestFrom]
    | cons q query => rw [earliest_cons_cons, earliest_cons_cons, hc q, ih, ih]

theorem latest_congr {accepts' : TextUnit → Column → Bool} {columns columns' : List Column}
    (h : List.Forall₂ (fun c c' => ∀ q, accepts q c = accepts' q c') columns columns')
    (query : List TextUnit) : latest accepts query columns = latest accepts' query columns' := by
  rw [latest, latest, earliest_congr (List.forall₂_reverse_iff.2 h), h.length_eq]

theorem earliest_embeds (columns : List Column) : ∀ {query : List TextUnit} {first : List Nat},
    earliest accepts query columns = some first → Embeds accepts columns query first := by
  induction columns with
  | nil =>
    intro query first h
    cases query with
    | nil => obtain rfl : [] = first := by simpa [earliest, earliestFrom] using h
             exact Embeds.nil_iff.2 rfl
    | cons => simp [earliest, earliestFrom] at h
  | cons c columns ih =>
    intro query first h
    cases query with
    | nil => obtain rfl : [] = first := by simpa [earliest, earliestFrom] using h
             exact Embeds.nil_iff.2 rfl
    | cons q query =>
      rw [earliest_cons_cons] at h
      split at h
      · obtain ⟨path, hpath, rfl⟩ := Option.map_eq_some_iff.1 h
        exact (ih hpath).cons ‹_›
      · obtain ⟨path, hpath, rfl⟩ := Option.map_eq_some_iff.1 h
        exact (ih hpath).shift c

theorem earliest_least (columns : List Column) : ∀ {query : List TextUnit} {path : List Nat},
    Embeds accepts columns query path →
      ∃ first, earliest accepts query columns = some first ∧ List.Forall₂ (· ≤ ·) first path := by
  induction columns with
  | nil =>
    intro query path h
    cases h.matching with
    | nil => exact ⟨[], by simp [earliest, earliestFrom], .nil⟩
    | cons hq => simp at hq
  | cons c columns ih =>
    intro query path h
    cases query with
    | nil => exact ⟨[], by simp [earliest, earliestFrom], by rw [Embeds.nil_iff.1 h]; exact .nil⟩
    | cons q query =>
      rw [earliest_cons_cons]
      by_cases hq : accepts q c = true
      · rw [if_pos hq]
        -- The scan puts `q` on the column in front, wherever the path has it.
        obtain ⟨j, rest, rfl, hrest⟩ : ∃ j rest, path = j :: rest.map (· + 1) ∧
            Embeds accepts columns query rest := by
          rcases h.cons_cases with ⟨rest, rfl, -, hrest⟩ | ⟨path', rfl, h'⟩
          · exact ⟨0, rest, rfl, hrest⟩
          · obtain ⟨j, rest, -, -, rfl⟩ := List.forall₂_cons_left_iff.1 h'.matching
            exact ⟨j + 1, rest, rfl, h'.tail⟩
        obtain ⟨first, hfirst, hle⟩ := ih hrest
        refine ⟨_, by rw [hfirst]; rfl, .cons (Nat.zero_le j) ?_⟩
        rw [List.forall₂_map_left_iff, List.forall₂_map_right_iff]
        exact hle.imp fun a b hab => by omega
      · rw [if_neg hq]
        rcases h.cons_cases with ⟨-, -, hq', -⟩ | ⟨path', rfl, h'⟩
        · exact absurd hq' hq
        · obtain ⟨first, hfirst, hle⟩ := ih h'
          refine ⟨_, by rw [hfirst]; rfl, ?_⟩
          rw [List.forall₂_map_left_iff, List.forall₂_map_right_iff]
          exact hle.imp fun a b hab => by omega

theorem latest_embeds {columns : List Column} {query : List TextUnit} {last : List Nat}
    (h : latest accepts query columns = some last) : Embeds accepts columns query last := by
  obtain ⟨found, hfound, rfl⟩ := Option.map_eq_some_iff.1 h
  simpa using (earliest_embeds _ hfound).reverse

theorem latest_greatest {columns : List Column} {query : List TextUnit} {path : List Nat}
    (h : Embeds accepts columns query path) :
    ∃ last, latest accepts query columns = some last ∧ List.Forall₂ (· ≤ ·) path last := by
  obtain ⟨found, hfound, hle⟩ := earliest_least _ h.reverse
  refine ⟨_, by rw [latest, hfound]; rfl, ?_⟩
  have hback : path = ((path.map (columns.length - 1 - ·)).reverse.map
      (columns.length - 1 - ·)).reverse := by
    rw [List.map_reverse, List.reverse_reverse, List.map_map]
    conv_lhs => rw [← List.map_id path]
    exact List.map_congr_left fun j hj => by have := h.lt_length hj; simp; omega
  rw [hback, List.forall₂_reverse_iff, List.forall₂_map_left_iff, List.forall₂_map_right_iff]
  exact hle.flip.imp fun a b hab => by omega

/-- Both scans succeed exactly if the query can be put on the columns at all. -/
theorem exists_embeds_iff {columns : List Column} {query : List TextUnit} :
    (∃ path, Embeds accepts columns query path) ↔
      ∃ first last, earliest accepts query columns = some first ∧
        latest accepts query columns = some last := by
  constructor
  · rintro ⟨path, h⟩
    obtain ⟨first, hfirst, -⟩ := earliest_least _ h
    obtain ⟨last, hlast, -⟩ := latest_greatest h
    exact ⟨first, last, hfirst, hlast⟩
  · rintro ⟨first, -, hfirst, -⟩
    exact ⟨first, earliest_embeds _ hfirst⟩

/-- If a unit is accepted where two values agree, the query can be put on the
    columns exactly if its values are a subsequence of theirs. -/
theorem exists_embeds_iff_sublist {α : Type} {f : TextUnit → α} {g : Column → α}
    (haccepts : ∀ q c, accepts q c = true ↔ f q = g c) (columns : List Column) :
    ∀ query : List TextUnit, (∃ path, Embeds accepts columns query path) ↔
      (query.map f).Sublist (columns.map g) := by
  induction columns with
  | nil =>
    intro query
    rw [List.map_nil, List.sublist_nil, List.map_eq_nil_iff]
    constructor
    · rintro ⟨path, h⟩
      cases h.matching with
      | nil => rfl
      | cons hq => simp at hq
    · rintro rfl; exact ⟨[], Embeds.nil_iff.2 rfl⟩
  | cons c columns ih =>
    intro query
    cases query with
    | nil => simpa using ⟨[], Embeds.nil_iff.2 rfl⟩
    | cons q query =>
      rw [List.map_cons, List.map_cons, List.sublist_cons_iff, ← List.map_cons, ← ih]
      constructor
      · rintro ⟨path, h⟩
        rcases h.cons_cases with ⟨path', -, hq, h'⟩ | ⟨path', -, h'⟩
        · exact Or.inr ⟨_, by rw [List.map_cons, (haccepts q c).1 hq], (ih _).1 ⟨path', h'⟩⟩
        · exact Or.inl ⟨path', h'⟩
      · rintro (⟨path', h'⟩ | ⟨rest, hrest, hsub⟩)
        · exact ⟨_, h'.shift c⟩
        · obtain ⟨hq, rfl⟩ := List.cons.inj hrest
          obtain ⟨path', h'⟩ := (ih _).2 hsub
          exact ⟨_, h'.cons ((haccepts q c).2 hq)⟩

end Scans

end FuzzyPath.Alignment
