/-
  FuzzyPath — where a row of pieces of a highlight pattern matches.

  * `mem_places` and `places_increasing` tell which places a line has;
  * `Walk.atoms?_text`: literal text leads over itself, and nowhere else;
  * `Walk.isBehind_text` and `Walk.isAhead_text`: literal text between a place
    and an end of the line is all that stands there;
  * `Walk.match?_marked` and `Walk.match?_framed`: a row that spells out a whole
    line, with the bounds of the match in it or the rest of the line around it,
    matches at one place of that line only, and there one span.
-/
import FuzzyPath.Proofs.Highlight.Matching
import FuzzyPath.Proofs.Text.Offsets

namespace FuzzyPath

/-! ## Places -/

theorem mem_places {place : Place} {cs : List Char} :
    place ∈ places cs ↔ place.before ++ place.after = cs := by
  obtain ⟨before, after⟩ := place
  induction cs generalizing before with
  | nil => simp [places]
  | cons c cs ih =>
    rw [places, List.mem_cons, List.mem_map]
    constructor
    · rintro (heq | ⟨⟨front, back⟩, hmem, heq⟩)
      · cases heq
        rfl
      · cases heq
        exact congrArg (c :: ·) ((ih front).1 hmem)
    · intro h
      cases before with
      | nil => exact .inl (congrArg (Place.mk []) h)
      | cons b before =>
        simp only [List.cons_append, List.cons.injEq] at h
        obtain ⟨rfl, h⟩ := h
        exact .inr ⟨⟨before, after⟩, (ih before).2 h, rfl⟩

theorem Place.offset_cons (c : Char) (before after : List Char) :
    Place.offset ⟨c :: before, after⟩ = c.utf8Size + Place.offset ⟨before, after⟩ := by
  rw [Place.offset, String.ofList_cons, String.utf8ByteSize_append, String.utf8ByteSize_singleton]
  rfl

theorem places_increasing (cs : List Char) :
    (places cs).Pairwise fun place later => place.offset < later.offset := by
  induction cs with
  | nil => simp [places]
  | cons c cs ih =>
    rw [places, List.pairwise_cons, List.pairwise_map]
    constructor
    · rintro _ hmem
      obtain ⟨later, -, rfl⟩ := List.mem_map.1 hmem
      rw [Place.offset_cons]
      exact Nat.lt_of_lt_of_le c.utf8Size_pos (Nat.le_add_right _ _)
    · refine ih.imp fun {place later} h => ?_
      rw [Place.offset_cons, Place.offset_cons]
      exact Nat.add_lt_add_left h _

/-! ## Following atoms -/

namespace Walk
variable {before after : List Char} {start stop : Option Nat} {atoms : List Atom}
  {text : String} {walk walk' : Walk} {place : Place}

theorem atoms?_cons (a : Atom) :
    walk.atoms? (a :: atoms) = (walk.atom? a).bind (·.atoms? atoms) := rfl

theorem atoms?_nil : walk.atoms? [] = some walk' ↔ walk' = walk := by
  rw [atoms?, List.foldlM_nil, Option.pure_def, Option.some.injEq, eq_comm]

theorem atoms?_lineStart :
    (⟨⟨before, after⟩, start, stop⟩ : Walk).atoms? (.lineStart :: atoms) = some walk ↔
      before = [] ∧ (⟨⟨before, after⟩, start, stop⟩ : Walk).atoms? atoms = some walk := by
  cases before <;> simp [atoms?, atom?]

theorem atoms?_lineEnd :
    (⟨⟨before, after⟩, start, stop⟩ : Walk).atoms? (.lineEnd :: atoms) = some walk ↔
      after = [] ∧ (⟨⟨before, after⟩, start, stop⟩ : Walk).atoms? atoms = some walk := by
  cases after <;> simp [atoms?, atom?]

theorem atoms?_matchStart :
    (⟨⟨before, after⟩, start, stop⟩ : Walk).atoms? (.matchStart :: atoms) =
      (⟨⟨before, after⟩, some (Place.offset ⟨before, after⟩), stop⟩ : Walk).atoms? atoms := rfl

theorem atoms?_matchEnd :
    (⟨⟨before, after⟩, start, stop⟩ : Walk).atoms? (.matchEnd :: atoms) =
      (⟨⟨before, after⟩, start, some (Place.offset ⟨before, after⟩)⟩ : Walk).atoms? atoms := rfl

/-- Literal characters lead over themselves, and nowhere else. -/
theorem atoms?_literal (cs : List Char) :
    (⟨⟨before, after⟩, start, stop⟩ : Walk).atoms? (cs.map .literal ++ atoms) = some walk ↔
      ∃ rest, after = cs ++ rest ∧
        (⟨⟨before ++ cs, rest⟩, start, stop⟩ : Walk).atoms? atoms = some walk := by
  induction cs generalizing before after with
  | nil => simp
  | cons c cs ih =>
    rw [List.map_cons, List.cons_append, atoms?_cons]
    cases after with
    | nil => simp [atom?]
    | cons next after =>
      by_cases hc : next = c
      · simp [atom?, hc, ih]
      · simp [atom?, hc]

theorem atoms?_text :
    (⟨⟨before, after⟩, start, stop⟩ : Walk).atoms? (Pattern.literals text ++ atoms) = some walk ↔
      ∃ rest, after = text.toList ++ rest ∧
        (⟨⟨before ++ text.toList, rest⟩, start, stop⟩ : Walk).atoms? atoms = some walk :=
  atoms?_literal text.toList

/-! ## What stands around the match -/

/-- The whole line before a place stands behind it. -/
theorem isBehind_text :
    isBehind (.lineStart :: Pattern.literals text) place = true ↔ place.before = text.toList := by
  rw [← List.append_nil (Pattern.literals text)]
  simp only [isBehind, List.any_eq_true, decide_eq_true_eq]
  simp only [mem_places, Option.map_eq_some_iff, begin, atoms?_lineStart, atoms?_text, atoms?_nil]
  constructor
  · rintro ⟨⟨_, earlier⟩, -, _, ⟨rfl, rest, -, rfl⟩, rfl⟩
    rfl
  · intro h
    exact ⟨⟨[], place.before⟩, rfl, _, ⟨rfl, place.after, by rw [h], rfl⟩, by
      rw [List.nil_append, ← h]⟩

/-- The whole line after a place stands ahead of it. -/
theorem isAhead_text :
    isAhead (Pattern.literals text ++ [.lineEnd]) place = true ↔ place.after = text.toList := by
  obtain ⟨before, after⟩ := place
  simp only [isAhead, Option.isSome_iff_exists, begin, atoms?_lineEnd, atoms?_text, atoms?_nil]
  constructor
  · rintro ⟨_, rest, hafter, rfl, -⟩
    exact hafter.trans (List.append_nil _)
  · intro h
    exact ⟨_, [], h.trans (List.append_nil _).symm, rfl, rfl⟩

theorem piece?_behind :
    walk.piece? (.behind (.lineStart :: Pattern.literals text)) = some walk' ↔
      walk.place.before = text.toList ∧ walk' = walk := by
  rw [piece?, Option.ite_none_right_eq_some, isBehind_text, Option.some.injEq, @eq_comm _ walk']

theorem piece?_ahead :
    walk.piece? (.ahead (Pattern.literals text ++ [.lineEnd])) = some walk' ↔
      walk.place.after = text.toList ∧ walk' = walk := by
  rw [piece?, Option.ite_none_right_eq_some, isAhead_text, Option.some.injEq, @eq_comm _ walk']

/-! ## Rows of pieces -/

/-- A whole line, with the bounds of the match around `text`. -/
def marked (front text back : String) : List Atom :=
  .lineStart :: (Pattern.literals front ++ .matchStart :: (Pattern.literals text ++
    .matchEnd :: (Pattern.literals back ++ [.lineEnd])))

/-- The text `text`, with the rest of the line around it. -/
def framed (front text back : String) : List Piece :=
  .behind (.lineStart :: Pattern.literals front) :: ((Pattern.literals text).map .atom ++
    [.ahead (Pattern.literals back ++ [.lineEnd])])

theorem foldlM_atoms : (atoms.map Piece.atom).foldlM piece? walk = walk.atoms? atoms := by
  rw [List.foldlM_map]
  rfl

theorem match?_marked {front text back : String} {span : Span} :
    match? ((marked front text back).map .atom) place = some span ↔
      place = ⟨[], (front ++ text ++ back).toList⟩ ∧
        span = ⟨front.utf8ByteSize, (front ++ text).utf8ByteSize⟩ := by
  obtain ⟨before, after⟩ := place
  simp only [match?, foldlM_atoms, Option.map_eq_some_iff, begin, marked, atoms?_lineStart,
    atoms?_text, atoms?_matchStart, atoms?_matchEnd, atoms?_lineEnd, atoms?_nil]
  constructor
  · rintro ⟨_, ⟨rfl, rest, rfl, rest, rfl, rest, rfl, rfl, rfl⟩, rfl⟩
    simp [Place.offset]
  · rintro ⟨hplace, rfl⟩
    cases hplace
    exact ⟨_, ⟨rfl, text.toList ++ back.toList, by simp, back.toList, rfl, [], by simp, rfl, rfl⟩,
      by simp [Place.offset]⟩

theorem match?_framed {front text back : String} {span : Span} :
    match? (framed front text back) place = some span ↔
      place = ⟨front.toList, (text ++ back).toList⟩ ∧
        span = ⟨front.utf8ByteSize, (front ++ text).utf8ByteSize⟩ := by
  obtain ⟨before, after⟩ := place
  rw [match?, framed, ← List.append_nil (Pattern.literals text)]
  simp only [List.foldlM_append, List.foldlM_cons, List.foldlM_nil, foldlM_atoms,
    Option.map_eq_some_iff, Option.bind_eq_bind, Option.bind_eq_some_iff, Option.pure_def,
    Option.some.injEq, begin, piece?_behind, piece?_ahead]
  constructor
  · rintro ⟨_, ⟨_, ⟨rfl, rfl⟩, walk, hwalk, _, ⟨hback, rfl⟩, rfl⟩, rfl⟩
    obtain ⟨rest, rfl, hrest⟩ := atoms?_text.1 hwalk
    obtain rfl := atoms?_nil.1 hrest
    obtain rfl : rest = back.toList := hback
    simp [Place.offset]
  · rintro ⟨hplace, rfl⟩
    cases hplace
    exact ⟨_, ⟨_, ⟨rfl, rfl⟩, _,
      atoms?_text.2 ⟨back.toList, String.toList_append, atoms?_nil.2 rfl⟩, _, ⟨rfl, rfl⟩, rfl⟩,
      by simp [Place.offset]⟩

end Walk

end FuzzyPath
