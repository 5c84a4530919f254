/-
  FuzzyPath — how the editor reads a highlight pattern.

  After the mark for "very nomagic" a backslash begins every special atom; two
  backslashes and all other characters stand for themselves.

  * a `Token` is an atom, a bracket or a mark of a group, or what separates
    alternatives; `tokens?` splits a text into tokens;
  * `alternatives?` puts tokens together, and `Pattern.ofText?` reads a whole
    pattern; there is none for a text with other special atoms than those that
    patterns here are made of;
  * `ofText?_text`: what is written is read back.
-/
import FuzzyPath.Highlight.Pattern

namespace FuzzyPath

/-- The smallest parts of a pattern that have a meaning. -/
inductive Token where
  | atom (a : Atom)
  /-- The start of a group. -/
  | groupStart
  | groupEnd
  /-- The group before has to stand behind the place. -/
  | behindMark
  /-- The group before has to stand ahead of the place. -/
  | aheadMark
  /-- Another alternative follows. -/
  | alternative
  deriving DecidableEq, Repr

/-- The tokens of a text. -/
def tokens? : List Char → Option (List Token)
  | [] => some []
  | '\\' :: '\\' :: cs => (tokens? cs).map (.atom (.literal '\\') :: ·)
  | '\\' :: '^' :: cs => (tokens? cs).map (.atom .lineStart :: ·)
  | '\\' :: '$' :: cs => (tokens? cs).map (.atom .lineEnd :: ·)
  | '\\' :: 'z' :: 's' :: cs => (tokens? cs).map (.atom .matchStart :: ·)
  | '\\' :: 'z' :: 'e' :: cs => (tokens? cs).map (.atom .matchEnd :: ·)
  | '\\' :: '%' :: '(' :: cs => (tokens? cs).map (.groupStart :: ·)
  | '\\' :: ')' :: cs => (tokens? cs).map (.groupEnd :: ·)
  | '\\' :: '@' :: '<' :: '=' :: cs => (tokens? cs).map (.behindMark :: ·)
  | '\\' :: '@' :: '=' :: cs => (tokens? cs).map (.aheadMark :: ·)
  | '\\' :: '|' :: cs => (tokens? cs).map (.alternative :: ·)
  | '\\' :: _ => none
  | c :: cs => (tokens? cs).map (.atom (.literal c) :: ·)

/-- The alternatives that some tokens make up.  `group` are the atoms of a group
    that has not ended, and `row` the pieces of the alternative before them, each
    last first. -/
def alternatives? (group : Option (List Atom)) (row : List Piece) :
    List Token → Option (List (List Piece))
  | [] => if group.isNone then some [row.reverse] else none
  | .atom a :: tokens =>
    match group with
    | none => alternatives? none (.atom a :: row) tokens
    | some atoms => alternatives? (some (a :: atoms)) row tokens
  | .groupStart :: tokens => if group.isNone then alternatives? (some []) row tokens else none
  | .groupEnd :: .behindMark :: tokens =>
    group.bind fun atoms => alternatives? none (.behind atoms.reverse :: row) tokens
  | .groupEnd :: .aheadMark :: tokens =>
    group.bind fun atoms => alternatives? none (.ahead atoms.reverse :: row) tokens
  | .alternative :: tokens =>
    if group.isNone then (alternatives? none [] tokens).map (row.reverse :: ·) else none
  | _ => none

/-- The pattern that a text is, if it says "very nomagic" and "match case" first. -/
def Pattern.ofText? (text : String) : Option Pattern :=
  match text.toList with
  | '\\' :: 'V' :: '\\' :: 'C' :: cs => do
    return ⟨← alternatives? none [] (← tokens? cs)⟩
  | _ => none

/-! ## Reading what is written -/

theorem tokens?_atom (a : Atom) (cs : List Char) :
    tokens? (a.text ++ cs) = (tokens? cs).map (.atom a :: ·) := by
  cases a with
  | literal c =>
    rw [Atom.text]
    split
    · subst c
      simp [tokens?]
    · simp [tokens?, *]
  | lineStart => simp [Atom.text, tokens?]
  | lineEnd => simp [Atom.text, tokens?]
  | matchStart => simp [Atom.text, tokens?]
  | matchEnd => simp [Atom.text, tokens?]

theorem tokens?_atoms (atoms : List Atom) (cs : List Char) :
    tokens? (atoms.flatMap Atom.text ++ cs) = (tokens? cs).map (atoms.map .atom ++ ·) := by
  induction atoms with
  | nil => simp
  | cons a atoms ih =>
    rw [List.flatMap_cons, List.append_assoc, tokens?_atom, ih, Option.map_map]
    rfl

/-- The tokens of a piece. -/
def Piece.tokens : Piece → List Token
  | .atom a => [.atom a]
  | .behind atoms => .groupStart :: atoms.map .atom ++ [.groupEnd, .behindMark]
  | .ahead atoms => .groupStart :: atoms.map .atom ++ [.groupEnd, .aheadMark]

theorem tokens?_piece (piece : Piece) (cs : List Char) :
    tokens? (piece.text ++ cs) = (tokens? cs).map (piece.tokens ++ ·) := by
  cases piece with
  | atom a => exact tokens?_atom a cs
  | behind atoms =>
    simp [Piece.text, Piece.tokens, groupText, tokens?, tokens?_atoms, Function.comp_def]
  | ahead atoms =>
    simp [Piece.text, Piece.tokens, groupText, tokens?, tokens?_atoms, Function.comp_def]

theorem tokens?_row (row : List Piece) (cs : List Char) :
    tokens? (row.flatMap Piece.text ++ cs) = (tokens? cs).map (row.flatMap Piece.tokens ++ ·) := by
  induction row with
  | nil => simp
  | cons piece row ih =>
    rw [List.flatMap_cons, List.append_assoc, tokens?_piece, ih, Option.map_map]
    simp [Function.comp_def]

/-- Every piece is put together again, before whatever follows it. -/
theorem alternatives?_atoms (atoms group : List Atom) (row : List Piece) (tokens : List Token) :
    alternatives? (some group) row (atoms.map .atom ++ tokens) =
      alternatives? (some (atoms.reverse ++ group)) row tokens := by
  induction atoms generalizing group with
  | nil => rfl
  | cons a atoms ih => simp [alternatives?, ih]

theorem alternatives?_piece (piece : Piece) (row : List Piece) (tokens : List Token) :
    alternatives? none row (piece.tokens ++ tokens) = alternatives? none (piece :: row) tokens := by
  cases piece with
  | atom a => simp [Piece.tokens, alternatives?]
  | behind atoms => simp [Piece.tokens, alternatives?, alternatives?_atoms]
  | ahead atoms => simp [Piece.tokens, alternatives?, alternatives?_atoms]

theorem alternatives?_row (pieces row : List Piece) (tokens : List Token) :
    alternatives? none row (pieces.flatMap Piece.tokens ++ tokens) =
      alternatives? none (pieces.reverse ++ row) tokens := by
  induction pieces generalizing row with
  | nil => rfl
  | cons piece pieces ih => simp [alternatives?_piece, ih]

theorem tokens?_rows (rows : List (List Piece)) :
    tokens? (['\\', '|'].intercalate (rows.map (·.flatMap Piece.text))) =
      some ([Token.alternative].intercalate (rows.map (·.flatMap Piece.tokens))) := by
  induction rows with
  | nil => rfl
  | cons row rows ih =>
    cases rows with
    | nil => simpa [tokens?] using tokens?_row row []
    | cons next rows =>
      simp only [List.map_cons, List.intercalate_cons_cons, List.append_assoc] at ih ⊢
      rw [tokens?_row]
      simp [tokens?, ih]

theorem alternatives?_rows (row : List Piece) (rows : List (List Piece)) :
    alternatives? none [] ([Token.alternative].intercalate
      ((row :: rows).map (·.flatMap Piece.tokens))) = some (row :: rows) := by
  induction rows generalizing row with
  | nil => simpa [alternatives?] using alternatives?_row row [] []
  | cons next rows ih =>
    simp only [List.map_cons, List.intercalate_cons_cons, List.append_assoc] at ih ⊢
    rw [alternatives?_row]
    simp [alternatives?, ih]

/-- A pattern that has an alternative is read back from how it is written. -/
theorem Pattern.ofText?_text {p : Pattern} (h : p.alternatives ≠ []) :
    Pattern.ofText? p.text = some p := by
  obtain ⟨alternatives⟩ := p
  obtain ⟨row, rows, rfl⟩ := List.exists_cons_of_ne_nil h
  have htext : (Pattern.text ⟨row :: rows⟩).toList = '\\' :: 'V' :: '\\' :: 'C' ::
      ['\\', '|'].intercalate ((row :: rows).map (·.flatMap Piece.text)) := by
    simp [Pattern.text]
  rw [Pattern.ofText?, htext]
  simp only [tokens?_rows, alternatives?_rows, Option.bind_eq_bind, Option.bind_some]
  rfl

end FuzzyPath
