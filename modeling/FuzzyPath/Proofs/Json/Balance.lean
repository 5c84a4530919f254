/-
  FuzzyPath — where a JSON value ends.

  The end of a value can be told without reading it: it is before the first comma
  or closing bracket that stands neither in a string nor in brackets that the value
  has opened itself.

  * `readDocument_eq_ok` and `readDocument_of_read`: a text is read as a whole if
    only blank space is left of it;
  * a `Scan` is how far such a look at a text has come, and `Scan.through` takes it
    through some bytes; `through_append` cuts the bytes in two;
  * `Balanced` bytes lead back to where the look began;
  * `Balanced.eq_of_append`: of two balanced beginnings of a text, each in front of
    a delimiter, neither is longer.
-/
import FuzzyPath.Json.Reader
import FuzzyPath.Proofs.Fallible
import Mathlib.Data.List.TakeWhile

namespace FuzzyPath.Json

/-! ## Blank space -/

/-- Blank space between tokens. -/
def Blank (bytes : List UInt8) : Prop := ∀ b ∈ bytes, isBlank b = true

theorem blank_nil : Blank [] := by simp [Blank]

theorem Blank.append {v w : List UInt8} (hv : Blank v) (hw : Blank w) : Blank (v ++ w) :=
  fun b hb => (List.mem_append.1 hb).elim (hv b) (hw b)

theorem skipBlank_append {w : List UInt8} (h : Blank w) (input : List UInt8) :
    skipBlank (w ++ input) = skipBlank input :=
  List.dropWhile_append_of_pos h

theorem exists_skipBlank (input : List UInt8) :
    ∃ w, Blank w ∧ input = w ++ skipBlank input :=
  ⟨input.takeWhile isBlank, fun _ hb => List.mem_takeWhile_imp hb,
    (List.takeWhile_append_dropWhile).symm⟩

/-- What is passed over before a token is blank, and the token is not. -/
theorem skipBlank_eq_cons {input rest : List UInt8} {b : UInt8} (h : skipBlank input = b :: rest) :
    isBlank b = false ∧ ∃ w, Blank w ∧ input = w ++ b :: rest := by
  obtain ⟨w, hw, hinput⟩ := exists_skipBlank input
  refine ⟨?_, w, hw, by rw [← h]; exact hinput⟩
  rw [skipBlank] at h
  have hhead := List.head_dropWhile_not isBlank (by rw [h]; exact List.cons_ne_nil b rest)
  simpa only [h, List.head_cons] using hhead

theorem skipBlank_token {w : List UInt8} (hw : Blank w) {b : UInt8} (hb : isBlank b = false)
    (rest : List UInt8) : skipBlank (w ++ b :: rest) = b :: rest := by
  rw [skipBlank_append hw, skipBlank, List.dropWhile_cons_of_neg (by simp [hb])]

/-! ## Whole texts -/

section
variable {α : Type} {reader : JsonReader α} {text : List UInt8} {x : α}

theorem readDocument_eq_ok (h : readDocument reader text = .ok x) :
    ∃ gap, Blank gap ∧ reader text = .ok (x, gap) := by
  rw [readDocument] at h
  split at h
  · cases h
  · rename_i value gap hread
    split at h
    · rename_i hskip
      obtain ⟨w, hw, heq⟩ := exists_skipBlank gap
      rw [hskip, List.append_nil] at heq
      exact ⟨gap, heq ▸ hw, by rw [hread, Except.ok.inj h]⟩
    · cases h

theorem readDocument_of_read {gap : List UInt8} (h : reader text = .ok (x, gap))
    (hgap : Blank gap) : readDocument reader text = .ok x := by
  have hskip : skipBlank gap = [] := by simpa [skipBlank] using skipBlank_append hgap []
  rw [readDocument, h]
  dsimp only
  rw [hskip]

end

/-! ## Going through a text -/

/-- Where a byte stands: outside of strings, in one, or after a backslash in one. -/
inductive Position where
  | outside
  | inText
  | escaped
  deriving DecidableEq, Repr

/-- How far a look at a text has come. -/
structure Scan where
  position : Position
  /-- The closing brackets of those that are open, the innermost first. -/
  closing : List UInt8
  deriving DecidableEq, Repr

namespace Scan

/-- Outside of strings, within some brackets. -/
def outside (closing : List UInt8) : Scan := ⟨.outside, closing⟩

/-- In a string, within some brackets. -/
def inText (closing : List UInt8) : Scan := ⟨.inText, closing⟩

/-- One byte more; none if a value that began outside of all brackets has ended
    before it, or the wrong bracket is closed. -/
def step (s : Scan) (b : UInt8) : Option Scan :=
  match s.position with
  | .escaped => some (inText s.closing)
  | .inText =>
    if b = 0x22 then some (outside s.closing)
    else if b = 0x5c then some ⟨.escaped, s.closing⟩
    else some s
  | .outside =>
    if b = 0x22 then some (inText s.closing)
    else if b = 0x5b then some (outside (0x5d :: s.closing))
    else if b = 0x7b then some (outside (0x7d :: s.closing))
    else if b = 0x5d ∨ b = 0x7d then
      match s.closing with
      | [] => none
      | c :: closing => if b = c then some (outside closing) else none
    else if b = 0x2c ∧ s.closing = [] then none
    else some s

/-- Some bytes more. -/
def through (s : Scan) (bytes : List UInt8) : Option Scan := bytes.foldlM step s

@[simp] theorem through_nil (s : Scan) : s.through [] = some s := rfl

@[simp] theorem through_cons (s : Scan) (b : UInt8) (bytes : List UInt8) :
    s.through (b :: bytes) = (s.step b).bind (·.through bytes) := by
  rw [through, List.foldlM_cons]
  rfl

theorem through_append (s : Scan) (front back : List UInt8) :
    s.through (front ++ back) = (s.through front).bind (·.through back) := by
  rw [through, List.foldlM_append]
  rfl

theorem through_append_of {s t u : Scan} {front back : List UInt8} (h : s.through front = some t)
    (h' : t.through back = some u) : s.through (front ++ back) = some u := by
  rw [through_append, h]
  exact h'

/-- Whether a byte outside of strings changes nothing. -/
def Plain (b : UInt8) : Prop :=
  b ≠ 0x22 ∧ b ≠ 0x5b ∧ b ≠ 0x7b ∧ b ≠ 0x5d ∧ b ≠ 0x7d ∧ b ≠ 0x2c

instance (b : UInt8) : Decidable (Plain b) := inferInstanceAs (Decidable (_ ∧ _))

theorem through_plain (closing : List UInt8) : ∀ {bytes : List UInt8}, (∀ b ∈ bytes, Plain b) →
    (outside closing).through bytes = some (outside closing)
  | [], _ => rfl
  | b :: bytes, h => by
    obtain ⟨⟨hquote, hlist, hobject, hlist', hobject', hcomma⟩, hrest⟩ := List.forall_mem_cons.1 h
    have hstep : (outside closing).step b = some (outside closing) := by
      simp [step, outside, *]
    rw [through_cons, hstep]
    exact through_plain closing hrest

end Scan

open Scan

theorem plain_of_isBlank {b : UInt8} (h : isBlank b = true) : Plain b := by
  simp only [isBlank, Bool.or_eq_true, beq_iff_eq] at h
  rcases h with ((rfl | rfl) | rfl) | rfl <;> decide

theorem plain_of_isDigit {b : UInt8} (h : isDigit b = true) : Plain b := by
  refine ⟨?_, ?_, ?_, ?_, ?_, ?_⟩ <;> rintro rfl <;> exact absurd h (by decide)

theorem Blank.through {w : List UInt8} (h : Blank w) (closing : List UInt8) :
    (outside closing).through w = some (outside closing) :=
  through_plain closing fun b hb => plain_of_isBlank (h b hb)

/-! ## Values -/

/-- All brackets and strings that are opened are closed, and there is no comma
    outside of them. -/
def Balanced (bytes : List UInt8) : Prop := (outside []).through bytes = some (outside [])

instance (bytes : List UInt8) : Decidable (Balanced bytes) := inferInstanceAs (Decidable (_ = _))

theorem Balanced.append {v w : List UInt8} (hv : Balanced v) (hw : Balanced w) :
    Balanced (v ++ w) := through_append_of hv hw

/-- What may stand after a value in a list or an object. -/
def IsDelimiter (b : UInt8) : Prop := b = 0x2c ∨ b = 0x5d ∨ b = 0x7d

theorem step_of_isDelimiter {b : UInt8} (h : IsDelimiter b) : (outside []).step b = none := by
  rcases h with rfl | rfl | rfl <;> decide

/-- A balanced text that goes on over another one has no delimiter after it. -/
theorem Balanced.not_isDelimiter {v more : List UInt8} {b : UInt8} (hv : Balanced v)
    (h : Balanced (v ++ b :: more)) : ¬ IsDelimiter b := by
  intro hb
  rw [Balanced, through_append, hv, Option.bind_some, through_cons, step_of_isDelimiter hb] at h
  cases h

/-- The value in front of a delimiter is the only one. -/
theorem Balanced.eq_of_append {v v' more more' : List UInt8} {b b' : UInt8} (hv : Balanced v)
    (hv' : Balanced v') (hb : IsDelimiter b) (hb' : IsDelimiter b')
    (heq : v ++ b :: more = v' ++ b' :: more') : v = v' ∧ b :: more = b' :: more' := by
  rcases List.append_eq_append_iff.1 heq with ⟨w, rfl, hw⟩ | ⟨w, rfl, hw⟩
  · cases w with
    | nil => exact ⟨(List.append_nil v).symm, hw⟩
    | cons c w =>
      obtain ⟨rfl, -⟩ := List.cons.inj hw
      exact absurd hb (hv.not_isDelimiter hv')
  · cases w with
    | nil => exact ⟨List.append_nil v', hw.symm⟩
    | cons c w =>
      obtain ⟨rfl, -⟩ := List.cons.inj hw
      exact absurd hb' (hv'.not_isDelimiter hv)

end FuzzyPath.Json
