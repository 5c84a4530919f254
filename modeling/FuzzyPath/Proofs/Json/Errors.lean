/-
  FuzzyPath — which errors are about unknown keys.

  * `JsonError.isUnknownField` are the errors about a key that is no field, and by
    `isPrefixOf_message` they are those whose text begins with the words for it,
    whatever texts and names the others quote;
  * `Familiar` outcomes are no such errors.  `familiar_readText`,
    `familiar_readList` and the others: only records meet unknown keys;
  * a `PlainReader` is a reader of whole values with familiar outcomes, as
    `plain_string`, `plain_list` and the others.
-/
import FuzzyPath.Proofs.Json.Values

namespace FuzzyPath

namespace JsonError

/-- Whether an error is about a key that is no field. -/
def isUnknownField : JsonError → Bool
  | unknownField _ _ => true
  | _ => false

/-- The text of an error begins with the words for an unknown key only if it is
    about one, whatever stands after it. -/
theorem isPrefixOf_message (err : JsonError) (more : List Char) :
    "unknown field".toList.isPrefixOf (err.message.toList ++ more) = err.isUnknownField := by
  -- the first words of every text are fixed
  cases err <;> (rw [message.eq_def]; simp [isUnknownField, List.isPrefixOf, toString])

end JsonError

theorem JsonFailure.isPrefixOf_message (failure : JsonFailure) :
    "unknown field".toList.isPrefixOf failure.message.toList = failure.error.isUnknownField := by
  rw [message]
  split
  · simp only [toString, String.toList_append, List.append_assoc]
    exact failure.error.isPrefixOf_message _
  · simpa using failure.error.isPrefixOf_message []

namespace Json

variable {α β : Type}

/-- The outcome is no error about an unknown key. -/
def Familiar (x : Except JsonFault α) : Prop :=
  ∀ fault, x = .error fault → fault.error.isUnknownField = false

@[simp] theorem familiar_ok (a : α) : Familiar (.ok a) := by
  rintro fault ⟨⟩

@[simp] theorem familiar_error (fault : JsonFault) :
    Familiar (.error fault : Except JsonFault α) ↔ fault.error.isUnknownField = false :=
  ⟨fun h => h fault rfl, fun h _ heq => Except.error.inj heq ▸ h⟩

theorem Familiar.map {x : Except JsonFault α} (h : Familiar x) (f : α → β) :
    Familiar (x.map f) := by
  cases x with
  | error fault => exact (familiar_error fault).2 ((familiar_error fault).1 h)
  | ok a => exact familiar_ok (f a)

theorem Familiar.bind {reader : JsonReader α} {next : α → JsonReader β}
    (h : ∀ input, Familiar (reader input)) (h' : ∀ a input, Familiar (next a input))
    (input : List UInt8) : Familiar ((reader >>= next) input) := by
  change Familiar (reader input >>= fun p => next p.1 p.2)
  have hread := h input
  cases hx : reader input with
  | error fault =>
    rw [hx] at hread
    exact (familiar_error fault).2 ((familiar_error fault).1 hread)
  | ok p => exact h' p.1 p.2

/-! ## Tokens -/

theorem familiar_textOfBytes (done rest : List UInt8) : Familiar (textOfBytes done rest) := by
  rw [textOfBytes]
  split <;> simp [JsonError.isUnknownField]

theorem familiar_readText (input : List UInt8) : Familiar (readText input) := by
  rw [readText]
  generalize ([] : List UInt8) = done
  fun_induction readTextFrom done input <;>
    first | assumption | simp [JsonError.isUnknownField, familiar_textOfBytes]

theorem familiar_readLiteral (name input : List UInt8) : Familiar (readLiteral name input) := by
  fun_induction readLiteral name input <;> first | assumption | simp [JsonError.isUnknownField]

theorem familiar_floatNumber (negative : Bool) (significand : Nat) (e : Int) (rest : List UInt8) :
    Familiar (floatNumber negative significand e rest) := by
  rw [floatNumber]
  split <;> simp [JsonError.isUnknownField]

theorem familiar_readExponent (negative : Bool) (significand : Nat) (e : Int)
    (input : List UInt8) : Familiar (readExponent negative significand e input) := by
  rw [readExponent.eq_def]
  split
  split
  · simp [JsonError.isUnknownField]
  · split
    · simp [JsonError.isUnknownField]
    · dsimp only
      split
      · split <;> simp [JsonError.isUnknownField]
      · exact familiar_floatNumber _ _ _ _

theorem familiar_readFraction (negative : Bool) (significand : Nat) (e : Int)
    (input : List UInt8) : Familiar (readFraction negative significand e input) := by
  rw [readFraction]
  dsimp only
  split
  · rw [familiar_error]
    split <;> rfl
  · split
    · split
      · exact familiar_readExponent _ _ _ _
      · exact familiar_floatNumber _ _ _ _
    · exact familiar_floatNumber _ _ _ _

theorem familiar_wholeNumber (negative : Bool) (significand dropped : Nat) (rest : List UInt8) :
    Familiar (wholeNumber negative significand dropped rest) := by
  rw [wholeNumber]
  repeat' split
  all_goals first | exact familiar_floatNumber _ _ _ _ | exact familiar_ok _

theorem familiar_readUnsigned (negative : Bool) (input : List UInt8) :
    Familiar (readUnsigned negative input) := by
  rw [readUnsigned.eq_def]
  dsimp only
  split
  · rw [familiar_error]
    split <;> rfl
  · split
    · simp [JsonError.isUnknownField]
    · split
      · split
        · exact familiar_readFraction _ _ _ _
        · split
          · exact familiar_readExponent _ _ _ _
          · exact familiar_wholeNumber _ _ _ _
      · exact familiar_wholeNumber _ _ _ _

theorem familiar_readNumber (input : List UInt8) : Familiar (readNumber input) := by
  cases input with
  | nil => simp [readNumber, JsonError.isUnknownField]
  | cons b rest =>
    rw [readNumber]
    split <;> exact familiar_readUnsigned _ _

theorem familiar_mismatch (expected : String) (input : List UInt8) :
    (mismatch expected input).error.isUnknownField = false := by
  rw [mismatch.eq_def]
  dsimp only
  repeat' split
  -- the value is described, or its token is none
  all_goals first
    | rfl
    | exact familiar_readLiteral _ _ _ (by assumption)
    | exact familiar_readNumber _ _ (by assumption)
    | exact familiar_readText _ _ (by assumption)

/-! ## Readers -/

theorem familiar_readBoolean (input : List UInt8) : Familiar (readBoolean input) := by
  fun_cases readBoolean input
  · simp [JsonError.isUnknownField]
  · exact (familiar_readLiteral _ _).map _
  · exact (familiar_readLiteral _ _).map _
  · exact (familiar_error _).2 (familiar_mismatch _ _)

theorem familiar_readNull (input : List UInt8) : Familiar (readNull input) := by
  fun_cases readNull input
  · simp [JsonError.isUnknownField]
  · exact (familiar_readLiteral _ _).map _
  · exact (familiar_error _).2 (familiar_mismatch _ _)

theorem familiar_readInteger (type : IntegerType) (input : List UInt8) :
    Familiar (readInteger type input) := by
  fun_cases readInteger type input with
  | case2 b rest hskip hb fault hnumber =>
    exact (familiar_error _).2 (familiar_readNumber _ fault hnumber)
  | case6 => exact (familiar_error _).2 (familiar_mismatch _ _)
  | _ => simp [JsonError.isUnknownField]

theorem familiar_readStringAs (expected : String) (input : List UInt8) :
    Familiar (readStringAs expected input) := by
  fun_cases readStringAs expected input
  · simp [JsonError.isUnknownField]
  · exact familiar_readText _
  · exact (familiar_error _).2 (familiar_mismatch _ _)

theorem familiar_readColon (input : List UInt8) : Familiar (readColon input) := by
  fun_cases readColon input <;> simp [JsonError.isUnknownField]

theorem familiar_nextElement (first : Bool) (input : List UInt8) :
    Familiar (nextElement first input) := by
  fun_cases nextElement first input <;> simp [JsonError.isUnknownField]

theorem familiar_endList (input : List UInt8) : Familiar (endList input) := by
  fun_cases endList input with
  | case3 =>
    rw [familiar_error, apply_ite JsonError.isUnknownField]
    exact ite_self _
  | _ => simp [JsonError.isUnknownField]

theorem familiar_nextKey (first : Bool) (input : List UInt8) : Familiar (nextKey first input) := by
  fun_cases nextKey first input <;>
    first | exact (familiar_readText _).map _ | simp [JsonError.isUnknownField]

theorem familiar_startSingle (input : List UInt8) : Familiar (startSingle input) := by
  fun_cases startSingle input with
  | case3 =>
    rw [familiar_error, apply_ite JsonError.isUnknownField]
    exact ite_self _
  | _ => simp [JsonError.isUnknownField]

theorem familiar_endSingle (input : List UInt8) : Familiar (endSingle input) := by
  fun_cases endSingle input <;> simp [JsonError.isUnknownField]

theorem familiar_fail {err : JsonError} (h : err.isUnknownField = false) (input : List UInt8) :
    Familiar (fail err input : Except JsonFault (α × List UInt8)) :=
  (familiar_error _).2 h

theorem familiar_failObject {err : JsonError} (h : err.isUnknownField = false)
    (input : List UInt8) : Familiar (failObject err input : Except JsonFault (α × List UInt8)) := by
  fun_cases failObject err input <;> simpa using h

theorem familiar_pure (a : α) (input : List UInt8) : Familiar ((pure a : JsonReader α) input) :=
  familiar_ok (a, input)

theorem familiar_readElements {element : JsonReader α} (h : ∀ input, Familiar (element input)) :
    ∀ (fuel : Nat) (done : List α) (input : List UInt8),
      Familiar (readElements element done fuel input)
  | 0, done, input => familiar_fail rfl input
  | fuel + 1, done, input => by
    refine .bind (familiar_nextElement done.isEmpty) (fun more => ?_) input
    cases more with
    | true => exact .bind h fun value => familiar_readElements h fuel (value :: done)
    | false => exact .bind familiar_endList fun _ => familiar_pure _

theorem familiar_readList {element : JsonReader α} (h : ∀ input, Familiar (element input))
    (input : List UInt8) : Familiar (readList element input) := by
  fun_cases readList element input
  · simp [JsonError.isUnknownField]
  · exact familiar_readElements h _ _ _
  · exact (familiar_error _).2 (familiar_mismatch _ _)

theorem familiar_readNamed (names : List String) (ofName? : String → Option α)
    (input : List UInt8) : Familiar (readNamed names ofName? input) := by
  refine .bind (familiar_readStringAs _) (fun name => ?_) input
  cases ofName? name with
  | some value => exact familiar_pure value
  | none => exact familiar_fail rfl

theorem familiar_readName (names : List String) (ofName? : String → Option α)
    (input : List UInt8) : Familiar (readName names ofName? input) := by
  fun_cases readName names ofName? input
  · simp [JsonError.isUnknownField]
  · exact familiar_readNamed _ _ _
  · refine .bind familiar_startSingle (fun _ => ?_) _
    refine .bind (familiar_readNamed names ofName?) fun value => ?_
    refine .bind familiar_readColon fun _ => ?_
    refine .bind familiar_readNull fun _ => ?_
    exact .bind familiar_endSingle fun _ => familiar_pure _
  · simp [JsonError.isUnknownField]

/-! ## Readers of fields -/

/-- A reader of whole values that have no keys to be known. -/
structure PlainReader (reader : JsonReader α) : Prop where
  value : ValueReader reader
  familiar : ∀ input, Familiar (reader input)

theorem PlainReader.map {reader : JsonReader α} (h : PlainReader reader) (f : α → β) :
    PlainReader (f <$> reader) where
  value := h.value.map f
  familiar := .bind h.familiar fun a => familiar_pure (f a)

theorem plain_boolean : PlainReader Codec.boolean.read :=
  ⟨valueReader_boolean, familiar_readBoolean⟩

theorem plain_string : PlainReader Codec.string.read :=
  ⟨valueReader_string _, familiar_readStringAs _⟩

theorem plain_integer (type : IntegerType) : PlainReader (Codec.integer type).read :=
  ⟨valueReader_integer type, familiar_readInteger type⟩

theorem plain_list {codec : Codec α} (h : PlainReader codec.read) : PlainReader codec.list.read :=
  ⟨valueReader_list h.value, familiar_readList h.familiar⟩

theorem plain_named (names : List String) (ofName? : String → Option α) (name : α → String) :
    PlainReader (Codec.named names ofName? name).read :=
  ⟨valueReader_name names ofName?, familiar_readName names ofName?⟩

end Json

end FuzzyPath
