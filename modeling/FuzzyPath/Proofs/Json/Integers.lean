/-
  FuzzyPath — a printed integer is read back.

  No floating-point number stands between: the digits are added up one by one.

  * `utf8_repr_of_ge`: the last digit of a number stands after the others;
    `isDigit_repr`, `digitsValue_repr` and `exists_repr_cons` follow by induction;
  * `readUnsigned_repr`: the digits are read up to what may follow a value;
  * `reads_integer`: an integer of a type within 64 bits is read back.
-/
import FuzzyPath.Proofs.Json.Printed

namespace FuzzyPath.Json

/-! ## Digits -/

theorem utf8_repr_of_lt {n : Nat} (h : n < 10) : utf8 n.repr = [.ofNat (48 + n)] := by
  revert n
  decide

theorem utf8_repr_of_ge {n : Nat} (h : 10 ≤ n) :
    utf8 n.repr = utf8 (n / 10).repr ++ [.ofNat (48 + n % 10)] := by
  rw [Nat.repr_eq_repr_append_repr h, utf8_append, utf8_repr_of_lt (Nat.mod_lt n (by decide))]

theorem isDigit_ofNat : ∀ d < 10, isDigit (.ofNat (48 + d)) = true := by decide

theorem digitValue_ofNat : ∀ d < 10, digitValue (.ofNat (48 + d)) = d := by decide

theorem isDigit_repr (n : Nat) : ∀ b ∈ utf8 n.repr, isDigit b = true := by
  induction n using Nat.strong_induction_on with
  | _ n ih =>
    intro b hb
    by_cases hn : n < 10
    · rw [utf8_repr_of_lt hn, List.mem_singleton] at hb
      rw [hb]
      exact isDigit_ofNat n hn
    · rw [utf8_repr_of_ge (Nat.le_of_not_lt hn), List.mem_append, List.mem_singleton] at hb
      rcases hb with hb | rfl
      · exact ih (n / 10) (by omega) b hb
      · exact isDigit_ofNat _ (Nat.mod_lt n (by decide))

theorem digitsValue_append_singleton (digits : List UInt8) (b : UInt8) :
    digitsValue (digits ++ [b]) = digitsValue digits * 10 + digitValue b := by
  simp [digitsValue]

theorem digitsValue_repr (n : Nat) : digitsValue (utf8 n.repr) = n := by
  induction n using Nat.strong_induction_on with
  | _ n ih =>
    by_cases hn : n < 10
    · rw [utf8_repr_of_lt hn, digitsValue, List.foldl_cons, List.foldl_nil, digitValue_ofNat n hn]
      omega
    · rw [utf8_repr_of_ge (Nat.le_of_not_lt hn), digitsValue_append_singleton, ih _ (by omega),
        digitValue_ofNat _ (Nat.mod_lt n (by decide))]
      omega

/-- Only zero begins with the digit zero. -/
theorem exists_repr_cons_of_pos {n : Nat} (hn : 0 < n) :
    ∃ b more, utf8 n.repr = b :: more ∧ b ≠ 0x30 := by
  induction n using Nat.strong_induction_on with
  | _ n ih =>
    by_cases hlt : n < 10
    · refine ⟨_, [], utf8_repr_of_lt hlt, ?_⟩
      have hne : ∀ d < 10, 0 < d → (.ofNat (48 + d) : UInt8) ≠ 0x30 := by decide
      exact hne n hlt hn
    · obtain ⟨b, more, hrepr, hb⟩ := ih (n / 10) (by omega) (by omega)
      refine ⟨b, more ++ [.ofNat (48 + n % 10)], ?_, hb⟩
      rw [utf8_repr_of_ge (Nat.le_of_not_lt hlt), hrepr, List.cons_append]

/-- The first digit of a number; if it is zero, there are no others. -/
theorem exists_repr_cons (n : Nat) :
    ∃ b more, utf8 n.repr = b :: more ∧ isDigit b = true ∧ (b = 0x30 → more = []) := by
  rcases Nat.eq_zero_or_pos n with rfl | hn
  · exact ⟨0x30, [], rfl, rfl, fun _ => rfl⟩
  · obtain ⟨b, more, hrepr, hb⟩ := exists_repr_cons_of_pos hn
    have hdigit := isDigit_repr n b (by rw [hrepr]; exact List.mem_cons_self)
    exact ⟨b, more, hrepr, hdigit, fun h => absurd h hb⟩

/-! ## Reading digits -/

theorem le_foldl_digits (digits : List UInt8) (value : Nat) :
    value ≤ digits.foldl (fun value b => value * 10 + digitValue b) value := by
  induction digits generalizing value with
  | nil => exact Nat.le_refl value
  | cons b digits ih =>
    have := ih (value * 10 + digitValue b)
    rw [List.foldl_cons]
    omega

/-- As long as the value fits, all digits are added. -/
theorem absorb_of_le {digits : List UInt8} {significand : Nat} (count : Nat)
    (h : digits.foldl (fun value b => value * 10 + digitValue b) significand ≤ maxSignificand) :
    absorb significand count digits =
      (digits.foldl (fun value b => value * 10 + digitValue b) significand,
        count + digits.length) := by
  induction digits generalizing significand count with
  | nil => rfl
  | cons b digits ih =>
    rw [List.foldl_cons] at h ⊢
    have hnext := Nat.le_trans (le_foldl_digits digits _) h
    rw [absorb]
    simp only [Nat.not_lt.2 hnext, if_false]
    rw [ih (count + 1) h, List.length_cons, Nat.add_assoc, Nat.add_comm 1]

/-- What may stand after a value is no part of a number. -/
theorem Ends.not_digit {rest : List UInt8} (h : Ends rest) :
    rest = [] ∨ ∃ b after, rest = b :: after ∧ isDigit b = false ∧ (b == 0x2e) = false ∧
      isExponentMark b = false := by
  cases rest with
  | nil => exact Or.inl rfl
  | cons b after =>
    refine Or.inr ⟨b, after, rfl, ?_⟩
    rcases h b rfl with rfl | rfl | rfl
    · decide
    · decide
    · decide

theorem takeWhile_digits {digits rest : List UInt8} (h : ∀ b ∈ digits, isDigit b = true)
    (hrest : Ends rest) : (digits ++ rest).takeWhile isDigit = digits ∧
      (digits ++ rest).dropWhile isDigit = rest := by
  rw [List.takeWhile_append_of_pos h, List.dropWhile_append_of_pos h]
  rcases hrest.not_digit with rfl | ⟨b, after, rfl, hb, -, -⟩
  · simp
  · simp [hb]

theorem readUnsigned_repr (negative : Bool) {n : Nat} (h : n ≤ maxSignificand)
    {rest : List UInt8} (hrest : Ends rest) :
    readUnsigned negative (utf8 n.repr ++ rest) = wholeNumber negative n 0 rest := by
  obtain ⟨htake, hdrop⟩ := takeWhile_digits (isDigit_repr n) hrest
  obtain ⟨b, more, hrepr, -, hzero⟩ := exists_repr_cons n
  have hvalue : (b :: more).foldl (fun value b => value * 10 + digitValue b) 0 = n := by
    rw [← hrepr]
    exact digitsValue_repr n
  have habsorb : absorb 0 0 (b :: more) = (n, (b :: more).length) := by
    rw [absorb_of_le 0 (by rwa [hvalue]), hvalue, Nat.zero_add]
  have hlead : ¬ ((b == 0x30) = true ∧ (!more.isEmpty) = true) := by
    rintro ⟨hb, hmore⟩
    rw [hzero (eq_of_beq hb)] at hmore
    cases hmore
  rw [hrepr] at htake hdrop ⊢
  rw [readUnsigned, htake, hdrop]
  dsimp only
  rw [if_neg hlead, habsorb, Nat.sub_self]
  rcases hrest.not_digit with rfl | ⟨c, after, rfl, -, hpoint, hmark⟩
  · rfl
  · simp [hpoint, hmark]

/-! ## Integers -/

theorem readNumber_nonneg {n : Nat} (h : n ≤ maxSignificand) {rest : List UInt8}
    (hrest : Ends rest) : readNumber (utf8 n.repr ++ rest) = .ok (.integer n, rest) := by
  obtain ⟨b, more, hrepr, hdigit, -⟩ := exists_repr_cons n
  have hminus : (b == 0x2d) = false := by
    rw [beq_eq_false_iff_ne]
    rintro rfl
    cases hdigit
  have hread := readUnsigned_repr false h hrest
  rw [hrepr, List.cons_append] at hread ⊢
  rw [readNumber, hminus, if_neg Bool.false_ne_true, hread]
  rfl

theorem readNumber_negative {n : Nat} (hpos : 0 < n) (h : n ≤ 9223372036854775808)
    {rest : List UInt8} (hrest : Ends rest) :
    readNumber (0x2d :: (utf8 n.repr ++ rest)) = .ok (.integer (-n), rest) := by
  have hmax : n ≤ maxSignificand := by
    rw [maxSignificand]
    omega
  rw [readNumber, if_pos (by decide), readUnsigned_repr true hmax hrest, wholeNumber]
  simp [Nat.ne_of_gt hpos, Nat.not_lt.2 h]

/-- The first byte of a printed integer. -/
theorem exists_utf8_repr_int (value : Int) : ∃ b more, utf8 value.repr = b :: more ∧
    (b == 0x2d || isDigit b) = true := by
  cases value with
  | ofNat n =>
    obtain ⟨b, more, hrepr, hdigit, -⟩ := exists_repr_cons n
    exact ⟨b, more, hrepr, by rw [hdigit, Bool.or_true]⟩
  | negSucc n => exact ⟨0x2d, utf8 (n + 1).repr, utf8_append "-" _, rfl⟩

theorem readNumber_repr {value : Int} (hmin : -9223372036854775808 ≤ value)
    (hmax : value ≤ 18446744073709551615) {rest : List UInt8} (hrest : Ends rest) :
    readNumber (utf8 value.repr ++ rest) = .ok (.integer value, rest) := by
  cases value with
  | ofNat n => exact readNumber_nonneg (Int.ofNat_le.1 hmax) hrest
  | negSucc n =>
    have hbytes : utf8 (Int.negSucc n).repr = 0x2d :: utf8 (n + 1).repr := utf8_append "-" _
    rw [hbytes, List.cons_append]
    exact readNumber_negative (Nat.succ_pos n) (by omega) hrest

theorem isBlank_of_sign_or_digit {b : UInt8} (h : (b == 0x2d || isDigit b) = true) :
    isBlank b = false ∧ b ≠ 0x5d := by
  have hne : ∀ {c : UInt8}, (c == 0x2d || isDigit c) = false → b ≠ c := by
    rintro c hc rfl
    rw [hc] at h
    cases h
  refine ⟨?_, hne (by decide)⟩
  simp [isBlank, hne (c := 0x20), hne (c := 0x0a), hne (c := 0x09), hne (c := 0x0d), isDigit]

/-- An integer of a type within 64 bits is read back from the way it is printed. -/
theorem reads_integer {name : String} {min max value : Int}
    (hmin : -9223372036854775808 ≤ min) (hmax : max ≤ 18446744073709551615)
    (h : min ≤ value ∧ value ≤ max) :
    Reads (readInteger ⟨name, min, max⟩) (.ofText value.repr) value := by
  obtain ⟨b, more, hrepr, hb⟩ := exists_utf8_repr_int value
  obtain ⟨hblank, hend⟩ := isBlank_of_sign_or_digit hb
  have hbytes (depth : Nat) : (Document.ofText value.repr).bytes depth = b :: more := hrepr
  constructor
  · intro depth
    exact ⟨b, more, hbytes depth, hblank, hend⟩
  · intro depth rest hrest
    have hread := readNumber_repr (Int.le_trans hmin h.1) (Int.le_trans h.2 hmax) hrest
    rw [hrepr, List.cons_append] at hread
    rw [hbytes, List.cons_append, readInteger, skipBlank_cons hblank]
    simp [hb, hread, h]

end FuzzyPath.Json
