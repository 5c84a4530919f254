/-
  FuzzyPath — a reader takes one value, and looks at nothing else.

  * `Takes` says which bytes a reader takes from an input, and that it would take
    the same ones for the same result if something else stood after them;
    `Takes.prepend` puts bytes in front of an input;
  * a `Local` reader does so whenever it reads anything.  `Local.bind` puts such
    readers together, `Local.afterBlank` lets blank space stand in front of one;
  * `exists_blank_of_append`: a value in front of a delimiter ends in one place only;
  * a `ValueReader` takes whole values, and by `ValueReader.in_front` the value in
    front of a delimiter is read in the same way in front of any other delimiter.
-/
import FuzzyPath.Proofs.Json.Balance
import FuzzyPath.Proofs.Json.Printed

namespace FuzzyPath.Json

open Scan

variable {α β : Type}

/-- What may stand after a value: blank space, a delimiter, or nothing. -/
def Stops (rest : List UInt8) : Prop := ∀ b ∈ rest.head?, isBlank b = true ∨ IsDelimiter b

/-- The bytes that `reader` takes from `input` for `x` lead from `s` to `t`, and it
    takes them for `x` also if something else stands after them that begins in the
    same way, or that is `free`. -/
def Takes (reader : JsonReader α) (s t : Scan) (free : List UInt8 → Prop) (input : List UInt8)
    (x : α) (rest : List UInt8) : Prop :=
  ∃ used, input = used ++ rest ∧ s.through used = some t ∧
    ∀ other, other.head? = rest.head? ∨ free other → reader (used ++ other) = .ok (x, other)

/-- Whatever a reader reads, it takes just the bytes for it. -/
def Local (reader : JsonReader α) (s : Scan) (t : α → Scan) (free : List UInt8 → Prop) : Prop :=
  ∀ ⦃input x rest⦄, reader input = .ok (x, rest) → Takes reader s (t x) free input x rest

/-- Bytes in front of an input that a reader passes over. -/
theorem Takes.prepend {reader reader' : JsonReader α} {s t u : Scan} {free : List UInt8 → Prop}
    {front input rest : List UInt8} {x : α} (h : Takes reader' t u free input x rest)
    (hfront : s.through front = some t) (hread : ∀ more y, reader' more = .ok y →
      reader (front ++ more) = .ok y) : Takes reader s u free (front ++ input) x rest := by
  obtain ⟨used, rfl, hused, hother⟩ := h
  refine ⟨front ++ used, (List.append_assoc ..).symm, through_append_of hfront hused,
    fun other hrest => ?_⟩
  rw [List.append_assoc]
  exact hread _ _ (hother other hrest)
/-- What a reader takes after its first byte. -/
theorem Takes.tail {reader : JsonReader α} {s t : Scan} {free : List UInt8 → Prop} {b : UInt8}
    {input rest : List UInt8} {x : α} (h : Takes reader s t free (b :: input) x rest)
    (heats : rest.length < (b :: input).length) : ∃ s', s.step b = some s' ∧
      Takes (fun more => reader (b :: more)) s' t free input x rest := by
  obtain ⟨used, hinput, hused, hother⟩ := h
  cases used with
  | nil =>
    rw [List.nil_append] at hinput
    rw [← hinput] at heats
    exact absurd heats (Nat.lt_irrefl _)
  | cons c used =>
    obtain ⟨rfl, rfl⟩ := List.cons.inj hinput
    rw [through_cons, Option.bind_eq_some_iff] at hused
    obtain ⟨s', hstep, hused⟩ := hused
    exact ⟨s', hstep, used, rfl, hused, hother⟩

/-! ## Readers in a row -/

section
variable {reader : JsonReader α} {next : α → JsonReader β} {s : Scan} {t : α → Scan} {u : β → Scan}
  {free free' : List UInt8 → Prop}

theorem readBind_eq_ok {input rest : List UInt8} {y : β}
    (h : (reader >>= next) input = .ok (y, rest)) :
    ∃ x mid, reader input = .ok (x, mid) ∧ next x mid = .ok (y, rest) := by
  obtain ⟨⟨x, mid⟩, hx, hnext⟩ := bind_eq_ok h
  exact ⟨x, mid, hx, hnext⟩

theorem readBind_of_error {input : List UInt8} {fault : JsonFault}
    (h : reader input = .error fault) : (reader >>= next) input = .error fault := by
  change (reader input >>= fun p => next p.1 p.2) = _
  rw [h]
  rfl

theorem readBind_eq_error {input : List UInt8} {fault : JsonFault}
    (h : (reader >>= next) input = .error fault) : reader input = .error fault ∨
      ∃ x mid, reader input = .ok (x, mid) ∧ next x mid = .error fault := by
  change (reader input >>= fun p => next p.1 p.2) = _ at h
  cases hread : reader input with
  | error fault' =>
    rw [hread] at h
    exact .inl (congrArg _ (Except.error.inj h))
  | ok p =>
    rw [hread] at h
    exact .inr ⟨p.1, p.2, rfl, h⟩

theorem readBind_congr {next' : α → JsonReader β} {input : List UInt8}
    (h : ∀ x mid, reader input = .ok (x, mid) → next x mid = next' x mid) :
    (reader >>= next) input = (reader >>= next') input := by
  change (reader input >>= fun p => next p.1 p.2) = reader input >>= fun p => next' p.1 p.2
  cases hread : reader input with
  | error fault => rfl
  | ok p => exact h p.1 p.2 hread

theorem readBind_blank {w input : List UInt8} (h : reader (w ++ input) = reader input) :
    (reader >>= next) (w ++ input) = (reader >>= next) input := by
  change (reader (w ++ input) >>= fun p => next p.1 p.2) = _
  rw [h]
  rfl

theorem Local.length_le (h : Local reader s t free) {input rest : List UInt8} {x : α}
    (hread : reader input = .ok (x, rest)) : rest.length ≤ input.length := by
  obtain ⟨used, rfl, -⟩ := h hread
  rw [List.length_append]
  exact Nat.le_add_left _ _

theorem Local.pure (x : α) (s : Scan) (free : List UInt8 → Prop) :
    Local (pure x : JsonReader α) s (fun _ => s) free := by
  rintro input y rest h
  obtain ⟨rfl, rfl⟩ := Prod.mk.inj (Except.ok.inj h)
  exact ⟨[], rfl, rfl, fun other _ => rfl⟩

theorem Local.fail (err : JsonError) : Local (fail err : JsonReader α) s t free := by
  rintro input y rest h
  cases h

/-- The second reader either takes something, or may have anything after it. -/
theorem Local.bind (h : Local reader s t free) (h' : ∀ x, Local (next x) (t x) u free')
    (hfree : ∀ x y other, t x ≠ u y ∨ free other) : Local (reader >>= next) s u free' := by
  rintro input y rest hread
  obtain ⟨x, mid, hx, hy⟩ := readBind_eq_ok hread
  obtain ⟨front, rfl, hfront, hother⟩ := h hx
  obtain ⟨back, rfl, hback, hother'⟩ := h' x hy
  refine ⟨front ++ back, (List.append_assoc ..).symm, through_append_of hfront hback,
    fun other hrest => ?_⟩
  rw [List.append_assoc]
  refine (bind_of_ok (hother _ ?_)).trans (hother' other hrest)
  -- after the first reader stand the bytes of the second, or what is free
  cases back with
  | nil =>
    rw [through_nil, Option.some.injEq] at hback
    exact .inr ((hfree x y _).resolve_left (not_not_intro hback))
  | cons b back => exact .inl rfl

theorem Local.map (h : Local reader s (fun _ => s) free) (f : α → β) :
    Local (f <$> reader) s (fun _ => s) free := by
  rintro input y rest hread
  obtain ⟨⟨x, rest'⟩, hx, hy⟩ := bind_eq_ok hread
  obtain ⟨rfl, rfl⟩ := Prod.mk.inj (Except.ok.inj hy)
  obtain ⟨used, rfl, hused, hother⟩ := h hx
  refine ⟨used, rfl, hused, fun other hrest => ?_⟩
  change (reader (used ++ other) >>= fun p => Pure.pure (f p.1, p.2)) = _
  rw [hother other hrest]
  rfl

/-- With anything free after it, a reader is local with less free. -/
theorem Local.weaken (h : Local reader s t fun _ => True) : Local reader s t free := by
  rintro input x rest hread
  obtain ⟨used, rfl, hused, hother⟩ := h hread
  exact ⟨used, rfl, hused, fun other _ => hother other (.inr trivial)⟩

/-- A reader whose fuel does not matter, given just enough of it. -/
theorem Local.ofFuel {fuelled : Nat → JsonReader α} (h : ∀ fuel, Local (fuelled fuel) s t free)
    (hfuel : ∀ {fuel fuel' : Nat} {input : List UInt8}, input.length < fuel →
      input.length < fuel' → fuelled fuel input = fuelled fuel' input) :
    Local (fun input => fuelled (input.length + 1) input) s t free := by
  rintro input x rest hread
  obtain ⟨used, rfl, hused, -⟩ := h _ hread
  refine ⟨used, rfl, hused, fun other hrest => ?_⟩
  -- fuel that is enough for both inputs
  let fuel := (used ++ rest).length + (used ++ other).length + 1
  have hboth : fuelled fuel (used ++ rest) = .ok (x, rest) := by
    rw [← hread]
    exact hfuel (by omega) (by omega)
  obtain ⟨used', hinput, -, hother⟩ := h fuel hboth
  obtain rfl := List.append_cancel_right hinput
  refine Eq.trans ?_ (hother other hrest)
  exact hfuel (by omega) (by omega)

/-- A reader that passes over blank space, and goes on by the first byte after it. -/
def AfterBlank (reader : JsonReader α) (fault : JsonFault) (next : UInt8 → JsonReader α) : Prop :=
  ∀ input, reader input = match skipBlank input with
    | [] => .error fault
    | b :: rest => next b rest

theorem afterBlank_eq_ok {next : UInt8 → JsonReader α} {fault : JsonFault} {input : List UInt8}
    {y : α × List UInt8} (h : reader input = .ok y) (hread : AfterBlank reader fault next) :
    ∃ w b rest, Blank w ∧ isBlank b = false ∧ input = w ++ b :: rest ∧ next b rest = .ok y := by
  rw [hread] at h
  cases hskip : skipBlank input with
  | nil =>
    rw [hskip] at h
    cases h
  | cons b rest =>
    rw [hskip] at h
    obtain ⟨hb, w, hw, rfl⟩ := skipBlank_eq_cons hskip
    exact ⟨w, b, rest, hw, hb, rfl, h⟩

theorem Local.afterBlank {next : UInt8 → JsonReader α} {fault : JsonFault} {closing : List UInt8}
    (hread : AfterBlank reader fault next)
    (h : ∀ ⦃b rest x rest'⦄, next b rest = .ok (x, rest') → ∃ s,
      (outside closing).step b = some s ∧ Takes (next b) s (t x) free rest x rest') :
    Local reader (outside closing) t free := by
  rintro input x rest hok
  obtain ⟨w, b, more, hw, hb, rfl, hnext⟩ := afterBlank_eq_ok hok hread
  obtain ⟨s, hstep, htakes⟩ := h hnext
  rw [List.append_cons]
  have hfront : (outside closing).through (w ++ [b]) = some s :=
    through_append_of (hw.through closing) (by simp [hstep])
  refine htakes.prepend hfront fun more y hy => ?_
  rw [hread, List.append_assoc, List.singleton_append, skipBlank_token hw hb]
  exact hy

end

/-! ## Whole values -/

/-- A reader takes one whole value, wherever the value stands. -/
structure ValueReader (reader : JsonReader α) : Prop where
  takes : ∀ closing, Local reader (outside closing) (fun _ => outside closing) Stops
  eats : ∀ ⦃input x rest⦄, reader input = .ok (x, rest) → rest.length < input.length
  blank : ∀ ⦃w⦄, Blank w → ∀ input, reader (w ++ input) = reader input

theorem ValueReader.map {reader : JsonReader α} (h : ValueReader reader) (f : α → β) :
    ValueReader (f <$> reader) where
  takes closing := (h.takes closing).map f
  eats input y rest hread := by
    obtain ⟨⟨x, rest'⟩, hx, hy⟩ := bind_eq_ok hread
    obtain ⟨-, rfl⟩ := Prod.mk.inj (Except.ok.inj hy)
    exact h.eats hx
  blank w hw input := by
    change (reader (w ++ input) >>= fun p => pure (f p.1, p.2)) = _
    rw [h.blank hw]
    rfl

theorem ValueReader.afterBlank {reader : JsonReader α} {next : UInt8 → JsonReader α}
    {fault : JsonFault} (hread : AfterBlank reader fault next)
    (h : ∀ closing ⦃b rest x rest'⦄, next b rest = .ok (x, rest') → ∃ s,
      (outside closing).step b = some s ∧ Takes (next b) s (outside closing) Stops rest x rest') :
    ValueReader reader where
  takes closing := .afterBlank hread (h closing)
  eats input x rest hok := by
    obtain ⟨w, b, more, -, -, rfl, hnext⟩ := afterBlank_eq_ok hok hread
    obtain ⟨s, -, used, rfl, -⟩ := h [] hnext
    simp only [List.length_append, List.length_cons]
    omega
  blank w hw input := by rw [hread, hread, skipBlank_append hw]

/-! ## In front of a delimiter -/

/-- A delimiter and what stands after it. -/
def Delimited (rest : List UInt8) : Prop := ∃ b more, rest = b :: more ∧ IsDelimiter b

theorem Delimited.stops_append {w rest : List UInt8} (hw : Blank w) (h : Delimited rest) :
    Stops (w ++ rest) := by
  obtain ⟨b, more, rfl, hb⟩ := h
  intro c hc
  cases w with
  | nil =>
    obtain rfl := Option.some.inj hc
    exact .inr hb
  | cons d w =>
    obtain rfl := Option.some.inj hc
    exact .inl (hw _ List.mem_cons_self)

/-- Where a balanced value ends in front of a delimiter, blank space apart, so does
    any other. -/
theorem exists_blank_of_append {used rest v tail : List UInt8} (hused : Balanced used)
    (hv : Balanced v) (htail : Delimited tail) (hrest : Delimited (skipBlank rest))
    (hinput : v ++ tail = used ++ rest) : ∃ w, Blank w ∧ v = used ++ w ∧ rest = w ++ tail := by
  obtain ⟨w, hw, hrest'⟩ := exists_skipBlank rest
  obtain ⟨b, more, rfl, hb⟩ := htail
  obtain ⟨b', more', hrest, hb'⟩ := hrest
  rw [hrest', ← List.append_assoc, hrest] at hinput
  have hbalanced : Balanced (used ++ w) := through_append_of hused (hw.through [])
  obtain ⟨rfl, heq⟩ := hv.eq_of_append hbalanced hb hb' hinput
  exact ⟨w, hw, rfl, by rw [hrest', hrest, heq]⟩

/-- If a balanced value is read up to the delimiter after it, it is read in the same
    way up to any other delimiter. -/
theorem ValueReader.in_front {reader : JsonReader α} (h : ValueReader reader)
    {v tail rest : List UInt8} {x : α} (hv : Balanced v) (htail : Delimited tail)
    (hread : reader (v ++ tail) = .ok (x, rest)) (hrest : Delimited (skipBlank rest)) :
    ∃ w, Blank w ∧ rest = w ++ tail ∧
      ∀ other, Delimited other → reader (v ++ other) = .ok (x, w ++ other) := by
  obtain ⟨used, hinput, hused, hother⟩ := h.takes [] hread
  obtain ⟨w, hw, rfl, rfl⟩ := exists_blank_of_append hused hv htail hrest hinput
  refine ⟨w, hw, rfl, fun other hdelimited => ?_⟩
  rw [List.append_assoc]
  exact hother _ (.inr (hdelimited.stops_append hw))

end FuzzyPath.Json
