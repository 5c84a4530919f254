/-
  FuzzyPath — a path is its components and separators.

  Nothing of a path is lost when it is cut: what stands in no component is a
  separator.  How many separators stand together does not matter, so the names of
  the components make up the path again.

  * `CutInto` says which spans some characters are cut into, and
    `cutInto_components` that a path is cut into its components;
  * `names` are the names of the components, found without any offsets;
    `names_append` cuts them between two components;
  * `AddsSeparator` is one more separator where it cuts no component;
  * `components_decompose`: the components are all of a path but its separators,
    and stay the same when they are joined or separators are added.
-/
import FuzzyPath.Proofs.Highlight.Runs
import FuzzyPath.Proofs.Path.Filename
import Mathlib.Logic.Relation

namespace FuzzyPath

/-! ## Separators in bytes -/

/-- Whether a byte is a separator. -/
def PathStyle.isSeparatorByte : PathStyle → UInt8 → Bool
  | unix, b => b == 0x2f
  | windows, b => b == 0x5c || b == 0x2f

namespace Path

variable {style : PathStyle} {front cs lead name back : List Char} {spans : List Span} {s : Span}

/-- Nothing but separators. -/
def Separators (style : PathStyle) (cs : List Char) : Prop := ∀ c ∈ cs, style.isSeparator c = true

/-- No separators. -/
def Free (style : PathStyle) (cs : List Char) : Prop := ∀ c ∈ cs, style.isSeparator c = false

/-- A separator stands first, or nothing at all. -/
def StartsApart (style : PathStyle) (cs : List Char) : Prop :=
  ∀ c ∈ cs.head?, style.isSeparator c = true

theorem isSeparatorByte_of_mem_separators (h : Separators style cs) {b : UInt8}
    (hb : b ∈ utf8Chars cs) : style.isSeparatorByte b = true := by
  obtain ⟨c, hc, hb⟩ := List.mem_flatMap.1 hb
  have hslash : String.utf8EncodeChar '/' = [0x2f] := by decide
  have hbackslash : String.utf8EncodeChar '\\' = [0x5c] := by decide
  have hsep := h c hc
  cases style with
  | unix =>
    obtain rfl : c = '/' := by simpa [PathStyle.isSeparator] using hsep
    rw [hslash, List.mem_singleton] at hb
    rw [hb]
    rfl
  | windows =>
    obtain rfl | rfl : c = '\\' ∨ c = '/' := by simpa [PathStyle.isSeparator] using hsep
    · rw [hbackslash, List.mem_singleton] at hb
      rw [hb]
      rfl
    · rw [hslash, List.mem_singleton] at hb
      rw [hb]
      rfl

/-- No part of a character is taken for a separator. -/
theorem isSeparatorByte_of_mem_free (h : Free style cs) {b : UInt8} (hb : b ∈ utf8Chars cs) :
    style.isSeparatorByte b = false := by
  obtain ⟨c, hc, hb⟩ := List.mem_flatMap.1 hb
  have hfree := h c hc
  have hascii (hlt : b.toNat < 0x80) : c = Char.ofNat b.toNat := by
    rw [toNat_of_mem_utf8EncodeChar hb hlt, Char.ofNat_toNat]
  cases style with
  | unix =>
    rw [PathStyle.isSeparatorByte, beq_eq_false_iff_ne]
    rintro rfl
    rw [hascii (by decide)] at hfree
    cases hfree
  | windows =>
    rw [PathStyle.isSeparatorByte, Bool.or_eq_false_iff, beq_eq_false_iff_ne,
      beq_eq_false_iff_ne]
    constructor
    · rintro rfl
      rw [hascii (by decide)] at hfree
      cases hfree
    · rintro rfl
      rw [hascii (by decide)] at hfree
      cases hfree

/-! ## Cutting -/

/-- The spans that the characters `cs`, which stand after `front`, are cut into. -/
inductive CutInto (style : PathStyle) : List Char → List Char → List Span → Prop
  | nil {front cs : List Char} : Separators style cs → CutInto style front cs []
  | cons {front lead name back : List Char} {spans : List Span} :
    Separators style lead → Free style name → name ≠ [] → StartsApart style back →
      CutInto style (front ++ lead ++ name) back spans →
      CutInto style front (lead ++ name ++ back)
        (⟨(utf8Chars (front ++ lead)).length, (utf8Chars (front ++ lead ++ name)).length⟩ :: spans)

/-- A separator in front of some characters is in none of their spans. -/
theorem CutInto.separator {c : Char} (hc : style.isSeparator c = true)
    (h : CutInto style (front ++ [c]) cs spans) : CutInto style front (c :: cs) spans := by
  cases h with
  | nil hsep => exact .nil (List.forall_mem_cons.2 ⟨hc, hsep⟩)
  | @cons _ lead name back spans hlead hname hne hback hrest =>
    have hcut := @CutInto.cons style front (c :: lead) name back spans
      (List.forall_mem_cons.2 ⟨hc, hlead⟩) hname hne hback (by simpa using hrest)
    simpa using hcut

theorem pieces_eq (cs : List Char) : ∀ (found : List Span) (start offset : Nat),
    pieces style found start offset cs = found.reverse ++ pieces style [] start offset cs := by
  have hclose (found : List Span) (start stop : Nat) : (closePiece found start stop).reverse =
      found.reverse ++ (closePiece [] start stop).reverse := by
    rw [closePiece, closePiece]
    split <;> simp
  induction cs with
  | nil => exact fun found start offset => hclose found start offset
  | cons c cs ih =>
    intro found start offset
    rw [pieces, pieces]
    split
    · rw [ih, ih (closePiece [] start offset), hclose, List.append_assoc]
    · exact ih found start _

/-- Characters are cut into their pieces; those of the current piece, `name`, have
    been passed. -/
theorem cutInto_pieces (cs : List Char) : ∀ {front name : List Char}, Free style name →
    CutInto style front (name ++ cs)
      (pieces style [] (utf8Chars front).length (utf8Chars (front ++ name)).length cs) := by
  induction cs with
  | nil =>
    intro front name hname
    cases name with
    | nil => simpa [pieces, closePiece] using @CutInto.nil style front [] (by simp [Separators])
    | cons c name =>
      have hcut := @CutInto.cons style front [] (c :: name) [] [] (by simp [Separators]) hname
        (List.cons_ne_nil c name) (by simp [StartsApart]) (.nil (by simp [Separators]))
      have hlt : (utf8Chars front).length < (utf8Chars (front ++ c :: name)).length := by
        have := c.utf8Size_pos
        rw [utf8Chars_append, List.length_append, length_utf8Chars_cons]
        omega
      simpa [pieces, closePiece, hlt] using hcut
  | cons c cs ih =>
    intro front name hname
    rw [pieces]
    split
    · rename_i hc
      have hnext (before : List Char) : CutInto style before (c :: cs)
          (pieces style [] ((utf8Chars before).length + c.utf8Size)
            ((utf8Chars before).length + c.utf8Size) cs) := by
        refine .separator hc ?_
        have hcut := @ih (before ++ [c]) [] (by simp [Free])
        simpa [utf8Chars_append, length_utf8Chars_cons] using hcut
      rw [pieces_eq]
      cases name with
      | nil => simpa [closePiece] using hnext front
      | cons d name =>
        have hcut := @CutInto.cons style front [] (d :: name) (c :: cs) _ (by simp [Separators])
          hname (List.cons_ne_nil d name) (by simpa [StartsApart] using hc)
          (by simpa using hnext (front ++ d :: name))
        have hlt : (utf8Chars front).length < (utf8Chars (front ++ d :: name)).length := by
          have := d.utf8Size_pos
          rw [utf8Chars_append, List.length_append, length_utf8Chars_cons]
          omega
        simpa [closePiece, hlt] using hcut
    · rename_i hc
      have hfree : Free style (name ++ [c]) := by
        intro d hd
        rcases List.mem_append.1 hd with hd | hd
        · exact hname d hd
        · rw [List.mem_singleton.1 hd]
          simpa using hc
      have hcut := @ih front (name ++ [c]) hfree
      simpa [utf8Chars_append, length_utf8Chars_cons, Nat.add_assoc] using hcut

/-- A path is cut into its components. -/
theorem cutInto_components (style : PathStyle) (path : String) :
    CutInto style [] path.toList (components style path) :=
  @cutInto_pieces style path.toList [] [] (by simp [Free])

/-! ## Where the components stand -/

namespace CutInto

theorem le_start (h : CutInto style front cs spans) :
    ∀ s ∈ spans, (utf8Chars front).length ≤ s.start := by
  induction h with
  | nil => simp
  | cons _ _ _ _ _ ih =>
    refine List.forall_mem_cons.2 ⟨?_, fun s hs => ?_⟩
    · simp [utf8Chars_append]
    · have := ih s hs
      simp only [utf8Chars_append, List.length_append] at this
      omega

/-- The first span is a piece of the whole text, the one with the first name. -/
theorem slice_first (front lead : List Char) {name : List Char} (hne : name ≠ [])
    (back : List Char) : let first : Span :=
      ⟨(utf8Chars (front ++ lead)).length, (utf8Chars (front ++ lead ++ name)).length⟩
    first.IsPiece (String.ofList (front ++ (lead ++ name ++ back))) ∧
      first.slice (String.ofList (front ++ (lead ++ name ++ back))) = String.ofList name := by
  intro first
  have htext : String.ofList (front ++ (lead ++ name ++ back)) =
      String.ofList (front ++ lead) ++ String.ofList name ++ String.ofList back := by
    simp [← String.toList_inj]
  have hfirst : first = ⟨(String.ofList (front ++ lead)).utf8ByteSize,
      (String.ofList (front ++ lead)).utf8ByteSize + (String.ofList name).utf8ByteSize⟩ := by
    simp only [first, ← length_utf8Chars, utf8Chars_append, List.length_append]
  have hsize : 0 < (String.ofList name).utf8ByteSize := by
    refine Nat.pos_of_ne_zero fun hzero => hne ?_
    simpa [← String.toList_inj] using String.utf8ByteSize_eq_zero_iff.1 hzero
  rw [htext, hfirst]
  refine ⟨⟨?_, ?_, Nat.lt_add_of_pos_right hsize⟩, Span.slice_append _ _ _⟩
  · rw [String.append_assoc]
    exact isBoundary_append _ _
  · rw [← String.utf8ByteSize_append]
    exact isBoundary_append _ _

/-- Each span is a piece of the whole text, and has no separators. -/
theorem isPiece (h : CutInto style front cs spans) : ∀ s ∈ spans,
    s.IsPiece (String.ofList (front ++ cs)) ∧
      Free style (s.slice (String.ofList (front ++ cs))).toList := by
  induction h with
  | nil => simp
  | @cons front lead name back spans _ hname hne _ _ ih =>
    obtain ⟨hpiece, hslice⟩ := slice_first front lead hne back
    refine List.forall_mem_cons.2 ⟨⟨hpiece, ?_⟩, fun s hs => by simpa using ih s hs⟩
    rwa [hslice, String.toList_ofList]

theorem ne_nil (h : CutInto style front cs spans) (hs : s ∈ spans) : cs ≠ [] := by
  cases h with
  | nil => cases hs
  | cons _ _ hne _ _ => simp [hne]

/-- No span begins where a separator stands. -/
theorem lt_start (h : CutInto style front cs spans) (hcs : StartsApart style cs) :
    ∀ s ∈ spans, (utf8Chars front).length < s.start := by
  cases h with
  | nil => simp
  | @cons _ lead name back spans _ hname hne _ hrest =>
    obtain ⟨c, name, rfl⟩ := List.exists_cons_of_ne_nil hne
    have hc := c.utf8Size_pos
    refine List.forall_mem_cons.2 ⟨?_, fun s hs => ?_⟩
    · cases lead with
      | nil =>
        have hsep := hcs c (by simp)
        rw [hname c List.mem_cons_self] at hsep
        cases hsep
      | cons d lead =>
        have := d.utf8Size_pos
        simp only [utf8Chars_append, List.length_append, length_utf8Chars_cons]
        omega
    · have := hrest.le_start s hs
      simp only [utf8Chars_append, List.length_append, length_utf8Chars_cons] at this
      omega

/-- A separator stands after each span but the last one. -/
theorem apart (h : CutInto style front cs spans) : spans.Pairwise fun s later =>
    s.stop < later.start ∧ ∃ b, (utf8Chars (front ++ cs))[s.stop]? = some b ∧
      style.isSeparatorByte b = true := by
  induction h with
  | nil => exact .nil
  | @cons front lead name back spans _ _ _ hback hrest ih =>
    refine List.pairwise_cons.2 ⟨fun later hlater => ?_, by simpa using ih⟩
    refine ⟨hrest.lt_start hback later hlater, ?_⟩
    obtain ⟨c, back, rfl⟩ := List.exists_cons_of_ne_nil (hrest.ne_nil hlater)
    have hsep : Separators style [c] := by simpa [Separators, StartsApart] using hback
    obtain ⟨b, bytes, hbytes⟩ : ∃ b bytes, utf8Chars [c] = b :: bytes := by
      refine List.exists_cons_of_ne_nil fun hempty => ?_
      have := length_utf8Chars_cons c []
      have := c.utf8Size_pos
      simp_all
    have hmem : b ∈ utf8Chars [c] := by
      rw [hbytes]
      exact List.mem_cons_self
    refine ⟨b, ?_, isSeparatorByte_of_mem_separators hsep hmem⟩
    have hchars : front ++ (lead ++ name ++ c :: back) =
        front ++ lead ++ name ++ ([c] ++ back) := by simp
    rw [hchars, utf8Chars_append, List.getElem?_append_right (Nat.le_refl _), Nat.sub_self,
      utf8Chars_append, hbytes]
    rfl

theorem mem_of_getElem?_middle {α : Type} (xs ys zs : List α) {i : Nat} {a : α}
    (h : (xs ++ ys ++ zs)[i]? = some a) (hle : xs.length ≤ i) (hlt : i < (xs ++ ys).length) :
    a ∈ ys := by
  rw [List.getElem?_append_left hlt, List.getElem?_append_right hle] at h
  exact List.mem_of_getElem? h

/-- The bytes that are no separators are those in the spans. -/
theorem covers_iff (h : CutInto style front cs spans) : ∀ {offset : Nat} {b : UInt8},
    (utf8Chars front).length ≤ offset → (utf8Chars (front ++ cs))[offset]? = some b →
      (style.isSeparatorByte b = false ↔ ∃ s ∈ spans, s.contains offset = true) := by
  induction h with
  | nil hsep =>
    intro offset b hle hb
    rw [utf8Chars_append, List.getElem?_append_right hle] at hb
    rw [isSeparatorByte_of_mem_separators hsep (List.mem_of_getElem? hb)]
    simp
  | @cons front lead name back spans hlead hname _ _ hrest ih =>
    intro offset b hle hb
    have hlater := hrest.le_start
    have hcontains : (∃ s ∈ (⟨(utf8Chars (front ++ lead)).length,
        (utf8Chars (front ++ lead ++ name)).length⟩ : Span) :: spans, s.contains offset = true) ↔
          ((utf8Chars (front ++ lead)).length ≤ offset ∧
            offset < (utf8Chars (front ++ lead ++ name)).length) ∨
          ∃ s ∈ spans, s.contains offset = true := by
      simp [Span.contains_iff]
    rw [hcontains]
    rcases Nat.lt_or_ge offset (utf8Chars (front ++ lead ++ name)).length with hlt | hge
    · -- the later spans begin after this place
      have hnone : ¬ ∃ s ∈ spans, s.contains offset = true := by
        rintro ⟨s, hs, hoffset⟩
        have := hlater s hs
        rw [Span.contains_iff] at hoffset
        omega
      rw [or_iff_left hnone, and_iff_left hlt]
      rcases Nat.lt_or_ge offset (utf8Chars (front ++ lead)).length with hlt' | hge'
      · have hmem : b ∈ utf8Chars lead := by
          refine mem_of_getElem?_middle (utf8Chars front) _ (utf8Chars (name ++ back)) ?_ hle
            (by rwa [← utf8Chars_append])
          rw [← utf8Chars_append, ← utf8Chars_append]
          simpa using hb
        rw [isSeparatorByte_of_mem_separators hlead hmem]
        simpa using hlt'
      · have hmem : b ∈ utf8Chars name := by
          refine mem_of_getElem?_middle (utf8Chars (front ++ lead)) _ (utf8Chars back) ?_ hge'
            (by rwa [← utf8Chars_append])
          rw [← utf8Chars_append, ← utf8Chars_append]
          simpa using hb
        rw [isSeparatorByte_of_mem_free hname hmem]
        simpa using hge'
    · have hnot : ¬ ((utf8Chars (front ++ lead)).length ≤ offset ∧
          offset < (utf8Chars (front ++ lead ++ name)).length) := fun h => absurd h.2 (by omega)
      rw [or_iff_right hnot]
      exact ih hge (by simpa using hb)

end CutInto

/-- No byte is in two spans that stand apart. -/
theorem eq_of_contains {offset : Nat} {t : Span}
    (h : spans.Pairwise fun s later => s.stop < later.start) (hs : s ∈ spans) (ht : t ∈ spans)
    (hsoffset : s.contains offset = true) (htoffset : t.contains offset = true) : s = t := by
  rw [Span.contains_iff] at hsoffset htoffset
  induction h with
  | nil => cases hs
  | cons hfirst _ ih =>
    rcases List.mem_cons.1 hs with rfl | hs'
    · rcases List.mem_cons.1 ht with rfl | ht'
      · rfl
      · have := hfirst t ht'
        omega
    · rcases List.mem_cons.1 ht with rfl | ht'
      · have := hfirst s hs'
        omega
      · exact ih hs' ht'

/-! ## Names -/

/-- The names of the components of some characters. -/
def names (style : PathStyle) (cs : List Char) : List (List Char) :=
  (cs.splitOnP style.isSeparator).filter (· != [])

@[simp] theorem names_nil (style : PathStyle) : names style [] = [] := by
  simp [names, List.splitOnP_nil]

theorem names_of_free (h : Free style name) (hne : name ≠ []) : names style name = [name] := by
  simp [names, List.splitOnP_eq_singleton h, hne]

theorem names_separator {c : Char} (hc : style.isSeparator c = true) (front back : List Char) :
    names style (front ++ c :: back) = names style front ++ names style back := by
  rw [names, List.splitOnP_append_cons front back hc, List.filter_append, ← names, ← names]

/-- The names before and after a place that is within none of them. -/
theorem names_append (h : (∀ c ∈ front.getLast?, style.isSeparator c = true) ∨
    StartsApart style back) :
    names style (front ++ back) = names style front ++ names style back := by
  rcases h with hfront | hback
  · rcases List.eq_nil_or_concat front with rfl | ⟨front, c, rfl⟩
    · simp
    · have hc : style.isSeparator c = true := hfront c (by simp)
      have hends := names_separator hc front []
      rw [names_nil, List.append_nil] at hends
      rw [List.concat_eq_append, List.append_assoc, List.singleton_append, names_separator hc,
        hends]
  · cases back with
    | nil => simp
    | cons c back =>
      have hc : style.isSeparator c = true := hback c rfl
      have hstarts := names_separator hc [] back
      rw [names_nil, List.nil_append, List.nil_append] at hstarts
      rw [names_separator hc, hstarts]

theorem names_separators (h : Separators style cs) : names style cs = [] := by
  induction cs with
  | nil => exact names_nil style
  | cons c cs ih =>
    obtain ⟨hc, hcs⟩ := List.forall_mem_cons.1 h
    have hstarts := names_separator hc [] cs
    rwa [names_nil, List.nil_append, List.nil_append, ih hcs] at hstarts

/-- A path that is put together from names has these names. -/
theorem names_intercalate {c : Char} (hc : style.isSeparator c = true) :
    ∀ {parts : List (List Char)}, (∀ part ∈ parts, Free style part ∧ part ≠ []) →
      names style ([c].intercalate parts) = parts
  | [], _ => by simp
  | [part], h => by
    obtain ⟨hfree, hne⟩ := h part List.mem_cons_self
    simpa using names_of_free hfree hne
  | part :: next :: parts, h => by
    obtain ⟨⟨hfree, hne⟩, hparts⟩ := List.forall_mem_cons.1 h
    rw [List.intercalate_cons_cons, List.append_assoc, List.singleton_append, names_separator hc,
      names_of_free hfree hne, names_intercalate hc hparts, List.singleton_append]

/-- The spans are cut where the names stand. -/
theorem CutInto.map_slice (h : CutInto style front cs spans) :
    spans.map (·.slice (String.ofList (front ++ cs))) = (names style cs).map String.ofList := by
  induction h with
  | nil hsep => rw [names_separators hsep, List.map_nil, List.map_nil]
  | @cons front lead name back spans hlead hname hne hback _ ih =>
    have hnames : names style (lead ++ name ++ back) = name :: names style back := by
      have hends : ∀ c ∈ lead.getLast?, style.isSeparator c = true := fun c hc =>
        hlead c (List.mem_of_getLast? hc)
      rw [names_append (.inr hback), names_append (.inl hends), names_separators hlead,
        names_of_free hname hne]
      rfl
    have hback : front ++ (lead ++ name ++ back) = front ++ lead ++ name ++ back := by simp
    rw [List.map_cons, (slice_first front lead hne back).2, hback, ih, hnames, List.map_cons]

/-! ## Paths -/

/-- The components of a path as texts. -/
def componentTexts (style : PathStyle) (path : String) : List String :=
  (components style path).map (·.slice path)

theorem componentTexts_eq (style : PathStyle) (path : String) :
    componentTexts style path = (names style path.toList).map String.ofList := by
  simpa [componentTexts] using (cutInto_components style path).map_slice

/-- `more` has one more separator than `path`, at its start, at its end or beside a
    separator. -/
def AddsSeparator (style : PathStyle) (path more : String) : Prop :=
  ∃ front c back, path = front ++ back ∧ more = front ++ String.singleton c ++ back ∧
    style.isSeparator c = true ∧
    ((∀ d ∈ front.toList.getLast?, style.isSeparator d = true) ∨
      StartsApart style back.toList)

theorem AddsSeparator.componentTexts_eq {path more : String} (h : AddsSeparator style path more) :
    componentTexts style more = componentTexts style path := by
  obtain ⟨front, c, back, rfl, rfl, hc, hplace⟩ := h
  have hmore : (front ++ String.singleton c ++ back).toList = front.toList ++ c :: back.toList := by
    simp
  rw [Path.componentTexts_eq, Path.componentTexts_eq, hmore, names_separator hc,
    String.toList_append, names_append hplace]

theorem componentTexts_of_added {path more : String}
    (h : Relation.ReflTransGen (AddsSeparator style) path more) :
    componentTexts style more = componentTexts style path := by
  induction h with
  | refl => rfl
  | tail _ hstep ih => rw [hstep.componentTexts_eq, ih]

/-- The components of a path, put together with single separators, are the
    components of the result. -/
theorem componentTexts_intercalate {c : Char} (hc : style.isSeparator c = true) (path : String) :
    componentTexts style ((String.singleton c).intercalate (componentTexts style path)) =
      componentTexts style path := by
  have hparts : ∀ part ∈ (componentTexts style path).map String.toList,
      Free style part ∧ part ≠ [] := by
    rw [componentTexts, List.map_map]
    refine List.forall_mem_map.2 fun s hs => ?_
    obtain ⟨hpiece, hfree⟩ := (cutInto_components style path).isPiece s hs
    simp only [List.nil_append, String.ofList_toList] at hpiece hfree
    refine ⟨hfree, fun hempty => ?_⟩
    obtain ⟨front, piece, back, rfl, rfl⟩ := hpiece.cut
    have := hpiece.nonempty
    rw [Function.comp_apply, Span.slice_append, String.toList_eq_nil_iff] at hempty
    subst hempty
    simp at this
  rw [componentTexts_eq, String.toList_intercalate, String.toList_singleton,
    names_intercalate hc hparts, List.map_map]
  simp

/-- A path is cut into pieces that have no separators, stand from left to right with
    a separator between neighbours, and leave nothing but separators out: each other
    byte is in just one of them.  The pieces are those of any path that is put
    together from them, whatever separators are added at its ends or to others. -/
theorem components_decompose (style : PathStyle) (path : String) :
    (∀ s ∈ components style path, s.start < s.stop ∧ s.IsPiece path ∧
      Free style (s.slice path).toList) ∧
    (components style path).Pairwise (fun s later => s.stop < later.start ∧
      ∃ b, (utf8 path)[s.stop]? = some b ∧ style.isSeparatorByte b = true) ∧
    (∀ offset b, (utf8 path)[offset]? = some b →
      (style.isSeparatorByte b = true ↔
        ∀ s ∈ components style path, s.contains offset = false) ∧
      (style.isSeparatorByte b = false ↔
        ∃! s, s ∈ components style path ∧ s.contains offset = true)) ∧
    (∀ c, style.isSeparator c = true → ∀ more, Relation.ReflTransGen (AddsSeparator style)
      ((String.singleton c).intercalate (componentTexts style path)) more →
        componentTexts style more = componentTexts style path) ∧
    ∀ more, Relation.ReflTransGen (AddsSeparator style) path more →
      componentTexts style more = componentTexts style path := by
  have hcut := cutInto_components style path
  have hpieces := hcut.isPiece
  have hapart := hcut.apart
  rw [List.nil_append, String.ofList_toList] at hpieces
  refine ⟨fun s hs => ?_, hapart, fun offset b hb => ?_, fun c hc more hmore => ?_,
    fun more hmore => componentTexts_of_added hmore⟩
  · obtain ⟨hpiece, hfree⟩ := hpieces s hs
    exact ⟨hpiece.nonempty, hpiece, hfree⟩
  · have hcovers := hcut.covers_iff (Nat.zero_le offset) hb
    have hseparator : style.isSeparatorByte b = true ↔
        ∀ s ∈ components style path, s.contains offset = false := by
      rw [← Bool.not_eq_false, hcovers]
      simp
    refine ⟨hseparator, hcovers.trans ⟨?_, fun ⟨s, hs, _⟩ => ⟨s, hs⟩⟩⟩
    rintro ⟨s, hs, hoffset⟩
    refine ⟨s, ⟨hs, hoffset⟩, fun t ⟨ht, htoffset⟩ => ?_⟩
    exact eq_of_contains (hapart.imp And.left) ht hs htoffset hoffset
  · rw [componentTexts_of_added hmore, componentTexts_intercalate hc]

/-- A backslash and two slashes, around a character of two bytes. -/
theorem components_decompose_accent :
    (⟨2, 4⟩ : Span) ∈ components .windows "a\\é//b" ∧ (⟨2, 4⟩ : Span).IsPiece "a\\é//b" ∧
    (utf8 "a\\é//b")[4]? = some 0x2f ∧
    (∀ s ∈ components .windows "a\\é//b", s.contains 4 = false) ∧
    AddsSeparator .windows "a\\é//b" "a\\é//b\\" ∧
    componentTexts .windows "a\\é//b\\" = componentTexts .windows "a\\é//b" := by
  have hmem : (⟨2, 4⟩ : Span) ∈ components .windows "a\\é//b" := by decide +kernel
  have hbyte : (utf8 "a\\é//b")[4]? = some 0x2f := by decide +kernel
  have hadds : AddsSeparator .windows "a\\é//b" "a\\é//b\\" :=
    ⟨"a\\é//b", '\\', "", by decide +kernel, by decide +kernel, rfl,
      .inr (by simp [StartsApart])⟩
  obtain ⟨hpieces, -, hbytes, -, hadded⟩ := components_decompose .windows "a\\é//b"
  exact ⟨hmem, (hpieces _ hmem).2.1, hbyte, (hbytes 4 0x2f hbyte).1.1 rfl, hadds,
    hadded _ (.single hadds)⟩

end Path

end FuzzyPath
