/-
  FuzzyPath — a query typed anew from its parts.

  The parts of a query are put together with a delimiter before each excluded
  text.  Analysed again, they are the same parts; what was typed at first may
  have had more delimiters, at its end or several in a row.

  * `Query.typed` is a query put together from its parts;
  * `DropsDelimiter` takes away one delimiter that sets nothing apart;
    `reflTransGen_dropsDelimiter` takes all of them away, one by one, and
    `not_dropsDelimiter_of_free` says when there is none;
  * `parse_typed`: the parts that are put together are the parts that are found,
    and a typed query differs from its parts put together by such delimiters
    only.
-/
import FuzzyPath.Proofs.Query.Exclusions
import Mathlib.Logic.Relation

namespace FuzzyPath

/-! ## Delimiters that set nothing apart -/

/-- One delimiter is taken away, at the end of a text or beside another one. -/
inductive DropsDelimiter (delim : Char) : List Char → List Char → Prop
  | atEnd (front : List Char) : DropsDelimiter delim (front ++ [delim]) front
  | repeated (front back : List Char) :
    DropsDelimiter delim (front ++ delim :: delim :: back) (front ++ delim :: back)

section
variable {delim : Char} {text : List Char} {pieces : List (List Char)}

/-- A delimiter before an empty piece can go: another one follows, or the end. -/
theorem dropsDelimiter_nil (delim : Char) (text : List Char) (pieces : List (List Char)) :
    DropsDelimiter delim ([delim].intercalate (text :: [] :: pieces))
      ([delim].intercalate (text :: pieces)) := by
  cases pieces with
  | nil =>
    have hlast : DropsDelimiter delim (text ++ [delim]) text := .atEnd text
    simpa using hlast
  | cons piece pieces =>
    have hnext : DropsDelimiter delim
        (text ++ delim :: delim :: [delim].intercalate (piece :: pieces))
        (text ++ delim :: [delim].intercalate (piece :: pieces)) := .repeated text _
    simpa [List.intercalate_cons_cons] using hnext

/-- Without its empty pieces, a text has lost delimiters that set nothing apart. -/
theorem reflTransGen_dropsDelimiter (pieces : List (List Char)) : ∀ text : List Char,
    Relation.ReflTransGen (DropsDelimiter delim) ([delim].intercalate (text :: pieces))
      ([delim].intercalate (text :: pieces.filter (· != []))) := by
  induction pieces with
  | nil => exact fun text => .refl
  | cons piece pieces ih =>
    intro text
    cases piece with
    | nil => exact .head (dropsDelimiter_nil delim text pieces) (ih text)
    | cons c piece =>
      -- the piece and the text before it are one text for the pieces after them
      have joined (others : List (List Char)) :
          [delim].intercalate (text :: (c :: piece) :: others) =
            [delim].intercalate ((text ++ delim :: c :: piece) :: others) := by
        cases others with
        | nil => simp [List.intercalate_cons_cons]
        | cons other others => simp [List.intercalate_cons_cons]
      rw [List.filter_cons_of_pos rfl, joined, joined]
      exact ih _

/-- Between pieces that are not empty, each delimiter sets something apart. -/
theorem not_dropsDelimiter (htext : delim ∉ text)
    (hpieces : ∀ piece ∈ pieces, piece ≠ [] ∧ delim ∉ piece) (other : List Char) :
    ¬ DropsDelimiter delim ([delim].intercalate (text :: pieces)) other := by
  have hsplit : ([delim].intercalate (text :: pieces)).splitOn delim = text :: pieces := by
    refine List.splitOn_intercalate delim ?_ (List.cons_ne_nil text pieces)
    exact List.forall_mem_cons.2 ⟨htext, fun piece hpiece => (hpieces piece hpiece).2⟩
  -- after a delimiter that can go, the text is cut at an empty piece
  have cut (front back : List Char) (hback : [] ∈ back.splitOn delim) :
      [delim].intercalate (text :: pieces) ≠ front ++ delim :: back := by
    intro heq
    rw [heq, List.splitOn_append_cons_self] at hsplit
    obtain ⟨first, rest, hfront⟩ := List.exists_cons_of_ne_nil (List.splitOn_ne_nil delim front)
    rw [hfront, List.cons_append, List.cons.injEq] at hsplit
    have hmem : [] ∈ pieces := hsplit.2 ▸ List.mem_append_right rest hback
    exact (hpieces [] hmem).1 rfl
  generalize htyped : [delim].intercalate (text :: pieces) = typed at cut
  rintro (front | ⟨front, back⟩)
  · exact cut _ [] (by simp) rfl
  · refine cut front (delim :: back) ?_ rfl
    rw [List.splitOn_cons_eq_if_modifyHead, if_pos (by simp)]
    exact List.mem_cons_self

end

/-! ## Typed queries -/

namespace Query

variable {settings : QuerySettings} {raw text delimiter : String} {delim : Char}
  {excluded : List String}

/-- What is typed for a text to be matched and some excluded texts. -/
def typed (delimiter text : String) (excluded : List String) : String :=
  delimiter.intercalate (text :: excluded)

theorem toList_typed (hdelim : delimiter.toList = [delim]) (text : String)
    (excluded : List String) : (typed delimiter text excluded).toList =
      [delim].intercalate (text.toList :: excluded.map String.toList) := by
  rw [typed, String.toList_intercalate, hdelim, List.map_cons]

/-- Texts that are put together are found again. -/
theorem split_typed (hdelim : delimiter.toList = [delim]) (htext : delim ∉ text.toList)
    (hexcluded : ∀ e ∈ excluded, e ≠ "" ∧ delim ∉ e.toList) :
    split (typed delimiter text excluded) delimiter = (text, excluded) := by
  refine (split_eq_iff hdelim).2 ⟨excluded, rfl, ?_, ?_⟩
  · exact List.forall_mem_cons.2 ⟨htext, fun e he => (hexcluded e he).2⟩
  · exact (List.filter_eq_self.2 fun e he => by simpa using (hexcluded e he).1).symm

/-- The texts that are found have no delimiter, and only the first may be empty. -/
theorem free_of_split (hdelim : delimiter.toList = [delim])
    (h : split raw delimiter = (text, excluded)) :
    delim ∉ text.toList ∧ ∀ e ∈ excluded, e ≠ "" ∧ delim ∉ e.toList := by
  obtain ⟨pieces, -, hfree, rfl⟩ := (split_eq_iff hdelim).1 h
  obtain ⟨htext, hpieces⟩ := List.forall_mem_cons.1 hfree
  refine ⟨htext, fun e he => ?_⟩
  obtain ⟨hmem, hne⟩ := List.mem_filter.1 he
  exact ⟨by simpa using hne, hpieces e hmem⟩

/-- What is typed has lost only delimiters that set nothing apart when its texts
    are put together again. -/
theorem drops_of_split (hdelim : delimiter.toList = [delim])
    (h : split raw delimiter = (text, excluded)) :
    Relation.ReflTransGen (DropsDelimiter delim) raw.toList
      (typed delimiter text excluded).toList := by
  obtain ⟨pieces, rfl, -, rfl⟩ := (split_eq_iff hdelim).1 h
  have hfilter : (pieces.filter (· != "")).map String.toList =
      (pieces.map String.toList).filter (· != []) := by
    rw [List.filter_map]
    congr 1
    refine List.filter_congr fun piece _ => ?_
    rw [Function.comp_apply, Bool.eq_iff_iff]
    simp
  have hraw := toList_typed hdelim text pieces
  rw [typed] at hraw
  rw [hraw, toList_typed hdelim, hfilter]
  exact reflTransGen_dropsDelimiter _ _

/-- A delimiter of any other length than one sets nothing apart. -/
theorem split_of_length_ne_one (h : delimiter.toList.length ≠ 1) (raw : String) :
    split raw delimiter = (raw, []) := by
  rw [split.eq_def]
  split
  · rename_i hdelim
    exact absurd (congrArg List.length hdelim) h
  · rfl

theorem exists_keyKindOf (hmode : settings.matchMode ≠ .regex) :
    ∃ kind, keyKindOf settings = .ok kind := by
  rw [keyKindOf]
  split
  · exact absurd ‹_› hmode
  · exact ⟨_, rfl⟩
  · exact ⟨_, rfl⟩
  · exact ⟨_, rfl⟩

/-- Any typed query is analysed, except in the `regex` mode.  The result holds
    its texts and depends on nothing else that was typed. -/
theorem exists_parse (hmode : settings.matchMode ≠ .regex)
    (h : split raw settings.delimiter = (text, excluded)) :
    ∃ q, parse raw settings = .ok q ∧ q.text = text ∧ q.excluded = excluded ∧
      ∀ other, split other settings.delimiter = (text, excluded) →
        parse other settings = .ok q := by
  have hparse : ∃ q, parse raw settings = .ok q ∧ q.text = text ∧ q.excluded = excluded := by
    obtain ⟨kind, hkind⟩ := exists_keyKindOf hmode
    rw [parse, hkind, h]
    exact ⟨_, rfl, rfl, rfl⟩
  obtain ⟨q, hq, htext, hexcluded⟩ := hparse
  refine ⟨q, hq, htext, hexcluded, fun other hother => ?_⟩
  rw [← hq, parse, parse, h, hother]

/-- In every mode but `regex`, the texts that a query is put together from are
    those that are found in it.  Any typed query differs from its own texts put
    together by delimiters that set nothing apart, and all of these are gone
    then.  A delimiter that is not one character sets nothing apart at all. -/
theorem parse_typed (hmode : settings.matchMode ≠ .regex) :
    (∀ delim text excluded, settings.delimiter.toList = [delim] → delim ∉ text.toList →
      (∀ e ∈ excluded, e ≠ "" ∧ delim ∉ e.toList) →
      ∃ q, parse (typed settings.delimiter text excluded) settings = .ok q ∧
        q.text = text ∧ q.excluded = excluded) ∧
    (∀ delim raw, settings.delimiter.toList = [delim] →
      ∃ q, parse raw settings = .ok q ∧
        parse (typed settings.delimiter q.text q.excluded) settings = .ok q ∧
        Relation.ReflTransGen (DropsDelimiter delim) raw.toList
          (typed settings.delimiter q.text q.excluded).toList ∧
        ∀ other, ¬ DropsDelimiter delim
          (typed settings.delimiter q.text q.excluded).toList other) ∧
    (settings.delimiter.toList.length ≠ 1 → ∀ raw,
      ∃ q, parse raw settings = .ok q ∧ q.text = raw ∧ q.excluded = []) := by
  refine ⟨fun delim text excluded hdelim htext hexcluded => ?_, fun delim raw hdelim => ?_,
    fun hdelim raw => ?_⟩
  · obtain ⟨q, hparse, rfl, rfl, -⟩ := exists_parse hmode (split_typed hdelim htext hexcluded)
    exact ⟨q, hparse, rfl, rfl⟩
  · have hsplit : split raw settings.delimiter =
        ((split raw settings.delimiter).1, (split raw settings.delimiter).2) := rfl
    obtain ⟨q, hparse, htext, hexcluded, hsame⟩ := exists_parse hmode hsplit
    obtain ⟨hfree, hpieces⟩ := free_of_split hdelim hsplit
    rw [← htext] at hfree
    rw [← hexcluded] at hpieces
    refine ⟨q, hparse, ?_, ?_, ?_⟩
    · refine hsame _ ?_
      rw [split_typed hdelim hfree hpieces, htext, hexcluded]
    · exact drops_of_split hdelim (Prod.ext htext hexcluded).symm
    · rw [toList_typed hdelim]
      refine not_dropsDelimiter hfree (List.forall_mem_map.2 fun e he => ?_)
      exact ⟨by simpa using (hpieces e he).1, (hpieces e he).2⟩
  · obtain ⟨q, hparse, htext, hexcluded, -⟩ :=
      exists_parse hmode (split_of_length_ne_one hdelim raw)
    exact ⟨q, hparse, htext, hexcluded⟩

/-- A delimiter of two bytes, in front of the text, doubled, and at the end. -/
theorem parse_typed_accents : MatchMode.filenameOnly ≠ .regex ∧ ∃ q,
    parse "éutilééstré" ⟨.filenameOnly, true, false, true, "é"⟩ = .ok q ∧ q.text = "" ∧
      q.excluded = ["util", "str"] ∧
      parse "éutiléstr" ⟨.filenameOnly, true, false, true, "é"⟩ = .ok q ∧
      Relation.ReflTransGen (DropsDelimiter 'é') "éutilééstré".toList "éutiléstr".toList := by
  have hmode : (⟨.filenameOnly, true, false, true, "é"⟩ : QuerySettings).matchMode ≠ .regex := by
    decide
  have hparse : (parse "éutilééstré" ⟨.filenameOnly, true, false, true, "é"⟩).map
      (fun q => (q.text, q.excluded)) = .ok ("", ["util", "str"]) := by rfl
  have htyped : typed "é" "" ["util", "str"] = "éutiléstr" := by decide +kernel
  obtain ⟨-, hrebuilt, -⟩ := parse_typed hmode
  obtain ⟨q, hq, hq', hdrops, -⟩ := hrebuilt 'é' "éutilééstré" rfl
  rw [hq] at hparse
  obtain ⟨htext, hexcluded⟩ := Prod.mk.inj (Except.ok.inj hparse)
  rw [htext, hexcluded, htyped] at hq' hdrops
  exact ⟨hmode, q, hq, htext, hexcluded, hq', hdrops⟩

end Query

end FuzzyPath
