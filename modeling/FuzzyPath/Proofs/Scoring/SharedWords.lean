/-
  FuzzyPath — the words that two names share, and the rule for the last one.

  The rule: a name shares the leading words of the current name that it begins
  with, but not the last of these if it goes on with it.

  * `mem_wordEnds`: a word ends where its own name does not go on with it;
  * `coveredWords` are the words that a name begins with, and
    `lt_coveredWords_iff` says which words these are;
  * `sharedLeadingWords_self`: a name shares all its words with itself;
  * `IsSharedCount` is the rule, and `sharedLeadingWords_isSharedCount_iff` says
    when it gives the number that is counted: a name that goes on with a word
    which is not the last of the current name shares one word too many, as
    `food.h` and `foo_bar.cc` do (`sharedLeadingWords_food`).
-/
import FuzzyPath.Scoring.SharedWords
import FuzzyPath.Proofs.Text.Offsets

namespace FuzzyPath

/-! ## Texts that begin with the same bytes -/

/-- Texts begin alike as bytes if they do as characters. -/
theorem utf8Chars_prefix_iff {front cs : List Char} :
    utf8Chars front <+: utf8Chars cs ↔ front <+: cs := by
  constructor
  · rintro ⟨bytes, hbytes⟩
    refine List.isPrefix_of_utf8Encode_append_eq_utf8Encode ⟨bytes.toArray⟩ (ByteArray.ext ?_)
    rw [ByteArray.data_append, List.utf8Encode, List.utf8Encode, List.data_toByteArray,
      List.data_toByteArray, List.append_toArray]
    exact congrArg List.toArray hbytes
  · rintro ⟨back, rfl⟩
    exact ⟨utf8Chars back, (utf8Chars_append front back).symm⟩

/-- The characters at the start of a text that fill a given number of bytes. -/
theorem prefix_of_length_utf8Chars_eq {front front' cs : List Char} (h : front <+: cs)
    (h' : front' <+: cs) (hlen : (utf8Chars front).length = (utf8Chars front').length) :
    front = front' := by
  have hbytes : utf8Chars front = utf8Chars front' :=
    (List.prefix_of_prefix_length_le (utf8Chars_prefix_iff.2 h) (utf8Chars_prefix_iff.2 h')
      (Nat.le_of_eq hlen)).eq_of_length hlen
  exact (utf8Chars_prefix_iff.1 (hbytes ▸ List.prefix_rfl)).eq_of_length_le
    (utf8Chars_prefix_iff.1 (hbytes ▸ List.prefix_rfl)).length_le

theorem le_commonLength_iff {α : Type} [BEq α] [LawfulBEq α] : ∀ {xs ys : List α} {n : Nat},
    n ≤ ys.length → (n ≤ commonLength xs ys ↔ ys.take n <+: xs)
  | _, _, 0, _ => by simp
  | [], y :: ys, n + 1, _ => by simp [commonLength]
  | x :: xs, y :: ys, n + 1, hn => by
    have ih : n ≤ commonLength xs ys ↔ ys.take n <+: xs :=
      le_commonLength_iff (Nat.le_of_succ_le_succ hn)
    rw [commonLength] at ih ⊢
    by_cases hxy : x = y
    · subst hxy
      simp only [List.zip_cons_cons, List.takeWhile_cons, beq_self_eq_true, if_true,
        List.length_cons, Nat.add_le_add_iff_right, List.take_succ_cons, List.cons_prefix_cons,
        true_and]
      exact ih
    · simp [hxy, Ne.symm hxy, List.cons_prefix_cons]

/-! ## Words that go on -/

/-- Whether `name` goes on, after its first `stop` bytes, with the word that it
    began: with a letter or number that is no capital. -/
def GoesOn (mode : TextMode) (name : String) (stop : Nat) : Prop :=
  ∃ front c back, name.toList = front ++ c :: back ∧ (utf8Chars front).length = stop ∧
    mode.isAlphanumeric c = true ∧ mode.isUpper c = false

/-- After the characters that fill `stop` bytes, a name goes on with the next
    one. -/
theorem goesOn_append_iff {mode : TextMode} {name : String} {front back : List Char} {stop : Nat}
    (hname : name.toList = front ++ back) (hstop : (utf8Chars front).length = stop) :
    GoesOn mode name stop ↔
      ∃ c ∈ back.head?, mode.isAlphanumeric c = true ∧ mode.isUpper c = false := by
  constructor
  · rintro ⟨front', c, back', hname', hstop', hc⟩
    have hfront' : front' <+: name.toList := ⟨_, hname'.symm⟩
    obtain rfl : front' = front :=
      prefix_of_length_utf8Chars_eq hfront' ⟨_, hname.symm⟩ (hstop'.trans hstop.symm)
    rw [hname'] at hname
    rw [← List.append_cancel_left hname]
    exact ⟨c, rfl, hc⟩
  · rintro ⟨c, hhead, hc⟩
    obtain ⟨back, rfl⟩ := List.head?_eq_some_iff.1 hhead
    exact ⟨front, c, back, hname, hstop, hc⟩

/-- The test of the character that follows the first `stop` bytes. -/
theorem slice_goesOn_iff (mode : TextMode) (name : String) (stop : Nat) :
    (match ((⟨stop, name.utf8ByteSize⟩ : Span).slice name).toList with
      | c :: _ => mode.isAlphanumeric c && !mode.isUpper c
      | [] => false) = true ↔ GoesOn mode name stop := by
  by_cases hbound : isBoundary name stop = true
  · rw [isBoundary, String.Pos.Raw.isValid_eq_true_iff,
      String.Pos.Raw.isValid_iff_exists_append] at hbound
    obtain ⟨front, back, rfl, hstop⟩ := hbound
    obtain rfl : stop = front.utf8ByteSize := congrArg String.Pos.Raw.byteIdx hstop
    rw [Span.slice_suffix, goesOn_append_iff String.toList_append (length_utf8Chars_toList front)]
    cases back.toList <;> simp
  · have hslice : (⟨stop, name.utf8ByteSize⟩ : Span).slice name = "" := by
      rw [Span.slice, Span.slice?]
      simp [hbound]
    rw [hslice]
    constructor
    · simp
    · rintro ⟨front, c, back, hname, rfl, -⟩
      have hsplit : name = String.ofList front ++ String.ofList (c :: back) := by
        rw [← String.ofList_append, ← hname, String.ofList_toList]
      refine absurd ?_ hbound
      rw [hsplit, length_utf8Chars]
      exact isBoundary_append _ _

/-! ## The ends of words -/

variable {mode : TextMode}

theorem wordEndsFrom_eq (cs : List Char) : ∀ (found : List Nat) (prev : Option Char)
    (offset : Nat),
    wordEndsFrom mode found prev offset cs =
      found.reverse ++ wordEndsFrom mode [] prev offset cs := by
  induction cs with
  | nil =>
    intro found prev offset
    simp only [wordEndsFrom]
    split <;> simp
  | cons c cs ih =>
    intro found prev offset
    simp only [wordEndsFrom]
    split
    · rw [ih, ih [offset], List.reverse_cons, List.append_assoc]
      rfl
    · exact ih found (some c) _

/-- A word that ends at the start of a text ends before all the others. -/
theorem wordEndsFrom_cons (prev : Option Char) (offset : Nat) (c : Char) (cs : List Char) :
    wordEndsFrom mode [] prev offset (c :: cs) =
      (if prev.any (wordBreaks mode · c) then [offset] else []) ++
        wordEndsFrom mode [] (some c) (offset + c.utf8Size) cs := by
  rw [wordEndsFrom]
  split
  · exact wordEndsFrom_eq cs [offset] (some c) _
  · rfl

/-- What stands after the end of a word does not go on with it. -/
theorem mem_wordEndsFrom {stop : Nat} : ∀ {cs : List Char} {prev : Option Char} {offset : Nat},
    stop ∈ wordEndsFrom mode [] prev offset cs → ∃ front back, cs = front ++ back ∧
      offset + (utf8Chars front).length = stop ∧
      ∀ c ∈ back.head?, ¬ (mode.isAlphanumeric c = true ∧ mode.isUpper c = false)
  | [], prev, offset, h => by
    rw [wordEndsFrom] at h
    split at h
    · obtain rfl : stop = offset := by simpa using h
      exact ⟨[], [], rfl, by simp, by simp⟩
    · simp at h
  | c :: cs, prev, offset, h => by
    rw [wordEndsFrom_cons, List.mem_append] at h
    rcases h with h | h
    · split at h
      · rename_i hbreak
        obtain rfl : stop = offset := by simpa using h
        obtain ⟨p, rfl, hp⟩ := (Option.any_eq_true ..).1 hbreak
        refine ⟨[], c :: cs, rfl, by simp, fun d hd => ?_⟩
        obtain rfl : c = d := by simpa using hd
        rw [wordBreaks] at hp
        rintro ⟨halnum, hupper⟩
        simp [halnum, hupper] at hp
      · simp at h
    · obtain ⟨front, back, rfl, rfl, hback⟩ := mem_wordEndsFrom h
      refine ⟨c :: front, back, rfl, ?_, hback⟩
      rw [length_utf8Chars_cons, Nat.add_assoc]

theorem le_of_mem_wordEndsFrom {cs : List Char} {prev : Option Char} {offset stop : Nat}
    (h : stop ∈ wordEndsFrom mode [] prev offset cs) : offset ≤ stop := by
  obtain ⟨front, back, -, rfl, -⟩ := mem_wordEndsFrom h
  exact Nat.le_add_right _ _

theorem wordEndsFrom_increasing : ∀ (cs : List Char) (prev : Option Char) (offset : Nat),
    (wordEndsFrom mode [] prev offset cs).Pairwise (· < ·)
  | [], prev, offset => by
    rw [wordEndsFrom]
    split <;> simp
  | c :: cs, prev, offset => by
    have hrest := wordEndsFrom_increasing cs (some c) (offset + c.utf8Size)
    have hsize := c.utf8Size_pos
    rw [wordEndsFrom_cons]
    split
    · refine List.pairwise_cons.2 ⟨fun stop hstop => ?_, hrest⟩
      have := le_of_mem_wordEndsFrom hstop
      omega
    · exact hrest

theorem exists_of_stem? {name stem : List Char} (h : stem? name = some stem) :
    ∃ extension, name = stem ++ '.' :: extension := by
  rw [stem?] at h
  split at h
  · cases h
  · rename_i dot before hdot
    cases h
    have hhead := List.head_dropWhile_not (· != '.') (by rw [hdot]; exact List.cons_ne_nil _ _)
    have hsplit := List.takeWhile_append_dropWhile (p := (· != '.')) (l := name.reverse)
    simp only [hdot, List.head_cons, bne_eq_false_iff_eq] at hhead hsplit
    subst hhead
    refine ⟨(name.reverse.takeWhile (· != '.')).reverse, ?_⟩
    calc name = name.reverse.reverse := (List.reverse_reverse name).symm
      _ = (name.reverse.takeWhile (· != '.') ++ '.' :: before).reverse := by rw [hsplit]
      _ = _ := by simp

/-- A word ends between two characters of its name, and the name does not go on
    with it. -/
theorem mem_wordEnds {name : String} {stop : Nat} (h : stop ∈ wordEnds mode name) :
    (∃ front, front <+: name.toList ∧ (utf8Chars front).length = stop) ∧
      ¬ GoesOn mode name stop := by
  rw [wordEnds] at h
  split at h
  · rename_i stem hstem
    obtain ⟨extension, hname⟩ := exists_of_stem? hstem
    obtain ⟨front, back, rfl, hstop, hback⟩ := mem_wordEndsFrom h
    rw [Nat.zero_add] at hstop
    rw [List.append_assoc] at hname
    refine ⟨⟨front, ⟨_, hname.symm⟩, hstop⟩, ?_⟩
    rw [goesOn_append_iff hname hstop]
    rintro ⟨c, hc, halnum⟩
    cases back with
    | nil =>
      -- The word is the last one, and the dot before the extension ends it.
      obtain rfl : '.' = c := by simpa using hc
      exact absurd halnum.1 (by cases mode <;> decide)
    | cons d back => exact hback c hc halnum
  · simp at h

theorem wordEnds_increasing (mode : TextMode) (name : String) :
    (wordEnds mode name).Pairwise (· < ·) := by
  rw [wordEnds]
  split
  · exact wordEndsFrom_increasing _ _ _
  · exact List.Pairwise.nil

/-! ## Words that a name begins with -/

/-- The number of words of `current` that `name` begins with, whether or not it
    goes on with the last of them. -/
def coveredWords (mode : TextMode) (name current : String) : Nat :=
  ((wordEnds mode current).takeWhile (· ≤ commonLength (utf8 name) (utf8 current))).length

theorem coveredWords_le (mode : TextMode) (name current : String) :
    coveredWords mode name current ≤ (wordEnds mode current).length :=
  (List.takeWhile_sublist _).length_le

/-- In an increasing list, those up to a bound stand at the front. -/
theorem lt_length_takeWhile_iff {bound : Nat} : ∀ {stops : List Nat} {n stop : Nat},
    stops.Pairwise (· < ·) → stops[n]? = some stop →
      (n < (stops.takeWhile (· ≤ bound)).length ↔ stop ≤ bound)
  | [], _, _, _, hn => by simp at hn
  | s :: stops, n, stop, hinc, hn => by
    obtain ⟨hlt, hinc⟩ := List.pairwise_cons.1 hinc
    rw [List.takeWhile_cons]
    cases n with
    | zero =>
      obtain rfl : s = stop := by simpa using hn
      split <;> simp_all
    | succ n =>
      rw [List.getElem?_cons_succ] at hn
      have hs := hlt stop (List.mem_of_getElem? hn)
      split
      · rw [List.length_cons, Nat.add_lt_add_iff_right]
        exact lt_length_takeWhile_iff hinc hn
      · rename_i hbound
        rw [decide_eq_true_eq] at hbound
        exact iff_of_false (Nat.not_lt_zero _) (by omega)

/-- A word counts as one that `name` begins with if all characters of `current`
    up to the word's end do. -/
theorem lt_coveredWords_iff {name current : String} {n stop : Nat}
    (hn : (wordEnds mode current)[n]? = some stop) :
    n < coveredWords mode name current ↔
      ∃ front, front <+: current.toList ∧ (utf8Chars front).length = stop ∧
        front <+: name.toList := by
  obtain ⟨front, ⟨back, hback⟩, hstop⟩ := (mem_wordEnds (List.mem_of_getElem? hn)).1
  have htake : (utf8 current).take stop = utf8Chars front := by
    rw [utf8, ← hback, utf8Chars_append, ← hstop, List.take_left]
  have hle : stop ≤ (utf8 current).length := by
    rw [utf8, ← hback, utf8Chars_append, List.length_append]
    omega
  rw [coveredWords, lt_length_takeWhile_iff (wordEnds_increasing mode current) hn,
    le_commonLength_iff hle, htake, utf8, utf8Chars_prefix_iff]
  constructor
  · exact fun hname => ⟨front, ⟨back, hback⟩, hstop, hname⟩
  · rintro ⟨front', hcurrent, hstop', hname⟩
    obtain rfl : front' = front :=
      prefix_of_length_utf8Chars_eq hcurrent ⟨back, hback⟩ (hstop'.trans hstop.symm)
    exact hname

/-! ## The rule for the last word -/

/-- Whether `name` goes on with the last of the words of `current` that it begins
    with. -/
def LastGoesOn (mode : TextMode) (name current : String) : Prop :=
  ∃ n stop, coveredWords mode name current = n + 1 ∧ (wordEnds mode current)[n]? = some stop ∧
    GoesOn mode name stop

/-- The number of words that `name` shares with `current` by the rule: those that
    it begins with, less the last of them if it goes on with that. -/
def IsSharedCount (mode : TextMode) (name current : String) (n : Nat) : Prop :=
  (LastGoesOn mode name current ∧ n + 1 = coveredWords mode name current) ∨
    (¬ LastGoesOn mode name current ∧ n = coveredWords mode name current)

/-- A name goes on with the last word that it begins with if it does after the
    end of this word. -/
theorem lastGoesOn_iff {name current : String} {n stop : Nat}
    (hn : coveredWords mode name current = n + 1)
    (hstop : (wordEnds mode current)[n]? = some stop) :
    LastGoesOn mode name current ↔ GoesOn mode name stop := by
  constructor
  · rintro ⟨n', stop', hn', hstop', hon⟩
    obtain rfl : n = n' := by omega
    obtain rfl : stop = stop' := Option.some.inj (hstop.symm.trans hstop')
    exact hon
  · exact fun hon => ⟨n, stop, hn, hstop, hon⟩

/-- If `current` has more words, all that `name` begins with are counted. -/
theorem sharedLeadingWords_of_lt {name current : String}
    (h : coveredWords mode name current < (wordEnds mode current).length) :
    sharedLeadingWords mode name current (wordEnds mode current) =
      coveredWords mode name current := by
  rw [sharedLeadingWords]
  exact if_neg (Nat.ne_of_lt h)

/-- If `name` begins with all words of `current`, the last of them is counted by
    the rule. -/
theorem isSharedCount_of_eq {name current : String}
    (h : coveredWords mode name current = (wordEnds mode current).length) :
    IsSharedCount mode name current
      (sharedLeadingWords mode name current (wordEnds mode current)) := by
  rw [sharedLeadingWords, ← coveredWords, if_pos h, List.getLast?_eq_getElem?, ← h]
  cases hn : coveredWords mode name current with
  | zero =>
    rw [List.getElem?_eq_none (by omega)]
    refine .inr ⟨?_, hn.symm⟩
    rintro ⟨n, stop, hn', -⟩
    omega
  | succ n =>
    obtain ⟨stop, hstop⟩ : ∃ stop, (wordEnds mode current)[n]? = some stop :=
      ⟨_, List.getElem?_eq_getElem (by omega)⟩
    rw [IsSharedCount, lastGoesOn_iff hn hstop, ← slice_goesOn_iff, hn, Nat.add_sub_cancel, hstop]
    dsimp only
    split_ifs with hon
    · exact .inl ⟨hon, rfl⟩
    · exact .inr ⟨hon, rfl⟩

/-- No more words are shared than there are. -/
theorem sharedLeadingWords_le_length (mode : TextMode) (name current : String) (ends : List Nat) :
    sharedLeadingWords mode name current ends ≤ ends.length := by
  rw [sharedLeadingWords]
  have hshared : (ends.takeWhile (· ≤ commonLength (utf8 name) (utf8 current))).length ≤
      ends.length := (List.takeWhile_sublist _).length_le
  generalize (ends.takeWhile _).length = shared at hshared ⊢
  dsimp only
  split_ifs with hall
  · cases ends.getLast? with
    | none => exact hshared
    | some stop =>
      dsimp only
      split_ifs
      · exact Nat.le_trans (Nat.sub_le shared 1) hshared
      · exact hshared
  · exact hshared

/-- A name shares all its words with itself. -/
theorem sharedLeadingWords_self (mode : TextMode) (name : String) :
    sharedLeadingWords mode name name (wordEnds mode name) = (wordEnds mode name).length := by
  have hall : coveredWords mode name name = (wordEnds mode name).length := by
    refine Nat.le_antisymm (coveredWords_le mode name name) (Nat.le_of_not_lt fun hlt => ?_)
    have hstop := List.getElem?_eq_getElem hlt
    obtain ⟨front, hfront, hlen⟩ := (mem_wordEnds (List.mem_of_getElem? hstop)).1
    exact absurd ((lt_coveredWords_iff hstop).2 ⟨front, hfront, hlen, hfront⟩) (Nat.lt_irrefl _)
  rcases isSharedCount_of_eq hall with ⟨⟨n, stop, -, hstop, hon⟩, -⟩ | ⟨-, hcount⟩
  · exact absurd hon (mem_wordEnds (List.mem_of_getElem? hstop)).2
  · exact hcount.trans hall

/-- The shared words are counted by the rule, unless `name` goes on with the last
    word that it begins with and `current` has more words.  In that case the last
    word is counted all the same. -/
theorem sharedLeadingWords_isSharedCount_iff (mode : TextMode) (name current : String) :
    (∀ n stop, (wordEnds mode current)[n]? = some stop →
      (n < coveredWords mode name current ↔ stop ≤ commonLength (utf8 name) (utf8 current)) ∧
      (n < coveredWords mode name current ↔
        ∃ front, front <+: current.toList ∧ (utf8Chars front).length = stop ∧
          front <+: name.toList)) ∧
    (coveredWords mode name current < (wordEnds mode current).length →
      sharedLeadingWords mode name current (wordEnds mode current) =
        coveredWords mode name current) ∧
    (IsSharedCount mode name current
        (sharedLeadingWords mode name current (wordEnds mode current)) ↔
      ¬ (LastGoesOn mode name current ∧
        coveredWords mode name current < (wordEnds mode current).length)) := by
  refine ⟨fun n stop hstop =>
    ⟨lt_length_takeWhile_iff (wordEnds_increasing mode current) hstop, lt_coveredWords_iff hstop⟩,
    sharedLeadingWords_of_lt, ?_⟩
  rcases Nat.lt_or_eq_of_le (coveredWords_le mode name current) with hlt | heq
  · rw [IsSharedCount, sharedLeadingWords_of_lt hlt]
    constructor
    · rintro (⟨-, hcount⟩ | ⟨hlast, -⟩) ⟨hon, -⟩
      · omega
      · exact hlast hon
    · exact fun hlast => .inr ⟨fun hon => hlast ⟨hon, hlt⟩, rfl⟩
  · exact iff_of_true (isSharedCount_of_eq heq) fun ⟨_, hlt⟩ => Nat.ne_of_lt hlt heq

/-- The name `food.h` goes on with the word `foo` of `foo_bar.cc`, and shares it. -/
theorem sharedLeadingWords_food :
    wordEnds .bytes "foo_bar.cc" = [3, 7] ∧
      coveredWords .bytes "food.h" "foo_bar.cc" = 1 ∧ GoesOn .bytes "food.h" 3 ∧
      sharedLeadingWords .bytes "food.h" "foo_bar.cc" [3, 7] = 1 ∧
      ¬ IsSharedCount .bytes "food.h" "foo_bar.cc" 1 := by
  have hends : wordEnds .bytes "foo_bar.cc" = [3, 7] := by decide +kernel
  have hcovered : coveredWords .bytes "food.h" "foo_bar.cc" = 1 := by decide +kernel
  have hon : GoesOn .bytes "food.h" 3 :=
    ⟨['f', 'o', 'o'], 'd', ['.', 'h'], by decide +kernel, by decide, by decide, by decide⟩
  refine ⟨hends, hcovered, hon, by decide +kernel, ?_⟩
  rw [IsSharedCount, hcovered, lastGoesOn_iff hcovered (by rw [hends]; rfl)]
  rintro (⟨-, hcount⟩ | ⟨hlast, -⟩)
  · exact absurd hcount (by decide)
  · exact hlast hon

end FuzzyPath
