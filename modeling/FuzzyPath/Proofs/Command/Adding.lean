/-
  FuzzyPath — an option is added to a command line.

  Options are about different arguments, so the words that give one may stand
  between any others, and change no more than the argument that they are about.

  * `Apart` says that no other option is about what an update changes, `Lacks`
    that an option has not been read, and `Extends` that a command line is
    another one with an option more;
  * `Moves.extends` and `Reaches.extends`: what can be read of a command line can
    be read of the one with an option more;
  * `parse_fixed`: an argument whose option is not named is as it was at first;
  * `parse_addsWords`: a command line with an option added is read as the one
    without, with its argument changed.
-/
import FuzzyPath.Proofs.Command.Words

namespace FuzzyPath

/-! ## Arguments -/

/-- No option but `option` is about what `change` changes. -/
structure Apart (option : CommandOption) (change : RankArguments → RankArguments) : Prop where
  raise : ∀ a flag, .flag flag ≠ option → (change a).raise flag = change (a.raise flag)
  set? : ∀ a setting value, .setting setting ≠ option →
    (change a).set? setting value = (a.set? setting value).map change
  query : ∀ a, (change a).query = a.query
  setQuery : ∀ a query, { change a with query } = change { a with query }

theorem apart_walk (walk : Option String) : Apart (.setting .walk) fun a => { a with walk } where
  raise a flag h := by cases flag <;> rfl
  set? a setting value h := by
    cases setting <;> simp [RankArguments.set?, Function.comp_def] at h ⊢
  query _ := rfl
  setQuery _ _ := rfl

theorem apart_colour (colour : ColourChoice) :
    Apart (.setting .colour) fun a => { a with colour } where
  raise a flag h := by cases flag <;> rfl
  set? a setting value h := by
    cases setting <;>
      simp [RankArguments.set?, Function.comp_def, apply_ite (Option.map _)] at h ⊢
  query _ := rfl
  setQuery _ _ := rfl

theorem apart_json (json : Bool) : Apart (.flag .json) fun a => { a with json } where
  raise a flag h := by cases flag <;> simp [RankArguments.raise] at h ⊢
  set? a setting value h := by
    cases setting <;> simp [RankArguments.set?, Function.comp_def, apply_ite (Option.map _)]
  query _ := rfl
  setQuery _ _ := rfl

theorem apart_debug (debug : Bool) : Apart (.flag .debug) fun a => { a with debug } where
  raise a flag h := by cases flag <;> simp [RankArguments.raise] at h ⊢
  set? a setting value h := by
    cases setting <;> simp [RankArguments.set?, Function.comp_def, apply_ite (Option.map _)]
  query _ := rfl
  setQuery _ _ := rfl

namespace CommandLine

variable {line next last : CommandLine} {part : Part} {parts later : List Part}
  {option : CommandOption} {change : RankArguments → RankArguments}

/-! ## Options that have not been read -/

/-- An option has not been read, and its value is not wanted. -/
structure Lacks (line : CommandLine) (option : CommandOption) : Prop where
  given : option ∉ line.given
  pending : ∀ setting, line.pending = some setting → .setting setting ≠ option

theorem lacks_start (command : Subcommand) (option : CommandOption) :
    (start command).Lacks option :=
  ⟨List.not_mem_nil, fun _ h => nomatch h⟩

theorem Moves.lacks (h : line.Moves part next) (hline : line.Lacks option)
    (hpart : part.option? ≠ some option) : next.Lacks option := by
  have hnew {other : CommandOption} (hne : other ≠ option) : option ∉ other :: line.given :=
    fun hmem => (List.mem_cons.1 hmem).elim (hne ·.symm) hline.given
  cases h with
  | flag hpending => exact ⟨hnew fun heq => hpart (congrArg some heq), hline.pending⟩
  | await hpending =>
    refine ⟨hline.given, fun setting hsetting heq => hpart ?_⟩
    rw [Part.option?, Option.some.inj hsetting, heq]
  | attached hpending =>
    exact ⟨hnew fun heq => hpart (congrArg some heq), fun _ hsetting => nomatch hsetting⟩
  | value hpending => exact ⟨hnew (hline.pending _ hpending), fun _ hsetting => nomatch hsetting⟩
  | plain | query => exact ⟨hline.given, hline.pending⟩

theorem not_named_cons (h : option ∉ (part :: parts).filterMap Part.option?) :
    part.option? ≠ some option ∧ option ∉ parts.filterMap Part.option? := by
  simp only [List.mem_filterMap, List.mem_cons, not_exists, not_and] at h ⊢
  exact ⟨h part (.inl rfl), fun other hother => h other (.inr hother)⟩

theorem Reaches.lacks (h : line.Reaches parts last) (hline : line.Lacks option)
    (hparts : option ∉ parts.filterMap Part.option?) : last.Lacks option := by
  induction h with
  | refl => exact hline
  | step hmove _ ih =>
    obtain ⟨hpart, hparts⟩ := not_named_cons hparts
    exact ih (hmove.lacks hline hpart) hparts

/-! ## Reading with an option more -/

/-- `longer` has all that has been read of `line`, and perhaps an option more; the
    arguments are changed by `change`. -/
structure Extends (option : CommandOption) (change : RankArguments → RankArguments)
    (line longer : CommandLine) : Prop where
  command : longer.command = line.command
  pending : longer.pending = line.pending
  arguments : longer.arguments = change line.arguments
  given : ∀ other ∈ longer.given, other = option ∨ other ∈ line.given

/-- What a part does to a command line, it does to the one with an option more, unless
    it is about that option. -/
theorem Moves.extends {longer : CommandLine} (h : line.Moves part next)
    (hchange : Apart option change) (hline : line.Lacks option)
    (hlonger : Extends option change line longer) (hpart : part.option? ≠ some option) :
    ∃ next', longer.Moves part next' ∧ Extends option change next next' := by
  have hnew {other : CommandOption} (hne : other ≠ option) (hother : other ∉ line.given) :
      other ∉ longer.given := fun hmem => (hlonger.given other hmem).elim hne hother
  have hgiven (new : CommandOption) : ∀ other ∈ new :: longer.given,
      other = option ∨ other ∈ new :: line.given := by
    intro other hmem
    rcases List.mem_cons.1 hmem with rfl | hmem
    · exact .inr List.mem_cons_self
    · exact (hlonger.given other hmem).imp_right (List.mem_cons_of_mem new)
  have hset {setting : Setting} {value : String} {arguments : RankArguments}
      (hne : .setting setting ≠ option)
      (hvalue : line.arguments.set? setting value = some arguments) :
      longer.arguments.set? setting value = some (change arguments) := by
    rw [hlonger.arguments, hchange.set? _ _ _ hne, hvalue]
    rfl
  have hfree (hquery : line.arguments.query = none) : longer.arguments.query = none := by
    rw [hlonger.arguments, hchange.query, hquery]
  have hquery (word : String) : { longer.arguments with query := some word } =
      change { line.arguments with query := some word } := by
    rw [hlonger.arguments]
    exact hchange.setQuery _ _
  cases h with
  | flag hpending hhelp hversion hflag =>
    have hne : .flag _ ≠ option := fun heq => hpart (congrArg some heq)
    refine ⟨_, .flag (hlonger.pending.trans hpending) hhelp hversion (hnew hne hflag),
      hlonger.command, hlonger.pending, ?_, hgiven _⟩
    rw [hlonger.arguments]
    exact hchange.raise _ _ hne
  | await hpending =>
    exact ⟨_, .await (hlonger.pending.trans hpending), hlonger.command, rfl, hlonger.arguments,
      hlonger.given⟩
  | attached hpending hsetting hvalue =>
    have hne : .setting _ ≠ option := fun heq => hpart (congrArg some heq)
    exact ⟨_, .attached (hlonger.pending.trans hpending) (hnew hne hsetting) (hset hne hvalue),
      hlonger.command, rfl, rfl, hgiven _⟩
  | value hpending hsetting hvalue =>
    have hne := hline.pending _ hpending
    exact ⟨_, .value (hlonger.pending.trans hpending) (hnew hne hsetting) (hset hne hvalue),
      hlonger.command, rfl, rfl, hgiven _⟩
  | plain hpending hcommand hnone =>
    exact ⟨_, .plain (hlonger.pending.trans hpending) (hlonger.command.trans hcommand)
      (hfree hnone), hlonger.command, hlonger.pending, hquery _, hlonger.given⟩
  | query hpending hcommand hnone =>
    exact ⟨_, .query (hlonger.pending.trans hpending) (hlonger.command.trans hcommand)
      (hfree hnone), hlonger.command, hlonger.pending, hquery _, hlonger.given⟩

theorem Reaches.extends {longer : CommandLine} (h : line.Reaches parts last)
    (hchange : Apart option change) (hline : line.Lacks option)
    (hlonger : Extends option change line longer) (hparts : option ∉ parts.filterMap Part.option?) :
    ∃ last', longer.Reaches parts last' ∧ Extends option change last last' := by
  induction h generalizing longer with
  | refl => exact ⟨longer, .refl, hlonger⟩
  | step hmove _ ih =>
    obtain ⟨hpart, hparts⟩ := not_named_cons hparts
    obtain ⟨mid', hmove', hmid⟩ := hmove.extends hchange hline hlonger hpart
    obtain ⟨last', hreaches, hlast⟩ := ih (hmove.lacks hline hpart) hmid hparts
    exact ⟨last', .step hmove' hreaches, hlast⟩

/-! ## Runs -/

theorem Reaches.unique {other : CommandLine} (h : line.Reaches parts last)
    (h' : line.Reaches parts other) : last = other := by
  have heq := (readParts_next_iff.2 h).symm.trans (readParts_next_iff.2 h')
  cases heq
  rfl

theorem Reaches.append {mid : CommandLine} (h : line.Reaches parts mid)
    (h' : mid.Reaches later last) : line.Reaches (parts ++ later) last := by
  induction h with
  | refl => exact h'
  | step hmove _ ih => exact .step hmove (ih h')

theorem Reaches.split (h : line.Reaches (parts ++ later) last) :
    ∃ mid, line.Reaches parts mid ∧ mid.Reaches later last := by
  induction parts generalizing line with
  | nil => exact ⟨line, .refl, h⟩
  | cons part parts ih =>
    cases h with
    | step hmove hrest =>
      obtain ⟨mid, hmid, hlast⟩ := ih hrest
      exact ⟨mid, .step hmove hmid, hlast⟩

end CommandLine

section
variable {option : CommandOption} {change : RankArguments → RankArguments}
  {words longer extra : List String} {a : RankArguments}

/-- Where an option is not named, what it is about is as it was at first. -/
theorem parse_fixed (hchange : Apart option change) (hstart : change .standard = .standard)
    (h : Invocation.parse words = .ok (.rank a)) (hname : option ∉ namedOptions words) :
    change a = a := by
  obtain ⟨-, last, hreaches, -, rfl⟩ := parse_eq_rank_iff.1 h
  have hsame : CommandLine.Extends option change (.start .rank) (.start .rank) :=
    ⟨rfl, rfl, hstart.symm, fun _ hmem => .inr hmem⟩
  obtain ⟨last', hreaches', hlast⟩ :=
    hreaches.extends hchange (CommandLine.lacks_start .rank option) hsame hname
  rw [hreaches'.unique hreaches] at hlast
  exact hlast.arguments.symm

/-! ## Adding words -/

/-- `longer` are the words `words` with the words `extra` added: before any `--`, and
    after words that are a command line by themselves. -/
def AddsWords (extra words longer : List String) : Prop :=
  ∃ before after first, words = before ++ after ∧ longer = before ++ extra ++ after ∧
    "--" ∉ before ∧ Invocation.parse before = .ok (.rank first)

/-- The words give an option and nothing else, which changes arguments by `change`. -/
structure Gives (extra : List String) (option : CommandOption)
    (change : RankArguments → RankArguments) : Prop where
  nonempty : extra ≠ []
  head : ∀ name ∈ subcommandNames, extra.head? ≠ some name
  dashes : "--" ∉ extra
  reaches : ∀ line : CommandLine, line.pending = none → option ∉ line.given →
    ∃ next, line.Reaches (lineParts .rank extra) next ∧ CommandLine.Extends option change line next

/-- With the words for an option added, a command line is read as it was, but for the
    change that the option makes. -/
theorem parse_addsWords (hchange : Apart option change) (hextra : Gives extra option change)
    (hadds : AddsWords extra words longer) (hname : option ∉ namedOptions words)
    (h : Invocation.parse words = .ok (.rank a)) :
    Invocation.parse longer = .ok (.rank (change a)) := by
  obtain ⟨before, after, first, rfl, rfl, hdashes, hfirst⟩ := hadds
  obtain ⟨hhead, last, hreaches, hpending, rfl⟩ := parse_eq_rank_iff.1 h
  obtain ⟨-, mid, hbefore, hmid, -⟩ := parse_eq_rank_iff.1 hfirst
  rw [namedOptions, lineParts_append hdashes, List.filterMap_append, List.mem_append,
    not_or] at hname
  rw [lineParts_append hdashes] at hreaches
  obtain ⟨mid', hmid', hafter⟩ := hreaches.split
  obtain rfl := hbefore.unique hmid'
  have hlacks := hbefore.lacks (CommandLine.lacks_start .rank option) hname.1
  obtain ⟨next, hnext, hextends⟩ := hextra.reaches mid hmid hlacks.given
  obtain ⟨last', hlast, hsame⟩ := hafter.extends hchange hlacks hextends hname.2
  refine parse_eq_rank_iff.2 ⟨fun name hmem => ?_, last', ?_, hsame.pending.trans hpending,
    hsame.arguments⟩
  · cases before with
    | nil =>
      obtain ⟨word, extra, rfl⟩ := List.exists_cons_of_ne_nil hextra.nonempty
      exact hextra.head name hmem
    | cons word before => exact hhead name hmem
  · rw [List.append_assoc, lineParts_append hdashes, lineParts_append hextra.dashes]
    exact hbefore.append (hnext.append hlast)

theorem gives_json : Gives ["--json"] (.flag .json) fun a => { a with json := true } where
  nonempty := by decide
  head := by decide
  dashes := by decide
  reaches line hpending hgiven := by
    have hparts : lineParts .rank ["--json"] = [.flag .json] := by decide
    rw [hparts]
    refine ⟨_, .step (.flag hpending (by decide) (by decide) hgiven) .refl, rfl, rfl, rfl, ?_⟩
    exact fun other hmem => List.mem_cons.1 hmem

theorem gives_never :
    Gives ["--color", "never"] (.setting .colour) fun a => { a with colour := .never } where
  nonempty := by decide
  head := by decide
  dashes := by decide
  reaches line hpending hgiven := by
    have hparts : lineParts .rank ["--color", "never"] = [.await .colour, .plain "never"] := by
      decide
    rw [hparts]
    refine ⟨_, .step (.await hpending) (.step (.value rfl hgiven rfl) .refl), rfl, hpending.symm,
      rfl, ?_⟩
    exact fun other hmem => List.mem_cons.1 hmem

end

end FuzzyPath
