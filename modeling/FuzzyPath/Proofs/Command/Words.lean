/-
  FuzzyPath — a command line is read part by part.

  What a word says does not depend on the words before it; only what it is taken
  for does.  So a command line is cut into parts first, and the parts are read
  one after the other.

  * `lineParts` are the parts of a command line, `namedOptions` the options
    among them;
  * `Moves` is what reading a part can do to a command line, and `Reaches` what
    reading several parts can; `readPart_next_iff` and `readParts_next_iff`: the
    reader does just that;
  * `readWords_eq`: reading words is reading their parts;
  * `parse_eq_rank_iff`: the command lines that rank, with their arguments.
-/
import FuzzyPath.Command.Arguments
import FuzzyPath.Proofs.Fallible

namespace FuzzyPath

/-! ## Parts -/

/-- What a part of a command line says. -/
inductive Part where
  | flag (flag : Flag)
  /-- A setting whose value is the next word. -/
  | await (setting : Setting)
  | attached (setting : Setting) (value : String)
  /-- A word that is no option. -/
  | plain (word : String)
  /-- A word that is no option because `--` stands before it. -/
  | query (word : String)
  | wrong (err : UsageError)
  deriving DecidableEq

/-- The option that a part names. -/
def Part.option? : Part → Option CommandOption
  | .flag f => some (.flag f)
  | .await setting | .attached setting _ => some (.setting setting)
  | .plain _ | .query _ | .wrong _ => none

/-- The part that a long option is. -/
def longPart (command : Subcommand) (word name : String) (value : Option String) : Part :=
  match (CommandOption.ofLong? name).filter (·.belongsTo command), value with
  | some (.flag flag), none => .flag flag
  | some (.flag flag), some _ => .wrong (.unexpectedValue flag)
  | some (.setting setting), none => .await setting
  | some (.setting setting), some value => .attached setting value
  | none, _ => .wrong (.unknownOption word)

/-- The part that a setting and the letters after it are. -/
def settingPart (setting : Setting) : List Char → Part
  | [] => .await setting
  | '=' :: value => .attached setting (String.ofList value)
  | value => .attached setting (String.ofList value)

/-- The parts of short options that stand together. -/
def letterParts (command : Subcommand) (word : String) : List Char → List Part
  | [] => []
  | c :: rest =>
    match (CommandOption.ofShort? c).filter (·.belongsTo command) with
    | some (.flag flag) => .flag flag :: letterParts command word rest
    | some (.setting setting) => [settingPart setting rest]
    | none => [.wrong (.unknownOption word)]

/-- The parts of a word other than `--`. -/
def wordParts (command : Subcommand) (word : String) : List Part :=
  match word.toList with
  | '-' :: '-' :: text =>
    [longPart command word (CommandLine.splitLong text).1 (CommandLine.splitLong text).2]
  | '-' :: c :: rest => letterParts command word (c :: rest)
  | _ => [.plain word]

/-- The parts of the words of a command line. -/
def lineParts (command : Subcommand) : List String → List Part
  | [] => []
  | word :: words =>
    if word = "--" then words.map .query
    else wordParts command word ++ lineParts command words

example : lineParts .rank ["-in", "5", "--mode=tail", "--", "-i"] =
    [.flag .ignoreCase, .await .limit, .plain "5", .attached .mode "tail", .query "-i"] := by
  decide

/-- The options that the words of a ranking command name. -/
def namedOptions (words : List String) : List CommandOption :=
  (lineParts .rank words).filterMap Part.option?

theorem letterParts_ne_nil (command : Subcommand) (word : String) (c : Char) (rest : List Char) :
    letterParts command word (c :: rest) ≠ [] := by
  rw [letterParts]
  split <;> exact List.cons_ne_nil _ _

theorem wordParts_ne_nil (command : Subcommand) (word : String) : wordParts command word ≠ [] := by
  rw [wordParts]
  split
  · exact List.cons_ne_nil _ _
  · exact letterParts_ne_nil _ _ _ _
  · exact List.cons_ne_nil _ _

theorem lineParts_append {command : Subcommand} {before : List String} (h : "--" ∉ before)
    (after : List String) :
    lineParts command (before ++ after) = lineParts command before ++ lineParts command after := by
  induction before with
  | nil => rfl
  | cons word before ih =>
    rw [List.mem_cons, not_or] at h
    rw [List.cons_append, lineParts, lineParts, if_neg (Ne.symm h.1), if_neg (Ne.symm h.1), ih h.2,
      List.append_assoc]

namespace CommandLine

/-! ## Reading parts -/

/-- Reads a part. -/
def readPart (line : CommandLine) : Part → Except UsageError Step
  | .flag flag => line.readFlag flag
  | .await setting => line.awaitValue setting
  | .attached setting value => line.readAttached setting value
  | .plain word => line.readPlain word
  | .query word => (line.giveQuery word).map .next
  | .wrong err => .error err

/-- Reads parts, up to one that ends the command line. -/
def readParts (line : CommandLine) : List Part → Except UsageError Step
  | [] => .ok (.next line)
  | part :: parts =>
    match line.readPart part with
    | .error err => .error err
    | .ok (.stop invocation) => .ok (.stop invocation)
    | .ok (.next line) => readParts line parts

/-- What a part can do to a command line that is read on. -/
inductive Moves (line : CommandLine) : Part → CommandLine → Prop
  | flag {flag : Flag} : line.pending = none → flag ≠ .help → flag ≠ .version →
      .flag flag ∉ line.given →
      Moves line (.flag flag)
        { line with given := .flag flag :: line.given, arguments := line.arguments.raise flag }
  | await {setting : Setting} : line.pending = none →
      Moves line (.await setting) { line with pending := some setting }
  | attached {setting : Setting} {value : String} {arguments : RankArguments} :
      line.pending = none → .setting setting ∉ line.given →
      line.arguments.set? setting value = some arguments →
      Moves line (.attached setting value)
        { line with given := .setting setting :: line.given, arguments, pending := none }
  | value {setting : Setting} {word : String} {arguments : RankArguments} :
      line.pending = some setting → .setting setting ∉ line.given →
      line.arguments.set? setting word = some arguments →
      Moves line (.plain word)
        { line with given := .setting setting :: line.given, arguments, pending := none }
  | plain {word : String} : line.pending = none → line.command = .rank →
      line.arguments.query = none →
      Moves line (.plain word) { line with arguments := { line.arguments with query := some word } }
  | query {word : String} : line.pending = none → line.command = .rank →
      line.arguments.query = none →
      Moves line (.query word) { line with arguments := { line.arguments with query := some word } }

variable {line next : CommandLine} {part : Part} {parts : List Part}

theorem giveValue_ok_iff {setting : Setting} {value : String} :
    line.giveValue setting value = .ok next ↔
      .setting setting ∉ line.given ∧
      ∃ arguments, line.arguments.set? setting value = some arguments ∧
        { line with given := .setting setting :: line.given, arguments, pending := none } =
          next := by
  rw [giveValue, give]
  split
  · simp_all [bind, Except.bind]
  · cases hset : line.arguments.set? setting value <;>
      simp_all [bind, Except.bind, pure, Except.pure]

theorem giveFlag_ok_iff {flag : Flag} : line.giveFlag flag = .ok next ↔
    .flag flag ∉ line.given ∧
      { line with given := .flag flag :: line.given, arguments := line.arguments.raise flag } =
        next := by
  rw [giveFlag, give]
  split <;> simp_all [bind, Except.bind, pure, Except.pure]

theorem giveQuery_ok_iff {word : String} : line.giveQuery word = .ok next ↔
    line.pending = none ∧ line.command = .rank ∧ line.arguments.query = none ∧
      { line with arguments := { line.arguments with query := some word } } = next := by
  rw [giveQuery, checkPending]
  cases hpending : line.pending with
  | some setting => simp [bind, Except.bind]
  | none =>
    by_cases h : line.command = .rank ∧ line.arguments.query = none
    · simp [h, bind, Except.bind, pure, Except.pure]
    · refine iff_of_false ?_ fun hnext => h ⟨hnext.2.1, hnext.2.2.1⟩
      simp [h, bind, Except.bind]

theorem checkPending_bind_ok_iff {α : Type} {f : Unit → Except UsageError α} {a : α} :
    (line.checkPending >>= f) = .ok a ↔ line.pending = none ∧ f () = .ok a := by
  rw [checkPending]
  cases line.pending <;> simp [bind, Except.bind]

/-- A flag is read on unless it ends the command line. -/
theorem readFlag_next_iff {flag : Flag} : line.readFlag flag = .ok (.next next) ↔
    line.pending = none ∧ flag ≠ .help ∧ flag ≠ .version ∧ line.giveFlag flag = .ok next := by
  rw [readFlag.eq_def, checkPending_bind_ok_iff]
  refine and_congr_right fun _ => ?_
  split
  · simp [pure, Except.pure]
  · simp [pure, Except.pure]
  · rename_i hhelp hversion
    rw [and_iff_right hhelp, and_iff_right hversion]
    cases line.giveFlag flag <;> simp [bind, Except.bind, pure, Except.pure]

theorem awaitValue_next_iff {setting : Setting} : line.awaitValue setting = .ok (.next next) ↔
    line.pending = none ∧ { line with pending := some setting } = next := by
  rw [awaitValue, checkPending_bind_ok_iff]
  simp [pure, Except.pure]

theorem readAttached_next_iff {setting : Setting} {value : String} :
    line.readAttached setting value = .ok (.next next) ↔
      line.pending = none ∧ line.giveValue setting value = .ok next := by
  rw [readAttached, checkPending_bind_ok_iff]
  cases line.giveValue setting value <;> simp [bind, Except.bind, pure, Except.pure]

theorem map_next_iff {r : Except UsageError CommandLine} :
    r.map Step.next = .ok (.next next) ↔ r = .ok next := by
  cases r <;> simp [Except.map]

/-- Reading a part does what the part can do. -/
theorem readPart_next_iff : line.readPart part = .ok (.next next) ↔ line.Moves part next := by
  constructor
  · intro h
    cases part with
    | flag f =>
      obtain ⟨hpending, hhelp, hversion, hgive⟩ := readFlag_next_iff.1 h
      obtain ⟨hnew, rfl⟩ := giveFlag_ok_iff.1 hgive
      exact .flag hpending hhelp hversion hnew
    | await setting =>
      obtain ⟨hpending, rfl⟩ := awaitValue_next_iff.1 h
      exact .await hpending
    | attached setting value =>
      obtain ⟨hpending, hgive⟩ := readAttached_next_iff.1 h
      obtain ⟨hnew, arguments, hset, rfl⟩ := giveValue_ok_iff.1 hgive
      exact .attached hpending hnew hset
    | plain word =>
      rw [readPart, readPlain] at h
      split at h
      · rename_i setting hpending
        obtain ⟨hnew, arguments, hset, rfl⟩ := giveValue_ok_iff.1 (map_next_iff.1 h)
        exact .value hpending hnew hset
      · obtain ⟨hpending, hrank, hquery, rfl⟩ := giveQuery_ok_iff.1 (map_next_iff.1 h)
        exact .plain hpending hrank hquery
    | query word =>
      obtain ⟨hpending, hrank, hquery, rfl⟩ := giveQuery_ok_iff.1 (map_next_iff.1 h)
      exact .query hpending hrank hquery
    | wrong err => cases h
  · intro h
    cases h with
    | flag hpending hhelp hversion hnew =>
      exact readFlag_next_iff.2 ⟨hpending, hhelp, hversion, giveFlag_ok_iff.2 ⟨hnew, rfl⟩⟩
    | await hpending => exact awaitValue_next_iff.2 ⟨hpending, rfl⟩
    | attached hpending hnew hset =>
      exact readAttached_next_iff.2 ⟨hpending, giveValue_ok_iff.2 ⟨hnew, _, hset, rfl⟩⟩
    | value hpending hnew hset =>
      rw [readPart, readPlain, hpending]
      exact map_next_iff.2 (giveValue_ok_iff.2 ⟨hnew, _, hset, rfl⟩)
    | @plain word hpending hrank hquery =>
      have hread : line.readPlain word = (line.giveQuery word).map .next := by
        rw [readPlain, hpending]
      exact hread.trans (map_next_iff.2 (giveQuery_ok_iff.2 ⟨hpending, hrank, hquery, rfl⟩))
    | query hpending hrank hquery =>
      exact map_next_iff.2 (giveQuery_ok_iff.2 ⟨hpending, hrank, hquery, rfl⟩)

/-- Only help and the version end a command line before its end. -/
theorem readPart_stop {invocation : Invocation} (h : line.readPart part = .ok (.stop invocation)) :
    invocation = .help ∨ invocation = .version := by
  cases part with
  | flag f =>
    rw [readPart, readFlag.eq_def] at h
    obtain ⟨-, h⟩ := checkPending_bind_ok_iff.1 h
    cases f with
    | help => exact .inl (by cases h; rfl)
    | version => exact .inr (by cases h; rfl)
    | _ => cases (bind_eq_ok h).choose_spec.2
  | await setting => cases (checkPending_bind_ok_iff.1 h).2
  | attached setting value =>
    cases (bind_eq_ok (checkPending_bind_ok_iff.1 h).2).choose_spec.2
  | plain word =>
    rw [readPart, readPlain] at h
    split at h <;> cases (map_eq_ok h).choose_spec.2
  | query word => cases (map_eq_ok h).choose_spec.2
  | wrong err => cases h

/-! ## Reading several parts -/

/-- What parts can do to a command line that is read on. -/
inductive Reaches : CommandLine → List Part → CommandLine → Prop
  | refl {line : CommandLine} : Reaches line [] line
  | step {line mid last : CommandLine} {part : Part} {parts : List Part} :
      line.Moves part mid → Reaches mid parts last → Reaches line (part :: parts) last

theorem readParts_next_iff {last : CommandLine} :
    line.readParts parts = .ok (.next last) ↔ line.Reaches parts last := by
  induction parts generalizing line with
  | nil =>
    constructor
    · intro h
      cases h
      exact .refl
    · intro h
      cases h
      rfl
  | cons part parts ih =>
    constructor
    · intro h
      rw [readParts] at h
      split at h
      · cases h
      · cases h
      · rename_i mid hmid
        exact .step (readPart_next_iff.1 hmid) (ih.1 h)
    · intro h
      cases h with
      | step hmove hreaches =>
        rw [readParts, readPart_next_iff.2 hmove]
        exact ih.2 hreaches

theorem readParts_stop {invocation : Invocation}
    (h : line.readParts parts = .ok (.stop invocation)) :
    invocation = .help ∨ invocation = .version := by
  induction parts generalizing line with
  | nil => cases h
  | cons part parts ih =>
    rw [readParts] at h
    split at h
    · cases h
    · rename_i other hother
      cases h
      exact readPart_stop hother
    · exact ih h

theorem readParts_singleton (line : CommandLine) (part : Part) :
    line.readParts [part] = line.readPart part := by
  rw [readParts]
  rcases line.readPart part with _ | _ | _ <;> rfl

theorem readParts_append (line : CommandLine) (parts later : List Part) :
    line.readParts (parts ++ later) =
      match line.readParts parts with
      | .error err => .error err
      | .ok (.stop invocation) => .ok (.stop invocation)
      | .ok (.next mid) => mid.readParts later := by
  induction parts generalizing line with
  | nil => rfl
  | cons part parts ih =>
    rw [List.cons_append, readParts, readParts]
    split
    · rfl
    · rfl
    · rename_i mid _
      exact ih mid

theorem Moves.command (h : line.Moves part next) : next.command = line.command := by
  cases h <;> rfl

theorem Reaches.command {last : CommandLine} (h : line.Reaches parts last) :
    last.command = line.command := by
  induction h with
  | refl => rfl
  | step hmove _ ih => exact ih.trans hmove.command

/-- Reading parts, something is read. -/
theorem Moves.not_isFresh (h : line.Moves part next) : next.isFresh = false := by
  cases h <;> simp [isFresh]

theorem Reaches.not_isFresh {last : CommandLine} (h : line.Reaches parts last)
    (hstart : line.isFresh = false ∨ parts ≠ []) : last.isFresh = false := by
  induction h with
  | refl => simpa using hstart
  | step hmove _ ih => exact ih (.inl hmove.not_isFresh)

/-! ## Reading words -/

theorem readShort_eq (word : String) (cs : List Char) (line : CommandLine) :
    line.readShort word cs = line.readParts (letterParts line.command word cs) := by
  induction cs generalizing line with
  | nil => rfl
  | cons c rest ih =>
    rw [letterParts, readShort.eq_def]
    simp only [option?]
    cases hoption : (CommandOption.ofShort? c).filter (·.belongsTo line.command) with
    | none => rfl
    | some option =>
      cases option with
      | flag f =>
        simp only [readParts, readPart]
        cases hread : line.readFlag f with
        | error err => rfl
        | ok step =>
          cases step with
          | stop invocation => rfl
          | next next =>
            have hmoves : line.Moves (.flag f) next := readPart_next_iff.1 hread
            rw [← hmoves.command]
            exact ih next
      | setting setting =>
        rw [readParts_singleton]
        cases rest with
        | nil => rfl
        | cons d value =>
          by_cases hd : d = '='
          · subst hd
            rfl
          · simp [settingPart, hd, readPart]

theorem readLong_eq (line : CommandLine) (word name : String) (value : Option String) :
    line.readLong word name value = line.readPart (longPart line.command word name value) := by
  rw [readLong.eq_def, longPart.eq_def]
  simp only [option?]
  generalize (CommandOption.ofLong? name).filter (·.belongsTo line.command) = option
  rcases option with _ | f | setting
  · rfl
  · cases value <;> rfl
  · cases value <;> rfl

theorem readWord_eq (line : CommandLine) (word : String) :
    line.readWord word = line.readParts (wordParts line.command word) := by
  rw [readWord]
  split
  · rename_i htext
    rw [wordParts, htext, readLong_eq, ← readParts_singleton]
    rfl
  · rename_i c rest hlong htext
    have hparts : wordParts line.command word = letterParts line.command word (c :: rest) := by
      rw [wordParts, htext]
      split
      · rename_i heq
        cases heq
        exact (hlong rfl).elim
      · rename_i heq
        cases heq
        rfl
      · rename_i hshort
        exact (hshort c rest rfl).elim
    rw [hparts, readShort_eq]
  · rename_i hlong hshort
    have hparts : wordParts line.command word = [.plain word] := by
      rw [wordParts]
      split
      · exact (hlong _ ‹_›).elim
      · exact (hshort _ _ ‹_›).elim
      · rfl
    rw [hparts, readParts_singleton]
    rfl

/-- What a command line asks for when all that was wanted of it has been read. -/
def Step.conclude : Step → Except UsageError Invocation
  | .next line => line.finish
  | .stop invocation => .ok invocation

theorem readQueries_eq (line : CommandLine) (words : List String) :
    line.readQueries words = (line.readParts (words.map .query)).bind Step.conclude := by
  induction words generalizing line with
  | nil => rfl
  | cons word words ih =>
    rw [readQueries, List.map_cons, readParts, readPart]
    cases line.giveQuery word with
    | error err => rfl
    | ok next => exact ih next

end CommandLine

/-- The names of the subcommands. -/
def subcommandNames : List String := ["serve", "config", "help"]

namespace CommandLine

variable {line : CommandLine} {words : List String}

/-- Reading words is reading their parts, unless the first word names a subcommand. -/
theorem readWords_eq
    (h : line.isFresh = false ∨ ∀ name ∈ subcommandNames, words.head? ≠ some name) :
    line.readWords words =
      (line.readParts (lineParts line.command words)).bind Step.conclude := by
  induction words generalizing line with
  | nil => rfl
  | cons word words ih =>
    have hname : ∀ name ∈ subcommandNames, ¬ (line.isFresh = true ∧ word = name) := by
      rintro name hmem ⟨hfresh, rfl⟩
      rcases h with h | h
      · rw [h] at hfresh
        cases hfresh
      · exact h word hmem rfl
    rw [readWords, lineParts, if_neg (hname "serve" (by decide)),
      if_neg (hname "config" (by decide)), if_neg (hname "help" (by decide))]
    by_cases hdashes : word = "--"
    · rw [if_pos hdashes, if_pos hdashes, readQueries_eq]
    rw [if_neg hdashes, if_neg hdashes, readParts_append, readWord_eq]
    cases hread : line.readParts (wordParts line.command word) with
    | error err => rfl
    | ok step =>
      cases step with
      | stop invocation => rfl
      | next next =>
        have hreaches := readParts_next_iff.1 hread
        have hfresh := hreaches.not_isFresh (.inr (wordParts_ne_nil line.command word))
        rw [← hreaches.command]
        exact ih (.inl hfresh)

theorem finish_eq_rank_iff {a : RankArguments} : line.finish = .ok (.rank a) ↔
    line.command = .rank ∧ line.pending = none ∧ line.arguments = a := by
  rw [finish, checkPending_bind_ok_iff, and_left_comm]
  refine and_congr_right fun _ => ?_
  cases line.command <;> simp [pure, Except.pure]

theorem conclude_eq_rank_iff {parts : List Part} {a : RankArguments} :
    (line.readParts parts).bind Step.conclude = .ok (.rank a) ↔
      line.command = .rank ∧
      ∃ last, line.Reaches parts last ∧ last.pending = none ∧ last.arguments = a := by
  constructor
  · intro h
    obtain ⟨step, hread, hstep⟩ := bind_eq_ok h
    cases step with
    | stop invocation =>
      cases hstep
      rcases readParts_stop hread with hstop | hstop <;> cases hstop
    | next last =>
      have hreaches := readParts_next_iff.1 hread
      obtain ⟨hcommand, hpending, harguments⟩ := finish_eq_rank_iff.1 hstep
      exact ⟨hreaches.command.symm.trans hcommand, last, hreaches, hpending, harguments⟩
  · rintro ⟨hcommand, last, hreaches, hpending, harguments⟩
    rw [readParts_next_iff.2 hreaches]
    exact finish_eq_rank_iff.2 ⟨hreaches.command.trans hcommand, hpending, harguments⟩

theorem readHelp_ne_rank (words : List String) (a : RankArguments) :
    readHelp words ≠ .ok (.rank a) := by
  rw [readHelp.eq_def]
  split
  · exact fun h => nomatch h
  · split <;> exact fun h => nomatch h
  · exact fun h => nomatch h

/-- The words of another command ask for no ranking. -/
theorem readWords_ne_rank {words : List String} (h : line.command ≠ .rank) (a : RankArguments) :
    line.readWords words ≠ .ok (.rank a) := by
  have hfresh : line.isFresh = false := by simp [isFresh, h]
  rw [readWords_eq (.inl hfresh)]
  exact fun hrank => h (conclude_eq_rank_iff.1 hrank).1

end CommandLine

/-- A command line ranks if its first word names no subcommand, all its parts can be
    read and no value is wanted in the end. -/
theorem parse_eq_rank_iff {words : List String} {a : RankArguments} :
    Invocation.parse words = .ok (.rank a) ↔
      (∀ name ∈ subcommandNames, words.head? ≠ some name) ∧
      ∃ last, (CommandLine.start .rank).Reaches (lineParts .rank words) last ∧
        last.pending = none ∧ last.arguments = a := by
  by_cases hname : ∀ name ∈ subcommandNames, words.head? ≠ some name
  · rw [and_iff_right hname, Invocation.parse, CommandLine.readWords_eq (.inr hname)]
    exact CommandLine.conclude_eq_rank_iff.trans (and_iff_right rfl)
  · refine iff_of_false (fun h => ?_) fun h => hname h.1
    obtain ⟨name, hmem, hhead⟩ : ∃ name ∈ subcommandNames, words.head? = some name := by
      simpa using hname
    obtain ⟨rest, rfl⟩ := List.head?_eq_some_iff.1 hhead
    simp only [subcommandNames, List.mem_cons, List.not_mem_nil, or_false] at hmem
    rcases hmem with rfl | rfl | rfl
    · have hserve : (CommandLine.start .serve).command ≠ .rank := by decide
      exact CommandLine.readWords_ne_rank hserve a h
    · have hconfig : (CommandLine.start .config).command ≠ .rank := by decide
      exact CommandLine.readWords_ne_rank hconfig a h
    · exact CommandLine.readHelp_ne_rank rest a h

end FuzzyPath
