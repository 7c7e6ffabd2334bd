import RequestBook.CommandLine
import RequestBook.Proofs.Scanning

/-!
# Leaving the name out

The name of the first command may be left out, and is then put in before the
first argument without a dash. That is the document only as far as what
stands before it belongs to the program as a whole. So with the arguments of
a run that is accepted, leaving out its name makes no difference when nothing
but the switches that all commands share stands before the document, and in
every other case the arguments are refused.

Both directions read the arguments before the first without a dash twice, as
the program does and as the command does. The two agree on the shared
switches. The first argument that is none of them ends the reading of the
program: what it could still take for a switch of its own, a question or a
switch given twice, is refused after the name as well.
-/

namespace RequestBook

namespace Command

/-! ## What may stand before a name -/

/-- The arguments that mark the switches of all commands. -/
def globals : List Text := ["--no-color".toList, "--verbose".toList, "-v".toList]

/-- The arguments before the first that has no dash. -/
def leading (arguments : List Text) : List Text :=
  arguments.takeWhile fun argument => argument.head? = some '-'

theorem withName_append {dashed rest : List Text}
    (h : ∀ argument ∈ dashed, argument.head? = some '-') :
    withName (dashed ++ rest) = dashed ++ withName rest := by
  induction dashed with
  | nil => rfl
  | cons argument dashed ih =>
      rw [List.cons_append, withName, if_pos (h argument List.mem_cons_self),
        ih fun other hother => h other (List.mem_cons_of_mem _ hother), List.cons_append]

/-- Arguments are those before the first without a dash, and what is left
begins with that. -/
theorem exists_leading_append (arguments : List Text) : ∃ rest,
    arguments = leading arguments ++ rest ∧
      (∀ argument ∈ leading arguments, argument.head? = some '-') ∧
      ∀ argument ∈ rest.head?, argument.head? ≠ some '-' := by
  refine ⟨arguments.dropWhile fun argument => argument.head? = some '-',
    List.takeWhile_append_dropWhile.symm, fun argument h => ?_, fun argument h => ?_⟩
  · simpa using List.all_eq_true.mp List.all_takeWhile argument h
  · have := List.head?_dropWhile_not (fun argument : Text => decide (argument.head? = some '-'))
      arguments
    rw [Option.mem_def.mp h] at this
    simpa using this

/-- The program and the command read a shared switch alike. -/
theorem scanFrom_global {argument : Text} (h : argument ∈ globals) :
    ∃ switch ∈ [noColor, verbose], ∀ usage ∈ [programUsage, runUsage],
      ∀ (slots : List Slot) (rest : List Text), usage.scanFrom none slots (argument :: rest) =
        (usage.scanFrom none slots rest).after [.mark switch] := by
  have both {p : Usage → Prop} (hprogram : p programUsage) (hrun : p runUsage) :
      ∀ usage ∈ [programUsage, runUsage], p usage :=
    List.forall_mem_cons.mpr ⟨hprogram, List.forall_mem_singleton.mpr hrun⟩
  simp only [globals, List.mem_cons, List.not_mem_nil, or_false] at h
  obtain rfl | rfl | rfl := h
  · exact ⟨noColor, by simp, both (fun _ _ => rfl) fun _ _ => rfl⟩
  · exact ⟨verbose, by simp, both (fun _ _ => rfl) fun _ _ => rfl⟩
  · exact ⟨verbose, by simp, both (fun _ _ => rfl) fun _ _ => rfl⟩

theorem scanFrom_globals {shared : List Text} (h : ∀ argument ∈ shared, argument ∈ globals) :
    ∃ said, (∀ m ∈ said, ∃ switch ∈ [noColor, verbose], m = .mark switch) ∧
      ∀ usage ∈ [programUsage, runUsage], ∀ (slots : List Slot) (rest : List Text),
        usage.scanFrom none slots (shared ++ rest) =
          (usage.scanFrom none slots rest).after said := by
  induction shared with
  | nil => exact ⟨[], by simp, fun _ _ _ _ => rfl⟩
  | cons argument shared ih =>
      obtain ⟨switch, hswitch, hfirst⟩ := scanFrom_global (h argument List.mem_cons_self)
      obtain ⟨said, hsaid, hothers⟩ := ih fun other hother => h other (List.mem_cons_of_mem _ hother)
      refine ⟨.mark switch :: said, fun m hm => ?_, fun usage husage slots rest => ?_⟩
      · rcases List.mem_cons.mp hm with rfl | hm
        · exact ⟨switch, hswitch, rfl⟩
        · exact hsaid m hm
      · rw [List.cons_append, hfirst usage husage, hothers usage husage]
        rfl

/-! ## The name put in -/

theorem readGiven_eq_ok_iff {usage : Usage} {arguments : List Text}
    {given : Given × Option (Text × List Text)} :
    readGiven usage arguments = .ok given ↔ usage.read arguments = .ok given := by
  rw [readGiven]
  split <;> simp_all

/-- A run is asked for when the program and the command both accept their
arguments. -/
theorem readNamed_run_iff {arguments rest : List Text} {program : Given} {invocation : Invocation}
    (h : programUsage.read arguments = .ok (program, some ("run".toList, rest))) :
    readNamed arguments = .ok invocation ↔ ∃ given subcommand,
      runUsage.read rest = .ok (given, subcommand) ∧ invocation =
        { command := .run (runOptions given)
          plain := program.has noColor.name || given.has noColor.name } := by
  have hprogram := readGiven_eq_ok_iff.mpr h
  have hnames : "run".toList ≠ "help".toList ∧ "run".toList ≠ "test".toList := by decide
  rw [readNamed, hprogram]
  simp only [bind, Except.bind, if_neg hnames.1, hnames.2, if_false,
    ← readGiven_eq_ok_iff]
  cases readGiven runUsage rest with
  | error refusal => simp
  | ok given =>
      obtain ⟨given, subcommand⟩ := given
      simp [pure, Except.pure, eq_comm]

theorem read_program_run (rest : List Text) :
    programUsage.read ("run".toList :: rest) = .ok ({}, some ("run".toList, rest)) := rfl

/-- The shared switches say nothing about a run. -/
theorem runOptions_behind {marks : List Text}
    (hmarks : ∀ name ∈ marks, name ∈ [noColor, verbose].map Switch.name) (given : Given) :
    runOptions (given.behind marks) = runOptions given := by
  have hfree : ∀ name, name ∉ [noColor, verbose].map Switch.name →
      (given.behind marks).has name = given.has name := by
    intro name hname
    have : name ∉ marks := fun h => hname (hmarks name h)
    rw [Given.has_behind]
    simp [this]
  simp only [runOptions, Given.valuesOf_behind]
  rw [hfree _ (by decide), hfree _ (by decide), hfree _ (by decide), hfree _ (by decide),
    hfree _ (by decide)]
  rfl

/-- A first argument without a dash is the document. -/
theorem file_of_read {document : Text} {rest : List Text} {given : Given}
    {subcommand : Option (Text × List Text)} (hdash : document.head? ≠ some '-')
    (h : runUsage.read (document :: rest) = .ok (given, subcommand)) :
    (runOptions given).file = document := by
  obtain ⟨hgiven, hfault, -, -⟩ := Usage.read_eq_ok_iff.mp h
  obtain ⟨slot, slots, hslots⟩ : ∃ slot slots, runUsage.slots = slot :: slots := ⟨_, _, rfl⟩
  rw [Usage.scan, hslots, Usage.scanFrom_plain hdash rfl] at hgiven hfault
  obtain ⟨ms, hms⟩ := Usage.scanFrom_held (by simp) hfault
  rw [Scan.after, hms] at hgiven
  obtain ⟨next, hnext, hothers⟩ := Given.foldlM_add_cons.mp hgiven
  have hplains : next.plains = [document] := by
    simp only [Given.add] at hnext
    split at hnext <;> cases hnext
    rfl
  obtain ⟨others, hothers⟩ := hplains ▸ Given.plains_prefix_of_foldlM_add hothers
  simp [runOptions, ← hothers]

/-! ## Only shared switches before the document -/

/-- Shared switches that a run accepts are accepted before its name as
well, and the run accepts the other arguments without them. -/
theorem exists_read_of_read_append {shared rest : List Text} {given : Given}
    {subcommand : Option (Text × List Text)}
    (hshared : ∀ argument ∈ shared, argument ∈ globals)
    (h : runUsage.read (shared ++ rest) = .ok (given, subcommand)) :
    ∃ marks own, (∀ name ∈ marks, name ∈ [noColor, verbose].map Switch.name) ∧
      given = own.behind marks ∧ runUsage.read rest = .ok (own, subcommand) ∧
      programUsage.read (shared ++ "run".toList :: rest) =
        .ok (({} : Given).behind marks, some ("run".toList, rest)) := by
  obtain ⟨said, hsaid, hscan⟩ := scanFrom_globals hshared
  obtain ⟨hgiven, hfault, hsubcommand, hfilled⟩ := Usage.read_eq_ok_iff.mp h
  have hrun : runUsage.scan (shared ++ rest) = (runUsage.scan rest).after said :=
    hscan runUsage (by simp) ..
  rw [hrun] at hgiven hfault hsubcommand
  obtain ⟨first, hfirst, hothers⟩ := Given.foldlM_add_append.mp hgiven
  obtain ⟨marks, hmarked, hmarks⟩ := Given.eq_of_foldlM_add_marks hsaid hfirst
  obtain rfl : first = ({} : Given).behind marks := by rw [hmarked]; simp [Given.behind]
  obtain ⟨own, hown, rfl⟩ := Given.foldlM_add_behind hothers
  refine ⟨marks, own, hmarks, rfl, ?_, ?_⟩
  · exact Usage.read_eq_ok_iff.mpr ⟨hown, hfault, hsubcommand, hfilled⟩
  · have hprogram : programUsage.scan (shared ++ "run".toList :: rest) =
        { mentions := said ++ [], rest := some ("run".toList, rest) } :=
      hscan programUsage (by simp) ..
    rw [List.append_nil] at hprogram
    rw [Usage.read_eq_ok_iff, hprogram]
    exact ⟨hfirst, rfl, rfl, by simp⟩

/-- When only shared switches stand before the first argument without a dash,
and that does not name a command itself, the command is the same without its
name. -/
theorem read_of_leading_globals {rest : List Text} {options : RunOptions} {plain : Bool}
    (haccepted : read ("run".toList :: rest) = .ok { command := .run options, plain })
    (hfile : options.file ∉ subcommands.map Prod.fst)
    (hleading : ∀ argument ∈ leading rest, argument ∈ globals) :
    read rest = .ok { command := .run options, plain } := by
  obtain ⟨given, subcommand, hread, hinvocation⟩ :=
    (readNamed_run_iff (read_program_run rest)).mp haccepted
  cases hinvocation
  obtain ⟨tail, hrest, hdashed, htail⟩ := exists_leading_append rest
  generalize leading rest = shared at hrest hdashed hleading
  subst hrest
  obtain ⟨marks, own, hmarks, rfl, hown, hprogram⟩ := exists_read_of_read_append hleading hread
  cases tail with
  | nil => cases hown
  | cons document tail =>
      have hdocument : (runOptions own).file = document :=
        file_of_read (htail document rfl) hown
      have hname : withName (document :: tail) = "run".toList :: document :: tail := by
        have hlookup : subcommands.lookup document = none := by
          rw [runOptions_behind hmarks, hdocument] at hfile
          rw [List.lookup_eq_none_iff]
          intro entry hentry
          simpa using fun h : document = entry.1 => hfile (h ▸ List.mem_map_of_mem hentry)
        rw [withName, if_neg (htail document rfl), hlookup]
        rfl
      rw [read, withName_append hdashed, hname, readNamed_run_iff hprogram]
      refine ⟨own, subcommand, hown, ?_⟩
      rw [runOptions_behind hmarks, Given.has_behind, Given.has_behind]
      simp [Given.has]

/-! ## Something else before the document -/

/-- What the program scans at the first argument that is none of the shared
ones, if a run accepts it before its document: no command, and nothing that
is answered at once. -/
def EndsProgram (scan : Scan) : Prop :=
  scan.rest = none ∧ ∀ m ∈ scan.mentions, m = .mark verbose

theorem EndsProgram.silent (fault : Option UsageError) : EndsProgram { fault } :=
  ⟨rfl, fun _ hm => absurd hm List.not_mem_nil⟩

theorem mem_programUsage_switches {switch : Switch} (h : switch ∈ programUsage.switches) :
    switch = noColor ∨ switch = verbose ∨ switch = help ∨ switch = version := by
  simpa [programUsage] using h

/-- Of letters that a run accepts without a question, the program knows only
that of the log. -/
theorem scanLetters_of_run {letters : Text}
    (hquestion : ∀ switch, .mark switch ∈ (runUsage.scanLetters letters).1 →
      switch.isQuestion = false)
    (hfault : (runUsage.scanLetters letters).2.2 = none) :
    ∃ count fault, programUsage.scanLetters letters =
        (List.replicate count (.mark verbose), none, fault) ∧
      (fault = none → letters = List.replicate count 'v') := by
  induction letters with
  | nil => exact ⟨0, none, rfl, fun _ => rfl⟩
  | cons c letters ih =>
      by_cases hv : c = 'v'
      · subst hv
        obtain ⟨count, fault, hletters, hall⟩ :=
          ih (fun switch h => hquestion switch (List.mem_cons_of_mem _ h)) hfault
        refine ⟨count + 1, fault, ?_, fun h => ?_⟩
        · have hstep : programUsage.scanLetters ('v' :: letters) =
              (.mark verbose :: (programUsage.scanLetters letters).1,
                (programUsage.scanLetters letters).2) := rfl
          rw [hstep, hletters]
          rfl
        · rw [hall h]
          rfl
      · rw [Usage.scanLetters]
        cases hlettered : programUsage.lettered? c with
        | none => exact ⟨0, some _, rfl, fun h => by cases h⟩
        | some switch =>
            -- A question of the program is one of the run as well, or no
            -- switch of it at all.
            exfalso
            have hletter : switch.letter = some c := by
              simpa using List.find?_some hlettered
            obtain rfl | rfl | rfl | rfl :=
              mem_programUsage_switches (List.mem_of_find?_eq_some hlettered)
            · cases hletter
            · exact hv (Option.some.inj hletter).symm
            · obtain rfl : 'h' = c := Option.some.inj hletter
              exact absurd (hquestion help List.mem_cons_self) (by decide)
            · obtain rfl : 'V' = c := Option.some.inj hletter
              cases hfault

theorem endsProgram_of_letters {c : Char} {letters : Text} {more rest : List Text}
    {slots : List Slot} {first given : Given} (hc : c ≠ '-')
    (hshared : '-' :: c :: letters ∉ globals)
    (hfault : (runUsage.scanFrom none slots (('-' :: c :: letters) :: more)).fault = none)
    (hgiven : (runUsage.scanFrom none slots (('-' :: c :: letters) :: more)).mentions.foldlM
      Given.add first = .ok given) :
    EndsProgram (programUsage.scanFrom none [] (('-' :: c :: letters) :: rest)) := by
  rw [Usage.scanFrom_letters hc rfl] at hfault hgiven
  rw [Usage.scanFrom_letters hc rfl]
  obtain ⟨ms, held, hrun⟩ : ∃ ms held, runUsage.scanLetters (c :: letters) = (ms, held, none) := by
    generalize runUsage.scanLetters (c :: letters) = said at hfault
    obtain ⟨ms, held, _ | fault⟩ := said
    · exact ⟨ms, held, rfl⟩
    · cases hfault
  rw [hrun] at hgiven
  obtain ⟨next, hnext, -⟩ := Given.foldlM_add_append.mp hgiven
  obtain ⟨count, fault, hletters, hall⟩ := scanLetters_of_run
    (fun switch h => Given.not_isQuestion_of_foldlM_add hnext (by rwa [hrun] at h)) (by rw [hrun])
  rw [hletters]
  cases fault with
  | some fault => exact ⟨rfl, fun m hm => List.eq_of_mem_replicate hm⟩
  | none =>
      -- Only the letter of the log: alone it is a shared argument, and twice
      -- the run does not accept it.
      exfalso
      match count, hall rfl with
      | 1, h => exact hshared (by rw [h]; decide)
      | count + 2, h =>
        have hms : ms = .mark verbose :: .mark verbose ::
            (runUsage.scanLetters (List.replicate count 'v')).1 := by
          rw [h] at hrun
          exact (congrArg Prod.fst hrun).symm
        exact Given.foldlM_add_twice (hms ▸ hnext)

theorem endsProgram_of_long {name : Text} {more rest : List Text}
    {slots : List Slot} {first given : Given}
    (hshared : '-' :: '-' :: name ∉ globals)
    (hfault : (runUsage.scanFrom none slots (('-' :: '-' :: name) :: more)).fault = none)
    (hgiven : (runUsage.scanFrom none slots (('-' :: '-' :: name) :: more)).mentions.foldlM
      Given.add first = .ok given) :
    EndsProgram (programUsage.scanFrom none [] (('-' :: '-' :: name) :: rest)) := by
  by_cases hname : name = []
  · subst hname
    cases rest with
    | nil => exact .silent _
    | cons argument rest => exact .silent _
  · obtain ⟨⟨written, value⟩, hparts⟩ :
        ∃ parts, Usage.longParts? ('-' :: '-' :: name) = some parts := ⟨_, rfl⟩
    have hcommand : ¬programUsage.isSubcommand ('-' :: '-' :: name) = true := by
      simp [Usage.isSubcommand, programUsage, subcommands]
    rw [Usage.scanFrom.eq_2, if_neg hcommand, if_neg (by simpa using hname), hparts]
    dsimp only
    cases hnamed : programUsage.named? written with
    | none => exact .silent _
    | some switch =>
        have hswitch := mem_programUsage_switches (List.mem_of_find?_eq_some hnamed)
        have hvalue : switch.value = none := by
          obtain rfl | rfl | rfl | rfl := hswitch <;> rfl
        have hwritten : switch.name = written := by
          simpa using List.find?_some hnamed
        dsimp only
        rw [hvalue]
        cases value with
        | some value => exact .silent _
        | none =>
            exfalso
            obtain rfl : name = written := by simpa using Usage.eq_of_longParts? hparts
            subst hwritten
            obtain rfl | rfl | rfl | rfl := hswitch
            · exact hshared (by decide)
            · exact hshared (by decide)
            · have hquestion : help.isQuestion = false :=
                Given.not_isQuestion_of_foldlM_add hgiven List.mem_cons_self
              cases hquestion
            · cases hfault

/-- An argument that is none of the shared ones, but that a run accepts before
its document, keeps the program from finding a command. -/
theorem endsProgram_of_run {argument : Text} {more rest : List Text} {slots : List Slot}
    {first given : Given}
    (hdash : argument.head? = some '-') (hshared : argument ∉ globals)
    (hfault : (runUsage.scanFrom none slots (argument :: more)).fault = none)
    (hgiven : (runUsage.scanFrom none slots (argument :: more)).mentions.foldlM Given.add first =
      .ok given) :
    EndsProgram (programUsage.scanFrom none [] (argument :: rest)) := by
  obtain ⟨tail, rfl⟩ := List.head?_eq_some_iff.mp hdash
  cases tail with
  | nil => exact .silent _
  | cons c letters =>
      by_cases hc : c = '-'
      · subst hc
        exact endsProgram_of_long hshared hfault hgiven
      · exact endsProgram_of_letters hc hshared hfault hgiven

/-- Where the program finds no command, and is asked nothing that it answers
at once, the arguments are refused. -/
theorem refusalReport_of_no_command {arguments : List Text}
    (hcommand : (programUsage.scan arguments).rest = none)
    (hms : ∀ switch, .mark switch ∈ (programUsage.scan arguments).mentions →
      switch.isQuestion = false) :
    ∃ refusal, readNamed arguments = .error refusal ∧
      (CommandLine.refusalReport refusal).out = [] ∧
      (CommandLine.refusalReport refusal).code = 2 := by
  rw [readNamed, readGiven]
  cases hread : programUsage.read arguments with
  | error halt =>
      obtain ⟨e, rfl⟩ := Usage.exists_mistake_of_read hread hms
      exact ⟨_, rfl, rfl, rfl⟩
  | ok given =>
      obtain ⟨program, subcommand⟩ := given
      obtain ⟨-, -, hsubcommand, -⟩ := Usage.read_eq_ok_iff.mp hread
      obtain rfl : none = subcommand := hcommand ▸ hsubcommand
      simp only [bind, Except.bind]
      split <;> exact ⟨_, rfl, rfl, rfl⟩

/-- When something else stands before the first argument without a dash,
arguments that a run accepts are refused without its name. -/
theorem refused_of_leading {rest : List Text} {invocation : Invocation}
    (haccepted : read ("run".toList :: rest) = .ok invocation)
    (hleading : ¬∀ argument ∈ leading rest, argument ∈ globals) :
    ∃ refusal, read rest = .error refusal ∧ (CommandLine.refusalReport refusal).out = [] ∧
      (CommandLine.refusalReport refusal).code = 2 := by
  obtain ⟨given, subcommand, hread, -⟩ := (readNamed_run_iff (read_program_run rest)).mp haccepted
  obtain ⟨hgiven, hfault, -, -⟩ := Usage.read_eq_ok_iff.mp hread
  obtain ⟨tail, hrest, hdashed, -⟩ := exists_leading_append rest
  obtain ⟨argument, hfound⟩ : ∃ argument, (leading rest).find? (· ∉ globals) = some argument := by
    rw [← Option.isSome_iff_exists, List.find?_isSome]
    simpa using hleading
  obtain ⟨hargument, shared, others, hfirst, hshared⟩ := List.find?_eq_some_iff_append.mp hfound
  rw [hfirst] at hrest hdashed
  have hshared : ∀ other ∈ shared, other ∈ globals := by simpa using hshared
  obtain ⟨said, hsaid, hscan⟩ := scanFrom_globals hshared
  have hrun : runUsage.scan rest =
      (runUsage.scanFrom none runUsage.slots (argument :: (others ++ tail))).after said := by
    rw [Usage.scan, hrest, List.append_assoc, hscan _ (by simp), List.cons_append]
  rw [hrun] at hgiven hfault
  obtain ⟨first, -, hown⟩ := Given.foldlM_add_append.mp hgiven
  have hends : EndsProgram (programUsage.scanFrom none [] (argument :: (others ++ withName tail))) :=
    endsProgram_of_run (hdashed argument (by simp)) (by simpa using hargument) hfault hown
  have hprogram : programUsage.scan (withName rest) =
      (programUsage.scanFrom none [] (argument :: (others ++ withName tail))).after said := by
    rw [hrest, withName_append hdashed, List.append_assoc]
    exact hscan programUsage (by simp) ..
  refine refusalReport_of_no_command (by rw [hprogram]; exact hends.1) fun switch hswitch => ?_
  rw [hprogram] at hswitch
  rcases List.mem_append.mp hswitch with hmark | hmark
  · obtain ⟨other, hother, heq⟩ := hsaid _ hmark
    cases heq
    obtain rfl | rfl := by simpa using hother
    all_goals rfl
  · cases hends.2 _ hmark
    rfl

end Command

/-! ## The reports -/

theorem Run.code_dispatchAll_le (quiet : Bool) (requests : List Request) :
    (Run.dispatchAll quiet requests).code ≤ 1 := by
  simp only [Run.dispatchAll]
  split <;> simp

/-- A run fails with 1, and the exit code of refused arguments is not one of
its own. -/
theorem Run.code_report_le (tree : FileTree) (now : Timestamp) (draws : Draws)
    (options : RunOptions) : (Run.report tree now draws options).code ≤ 1 := by
  rw [Run.report]
  split
  · exact Nat.le_refl 1
  · next book _ =>
    simp only [Report.after, Run.bookReport]
    split
    · exact Nat.zero_le 1
    · split
      · exact Nat.zero_le 1
      · split
        · exact Nat.zero_le 1
        · split
          · exact Nat.le_refl 1
          · simp only [Run.requestsReport]
            split
            · split
              · exact Nat.zero_le 1
              · exact Run.code_dispatchAll_le ..
            · exact Nat.le_refl 1

namespace CommandLine

/-- Leaving out the name of a run makes no difference exactly when only the
switches of all commands stand before the first argument without a dash. In
every other case the arguments are refused. -/
theorem report_nameless_iff {rest : List Text} {options : RunOptions} {plain : Bool}
    (haccepted : Command.read ("run".toList :: rest) = .ok { command := .run options, plain })
    (hfile : options.file ∉ Command.subcommands.map Prod.fst)
    (tree : FileTree) (now : Timestamp) (draws : Draws) :
    (report tree now draws rest = report tree now draws ("run".toList :: rest) ↔
      ∀ argument ∈ Command.leading rest, argument ∈ Command.globals) ∧
    ((¬∀ argument ∈ Command.leading rest, argument ∈ Command.globals) →
      (report tree now draws rest).out = [] ∧ (report tree now draws rest).code = 2) := by
  have hrefused : (¬∀ argument ∈ Command.leading rest, argument ∈ Command.globals) →
      (report tree now draws rest).out = [] ∧ (report tree now draws rest).code = 2 := by
    intro hleading
    obtain ⟨refusal, hread, hreport⟩ := Command.refused_of_leading haccepted hleading
    rwa [report, hread]
  refine ⟨⟨fun hsame => ?_, fun hleading => ?_⟩, hrefused⟩
  · refine Decidable.byContradiction fun hleading => ?_
    have hrun := Run.code_report_le tree now draws options
    have hcode : (Run.report tree now draws options).code = 2 := by
      rw [← (hrefused hleading).2, hsame, report, haccepted]
      rfl
    omega
  · rw [report, report, Command.read_of_leading_globals haccepted hfile hleading, haccepted]

/-- A request for a log may stand before the document, and a request for an
environment may not. -/
theorem report_nameless_log_and_environment :
    let tree : FileTree :=
      .folder [("r.md".toList, .file "## R\n### url\n> GET http://a\n".toUTF8)]
    let now : Timestamp := ⟨⟨2024, 3, 15⟩, 10, 0, 0, 0⟩
    let draws : Draws := fun _ => 0
    let log := ["-v".toList, "r.md".toList, "--check".toList]
    let environment := ["--env".toList, "prod".toList, "r.md".toList]
    report tree now draws log = report tree now draws ("run".toList :: log) ∧
      (report tree now draws environment).code = 2 ∧
      report tree now draws environment ≠ report tree now draws ("run".toList :: environment) := by
  intro tree now draws log environment
  have hlog : Command.read ("run".toList :: log) =
      .ok { command := .run { file := "r.md".toList, check := true } } := rfl
  have henvironment : Command.read ("run".toList :: environment) =
      .ok { command := .run { file := "r.md".toList, environment := "prod".toList } } := rfl
  have hsame := report_nameless_iff hlog (by decide) tree now draws
  have hrefused := report_nameless_iff henvironment (by decide) tree now draws
  exact ⟨hsame.1.mpr (by decide), (hrefused.2 (by decide)).2, mt hrefused.1.mp (by decide)⟩

/-- An option of the run before the document is such a difference: with the
name the document is checked, without it the option is not known. -/
theorem report_nameless_check_first :
    let tree : FileTree :=
      .folder [("r.md".toList, .file "## R\n### url\n> GET http://a\n".toUTF8)]
    let now : Timestamp := ⟨⟨2024, 3, 15⟩, 10, 0, 0, 0⟩
    let draws : Draws := fun _ => 0
    let rest := ["--check".toList, "r.md".toList]
    let options : RunOptions := { file := "r.md".toList, check := true }
    Command.read ("run".toList :: rest) = .ok { command := .run options } ∧
      options.file ∉ Command.subcommands.map Prod.fst ∧
      report tree now draws ("run".toList :: rest) =
        { err := "ok: r.md parsed, 1 request(s), 0 warning(s)\n".toList } ∧
      (report tree now draws rest).code = 2 := by
  intro tree now draws rest options
  exact ⟨rfl, by decide, by decide +kernel, rfl⟩

end CommandLine

end RequestBook
