import RequestBook.Arguments

/-!
# What is given grows

Each thing that arguments say adds to what is given and takes nothing back,
and marks that were given before change nothing but the list of marks. So
the marks at the front of an argument list can be set aside, and what a scan
holds back when it meets the next argument is the first thing it says.
-/

namespace RequestBook

/-! ## Adding -/

namespace Given

variable {given given' : Given} {m : Mention} {ms : List Mention}

/-- What is given when some marks were given before. -/
def behind (marks : List Text) (given : Given) : Given :=
  { given with marks := marks ++ given.marks }

theorem has_behind (marks : List Text) (given : Given) (name : Text) :
    (given.behind marks).has name = (marks.contains name || given.has name) := by
  simp [has, behind]

theorem valuesOf_behind (marks : List Text) (given : Given) (name : Text) :
    (given.behind marks).valuesOf name = given.valuesOf name := rfl

theorem add_behind {marks : List Text} (h : (given.behind marks).add m = .ok given') :
    ∃ own, given.add m = .ok own ∧ given' = own.behind marks := by
  cases m with
  | mark switch =>
      simp only [add, has_behind] at h ⊢
      split at h
      · cases h
      · next hquestion =>
        split at h
        · cases h
        · next hfresh =>
          have hown : ¬given.has switch.name = true := by simp_all
          rw [if_neg hquestion, if_neg hown]
          cases h
          exact ⟨_, rfl, by simp [behind]⟩
  | setting switch taken value =>
      cases value with
      | none => cases h
      | some value =>
          simp only [add] at h ⊢
          split at h
          · cases h
          · next honce =>
            rw [valuesOf_behind] at honce
            split at h
            · cases h
            · next hfilled =>
              rw [if_neg honce, if_neg hfilled]
              cases hfault : taken.fault? value with
              | some reason => rw [hfault] at h; cases h
              | none => rw [hfault] at h; cases h; exact ⟨_, rfl, rfl⟩
  | plain slot value =>
      simp only [add] at h ⊢
      split at h
      · cases h
      · next hfilled =>
        rw [if_neg hfilled]
        cases h
        exact ⟨_, rfl, rfl⟩

theorem foldlM_add_append {ns : List Mention} : (ms ++ ns).foldlM add given = .ok given' ↔
    ∃ next, ms.foldlM add given = .ok next ∧ ns.foldlM add next = .ok given' := by
  rw [List.foldlM_append]
  cases ms.foldlM add given with
  | error halt => simp [bind, Except.bind]
  | ok next => simp [bind, Except.bind]

theorem foldlM_add_cons : (m :: ms).foldlM add given = .ok given' ↔
    ∃ next, given.add m = .ok next ∧ ms.foldlM add next = .ok given' := by
  rw [List.foldlM_cons]
  cases given.add m with
  | error halt => simp [bind, Except.bind]
  | ok next => simp [bind, Except.bind]

/-- Marks that were given before stay in front, and nothing else is changed
by them. -/
theorem foldlM_add_behind {marks : List Text}
    (h : ms.foldlM add (given.behind marks) = .ok given') :
    ∃ own, ms.foldlM add given = .ok own ∧ given' = own.behind marks := by
  induction ms generalizing given with
  | nil => cases h; exact ⟨given, rfl, rfl⟩
  | cons m ms ih =>
      obtain ⟨next, hnext, h⟩ := foldlM_add_cons.mp h
      obtain ⟨own, hown, rfl⟩ := add_behind hnext
      obtain ⟨last, hlast, rfl⟩ := ih h
      exact ⟨last, foldlM_add_cons.mpr ⟨own, hown, hlast⟩, rfl⟩

/-- Marks leave values and plain arguments as they are. -/
theorem eq_of_foldlM_add_marks {switches : List Switch}
    (hms : ∀ m ∈ ms, ∃ switch ∈ switches, m = .mark switch)
    (h : ms.foldlM add given = .ok given') :
    ∃ marks, given' = { given with marks := given.marks ++ marks } ∧
      ∀ name ∈ marks, name ∈ switches.map Switch.name := by
  induction ms generalizing given with
  | nil => cases h; exact ⟨[], by simp, by simp⟩
  | cons m ms ih =>
      obtain ⟨next, hnext, hrest⟩ := foldlM_add_cons.mp h
      obtain ⟨marks, rfl, hmarks⟩ := ih (fun m hm => hms m (List.mem_cons_of_mem _ hm)) hrest
      obtain ⟨switch, hswitch, rfl⟩ := hms m List.mem_cons_self
      simp only [add] at hnext
      repeat' split at hnext
      all_goals cases hnext
      refine ⟨switch.name :: marks, by simp, fun name hname => ?_⟩
      rcases List.mem_cons.mp hname with rfl | hname
      · exact List.mem_map_of_mem hswitch
      · exact hmarks name hname

theorem plains_prefix_of_add (h : given.add m = .ok given') : given.plains <+: given'.plains := by
  cases m with
  | mark switch =>
      simp only [add] at h
      repeat' split at h
      all_goals cases h
      exact List.prefix_refl _
  | setting switch taken value =>
      cases value with
      | none => cases h
      | some value =>
          simp only [add] at h
          repeat' split at h
          all_goals cases h
          exact List.prefix_refl _
  | plain slot value =>
      simp only [add] at h
      split at h <;> cases h
      exact List.prefix_append ..

theorem plains_prefix_of_foldlM_add (h : ms.foldlM add given = .ok given') :
    given.plains <+: given'.plains := by
  induction ms generalizing given with
  | nil => cases h; exact List.prefix_refl _
  | cons m ms ih =>
      obtain ⟨next, hnext, h⟩ := foldlM_add_cons.mp h
      exact (plains_prefix_of_add hnext).trans (ih h)

/-- Where something was given, no switch was marked that is answered at
once. -/
theorem not_isQuestion_of_foldlM_add (h : ms.foldlM add given = .ok given') {switch : Switch}
    (hm : .mark switch ∈ ms) : switch.isQuestion = false := by
  induction ms generalizing given with
  | nil => cases hm
  | cons m ms ih =>
      obtain ⟨next, hnext, h⟩ := foldlM_add_cons.mp h
      rcases List.mem_cons.mp hm with rfl | hm
      · cases hquestion : switch.isQuestion with
        | false => rfl
        | true => simp [add, hquestion] at hnext
      · exact ih h hm

/-- A switch is marked once. -/
theorem foldlM_add_twice {switch : Switch} :
    (.mark switch :: .mark switch :: ms).foldlM add given ≠ .ok given' := by
  intro h
  obtain ⟨next, hnext, h⟩ := foldlM_add_cons.mp h
  obtain ⟨again, hagain, -⟩ := foldlM_add_cons.mp h
  have hmarked : next.has switch.name = true := by
    simp only [add] at hnext
    repeat' split at hnext
    all_goals cases hnext
    simp [has]
  simp only [add, hmarked, if_true] at hagain
  split at hagain <;> cases hagain

theorem exists_mistake_of_add {halt : Halt} (h : given.add m = .error halt)
    (hm : ∀ switch, m = .mark switch → switch.isQuestion = false) : ∃ e, halt = .mistake e := by
  cases m with
  | mark switch =>
      simp only [add, hm switch rfl, Bool.false_eq_true, if_false] at h
      split at h <;> cases h
      exact ⟨_, rfl⟩
  | setting switch taken value =>
      cases value with
      | none => cases h; exact ⟨_, rfl⟩
      | some value =>
          simp only [add] at h
          repeat' split at h
          all_goals cases h
          all_goals exact ⟨_, rfl⟩
  | plain slot value =>
      simp only [add] at h
      split at h <;> cases h
      exact ⟨_, rfl⟩

/-- Without a switch that is answered at once, only a mistake ends the
adding. -/
theorem exists_mistake_of_foldlM_add {halt : Halt} (h : ms.foldlM add given = .error halt)
    (hms : ∀ switch, .mark switch ∈ ms → switch.isQuestion = false) :
    ∃ e, halt = .mistake e := by
  induction ms generalizing given with
  | nil => cases h
  | cons m ms ih =>
      rw [List.foldlM_cons] at h
      cases hnext : given.add m with
      | ok next =>
          rw [hnext] at h
          exact ih h fun switch hm => hms switch (List.mem_cons_of_mem _ hm)
      | error stopped =>
          rw [hnext] at h
          cases h
          exact exists_mistake_of_add hnext fun switch hm => hms switch (hm ▸ List.mem_cons_self)

end Given

/-! ## Scanning -/

/-- The scan with something said before it. -/
def Scan.after (said : List Mention) (scan : Scan) : Scan :=
  { scan with mentions := said ++ scan.mentions }

namespace Usage

variable {usage : Usage} {held : Option Mention} {slots : List Slot}

theorem scanPlain_held {m : Mention} {arguments : List Text}
    (hfault : (usage.scanPlain (some m) slots arguments).fault = none) :
    ∃ ms, (usage.scanPlain (some m) slots arguments).mentions = m :: ms := by
  cases arguments with
  | nil => exact ⟨[], rfl⟩
  | cons argument arguments =>
      cases slots with
      | nil => cases hfault
      | cons slot slots => exact ⟨_, rfl⟩

theorem scanLetters_cons (c : Char) (letters : Text) :
    usage.scanLetters (c :: letters) ≠ ([], none, none) := by
  rw [scanLetters]
  split
  · simp
  · split
    · simp
    · split <;> simp

/-- What is held back and is not a switch that waits for its value is the
first thing said, unless there is a mistake. -/
theorem scanFrom_held {m : Mention} (hm : ∀ switch taken, m ≠ .setting switch taken none)
    {arguments : List Text}
    (hfault : (usage.scanFrom (some m) slots arguments).fault = none) :
    ∃ ms, (usage.scanFrom (some m) slots arguments).mentions = m :: ms := by
  revert hfault
  generalize hheld : some m = held
  fun_cases scanFrom usage held slots arguments
  case case12 => cases hheld; exact absurd rfl (hm _ _)
  all_goals subst hheld; intro hfault
  case case3 => exact scanPlain_held hfault
  case case9 c letters fault hletters hcommand hdashes hlong =>
      cases hfault
      exact absurd hletters (scanLetters_cons c letters)
  all_goals first | exact ⟨_, rfl⟩ | cases hfault

/-- A plain argument takes the first slot that is left. -/
theorem scanFrom_plain {argument : Text} {arguments : List Text} {slot : Slot}
    (hdash : argument.head? ≠ some '-') (hcommand : usage.isSubcommand argument = false) :
    usage.scanFrom none (slot :: slots) (argument :: arguments) =
      (usage.scanFrom (some (.plain slot argument)) (slotsAfter (slot :: slots))
        arguments).after [] := by
  have hlong : longParts? argument = none := by
    rw [longParts?.eq_def]
    split
    · exact absurd rfl hdash
    · rfl
  have hletters : ∀ c letters, argument = '-' :: c :: letters → False := by
    rintro c letters rfl
    exact hdash rfl
  have hdashes : ¬argument = ['-', '-'] := by
    rintro rfl
    exact hdash rfl
  rw [scanFrom.eq_5 _ _ _ _ _ _ hletters (by simp), if_neg (by simp [hcommand]),
    if_neg hdashes, hlong]
  rfl

/-- Two dashes and a name without a value are the whole argument. -/
theorem eq_of_longParts? {argument name : Text} (h : longParts? argument = some (name, none)) :
    argument = '-' :: '-' :: name := by
  rw [longParts?.eq_def] at h
  split at h
  · next rest =>
    split at h <;> cases h
    rfl
  · cases h

/-- An argument with one dash says what its letters say. -/
theorem scanFrom_letters {c : Char} {letters : Text} {arguments : List Text} (hc : c ≠ '-')
    (hcommand : usage.isSubcommand ('-' :: c :: letters) = false) :
    usage.scanFrom none slots (('-' :: c :: letters) :: arguments) =
      match usage.scanLetters (c :: letters) with
      | (ms, _, some fault) => { mentions := ms, fault := some fault }
      | (ms, held, none) => (usage.scanFrom held slots arguments).after ms := by
  have hlong : longParts? ('-' :: c :: letters) = none := by
    rw [longParts?.eq_def]
    split
    · next h => cases h; exact absurd rfl hc
    · rfl
  have hdashes : '-' :: c :: letters ≠ ['-', '-'] := by
    rintro ⟨⟩
    exact hc rfl
  rw [scanFrom.eq_2, if_neg (by simp [hcommand]), if_neg hdashes, hlong]
  dsimp only
  have hsaid : usage.scanLetters (c :: letters) ≠ ([], none, none) := scanLetters_cons c letters
  generalize usage.scanLetters (c :: letters) = said at hsaid ⊢
  obtain ⟨ms, held, _ | fault⟩ := said
  · cases ms with
    | nil =>
        cases held with
        | none => exact absurd rfl hsaid
        | some held => rfl
    | cons m ms => rfl
  · cases ms with
    | nil => cases held <;> rfl
    | cons m ms => rfl

/-- When something is given: what was said adds up, the scan found no
mistake, and no slot is left that has to be filled. -/
theorem read_eq_ok_iff {arguments : List Text} {given : Given}
    {subcommand : Option (Text × List Text)} :
    usage.read arguments = .ok (given, subcommand) ↔
      (usage.scan arguments).mentions.foldlM Given.add {} = .ok given ∧
      (usage.scan arguments).fault = none ∧ (usage.scan arguments).rest = subcommand ∧
      (subcommand = none → usage.unfilled given = []) := by
  rw [read]
  generalize usage.scan arguments = scan
  obtain ⟨mentions, fault, rest⟩ := scan
  cases mentions.foldlM Given.add {} with
  | error halt => simp [bind, Except.bind]
  | ok own =>
      simp only [bind, Except.bind]
      split <;> simp_all [throw, throwThe, MonadExceptOf.throw, pure, Except.pure]
      all_goals rintro rfl rfl
      all_goals simp_all

/-- Reading stops at a mistake when nothing is said that is answered at
once. -/
theorem exists_mistake_of_read {arguments : List Text} {halt : Halt}
    (h : usage.read arguments = .error halt)
    (hms : ∀ switch, .mark switch ∈ (usage.scan arguments).mentions → switch.isQuestion = false) :
    ∃ e, halt = .mistake e := by
  rw [read] at h
  cases hadd : (usage.scan arguments).mentions.foldlM Given.add {} with
  | error stopped =>
      rw [hadd] at h
      cases h
      exact Given.exists_mistake_of_foldlM_add hadd hms
  | ok given =>
      simp only [hadd, bind, Except.bind] at h
      split at h <;> cases h <;> exact ⟨_, rfl⟩

end Usage

end RequestBook
