import Mathlib.Data.List.Flatten
import RequestBook.BookTest.Suite
import RequestBook.Proofs.Spelling
import RequestBook.Proofs.Walking

/-!
# Every test that is asked for is run once

A folder of tests is walked, the tests are parted by category, some categories
are chosen, and their tests are run one after the other. A category is named by
a text, the steps to a folder with slashes between them, and a request asks for
it when the texts match. Since no step holds a slash, the steps can be read back
from the text, and so a request asks for the folder it names and those below it
and for no other whose name merely begins alike (`asksFor_join_iff`).

The choice is a list that each request may add to. What is in it in the end does
not depend on who added it (`mem_chosen_select`), and the categories are taken
from the list of all in its order, not in the order of the choice. So requests
that ask for the same tests have the same tests run in the same order, with the
same outcome (`report_runs_asked`); they differ in nothing but the warnings about
requests that added nothing.
-/

namespace RequestBook

namespace Text

theorem join_append {mark : Char} {pieces more : List Text} (hpieces : pieces ≠ [])
    (hmore : more ≠ []) :
    join [mark] (pieces ++ more) = join [mark] pieces ++ mark :: join [mark] more := by
  induction pieces with
  | nil => exact absurd rfl hpieces
  | cons piece pieces ih =>
      cases pieces with
      | nil =>
          obtain ⟨next, rest, rfl⟩ := List.exists_cons_of_ne_nil hmore
          rw [List.singleton_append, join, join, join, List.intercalate_cons_cons,
            List.intercalate_singleton, List.append_assoc, List.singleton_append]
      | cons next pieces =>
          have hrest := ih (List.cons_ne_nil _ _)
          rw [join, join, List.cons_append] at hrest
          rw [join, join, List.cons_append, List.cons_append, List.intercalate_cons_cons,
            List.intercalate_cons_cons, hrest]
          simp only [List.append_assoc]

end Text

namespace Category

open FileTree (IsName)

/-! ## What a request asks for -/

/-- Whether a request asks for the tests in a folder: the folder that it names,
the slashes at its ends left out, or one below it. A request that names no
folder asks for the first one alone. -/
def AsksForFolder (request : Text) (folder : List Text) : Prop :=
  if trimSlashes request = [] then folder = []
  else Text.fields '/' (trimSlashes request) <+: folder

instance (request : Text) (folder : List Text) : Decidable (AsksForFolder request folder) := by
  unfold AsksForFolder
  infer_instance

section AsksFor

variable {folder : List Text}

theorem join_cases (h : ∀ step ∈ folder, IsName step) :
    folder = [] ∨ ∃ c rest, c ≠ '/' ∧ Text.join ['/'] folder = c :: rest := by
  cases folder with
  | nil => exact .inl rfl
  | cons step steps =>
      have hstep := h step List.mem_cons_self
      obtain ⟨c, rest, rfl⟩ := List.exists_cons_of_ne_nil hstep.full
      have hc : c ≠ '/' := (List.ne_of_not_mem_cons hstep.slashless).symm
      refine .inr ⟨c, ?_⟩
      cases steps with
      | nil => exact ⟨rest, hc, List.intercalate_singleton⟩
      | cons next steps => exact ⟨_, hc, List.intercalate_cons_cons⟩

/-- The text of a request is in front of a category, with a slash behind it,
exactly if its steps are in front of the steps to the folder. -/
theorem asksFor_join_iff (h : ∀ step ∈ folder, IsName step) (request : Text) :
    asksFor request (Text.join ['/'] folder) = true ↔
      if request = [] then folder = [] else Text.fields '/' request <+: folder := by
  rw [asksFor, Bool.or_eq_true, beq_iff_eq, Text.startsWith_iff]
  rcases join_cases h with rfl | ⟨c, rest, hc, hjoin⟩
  · have hempty : Text.join ['/'] [] = [] := rfl
    have hnone : ¬ request ++ ['/'] <+: [] := by simp
    rw [hempty]
    split
    · next hrequest => simp [hrequest]
    · next hrequest =>
        have hfields : ¬ Text.fields '/' request <+: [] := by
          simp [Text.fields_ne_nil]
        simp [Ne.symm hrequest, hnone, hfields]
  · have hfolder : folder ≠ [] := by
      rintro rfl
      cases hjoin
    have hsteps : Text.fields '/' (Text.join ['/'] folder) = folder :=
      Text.fields_join hfolder fun step hstep => (h step hstep).slashless
    split
    · next hrequest =>
        subst hrequest
        simp [hjoin, hfolder, Ne.symm hc]
    · next hrequest =>
        constructor
        · rintro (heq | ⟨after, hafter⟩)
          · have hwhole : Text.fields '/' request = folder := by rw [← heq, hsteps]
            exact hwhole ▸ List.prefix_rfl
          · rw [List.append_assoc, List.singleton_append] at hafter
            rw [← hsteps, ← hafter, Text.fields_append]
            exact List.prefix_append _ _
        · rintro ⟨more, hmore⟩
          have hnamed : Text.join ['/'] (Text.fields '/' request) = request :=
            Text.join_fields request
          by_cases hlast : more = []
          · rw [hlast, List.append_nil] at hmore
            rw [← hmore, hnamed]
            exact .inl rfl
          · rw [← hmore, Text.join_append (Text.fields_ne_nil _) hlast, hnamed]
            exact .inr ⟨Text.join ['/'] more, by rw [List.append_assoc]; rfl⟩

end AsksFor

/-! ## What requests choose -/

section Select

variable {all : List Category} {names : List Text} {name : Text}

theorem mem_chosen_add (selection : Selection) (request : Text) :
    name ∈ (selection.add names request).chosen ↔
      name ∈ selection.chosen ∨ (name ∈ names ∧ asksFor (trimSlashes request) name = true) := by
  rw [Selection.add]
  split
  · next hidle =>
      -- the request may ask for a name, but then that name was chosen before
      rw [List.isEmpty_iff, List.filter_eq_nil_iff] at hidle
      constructor
      · exact .inl
      · rintro (hchosen | ⟨hname, hasks⟩)
        · exact hchosen
        · by_contra hnew
          refine hidle name hname ?_
          simp [hasks, hnew]
  · rw [List.mem_append, List.mem_filter]
    constructor
    · rintro (hchosen | ⟨hname, hfound⟩)
      · exact .inl hchosen
      · rw [Bool.and_eq_true] at hfound
        exact .inr ⟨hname, hfound.1⟩
    · rintro (hchosen | ⟨hname, hasks⟩)
      · exact .inl hchosen
      · by_cases hold : name ∈ selection.chosen
        · exact .inl hold
        · refine .inr ⟨hname, ?_⟩
          simp [hasks, hold]

theorem mem_chosen_foldl (selection : Selection) (requests : List Text) :
    name ∈ (requests.foldl (Selection.add names) selection).chosen ↔
      name ∈ selection.chosen ∨
        (name ∈ names ∧ ∃ request ∈ requests, asksFor (trimSlashes request) name = true) := by
  induction requests generalizing selection with
  | nil => simp
  | cons request requests ih =>
      rw [List.foldl_cons, ih, mem_chosen_add, or_assoc, ← and_or_left]
      simp only [List.exists_mem_cons_iff]

theorem mem_chosen_select (requests : List Text) :
    name ∈ (select all requests).chosen ↔
      name ∈ all.map (·.name) ∧ ∃ request ∈ requests, asksFor (trimSlashes request) name = true := by
  rw [select, mem_chosen_foldl]
  simp

/-- The chosen categories stand in the order of all of them. -/
theorem chosen_eq_filter (requests : List Text) :
    chosen all requests = all.filter fun category =>
      requests.isEmpty || requests.any fun request =>
        asksFor (trimSlashes request) category.name := by
  rw [chosen]
  split
  · next hnone => simp [hnone]
  · next hsome =>
      refine List.filter_congr fun category hcategory => ?_
      have hname : category.name ∈ all.map (·.name) := List.mem_map_of_mem hcategory
      rw [Bool.eq_iff_iff, List.contains_iff_mem, mem_chosen_select]
      simp [hname, hsome]

theorem mem_of_mem_chosen {requests : List Text} {category : Category}
    (h : category ∈ chosen all requests) : category ∈ all := by
  rw [chosen_eq_filter] at h
  exact List.mem_of_mem_filter h

end Select

/-! ## Tests by category -/

theorem nodup_eraseDups (names : List Text) : names.eraseDups.Nodup := by
  induction names using List.reverseRecOn with
  | nil => exact List.nodup_nil
  | append_singleton names name ih =>
      rw [eraseDups_concat]
      split
      · rwa [List.append_nil]
      · next hnew =>
          rw [← List.mem_eraseDups] at hnew
          rw [← List.concat_eq_append]
          exact ih.concat hnew

section Group

variable {tests : List TestFile} {category : Category} {test : TestFile}

theorem mem_group : category ∈ group tests ↔
    category.name ∈ tests.map (·.category) ∧
      category.tests = (tests.filter (·.category = category.name)).mergeSort fun a b =>
        TestFile.stepsLe a.steps b.steps := by
  rw [group, List.mem_map]
  constructor
  · rintro ⟨name, hname, rfl⟩
    rw [List.mem_mergeSort, List.mem_eraseDups] at hname
    exact ⟨hname, rfl⟩
  · rintro ⟨hname, htests⟩
    refine ⟨category.name, ?_, ?_⟩
    · rw [List.mem_mergeSort, List.mem_eraseDups]
      exact hname
    · rw [← htests]

theorem exists_mem_group (h : test ∈ tests) :
    ∃ category ∈ group tests, test.category = category.name := by
  have hname : test.category ∈ (tests.map (·.category)).eraseDups.mergeSort Text.le := by
    rw [List.mem_mergeSort, List.mem_eraseDups]
    exact List.mem_map_of_mem h
  exact ⟨_, List.mem_map_of_mem hname, rfl⟩

theorem mem_tests_group (h : category ∈ group tests) :
    test ∈ category.tests ↔ test ∈ tests ∧ test.category = category.name := by
  rw [(mem_group.mp h).2, List.mem_mergeSort, List.mem_filter, decide_eq_true_eq]

theorem nodup_names_group (tests : List TestFile) : ((group tests).map (·.name)).Nodup := by
  have hnames : (group tests).map (·.name) =
      (tests.map (·.category)).eraseDups.mergeSort Text.le := by
    rw [group, List.map_map]
    exact List.map_id _
  rw [hnames, (List.mergeSort_perm _ _).nodup_iff]
  exact nodup_eraseDups _

/-- The tests of the categories that pass, each once. -/
theorem nodup_steps_group (hsteps : (tests.map (·.steps)).Nodup) (p : Category → Bool) :
    ((((group tests).filter p).flatMap (·.tests)).map (·.steps)).Nodup := by
  rw [List.map_flatMap, List.nodup_flatMap]
  constructor
  · intro category hcategory
    rw [(mem_group.mp (List.mem_of_mem_filter hcategory)).2,
      ((List.mergeSort_perm _ _).map _).nodup_iff]
    exact hsteps.sublist (List.filter_sublist.map _)
  · have hnames := nodup_names_group tests
    rw [List.Nodup, List.pairwise_map] at hnames
    refine (hnames.imp_of_mem fun {one other} hone hother hne => ?_).filter _
    -- the steps to a test tell its category
    intro steps hfirst hsecond
    obtain ⟨first, htests, rfl⟩ := List.mem_map.mp hfirst
    obtain ⟨second, hothers, hsame⟩ := List.mem_map.mp hsecond
    have hcategory : second.category = first.category := by
      rw [TestFile.category, TestFile.category, hsame]
    rw [((mem_tests_group hone).mp htests).2, ((mem_tests_group hother).mp hothers).2] at hcategory
    exact hne hcategory.symm

end Group

end Category

/-! ## Tests in a folder -/

namespace TestFile

/-- Whether a test lies in a folder or below it. -/
structure LiesIn (folder : FileTree) (test : TestFile) : Prop where
  found : folder.get? test.steps = some (.file test.content)
  named : ∃ name, test.steps.getLast? = some name ∧ ending <:+ name

/-- Whether requests ask for a test. Where there are none, every test is asked
for. -/
def Asked (requests : List Text) (test : TestFile) : Prop :=
  requests = [] ∨ ∃ request ∈ requests, Category.AsksForFolder request test.steps.dropLast

instance (requests : List Text) (test : TestFile) : Decidable (test.Asked requests) :=
  inferInstanceAs (Decidable (_ ∨ _))

section FindIn

variable {entries : List (Text × FileTree)} {test : TestFile}

theorem findIn_eq (entries : List (Text × FileTree)) :
    findIn (.folder entries) = ((FileTree.folder entries).files.filter fun found =>
      found.1.getLast?.any (Text.endsWith ending)).map fun found => ⟨found.1, found.2⟩ := by
  rw [← List.filterMap_eq_map, List.filterMap_filter]
  rfl

theorem mem_findIn_iff (h : (FileTree.folder entries).WellNamed) :
    test ∈ findIn (.folder entries) ↔ test.LiesIn (.folder entries) := by
  have hnamed : test.steps.getLast?.any (Text.endsWith ending) = true ↔
      ∃ name, test.steps.getLast? = some name ∧ ending <:+ name := by
    rw [Option.any_eq_true]
    refine exists_congr fun name => and_congr_right fun _ => ?_
    rw [Text.endsWith, Text.startsWith_iff, List.reverse_prefix]
  rw [findIn_eq, List.mem_map]
  constructor
  · rintro ⟨⟨steps, content⟩, hmem, rfl⟩
    obtain ⟨hfile, hname⟩ := List.mem_filter.mp hmem
    exact ⟨(FileTree.mem_files_iff h).mp hfile, hnamed.mp hname⟩
  · intro hlies
    refine ⟨(test.steps, test.content), List.mem_filter.mpr ⟨?_, hnamed.mpr hlies.named⟩, rfl⟩
    exact (FileTree.mem_files_iff h).mpr hlies.found

theorem nodup_steps_findIn (h : (FileTree.folder entries).WellNamed) :
    ((findIn (.folder entries)).map (·.steps)).Nodup := by
  rw [findIn_eq, List.map_map]
  exact (FileTree.files_nodup h).sublist (List.filter_sublist.map _)

theorem LiesIn.isName (h : (FileTree.folder entries).WellNamed)
    (hlies : test.LiesIn (.folder entries)) : ∀ step ∈ test.steps, FileTree.IsName step :=
  fun _ => FileTree.isName_of_mem_files h ((FileTree.mem_files_iff h).mpr hlies.found)

theorem category_eq (h : ∀ step ∈ test.steps, FileTree.IsName step) :
    test.category = Text.join ['/'] test.steps.dropLast := by
  refine (List.map_congr_left fun c hc => if_neg ?_).trans (List.map_id _)
  rintro rfl
  rcases Text.mem_join hc with hslash | ⟨step, hstep, hmem⟩
  · exact absurd hslash (by decide)
  · exact (h step (List.dropLast_subset _ hstep)).backslashless hmem

/-- What is asked of the category of a test is asked of the test. -/
theorem asked_iff (h : ∀ step ∈ test.steps, FileTree.IsName step) (requests : List Text) :
    test.Asked requests ↔ (requests.isEmpty || requests.any fun request =>
      Category.asksFor (Category.trimSlashes request) test.category) = true := by
  have hfolder : ∀ step ∈ test.steps.dropLast, FileTree.IsName step :=
    fun step hstep => h step (List.dropLast_subset _ hstep)
  rw [Asked, Bool.or_eq_true, List.isEmpty_iff, List.any_eq_true, category_eq h]
  simp only [Category.asksFor_join_iff hfolder, Category.AsksForFolder]

end FindIn

end TestFile

namespace Category

section Chosen

variable {entries : List (Text × FileTree)}

/-- The tests of the chosen categories are those that are asked for. -/
theorem mem_tests_chosen (h : (FileTree.folder entries).WellNamed) {requests : List Text}
    {test : TestFile} :
    test ∈ (chosen (group (TestFile.findIn (.folder entries))) requests).flatMap (·.tests) ↔
      test.LiesIn (.folder entries) ∧ test.Asked requests := by
  rw [chosen_eq_filter, List.mem_flatMap, ← TestFile.mem_findIn_iff h]
  constructor
  · rintro ⟨category, hcategory, htest⟩
    obtain ⟨hgroup, hasked⟩ := List.mem_filter.mp hcategory
    obtain ⟨hfound, hname⟩ := (mem_tests_group hgroup).mp htest
    have hlies := (TestFile.mem_findIn_iff h).mp hfound
    rw [← hname] at hasked
    exact ⟨hfound, (TestFile.asked_iff (hlies.isName h) requests).mpr hasked⟩
  · rintro ⟨hfound, hasked⟩
    have hlies := (TestFile.mem_findIn_iff h).mp hfound
    obtain ⟨category, hgroup, hname⟩ := exists_mem_group hfound
    rw [TestFile.asked_iff (hlies.isName h), hname] at hasked
    exact ⟨category, List.mem_filter.mpr ⟨hgroup, hasked⟩,
      (mem_tests_group hgroup).mpr ⟨hfound, hname⟩⟩

/-- Requests that ask for the same tests choose the same categories. -/
theorem chosen_congr (h : (FileTree.folder entries).WellNamed) {requests others : List Text}
    (hsame : ∀ test : TestFile, test.LiesIn (.folder entries) →
      (test.Asked others ↔ test.Asked requests)) :
    chosen (group (TestFile.findIn (.folder entries))) others =
      chosen (group (TestFile.findIn (.folder entries))) requests := by
  rw [chosen_eq_filter, chosen_eq_filter]
  refine List.filter_congr fun category hcategory => ?_
  obtain ⟨test, hfound, hname⟩ := List.mem_map.mp (mem_group.mp hcategory).1
  have hlies := (TestFile.mem_findIn_iff h).mp hfound
  have hboth := hsame test hlies
  rw [TestFile.asked_iff (hlies.isName h), TestFile.asked_iff (hlies.isName h), hname] at hboth
  exact Bool.eq_iff_iff.mpr hboth

/-- No category is without a test. -/
theorem tests_ne_nil {tests : List TestFile} {category : Category} (h : category ∈ group tests) :
    category.tests ≠ [] := by
  obtain ⟨test, hfound, hname⟩ := List.mem_map.mp (mem_group.mp h).1
  exact List.ne_nil_of_mem ((mem_tests_group h).mpr ⟨hfound, hname⟩)

end Chosen

end Category

namespace TestSuite

/-! ## Runs -/

section Run

variable (now : Timestamp) (draws : Draws) (path : Text)

/-- The tests of categories, each with its result. -/
def runOf (categories : List Category) : List (TestFile × TestResult) :=
  categories.zipIdx.flatMap fun (category, index) =>
    category.tests.zipIdx.map fun (test, place) =>
      (test, .ofBytes now ((draws.branch index).branch place) (pathOf path test) test.content)

theorem runOf_tests (categories : List Category) :
    (runOf now draws path categories).map Prod.fst = categories.flatMap (·.tests) := by
  have htests (entry : Category × Nat) :
      (entry.1.tests.zipIdx.map fun (test, place) =>
        (test, TestResult.ofBytes now ((draws.branch entry.2).branch place) (pathOf path test)
          test.content)).map Prod.fst = entry.1.tests := by
    rw [List.map_map]
    exact List.zipIdx_map_fst 0 entry.1.tests
  rw [runOf, List.map_flatMap]
  simp only [htests]
  rw [← List.flatMap_map, List.zipIdx_map_fst]

theorem runOf_results (categories : List Category) :
    (runOf now draws path categories).map Prod.snd =
      (runCategories now draws path categories).flatMap Prod.snd := by
  rw [runOf, runCategories, List.map_flatMap, List.flatMap_map]
  refine List.flatMap_congr fun entry _ => ?_
  rw [List.map_map]
  rfl

theorem runOf_eq_nil_iff {categories : List Category}
    (h : ∀ category ∈ categories, category.tests ≠ []) :
    runOf now draws path categories = [] ↔ categories = [] := by
  constructor
  · intro hnil
    have htests := runOf_tests now draws path categories
    rw [hnil, List.map_nil, eq_comm, List.flatMap_eq_nil_iff] at htests
    exact List.eq_nil_iff_forall_not_mem.mpr fun category hcategory =>
      h category hcategory (htests category hcategory)
  · rintro rfl
    rfl

theorem result_of_mem_runOf {categories : List Category} {entry : TestFile × TestResult}
    (h : entry ∈ runOf now draws path categories) :
    ∃ own, entry.2 = .ofBytes now own (pathOf path entry.1) entry.1.content := by
  rw [runOf, List.mem_flatMap] at h
  obtain ⟨⟨category, index⟩, -, hentry⟩ := h
  obtain ⟨⟨test, place⟩, -, rfl⟩ := List.mem_map.mp hentry
  exact ⟨_, rfl⟩

end Run

/-! ## Reports -/

/-- The report of a folder of tests without its warnings. -/
def chosenReport (plain : Bool) (now : Timestamp) (draws : Draws) (path : Text)
    (all chosen : List Category) : Report :=
  if all.isEmpty then { err := noTests path, code := 1 }
  else if chosen.isEmpty then
    { err := Report.linesText ["no matching categories found".toList], code := 1 }
  else
    let results := runCategories now draws path chosen
    resultsReport plain
      (results.flatMap fun (name, results) => categoryLines plain name results)
      (results.flatMap Prod.snd)

/-- A report, but for what was said before it, of a run of the tests in a folder
that requests ask for. -/
structure RunsAsked (plain : Bool) (now : Timestamp) (path : Text) (folder : FileTree)
    (requests : List Text) (run : List (TestFile × TestResult)) (report : Report) : Prop where
  /-- What came of a test is what comes of its bytes. -/
  result : ∀ entry ∈ run,
    ∃ own, entry.2 = TestResult.ofBytes now own (pathOf path entry.1) entry.1.content
  once : (run.map fun entry => entry.1.steps).Nodup
  asked : ∀ test : TestFile,
    (∃ result, (test, result) ∈ run) ↔ test.LiesIn folder ∧ test.Asked requests
  /-- The results are told in the order of the run, and all of them are counted. -/
  told : run ≠ [] → ∃ lines, (run.map fun entry => resultLine plain entry.2).Sublist lines ∧
    report = resultsReport plain lines (run.map Prod.snd)
  code : report.code = 0 ↔ run ≠ [] ∧ ∀ entry ∈ run, entry.2.passed = true

section Report

variable (plain : Bool) (now : Timestamp) (draws : Draws) (path : Text)

theorem folderReport_eq (requests : List Text) (all : List Category) :
    ∃ said, folderReport plain now draws path requests all =
      (chosenReport plain now draws path all (Category.chosen all requests)).after said := by
  rw [folderReport, chosenReport]
  split
  · exact ⟨[], rfl⟩
  · exact ⟨_, rfl⟩

theorem resultLines_sublist (categories : List Category) :
    ((runOf now draws path categories).map fun entry => resultLine plain entry.2).Sublist
      ((runCategories now draws path categories).flatMap fun (name, results) =>
        categoryLines plain name results) := by
  have hlines : ((runOf now draws path categories).map fun entry => resultLine plain entry.2) =
      (runCategories now draws path categories).flatMap fun (_, results) =>
        results.map (resultLine plain) := by
    show (runOf now draws path categories).map (resultLine plain ∘ Prod.snd) = _
    rw [← List.map_map, runOf_results, List.map_flatMap]
  rw [hlines]
  exact List.Sublist.flatMap_right _ fun _ _ => List.sublist_append_right _ _

theorem code_resultsReport (lines : List Text) (run : List (TestFile × TestResult)) :
    (resultsReport plain lines (run.map Prod.snd)).code = 0 ↔
      ∀ entry ∈ run, entry.2.passed = true := by
  have hall : (run.map Prod.snd).all (·.passed) = true ↔ ∀ entry ∈ run, entry.2.passed = true := by
    rw [List.all_map, List.all_eq_true]
    rfl
  rw [← hall, resultsReport, exitCode]
  split
  · next h => exact ⟨fun _ => h, fun _ => rfl⟩
  · next h => exact ⟨fun hone => absurd hone Nat.one_ne_zero, fun h' => absurd h' h⟩

theorem chosenReport_of_nil (all : List Category) :
    (chosenReport plain now draws path all []).code = 1 := by
  rw [chosenReport]
  split <;> rfl

theorem chosenReport_of_ne_nil {all chosen : List Category} (hall : all ≠ []) (hchosen : chosen ≠ []) :
    ∃ lines, ((runOf now draws path chosen).map fun entry => resultLine plain entry.2).Sublist lines ∧
      chosenReport plain now draws path all chosen =
        resultsReport plain lines ((runOf now draws path chosen).map Prod.snd) := by
  refine ⟨_, resultLines_sublist plain now draws path chosen, ?_⟩
  rw [chosenReport, if_neg (by simpa using hall), if_neg (by simpa using hchosen), runOf_results]

variable {entries : List (Text × FileTree)}

theorem chosenReport_runsAsked (h : (FileTree.folder entries).WellNamed) (requests : List Text) :
    let all := Category.group (TestFile.findIn (.folder entries))
    let chosen := Category.chosen all requests
    RunsAsked plain now path (.folder entries) requests (runOf now draws path chosen)
      (chosenReport plain now draws path all chosen) := by
  intro all chosen
  have htests := runOf_tests now draws path chosen
  have hnil : runOf now draws path chosen = [] ↔ chosen = [] :=
    runOf_eq_nil_iff now draws path fun _ hcategory =>
      Category.tests_ne_nil (Category.mem_of_mem_chosen hcategory)
  have hsome (hchosen : chosen ≠ []) := by
    have hall : all ≠ [] := List.ne_nil_of_mem (Category.mem_of_mem_chosen (List.head_mem hchosen))
    exact chosenReport_of_ne_nil plain now draws path hall hchosen
  constructor
  case result => exact fun entry => result_of_mem_runOf now draws path
  case once =>
    show ((runOf now draws path chosen).map ((·.steps) ∘ Prod.fst)).Nodup
    rw [← List.map_map, htests]
    show (((Category.chosen all requests).flatMap (·.tests)).map (·.steps)).Nodup
    rw [Category.chosen_eq_filter]
    exact Category.nodup_steps_group (TestFile.nodup_steps_findIn h) _
  case asked =>
    intro test
    rw [← Category.mem_tests_chosen h, ← htests, List.mem_map]
    constructor
    · rintro ⟨result, hmem⟩
      exact ⟨(test, result), hmem, rfl⟩
    · rintro ⟨⟨_, result⟩, hmem, rfl⟩
      exact ⟨result, hmem⟩
  case told => exact fun hrun => hsome fun hchosen => hrun (hnil.mpr hchosen)
  case code =>
    by_cases hchosen : chosen = []
    · rw [hchosen, chosenReport_of_nil]
      exact iff_of_false Nat.one_ne_zero fun h => h.1 rfl
    · obtain ⟨lines, -, hreport⟩ := hsome hchosen
      rw [hreport, code_resultsReport, ne_eq, hnil]
      exact (and_iff_right hchosen).symm

end Report

/-- The tests of a folder that requests ask for are run, each once, and the report
is that of their results. Requests that ask for the same tests have the same run
and the same report, but for what is said before it. -/
theorem report_runs_asked {tree : FileTree} {path : Text} {entries : List (Text × FileTree)}
    (hfound : tree.find path = .ok (.folder entries))
    (hnamed : (FileTree.folder entries).WellNamed) (plain : Bool) (now : Timestamp)
    (draws : Draws) (requests : List Text) :
    ∃ run body, RunsAsked plain now path (.folder entries) requests run body ∧
      ∀ others : List Text,
        (∀ test : TestFile, test.LiesIn (.folder entries) →
          (test.Asked others ↔ test.Asked requests)) →
        ∃ said, report tree now draws plain { path, categories := others } = body.after said := by
  refine ⟨_, _, chosenReport_runsAsked plain now draws path hnamed requests, ?_⟩
  intro others hsame
  obtain ⟨said, hsaid⟩ := folderReport_eq plain now draws path others
    (Category.group (TestFile.findIn (.folder entries)))
  rw [Category.chosen_congr hnamed hsame] at hsaid
  refine ⟨said, ?_⟩
  rw [report, hfound]
  exact hsaid

/-- Two folders of which the name of one begins with that of the other, a test
beside them and a file that is none; a request with slashes at its ends, one for
the first folder alone and a repeated one. -/
theorem report_runs_asked_of_alike_names :
    let below : FileTree := .folder [("a.test.md".toList, .file .empty)]
    let entries := [("http".toList, below), ("httpx".toList, below),
      ("b.test.md".toList, .file .empty), ("c.md".toList, .file .empty)]
    let tree : FileTree := .folder [("t".toList, .folder entries)]
    let now : Timestamp := ⟨⟨2024, 3, 15⟩, 10, 0, 0, 0⟩
    let requests := ["/http/".toList, [], "http".toList]
    let inside : TestFile := ⟨["http".toList, "a.test.md".toList], .empty⟩
    let beside : TestFile := ⟨["httpx".toList, "a.test.md".toList], .empty⟩
    tree.find "t".toList = .ok (.folder entries) ∧ (FileTree.folder entries).WellNamed ∧
      ∃ run body, RunsAsked true now "t".toList (.folder entries) requests run body ∧
        (∃ result, (inside, result) ∈ run) ∧ (¬ ∃ result, (beside, result) ∈ run) ∧
        ∃ said, report tree now (fun _ => 0) true
          { path := "t".toList, categories := [[], "http".toList] } = body.after said := by
  intro below entries tree now requests inside beside
  have hfound : tree.find "t".toList = .ok (.folder entries) := rfl
  have hbelow : below.WellNamed :=
    .folder (by decide) (by decide) (List.forall_mem_singleton.mpr (.file _))
  have hnamed : (FileTree.folder entries).WellNamed := by
    refine .folder (by decide) (by decide) ?_
    simp only [entries, List.forall_mem_cons]
    exact ⟨hbelow, hbelow, .file _, .file _, fun _ h => absurd h List.not_mem_nil⟩
  obtain ⟨run, body, hrun, hothers⟩ :=
    report_runs_asked hfound hnamed true now (fun _ => 0) requests
  refine ⟨hfound, hnamed, run, body, hrun, ?_, ?_, hothers _ ?_⟩
  · exact (hrun.asked inside).mpr ⟨⟨rfl, "a.test.md".toList, rfl, by decide⟩, by decide⟩
  · intro hmem
    have hasked := ((hrun.asked beside).mp hmem).2
    exact absurd hasked (by decide)
  · intro test _
    have htrimmed : Category.trimSlashes "/http/".toList = Category.trimSlashes "http".toList := by
      decide
    simp only [TestFile.Asked, requests, Category.AsksForFolder, List.exists_mem_cons_iff, htrimmed]
    tauto

end TestSuite

end RequestBook
