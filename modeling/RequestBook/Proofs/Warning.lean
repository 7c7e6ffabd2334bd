import Mathlib.Data.List.GetD
import RequestBook.Proofs.Choosing

/-!
# What is warned about

A request that adds nothing to the choice is told to be for a category that is
not found. All requests add to one choice, so whether a request adds anything
depends on those before it, and nothing but its own warning does
(`idle_select_concat`): it adds nothing exactly if every category that it finds
is found by one before it.

That takes in the requests that find nothing, which are always warned about.
It also takes in those that find something and come too late. So a warning
says what is the case as long as no category is asked for twice
(`Warns.truthful`), and no longer: a request that is made again is told not to
be found, in a line that names what it found as available.
-/

namespace RequestBook

namespace Category

/-! ## Requests that add nothing -/

/-- Whether a request finds a category: the category goes by its name, the
slashes at its ends left out, or lies below one that does. -/
def Finds (request name : Text) : Prop :=
  name = trimSlashes request ∨ trimSlashes request ++ ['/'] <+: name

instance (request name : Text) : Decidable (Finds request name) :=
  inferInstanceAs (Decidable (_ ∨ _))

/-- Whether each category that a request finds is found by one before it. -/
def AddsNothing (all : List Category) (before : List Text) (request : Text) : Prop :=
  ∀ category ∈ all, Finds request category.name →
    ∃ other ∈ before, Finds other category.name

instance (all : List Category) (before : List Text) (request : Text) :
    Decidable (AddsNothing all before request) :=
  inferInstanceAs (Decidable (∀ category ∈ all, _ → _))

theorem asksFor_iff_finds {request name : Text} :
    asksFor (trimSlashes request) name = true ↔ Finds request name := by
  rw [asksFor, Bool.or_eq_true, beq_iff_eq, Text.startsWith_iff, Finds]

/-- Whether a request is idle is read off what it would add. -/
theorem idle_add (names : List Text) (selection : Selection) (request : Text) :
    (selection.add names request).idle = selection.idle ++
      if ∀ name ∈ names, Finds request name → name ∈ selection.chosen then [trimSlashes request]
      else [] := by
  have hnone : (names.filter fun name => asksFor (trimSlashes request) name &&
      !selection.chosen.contains name).isEmpty = true ↔
        ∀ name ∈ names, Finds request name → name ∈ selection.chosen := by
    rw [List.isEmpty_iff, List.filter_eq_nil_iff]
    refine forall₂_congr fun name _ => ?_
    rw [← asksFor_iff_finds]
    simp
  rw [Selection.add]
  split
  · next hidle => rw [if_pos (hnone.mp hidle)]
  · next hadds => rw [if_neg fun hidle => hadds (hnone.mpr hidle), List.append_nil]

theorem select_concat (all : List Category) (requests : List Text) (request : Text) :
    select all (requests ++ [request]) = (select all requests).add (all.map (·.name)) request := by
  rw [select, List.foldl_concat, select]

theorem idle_select_concat (all : List Category) (requests : List Text) (request : Text) :
    (select all (requests ++ [request])).idle = (select all requests).idle ++
      if AddsNothing all requests request then [trimSlashes request] else [] := by
  have hadds : (∀ name ∈ all.map (·.name), Finds request name → name ∈ (select all requests).chosen) ↔
      AddsNothing all requests request := by
    rw [List.forall_mem_map, AddsNothing]
    refine forall₂_congr fun category hcategory => imp_congr_right fun _ => ?_
    rw [mem_chosen_select, and_iff_right (List.mem_map_of_mem hcategory)]
    simp only [asksFor_iff_finds]
  rw [select_concat, idle_add]
  simp only [hadds]

/-! ## The requests that are warned about -/

/-- The positions of the requests that add nothing to those before them. -/
def idlePositions (all : List Category) (requests : List Text) : List Nat :=
  (List.range requests.length).filter fun i =>
    AddsNothing all (requests.take i) (requests.getD i [])

theorem mem_idlePositions_iff {all : List Category} {requests : List Text} {i : Nat} {request : Text}
    (hi : requests[i]? = some request) :
    i ∈ idlePositions all requests ↔ AddsNothing all (requests.take i) request := by
  have hlt : i < requests.length := (List.getElem?_eq_some_iff.mp hi).1
  have hat : requests.getD i [] = request := by
    rw [List.getD_eq_getElem?_getD, hi, Option.getD_some]
  rw [idlePositions, List.mem_filter, hat]
  simp [hlt]

theorem getD_concat_length (requests : List Text) (request : Text) :
    (requests ++ [request]).getD requests.length [] = request := by
  rw [List.getD_append_right _ _ _ _ (Nat.le_refl _), Nat.sub_self, List.getD_cons_zero]

/-- One more request does not change what is said of those before it. -/
theorem idlePositions_concat (all : List Category) (requests : List Text) (request : Text) :
    idlePositions all (requests ++ [request]) = idlePositions all requests ++
      if AddsNothing all requests request then [requests.length] else [] := by
  rw [idlePositions, List.length_append, List.length_singleton, List.range_succ,
    List.filter_append, List.filter_singleton, List.take_left, getD_concat_length, Bool.cond_decide]
  congr 1
  refine List.filter_congr fun i hi => ?_
  have hlt := List.mem_range.mp hi
  rw [List.take_append_of_le_length hlt.le, List.getD_append _ _ _ _ hlt]

theorem idle_select (all : List Category) (requests : List Text) :
    (select all requests).idle =
      (idlePositions all requests).map fun i => trimSlashes (requests.getD i []) := by
  induction requests using List.reverseRecOn with
  | nil => rfl
  | append_singleton requests request ih =>
      have hold : (idlePositions all requests).map (fun i =>
          trimSlashes ((requests ++ [request]).getD i [])) =
            (idlePositions all requests).map fun i => trimSlashes (requests.getD i []) := by
        refine List.map_congr_left fun i hi => ?_
        have hlt := List.mem_range.mp (List.mem_of_mem_filter hi)
        rw [List.getD_append _ _ _ _ hlt]
      rw [idle_select_concat, idlePositions_concat, List.map_append, hold, ih]
      congr 1
      split
      · rw [List.map_singleton, getD_concat_length]
      · rfl

end Category

namespace TestSuite

open Category (Finds AddsNothing idlePositions mem_idlePositions_iff trimSlashes warning)

/-! ## What is told of them -/

/-- The positions of the requests that the report of a folder of tests warns
about. -/
structure Warns (all : List Category) (requests : List Text) (positions : List Nat) : Prop where
  increase : positions.Pairwise (· < ·)
  mem_iff : ∀ i, i ∈ positions ↔
    ∃ request, requests[i]? = some request ∧ AddsNothing all (requests.take i) request
  /-- Every request that finds nothing is warned about. -/
  unfound : ∀ i request, requests[i]? = some request →
    (∀ category ∈ all, ¬ Finds request category.name) → i ∈ positions
  /-- A request that finds nothing that was found before is warned about only then. -/
  truthful : ∀ i request, requests[i]? = some request →
    (∀ before ∈ requests.take i, ∀ category ∈ all,
      Finds request category.name → ¬ Finds before category.name) →
    (i ∈ positions ↔ ∀ category ∈ all, ¬ Finds request category.name)
  told : all ≠ [] → ∀ (plain : Bool) (now : Timestamp) (draws : Draws) (path : Text),
    folderReport plain now draws path requests all =
      (chosenReport plain now draws path all (Category.chosen all requests)).after
        (positions.flatMap fun i => warning all (trimSlashes (requests.getD i [])))

/-- The requests that are warned about are those that find nothing but what
requests before them found. -/
theorem folderReport_warns (all : List Category) (requests : List Text) :
    Warns all requests (idlePositions all requests) := by
  have hunfound {i : Nat} {request : Text} (hi : requests[i]? = some request)
      (hnone : ∀ category ∈ all, ¬ Finds request category.name) :
      i ∈ idlePositions all requests :=
    (mem_idlePositions_iff hi).mpr fun category hcategory hfinds =>
      absurd hfinds (hnone category hcategory)
  constructor
  case increase => exact List.pairwise_lt_range.filter _
  case mem_iff =>
    intro i
    constructor
    · intro hmem
      have hlt := List.mem_range.mp (List.mem_of_mem_filter hmem)
      have hi : requests[i]? = some requests[i] := List.getElem?_eq_getElem hlt
      exact ⟨_, hi, (mem_idlePositions_iff hi).mp hmem⟩
    · rintro ⟨request, hi, hadds⟩
      exact (mem_idlePositions_iff hi).mpr hadds
  case unfound => exact fun i request => hunfound
  case truthful =>
    intro i request hi hnew
    refine ⟨fun hmem category hcategory hfinds => ?_, hunfound hi⟩
    obtain ⟨before, hbefore, hfound⟩ :=
      (mem_idlePositions_iff hi).mp hmem category hcategory hfinds
    exact hnew before hbefore category hcategory hfinds hfound
  case told =>
    intro hall plain now draws path
    have hsome : ¬ all.isEmpty = true := by simpa using hall
    rw [folderReport, if_neg hsome, chosenReport, if_neg hsome, Category.idle_select,
      List.flatMap_map]

/-- A request that is made twice finds its category both times and is warned
about. -/
theorem warns_of_repeated :
    let all : List Category :=
      [⟨"http".toList, [⟨["http".toList, "a.test.md".toList], .empty⟩]⟩]
    let requests := ["http".toList, "http".toList]
    (∀ request ∈ requests, ∃ category ∈ all, Finds request category.name) ∧
      (Category.select all requests).idle = ["http".toList] ∧
      ∀ (plain : Bool) (now : Timestamp) (draws : Draws) (path : Text),
        warning all "http".toList <+: (folderReport plain now draws path requests all).err := by
  intro all requests
  refine ⟨by decide, by decide, fun plain now draws path => ?_⟩
  have hidle : (Category.select all requests).idle = ["http".toList] := by decide
  rw [folderReport, if_neg (by decide), hidle, List.flatMap_singleton]
  exact List.prefix_append _ _

end TestSuite

end RequestBook
