import RequestBook.FileTree
import RequestBook.Proofs.Naming

/-!
# A walk finds every file once

A walk lists the files of a tree, and looking up follows steps through it. In a
tree of folders the names of whose entries are distinct (`WellNamed`) these say
the same: a file is in the list under its steps exactly if it is what the steps
lead to (`mem_files_iff`), and under these steps it is there once
(`files_nodup`). All three facts of this module are proved along the tree, one
folder at a time, where the first step tells which entry a file comes from.
-/

namespace RequestBook

namespace FileTree

/-- What a name in a folder can be. -/
structure IsName (name : Text) : Prop where
  full : name ≠ []
  slashless : '/' ∉ name
  backslashless : '\\' ∉ name

instance (name : Text) : Decidable (IsName name) :=
  decidable_of_iff (name ≠ [] ∧ '/' ∉ name ∧ '\\' ∉ name)
    ⟨fun h => ⟨h.1, h.2.1, h.2.2⟩, fun h => ⟨h.full, h.slashless, h.backslashless⟩⟩

/-- A tree of names that are names, distinct within each folder. -/
inductive WellNamed : FileTree → Prop
  | file (content : ByteArray) : WellNamed (file content)
  | folder {entries : List (Text × FileTree)} (distinct : (entries.map Prod.fst).Nodup)
      (names : ∀ entry ∈ entries, IsName entry.1) (below : ∀ entry ∈ entries, WellNamed entry.2) :
      WellNamed (folder entries)

/-- The files of an entry, with the steps that lead to them from its folder. -/
def filesOf (entry : Text × FileTree) : List (List Text × ByteArray) :=
  entry.2.files.map fun found => (entry.1 :: found.1, found.2)

theorem filesIn_eq_flatMap (entries : List (Text × FileTree)) :
    filesIn entries = entries.flatMap filesOf := by
  induction entries with
  | nil => rfl
  | cons entry entries ih =>
      rw [filesIn, ih, List.flatMap_cons]
      rfl

theorem mem_filesOf {entry : Text × FileTree} {steps : List Text} {content : ByteArray} :
    (steps, content) ∈ filesOf entry ↔
      ∃ rest, steps = entry.1 :: rest ∧ (rest, content) ∈ entry.2.files := by
  rw [filesOf, List.mem_map]
  constructor
  · rintro ⟨⟨rest, bytes⟩, hmem, heq⟩
    obtain ⟨rfl, rfl⟩ := Prod.mk.inj heq
    exact ⟨rest, rfl, hmem⟩
  · rintro ⟨rest, rfl, hmem⟩
    exact ⟨(rest, content), hmem, rfl⟩

variable {tree : FileTree}

theorem mem_files_iff (h : tree.WellNamed) {steps : List Text} {content : ByteArray} :
    (steps, content) ∈ tree.files ↔ tree.get? steps = some (file content) := by
  induction h generalizing steps with
  | file bytes =>
      cases steps with
      | nil => simp [files, get?, eq_comm]
      | cons name steps => simp [files, get?]
  | @folder entries distinct names below ih =>
      rw [files, filesIn_eq_flatMap, List.mem_flatMap]
      cases steps with
      | nil =>
          -- no steps lead to the folder itself, which is no file
          constructor
          · rintro ⟨entry, -, hfiles⟩
            obtain ⟨rest, hrest, -⟩ := mem_filesOf.mp hfiles
            cases hrest
          · intro h
            cases h
      | cons name steps =>
          constructor
          · rintro ⟨entry, hentry, hfiles⟩
            obtain ⟨rest, hrest, hfile⟩ := mem_filesOf.mp hfiles
            obtain ⟨rfl, rfl⟩ := List.cons.inj hrest
            have hfound : entries.lookup entry.1 = some entry.2 := lookup_of_mem distinct hentry
            rw [get?, hfound]
            exact (ih entry hentry).mp hfile
          · intro h
            rw [get?] at h
            cases hfound : entries.lookup name with
            | none =>
                rw [hfound] at h
                cases h
            | some below =>
                rw [hfound] at h
                have hentry : (name, below) ∈ entries := mem_of_lookup hfound
                exact ⟨(name, below), hentry, mem_filesOf.mpr
                  ⟨steps, rfl, (ih (name, below) hentry).mpr h⟩⟩

theorem files_nodup (h : tree.WellNamed) : (tree.files.map Prod.fst).Nodup := by
  induction h with
  | file content => exact List.nodup_singleton _
  | @folder entries distinct names below ih =>
      rw [files, filesIn_eq_flatMap, List.map_flatMap, List.nodup_flatMap]
      constructor
      · intro entry hentry
        rw [filesOf, List.map_map]
        have hsteps : entry.2.files.map (Prod.fst ∘ fun found => (entry.1 :: found.1, found.2)) =
            (entry.2.files.map Prod.fst).map (entry.1 :: ·) := by
          rw [List.map_map]
          rfl
        rw [hsteps]
        exact (ih entry hentry).map (List.cons_injective)
      · -- the first step tells two entries apart
        rw [List.Nodup, List.pairwise_map] at distinct
        refine distinct.imp fun {one other} hother => ?_
        intro steps hone hsteps
        obtain ⟨⟨_, content⟩, hfound, rfl⟩ := List.mem_map.mp hone
        obtain ⟨⟨_, bytes⟩, hagain, heq⟩ := List.mem_map.mp hsteps
        obtain ⟨rest, rfl, -⟩ := mem_filesOf.mp hfound
        obtain ⟨more, rfl, -⟩ := mem_filesOf.mp hagain
        exact hother (List.cons.inj heq).1.symm

theorem isName_of_mem_files (h : tree.WellNamed) {steps : List Text} {content : ByteArray}
    (hmem : (steps, content) ∈ tree.files) {name : Text} (hname : name ∈ steps) : IsName name := by
  induction h generalizing steps with
  | file bytes =>
      rw [files, List.mem_singleton] at hmem
      rw [(Prod.mk.inj hmem).1] at hname
      cases hname
  | @folder entries distinct names below ih =>
      rw [files, filesIn_eq_flatMap, List.mem_flatMap] at hmem
      obtain ⟨entry, hentry, hfiles⟩ := hmem
      obtain ⟨rest, rfl, hfile⟩ := mem_filesOf.mp hfiles
      rcases List.mem_cons.mp hname with rfl | hname
      · exact names entry hentry
      · exact ih entry hentry hfile hname

end FileTree

end RequestBook
