import RequestBook.Section

/-!
# Increasing numbers

Blocks name each other by number, and a number is looked up in two ways: an
outline halves the list, a section takes the last block with the number. On a
list whose numbers increase both find the one block that has the number, and
each fails only when there is none. Halving is the search that could miss in
silence, so `position?_eq_some_iff` is stated as an equivalence: hanging a
block drops its link exactly when no block has the number.
-/

namespace RequestBook

/-- The numbers of the blocks increase. -/
def Numbered (blocks : List Block) : Prop := blocks.Pairwise fun a b => a.id < b.id

namespace Numbered

variable {blocks : List Block} {a b : Block} {i j : Nat}

theorem lt_of_getElem? (h : Numbered blocks) (ha : blocks[i]? = some a)
    (hb : blocks[j]? = some b) (hij : i < j) : a.id < b.id := by
  obtain ⟨hi, rfl⟩ := List.getElem?_eq_some_iff.mp ha
  obtain ⟨hj, rfl⟩ := List.getElem?_eq_some_iff.mp hb
  exact List.pairwise_iff_getElem.mp h i j hi hj hij

theorem index_eq (h : Numbered blocks) (ha : blocks[i]? = some a)
    (hb : blocks[j]? = some b) (hid : a.id = b.id) : i = j := by
  rcases Nat.lt_trichotomy i j with hlt | heq | hgt
  · have := h.lt_of_getElem? ha hb hlt
    omega
  · exact heq
  · have := h.lt_of_getElem? hb ha hgt
    omega

theorem index_lt (h : Numbered blocks) (ha : blocks[i]? = some a)
    (hb : blocks[j]? = some b) (hid : a.id < b.id) : i < j := by
  rcases Nat.lt_trichotomy i j with hlt | rfl | hgt
  · exact hlt
  · rw [ha, Option.some.injEq] at hb
    rw [hb] at hid
    omega
  · have := h.lt_of_getElem? hb ha hgt
    omega

theorem eq_of_id (h : Numbered blocks) (ha : a ∈ blocks) (hb : b ∈ blocks)
    (hid : a.id = b.id) : a = b := by
  obtain ⟨i, hi⟩ := List.mem_iff_getElem?.mp ha
  obtain ⟨j, hj⟩ := List.mem_iff_getElem?.mp hb
  have hij := h.index_eq hi hj hid
  rw [hij, hj] at hi
  exact (Option.some.inj hi).symm

/-- A change at the place of a block is a change of the block with its
number. -/
theorem modify_eq_map (h : Numbered blocks) (ha : blocks[i]? = some a)
    (change : Block → Block) :
    blocks.modify i change = blocks.map fun b => if b.id = a.id then change b else b := by
  refine List.ext_getElem? fun j => ?_
  rw [List.getElem?_modify, List.getElem?_map]
  cases hj : blocks[j]? with
  | none => rfl
  | some b =>
      by_cases hij : i = j
      · subst hij
        rw [ha] at hj
        cases hj
        simp
      · have hne : b.id ≠ a.id := fun hid => hij (h.index_eq ha hj hid.symm)
        simp [hij, hne]

end Numbered

/-! ## Halving -/

theorem positionBetween_sound {blocks : List Block} {id low high i : Nat}
    (h : positionBetween blocks id low high = some i) :
    ∃ b, blocks[i]? = some b ∧ b.id = id := by
  induction hn : high - low using Nat.strongRecOn generalizing low high with
  | ind n ih =>
    rw [positionBetween] at h
    split at h
    · next hlt =>
        simp only [] at h
        split at h
        · cases h
        · next b hb =>
            split at h
            · next hid =>
                cases h
                exact ⟨b, hb, hid⟩
            · split at h
              · exact ih _ (by omega) h rfl
              · exact ih _ (by omega) h rfl
    · cases h

/-- The block sought stays between the two ends: what is cut away has smaller
numbers, or greater ones. -/
theorem positionBetween_complete {blocks : List Block} (hnum : Numbered blocks)
    {b : Block} {low high i : Nat} (hi : blocks[i]? = some b) (hlow : low ≤ i)
    (hhigh : i < high) (hlen : high ≤ blocks.length) :
    positionBetween blocks b.id low high = some i := by
  induction hn : high - low using Nat.strongRecOn generalizing low high with
  | ind n ih =>
    obtain ⟨m, hm⟩ : ∃ m, blocks[(low + high) / 2]? = some m :=
      ⟨_, List.getElem?_eq_getElem (by omega)⟩
    rw [positionBetween, if_pos (by omega)]
    simp only [hm]
    split
    · next hid => rw [hnum.index_eq hm hi hid]
    · next hne =>
        have hother : (low + high) / 2 ≠ i := by
          intro h
          rw [h, hi] at hm
          cases hm
          exact hne rfl
        split
        · next hlt =>
            have hbefore : (low + high) / 2 < i := by
              refine Nat.lt_of_not_ge fun hge => ?_
              have := hnum.lt_of_getElem? hi hm (by omega)
              omega
            exact ih _ (by omega) (by omega) hhigh hlen rfl
        · next hge =>
            have hafter : i < (low + high) / 2 :=
              Nat.lt_of_not_ge fun hle => hge (hnum.lt_of_getElem? hm hi (by omega))
            exact ih _ (by omega) hlow hafter (by omega) rfl

theorem position?_eq_some_iff {blocks : List Block} (hnum : Numbered blocks) {id i : Nat} :
    position? blocks id = some i ↔ ∃ b, blocks[i]? = some b ∧ b.id = id := by
  constructor
  · exact positionBetween_sound
  · rintro ⟨b, hb, rfl⟩
    have hlt := (List.getElem?_eq_some_iff.mp hb).1
    exact positionBetween_complete hnum hb (Nat.zero_le _) hlt (Nat.le_refl _)

/-! ## The block with a number -/

theorem Outline.get?_eq_some_iff {outline : Outline} (hnum : Numbered outline.blocks)
    {id : Nat} {b : Block} :
    outline.get? id = some b ↔ b ∈ outline.blocks ∧ b.id = id := by
  rw [Outline.get?, Option.bind_eq_some_iff]
  constructor
  · rintro ⟨i, hi, hb⟩
    obtain ⟨b', hb', hid⟩ := (position?_eq_some_iff hnum).mp hi
    rw [hb] at hb'
    cases hb'
    exact ⟨List.mem_of_getElem? hb, hid⟩
  · rintro ⟨hb, hid⟩
    obtain ⟨i, hi⟩ := List.mem_iff_getElem?.mp hb
    exact ⟨i, (position?_eq_some_iff hnum).mpr ⟨b, hi, hid⟩, hi⟩

theorem blockNumbered?_eq_some_iff {blocks : List Block} (hnum : Numbered blocks)
    {id : Nat} {b : Block} :
    blockNumbered? blocks id = some b ↔ b ∈ blocks ∧ b.id = id := by
  rw [blockNumbered?]
  constructor
  · intro h
    exact ⟨List.mem_reverse.mp (List.mem_of_find?_eq_some h), by simpa using List.find?_some h⟩
  · rintro ⟨hb, hid⟩
    cases hf : blocks.reverse.find? (·.id == id) with
    | none =>
        have := List.find?_eq_none.mp hf b (List.mem_reverse.mpr hb)
        exact absurd (by simpa using hid) this
    | some b' =>
        have hmem := List.mem_reverse.mp (List.mem_of_find?_eq_some hf)
        have hid' : b'.id = id := by simpa using List.find?_some hf
        rw [hnum.eq_of_id hmem hb (hid'.trans hid.symm)]

theorem Numbered.blockNumbered?_of_mem {blocks : List Block} (hnum : Numbered blocks)
    {b : Block} (hb : b ∈ blocks) : blockNumbered? blocks b.id = some b :=
  (blockNumbered?_eq_some_iff hnum).mpr ⟨hb, rfl⟩

end RequestBook
