import RequestBook.Text

/-!
# Ordered fields

Headers and query parameters are maps whose order shows: a key keeps the
place where it first came, and the last value written for it wins. The keys
of such a map are distinct, and the type carries that, so nobody who holds a
map has to ask.
-/

namespace RequestBook

/-- The entries after a value is written for a key: in its old place, or at
the end. -/
def putEntry {α : Type} (key : Text) (value : α) : List (Text × α) → List (Text × α)
  | [] => [(key, value)]
  | entry :: rest =>
    if entry.1 = key then (key, value) :: rest else entry :: putEntry key value rest

theorem mem_keys_putEntry {α : Type} {key k : Text} {value : α} :
    ∀ {entries : List (Text × α)},
    k ∈ (putEntry key value entries).map Prod.fst →
    k = key ∨ k ∈ entries.map Prod.fst := by
  intro entries
  induction entries with
  | nil => simp [putEntry]
  | cons entry rest ih =>
    unfold putEntry
    split
    · intro h
      simp only [List.map_cons, List.mem_cons] at h ⊢
      exact h.imp_right .inr
    · intro h
      simp only [List.map_cons, List.mem_cons] at h ⊢
      rcases h with h | h
      · exact .inr (.inl h)
      · exact (ih h).imp_right .inr

theorem nodup_keys_putEntry {α : Type} {key : Text} {value : α} :
    ∀ {entries : List (Text × α)},
    (entries.map Prod.fst).Nodup → ((putEntry key value entries).map Prod.fst).Nodup := by
  intro entries
  induction entries with
  | nil => simp [putEntry]
  | cons entry rest ih =>
    intro h
    simp only [List.map_cons, List.nodup_cons] at h
    unfold putEntry
    split
    · next same =>
      simp only [List.map_cons, List.nodup_cons]
      exact ⟨same ▸ h.1, h.2⟩
    · next other =>
      simp only [List.map_cons, List.nodup_cons]
      refine ⟨fun mem => ?_, ih h.2⟩
      rcases mem_keys_putEntry mem with same | mem
      · exact other same
      · exact h.1 mem

/-- A map from texts to texts that keeps the order of first writing. -/
structure Fields where
  entries : List (Text × Text)
  distinct : (entries.map Prod.fst).Nodup
  deriving DecidableEq

namespace Fields

/-- The map with no entry. -/
def empty : Fields := ⟨[], .nil⟩

instance : Inhabited Fields := ⟨empty⟩

/-- The map after a value is written for a key. -/
def insert (fields : Fields) (key value : Text) : Fields :=
  ⟨putEntry key value fields.entries, nodup_keys_putEntry fields.distinct⟩

/-- The map after all pairs are written in turn. -/
def ofList (pairs : List (Text × Text)) : Fields :=
  pairs.foldl (fun fields pair => fields.insert pair.1 pair.2) empty

/-- The value of a key. -/
def get? (fields : Fields) (key : Text) : Option Text := fields.entries.lookup key

end Fields

end RequestBook
