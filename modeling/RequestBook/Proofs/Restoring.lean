import RequestBook.Proofs.Naming
import RequestBook.Proofs.Numerals

/-!
# A request comes back from its JSON

What an object tells a request is what its members tell one by one: a member is
found by its key, and keys are distinct. So their order does not matter, members
under keys that are no fields are passed over, and a part that is left out is
what it would be if it stood there with nothing in it (`Tells`).

Of a member the reader does three things: it takes the key, it takes the value
when the key is that of a field, and it passes over the value otherwise. The last
is where a value may be anything that can be written (`scans_pass`).
-/

namespace RequestBook

namespace Json

/-! ## The members that are wanted -/

section Wanted

variable {wanted : Text → Bool}

/-- The members that a reader of records gets through: what it keeps is not too
deep. -/
def Readable (wanted : Text → Bool) (members : List (Text × Json)) : Prop :=
  ∀ m ∈ members, wanted m.1 = true → Scans (.keep (deepest - 1)) m.2

theorem wanted_value {key : Text} {j : Json}
    (h : wanted key = true → Scans (.keep (deepest - 1)) j) {rest : Text} (hrest : Stops rest) :
    ∃ j', (wanted key = true → j' = j) ∧
      value (if wanted key then Care.keep (deepest - 1) else .pass)
        (fuelFor (written j ++ rest)) (written j ++ rest) = .ok (j', rest) := by
  have hfuel : (written j).length ≤ fuelFor (written j ++ rest) := by
    rw [fuelFor, List.length_append]
    omega
  by_cases hkey : wanted key = true
  · obtain ⟨j', hj', hvalue⟩ := (h hkey).value
    rw [if_pos hkey]
    exact ⟨j', fun _ => hj' rfl, hvalue hrest hfuel⟩
  · obtain ⟨j', -, hvalue⟩ := (scans_pass j).value
    rw [if_neg hkey]
    exact ⟨j', fun h => absurd h hkey, hvalue hrest hfuel⟩

/-- What is kept of a member that was read. -/
theorem kept_member {key : Text} {j j' : Json} {more : List (Text × Json)}
    (h : wanted key = true → j' = j) :
    (if wanted key then [(key, j')] else []) ++ more.filter (wanted ·.1) =
      ((key, j) :: more).filter (wanted ·.1) := by
  by_cases hkey : wanted key = true
  · rw [if_pos hkey, h hkey, List.filter_cons, if_pos hkey]
    rfl
  · rw [if_neg hkey, List.filter_cons, if_neg hkey]
    rfl

theorem wantedMembers_written {member : Text × Json} {more : List (Text × Json)}
    (h : Readable wanted (member :: more)) {fuel : Nat} {rest : Text} (hfuel : more.length < fuel) :
    wantedMembers wanted fuel
        (Text.join [','] (writtenMembers (member :: more)) ++ '\x7d' :: rest) =
      .ok ((member :: more).filter (wanted ·.1), rest) := by
  induction more generalizing member fuel with
  | nil =>
      obtain ⟨key, j⟩ := member
      obtain ⟨fuel, rfl⟩ : ∃ n, fuel = n + 1 := ⟨fuel - 1, by omega⟩
      obtain ⟨j', hj', hvalue⟩ := wanted_value (h _ List.mem_cons_self)
        (stops_mark '\x7d' rest (by decide))
      rw [join_writtenMembers_singleton, List.append_assoc, List.cons_append, wantedMembers,
        skipGap_writtenString, string?_kept]
      simp only [bind, Except.bind, skipGap_of_not_gap (show isGap ':' = false by decide), hvalue,
        skipGap_of_not_gap (show isGap '\x7d' = false by decide)]
      rw [← kept_member hj', List.filter_nil, List.append_nil]
  | cons next more ih =>
      obtain ⟨key, j⟩ := member
      obtain ⟨fuel, rfl⟩ : ∃ n, fuel = n + 1 := ⟨fuel - 1, by omega⟩
      rw [List.length_cons] at hfuel
      have hothers := ih (fun m hm => h m (List.mem_cons_of_mem _ hm))
        (by omega : more.length < fuel)
      obtain ⟨j', hj', hvalue⟩ := wanted_value (h _ List.mem_cons_self)
        (stops_mark ',' (Text.join [','] (writtenMembers (next :: more)) ++ '\x7d' :: rest)
          (by decide))
      rw [join_writtenMembers_cons, List.append_assoc, List.cons_append, List.append_assoc,
        List.cons_append, wantedMembers, skipGap_writtenString, string?_kept]
      simp only [bind, Except.bind, skipGap_of_not_gap (show isGap ':' = false by decide), hvalue,
        skipGap_of_not_gap (show isGap ',' = false by decide), hothers]
      rw [kept_member hj']

theorem length_le_join_writtenMembers (member : Text × Json) (more : List (Text × Json)) :
    more.length < (Text.join [','] (writtenMembers (member :: more))).length := by
  induction more generalizing member with
  | nil =>
      obtain ⟨t, ht⟩ := exists_head_members member []
      rw [ht, List.length_cons]
      exact Nat.succ_pos _
  | cons next more ih =>
      have := ih next
      rw [join_writtenMembers_cons]
      simp only [List.length_append, List.length_cons]
      omega

/-- Of an object that was written the wanted members are read, in their order. -/
theorem readWanted_written {members : List (Text × Json)} (h : Readable wanted members) :
    readWanted wanted (written (.object members)) = .ok (members.filter (wanted ·.1)) := by
  cases members with
  | nil => rfl
  | cons member more =>
      have hwritten : written (.object (member :: more)) =
          '\x7b' :: (Text.join [','] (writtenMembers (member :: more)) ++ ['\x7d']) := rfl
      obtain ⟨t, hhead⟩ := exists_head_members member more
      have hlength := length_le_join_writtenMembers member more
      have hmembers {fuel : Nat} (hfuel : more.length < fuel) :
          wantedMembers wanted fuel (Text.join [','] (writtenMembers (member :: more)) ++
            ['\x7d']) = .ok ((member :: more).filter (wanted ·.1), []) :=
        wantedMembers_written h hfuel
      have hquote : skipGap ('"' :: (t ++ ['\x7d'])) = '"' :: (t ++ ['\x7d']) :=
        skipGap_of_not_gap (by decide) _
      rw [hwritten, readWanted, skipGap_of_not_gap (by decide)]
      rw [hhead, List.cons_append] at hmembers ⊢
      rw [hhead] at hlength
      simp only [hquote]
      split
      · next heq => cases heq
      · next rest _ =>
          have hfuel : more.length < fuelFor ('"' :: (t ++ ['\x7d'])) := by
            rw [fuelFor]
            simp only [List.length_append, List.length_cons] at hlength ⊢
            omega
          rw [hmembers hfuel]
          rfl

end Wanted

end Json

namespace Request

/-! ## The members that tell a request -/

/-- The members of the object that a request is written as. -/
def members (r : Request) : List (Text × Json) := [
  ("name".toList, .string r.name),
  ("url".toList, .string r.url),
  ("method".toList, .string r.method),
  ("httpVersion".toList, .string r.httpVersion),
  ("header".toList, fieldsJson r.header),
  ("param".toList, fieldsJson r.param),
  ("pathSegments".toList, segmentsJson r.pathSegments),
  ("body".toList, .string r.body)]

theorem json_eq_object (r : Request) : r.json = .object r.members := rfl

/-- The members that may be left out: parts with nothing in them. -/
def defaults : List (Text × Json) := [
  ("header".toList, .object []),
  ("param".toList, .object []),
  ("pathSegments".toList, .array []),
  ("body".toList, .string [])]

/-- Members that tell a request: the ones it is written with, in any order, maybe
without some that have nothing in them, and maybe with others under keys that are
no fields. -/
def Tells (members : List (Text × Json)) (r : Request) : Prop :=
  ∃ kept others, kept.Sublist r.members ∧ (∀ m ∈ r.members, m ∈ kept ∨ m ∈ defaults) ∧
    (∀ m ∈ others, isFieldName m.1 = false) ∧ members.Perm (kept ++ others)

variable {r : Request} {members : List (Text × Json)}

theorem keys_members (r : Request) : r.members.map Prod.fst = fieldNames.map String.toList := rfl

theorem nodup_keys_members (r : Request) : (r.members.map Prod.fst).Nodup := by
  rw [keys_members]
  decide

theorem isFieldName_of_mem {m : Text × Json} (h : m ∈ r.members) : isFieldName m.1 = true := by
  have hkey : m.1 ∈ r.members.map Prod.fst := List.mem_map_of_mem h
  have hall : ∀ key ∈ fieldNames.map String.toList, isFieldName key = true := by decide
  exact hall _ (keys_members r ▸ hkey)

theorem scans_of_mem {m : Text × Json} (h : m ∈ r.members) :
    Json.Scans (.keep (Json.deepest - 1)) m.2 := by
  have hfields (fields : Fields) : Json.Scans (.keep (Json.deepest - 1)) (fieldsJson fields) := by
    refine Json.scans_object rfl fun m hm => ?_
    obtain ⟨entry, _, rfl⟩ := List.mem_map.mp hm
    exact Json.scans_string _ entry.2
  have hsegments : Json.Scans (.keep (Json.deepest - 1)) (segmentsJson r.pathSegments) := by
    refine Json.scans_array rfl fun item hitem => ?_
    obtain ⟨segment, _, rfl⟩ := List.mem_map.mp hitem
    exact Json.scans_string _ segment
  simp only [Request.members, List.mem_cons, List.not_mem_nil, or_false] at h
  rcases h with rfl | rfl | rfl | rfl | rfl | rfl | rfl | rfl
  · exact Json.scans_string _ r.name
  · exact Json.scans_string _ r.url
  · exact Json.scans_string _ r.method
  · exact Json.scans_string _ r.httpVersion
  · exact hfields r.header
  · exact hfields r.param
  · exact hsegments
  · exact Json.scans_string _ r.body

theorem Tells.readable (h : Tells members r) : Json.Readable isFieldName members := by
  obtain ⟨kept, others, hkept, -, hothers, hperm⟩ := h
  intro m hm hfield
  rcases List.mem_append.mp (hperm.mem_iff.mp hm) with hmem | hmem
  · exact scans_of_mem (hkept.subset hmem)
  · rw [hothers m hmem] at hfield
    cases hfield

/-! ## Looking up fields -/

/-- The fields among members that tell a request: each has its value or is left
out, and none is there twice. -/
structure FieldsOf (found : List (Text × Json)) (r : Request) : Prop where
  distinct : (found.map Prod.fst).Nodup
  lookup : ∀ m ∈ r.members, found.lookup m.1 = some m.2 ∨ found.lookup m.1 = none ∧ m ∈ defaults

theorem Tells.fieldsOf (h : Tells members r) :
    FieldsOf (members.filter (isFieldName ·.1)) r := by
  obtain ⟨kept, others, hkept, hleft, hothers, hperm⟩ := h
  have hfound : (members.filter (isFieldName ·.1)).Perm kept := by
    have hall : kept.filter (isFieldName ·.1) = kept :=
      List.filter_eq_self.mpr fun m hm => isFieldName_of_mem (hkept.subset hm)
    have hnone : others.filter (isFieldName ·.1) = [] :=
      List.filter_eq_nil_iff.mpr fun m hm => by simp [hothers m hm]
    have hfields : (kept ++ others).filter (isFieldName ·.1) = kept := by
      rw [List.filter_append, hall, hnone, List.append_nil]
    exact hfields ▸ hperm.filter _
  have hdistinct : ((members.filter (isFieldName ·.1)).map Prod.fst).Nodup :=
    ((hfound.map Prod.fst).nodup_iff).mpr ((hkept.map Prod.fst).nodup (nodup_keys_members r))
  refine ⟨hdistinct, fun m hm => ?_⟩
  cases hlookup : (members.filter (isFieldName ·.1)).lookup m.1 with
  | some j =>
      -- keys are distinct in the request, so this is the value it was written with
      have hmem := hkept.subset (hfound.mem_iff.mp (mem_of_lookup hlookup))
      have hboth := lookup_of_mem (nodup_keys_members r) hmem
      rw [lookup_of_mem (nodup_keys_members r) hm] at hboth
      exact .inl hboth.symm
  | none =>
      refine .inr ⟨rfl, (hleft m hm).resolve_left fun hmem => ?_⟩
      rw [lookup_of_mem hdistinct (hfound.mem_iff.mpr hmem)] at hlookup
      cases hlookup

namespace FieldsOf

variable {found : List (Text × Json)} {name : String} {j : Json} {α : Type} {x : α}
  {read : Json → Except Json.Fault α}

theorem required_lookup (h : FieldsOf found r) (hmem : (name.toList, j) ∈ r.members)
    (hneeded : name.toList ∉ defaults.map Prod.fst) (hread : read j = .ok x) :
    required name read (found.lookup name.toList) = .ok x := by
  rcases h.lookup _ hmem with hsome | ⟨-, hdefault⟩
  · rw [hsome]
    exact hread
  · exact absurd (List.mem_map_of_mem hdefault) hneeded

theorem optional_lookup (h : FieldsOf found r) (hmem : (name.toList, j) ∈ r.members) {default : α}
    (hdefault : (name.toList, j) ∈ defaults → x = default) (hread : read j = .ok x) :
    optional default read (found.lookup name.toList) = .ok x := by
  rcases h.lookup _ hmem with hsome | ⟨hnone, hleft⟩
  · rw [hsome]
    exact hread
  · rw [hnone, hdefault hleft]
    rfl

end FieldsOf

/-! ## Coming back -/

theorem textsOf_segmentsJson (segments : List Text) :
    textsOf (segmentsJson segments) = .ok segments := by
  rw [textsOf]
  exact (List.mapM_map ..).trans (List.mapM_pure.trans (congrArg pure (List.map_id _)))

theorem eq_of_mem_defaults {key : Text} {j j' : Json} (hmem : (key, j) ∈ defaults)
    (h : defaults.lookup key = some j') : j = j' := by
  have hdistinct : (defaults.map Prod.fst).Nodup := by decide
  exact Option.some.inj ((lookup_of_mem hdistinct hmem).symm.trans h)

theorem eq_empty_of_mem_defaults {key : Text} {fields : Fields}
    (hmem : (key, fieldsJson fields) ∈ defaults)
    (h : defaults.lookup key = some (.object [])) : fields = .empty := by
  have hnil := eq_of_mem_defaults hmem h
  cases fields with
  | mk entries distinct =>
      rw [fieldsJson, Json.object.injEq, List.map_eq_nil_iff] at hnil
      subst hnil
      rfl

theorem ofValues_lookup {found : List (Text × Json)} (h : FieldsOf found r) :
    ofValues (fun name => found.lookup name.toList) = .ok r := by
  have hmem (i : Fin 8) : r.members.get i ∈ r.members := List.get_mem _ _
  have hname : required "name" Json.asText (found.lookup "name".toList) = .ok r.name :=
    h.required_lookup (hmem 0) (by decide) rfl
  have hurl : required "url" Json.asText (found.lookup "url".toList) = .ok r.url :=
    h.required_lookup (hmem 1) (by decide) rfl
  have hmethod : required "method" Json.asText (found.lookup "method".toList) = .ok r.method :=
    h.required_lookup (hmem 2) (by decide) rfl
  have hversion : required "httpVersion" Json.asText (found.lookup "httpVersion".toList) =
      .ok r.httpVersion :=
    h.required_lookup (hmem 3) (by decide) rfl
  have hheader : optional .empty fieldsOf (found.lookup "header".toList) = .ok r.header :=
    h.optional_lookup (hmem 4) (fun hleft => eq_empty_of_mem_defaults hleft rfl)
      (fieldsOf_fieldsJson _)
  have hparam : optional .empty fieldsOf (found.lookup "param".toList) = .ok r.param :=
    h.optional_lookup (hmem 5) (fun hleft => eq_empty_of_mem_defaults hleft rfl)
      (fieldsOf_fieldsJson _)
  have hsegments : optional [] textsOf (found.lookup "pathSegments".toList) =
      .ok r.pathSegments := by
    refine h.optional_lookup (hmem 6) (fun hleft => ?_) (textsOf_segmentsJson _)
    have hnil : segmentsJson r.pathSegments = .array [] := eq_of_mem_defaults hleft rfl
    rw [segmentsJson, Json.array.injEq, List.map_eq_nil_iff] at hnil
    exact hnil
  have hbody : optional [] Json.asText (found.lookup "body".toList) = .ok r.body :=
    h.optional_lookup (hmem 7) (fun hleft => Json.string.inj (eq_of_mem_defaults hleft rfl)) rfl
  simp only [ofValues, hname, hurl, hmethod, hversion, hheader, hparam, hsegments, hbody, bind,
    Except.bind]
  rfl

theorem FieldsOf.countP_le_one {found : List (Text × Json)} (h : FieldsOf found r)
    (key : Text) : found.countP (·.1 == key) ≤ 1 := by
  have hcount := List.nodup_iff_count_le_one.mp h.distinct key
  rw [List.count, List.countP_map] at hcount
  exact hcount

theorem ofMembers_fields {found : List (Text × Json)} (h : FieldsOf found r) :
    ofMembers found = .ok r := by
  have honce (name : String) : ¬ found.countP (·.1 == name.toList) > 1 :=
    Nat.not_lt.mpr (h.countP_le_one _)
  rw [ofMembers]
  simp only [fieldNames, List.forIn_cons, if_neg (honce _)]
  exact ofValues_lookup h

theorem ofJsonText_tells (h : Tells members r) :
    ofJsonText (Json.object members).written = .ok r := by
  have hwritten : (Json.object members).written =
      '\x7b' :: (Text.join [','] (Json.writtenMembers members) ++ ['\x7d']) := rfl
  have hread := Json.readWanted_written h.readable
  rw [ofJsonText]
  split
  · next heq =>
      rw [hwritten, Json.skipGap_of_not_gap (by decide)] at heq
      cases heq
  · rw [hread]
    exact ofMembers_fields h.fieldsOf

theorem tells_members (r : Request) : Tells r.members r :=
  ⟨r.members, [], List.Sublist.refl _, fun _ hm => .inl hm, fun _ hm => absurd hm List.not_mem_nil,
    by rw [List.append_nil]⟩

/-- A request comes back from the text it is written as, with its maps and its
segments in their order, and from the text of every other object that tells it. -/
theorem ofJsonText_written (r : Request) :
    ofJsonText r.json.written = .ok r ∧
      ∀ members, Tells members r → ofJsonText (Json.object members).written = .ok r := by
  rw [json_eq_object]
  exact ⟨ofJsonText_tells (tells_members r), fun members h => ofJsonText_tells h⟩

theorem ofJsonText_written_rearranged :
    let r : Request :=
      { name := "a \"b\"".toList
        url := "http://x".toList
        method := "GET".toList
        httpVersion := defaultHttpVersion
        header := .ofList [("b".toList, "é\n".toList), ("a".toList, [])] }
    let others : List (Text × Json) :=
      [("Url".toList, .array [.number (.finite true 3 (-1)), .object [([], .null)]]),
        ("Url".toList, .integer (-12))]
    let members := (r.members.take 5).reverse ++ others
    Tells members r ∧ ofJsonText (Json.object members).written = .ok r := by
  intro r others members
  have htells : Tells members r := by
    refine ⟨r.members.take 5, others, List.take_sublist 5 _, fun m hm => ?_, fun m hm => ?_,
      (List.reverse_perm _).append_right _⟩
    · rw [← List.take_append_drop 5 r.members] at hm
      refine (List.mem_append.mp hm).imp_right fun hleft => ?_
      exact List.mem_cons_of_mem ("header".toList, Json.object []) hleft
    · have hkey : m.1 ∈ others.map Prod.fst := List.mem_map_of_mem hm
      have hall : ∀ key ∈ others.map Prod.fst, isFieldName key = false := by decide
      exact hall _ hkey
  exact ⟨htells, (ofJsonText_written r).2 members htells⟩

end Request

end RequestBook
