import RequestBook.Extraction
import RequestBook.Proofs.Splitting
import RequestBook.Request.Json

/-!
# JSON that was written is read back

Writing puts no blank into a value and escapes what may not stand in a string,
so the scanners get through what was written without a choice: the first
character of a value tells what it is, and the value ends where its text ends,
whatever follows (`Scans`). That is so for a value that is kept and for one that
is passed over; the one that is kept comes out as it was (`read_written`).
Numbers are left out, as they are kept in binary and written in decimal digits.

Fuel never runs out. A scanner gives one unit to each item, and an item takes
a character and the sign behind it another, so the length of the text is more
than enough.
-/

namespace RequestBook

namespace Json

/-! ## Characters that show -/

/-- Text without control characters, which stands on one line as it is. -/
def Shows (t : Text) : Prop := ∀ c ∈ t, 32 ≤ c.toNat

instance (t : Text) : Decidable (Shows t) :=
  decidable_of_iff (t.all fun c => 32 ≤ c.toNat) (by simp [Shows])

theorem shows_append {s t : Text} : Shows (s ++ t) ↔ Shows s ∧ Shows t := List.forall_mem_append

theorem shows_cons {c : Char} {t : Text} : Shows (c :: t) ↔ 32 ≤ c.toNat ∧ Shows t :=
  List.forall_mem_cons

theorem shows_join {sep : Text} {pieces : List Text} (hsep : Shows sep)
    (hpieces : ∀ piece ∈ pieces, Shows piece) : Shows (Text.join sep pieces) := by
  intro c hc
  rcases Text.mem_join hc with hc | ⟨piece, hpiece, hc⟩
  · exact hsep c hc
  · exact hpieces piece hpiece c hc

theorem Shows.oneLine {t : Text} (h : Shows t) : Text.OneLine t :=
  ⟨fun hmem => absurd (h _ hmem) (by decide), fun hmem => absurd (h _ hmem) (by decide)⟩

/-! ## Strings -/

theorem hexValue?_hexDigit {n : Nat} (h : n < 16) : Text.hexValue? (Text.hexDigit n) = some n := by
  have hall : ∀ k : Fin 16, Text.hexValue? (Text.hexDigit k) = some k.val := by decide
  exact hall ⟨n, h⟩

theorem fourHex_control {c : Char} (hc : c.toNat < 32) (rest : Text) :
    fourHex ('0' :: '0' :: Text.hexDigit (c.toNat / 16) ::
      Text.hexDigit (c.toNat % 16) :: rest) = .ok (c.toNat, rest) := by
  have hzero : Text.hexValue? '0' = some 0 := by decide
  simp only [fourHex, hzero, hexValue?_hexDigit (show c.toNat / 16 < 16 by omega),
    hexValue?_hexDigit (Nat.mod_lt c.toNat (by omega : 0 < 16)), Except.ok.injEq,
    Prod.mk.injEq, and_true]
  omega

theorem unicodeEscape_control {c : Char} (hc : c.toNat < 32) (rest : Text) :
    unicodeEscape ('0' :: '0' :: Text.hexDigit (c.toNat / 16) ::
      Text.hexDigit (c.toNat % 16) :: rest) = .ok (c, rest) := by
  have hlow : isLowSurrogate c.toNat = false := by
    simp only [isLowSurrogate, Bool.and_eq_false_imp, decide_eq_true_eq]
    omega
  have hhigh : isHighSurrogate c.toNat = false := by
    simp only [isHighSurrogate, Bool.and_eq_false_imp, decide_eq_true_eq]
    omega
  rw [unicodeEscape, fourHex_control hc]
  simp only [bind, Except.bind, hlow, hhigh, Bool.false_eq_true, if_false, Char.ofNat_toNat]

theorem hexDigit_shows {n : Nat} (h : n < 16) : 32 ≤ (Text.hexDigit n).toNat := by
  have hall : ∀ k : Fin 16, 32 ≤ (Text.hexDigit k).toNat := by decide
  exact hall ⟨n, h⟩

/-- The escape of a control character is taken for that character where the
string is kept, and for some character where it is passed over. -/
theorem escape_control (care : Care) {c : Char} (hc : c.toNat < 32) :
    ∃ d, (care.keeps = true → d = c) ∧ ∀ rest, escape care ('u' :: '0' :: '0' ::
      Text.hexDigit (c.toNat / 16) :: Text.hexDigit (c.toNat % 16) :: rest) = .ok (d, rest) := by
  cases care with
  | keep room => exact ⟨c, fun _ => rfl, fun rest => unicodeEscape_control hc rest⟩
  | pass =>
      refine ⟨'u', fun h => absurd h Bool.false_ne_true, fun rest => ?_⟩
      have hfour := congrArg (Except.map fun (scanned : Scanned Nat) => ('u', scanned.2))
        (fourHex_control hc rest)
      exact hfour

/-- A character stands for itself in a string or is escaped, and the escape
has no control character. -/
theorem writtenChar_cases (care : Care) (c : Char) :
    (writtenChar c = [c] ∧ c ≠ '"' ∧ c ≠ '\\' ∧ 32 ≤ c.toNat) ∨
      ∃ s, writtenChar c = '\\' :: s ∧ Shows s ∧ ∃ d, (care.keeps = true → d = c) ∧
        ∀ rest, escape care (s ++ rest) = .ok (d, rest) := by
  have hchar : ∀ n, c.toNat = n → Char.ofNat n = c := by
    rintro n rfl
    exact Char.ofNat_toNat c
  have hsame : care.keeps = true → c = c := fun _ => rfl
  rw [writtenChar]
  split
  · next h =>
      rw [Bool.or_eq_true, decide_eq_true_eq, decide_eq_true_eq] at h
      refine .inr ⟨[c], rfl, ?_, c, hsame, fun rest => ?_⟩
      · rcases h with rfl | rfl <;> decide
      · rcases h with rfl | rfl <;> rfl
  · next h =>
      rw [Bool.or_eq_true, decide_eq_true_eq, decide_eq_true_eq, not_or] at h
      split
      · next hc => exact .inr ⟨['n'], rfl, by decide, c, hsame, fun rest => by rw [hc]; rfl⟩
      split
      · next hc => exact .inr ⟨['r'], rfl, by decide, c, hsame, fun rest => by rw [hc]; rfl⟩
      split
      · next hc => exact .inr ⟨['t'], rfl, by decide, c, hsame, fun rest => by rw [hc]; rfl⟩
      split
      · next hc =>
          exact .inr ⟨['b'], rfl, by decide, c, hsame, fun rest => by rw [← hchar 8 hc]; rfl⟩
      split
      · next hc =>
          exact .inr ⟨['f'], rfl, by decide, c, hsame, fun rest => by rw [← hchar 12 hc]; rfl⟩
      split
      · next hc =>
          refine .inr ⟨_, rfl, ?_, escape_control care hc⟩
          have hhigh := hexDigit_shows (show c.toNat / 16 < 16 by omega)
          have hlow := hexDigit_shows (Nat.mod_lt c.toNat (by omega : 0 < 16))
          simp only [shows_cons, hhigh, hlow, true_and]
          decide
      · next hc => exact .inl ⟨rfl, h.1, h.2, Nat.le_of_not_lt hc⟩

theorem stringTail_writtenChar (care : Care) (c : Char) :
    ∃ d, (care.keeps = true → d = c) ∧ ∀ {fuel : Nat} {t rest left : Text},
      stringTail care fuel rest = .ok (t, left) →
        stringTail care (fuel + 1) (writtenChar c ++ rest) = .ok (d :: t, left) := by
  rcases writtenChar_cases care c with
    ⟨hself, hquote, hslash, hshows⟩ | ⟨s, hs, _, d, hd, hescape⟩
  · refine ⟨c, fun _ => rfl, fun h => ?_⟩
    rw [hself, List.singleton_append, stringTail, if_neg hquote, if_neg hslash,
      if_neg (Nat.not_lt.mpr hshows), h]
    rfl
  · refine ⟨d, hd, fun h => ?_⟩
    have hslash : '\\' ≠ '"' := by decide
    rw [hs, List.cons_append, stringTail, if_neg hslash, if_pos rfl, hescape]
    simp only [bind, Except.bind, h]

/-- The scanner of strings gets through what was written for a text. A string
that is kept comes out as it was. -/
theorem stringTail_written (care : Care) (t : Text) :
    ∃ t', (care.keeps = true → t' = t) ∧ ∀ {fuel : Nat} (rest : Text), t.length < fuel →
      stringTail care fuel (t.flatMap writtenChar ++ '"' :: rest) = .ok (t', rest) := by
  induction t with
  | nil =>
      refine ⟨[], fun _ => rfl, fun {fuel} rest hfuel => ?_⟩
      cases fuel with
      | zero => omega
      | succ fuel => rfl
  | cons c t ih =>
      obtain ⟨t', ht', htail⟩ := ih
      obtain ⟨d, hd, hchar⟩ := stringTail_writtenChar care c
      refine ⟨d :: t', fun h => by rw [hd h, ht' h], fun {fuel} rest hfuel => ?_⟩
      rw [List.length_cons] at hfuel
      cases fuel with
      | zero => omega
      | succ fuel =>
          rw [List.flatMap_cons, List.append_assoc]
          exact hchar (htail rest (by omega))

theorem length_le_flatMap_writtenChar (t : Text) : t.length ≤ (t.flatMap writtenChar).length := by
  induction t with
  | nil => exact Nat.le_refl _
  | cons c t ih =>
      have hone : 1 ≤ (writtenChar c).length := by
        rcases writtenChar_cases .pass c with ⟨hself, _⟩ | ⟨s, hs, _⟩
        · exact hself ▸ Nat.le_refl 1
        · rw [hs, List.length_cons]
          omega
      rw [List.flatMap_cons, List.length_append, List.length_cons]
      omega

theorem writtenString_append (t rest : Text) :
    writtenString t ++ rest = '"' :: (t.flatMap writtenChar ++ '"' :: rest) := by
  rw [writtenString, List.append_assoc, List.append_assoc, List.singleton_append,
    List.singleton_append]

theorem string?_written (care : Care) (t : Text) :
    ∃ t', (care.keeps = true → t' = t) ∧
      ∀ rest, string? care (writtenString t ++ rest) = .ok (t', rest) := by
  obtain ⟨t', ht', htail⟩ := stringTail_written care t
  refine ⟨t', ht', fun rest => ?_⟩
  rw [writtenString_append, string?]
  refine htail rest ?_
  have := length_le_flatMap_writtenChar t
  rw [List.length_append]
  omega

theorem string?_kept (room : Nat) (t rest : Text) :
    string? (.keep room) (writtenString t ++ rest) = .ok (t, rest) := by
  obtain ⟨t', ht', hstring⟩ := string?_written (.keep room) t
  rw [hstring, ht' rfl]

/-! ## Values -/

/-- A value without numbers that is at most so many brackets deep. -/
inductive Plain : (room : Nat) → Json → Prop
  | null {room : Nat} : Plain room .null
  | bool {room : Nat} (b : Bool) : Plain room (.bool b)
  | string {room : Nat} (t : Text) : Plain room (.string t)
  | array {room : Nat} {items : List Json} (h : ∀ item ∈ items, Plain room item) :
      Plain (room + 1) (.array items)
  | object {room : Nat} {members : List (Text × Json)} (h : ∀ m ∈ members, Plain room m.2) :
      Plain (room + 1) (.object members)

theorem skipGap_of_not_gap {c : Char} (hc : isGap c = false) (t : Text) :
    skipGap (c :: t) = c :: t := by
  rw [skipGap, List.dropWhile_cons_of_neg (by rw [hc]; exact Bool.false_ne_true)]

/-- The characters that a value without numbers can begin with. -/
def openers : List Char := ['n', 't', 'f', '"', '[', '\x7b']

theorem of_mem_openers {c : Char} (hc : c ∈ openers) :
    isGap c = false ∧ Text.isBlank c = false ∧ c ≠ ']' ∧ c ≠ '\x60' := by
  simp only [openers, List.mem_cons, List.not_mem_nil, or_false] at hc
  rcases hc with rfl | rfl | rfl | rfl | rfl | rfl <;> decide

theorem Plain.exists_head {room : Nat} {j : Json} (h : Plain room j) :
    ∃ c ∈ openers, ∃ t, written j = c :: t := by
  cases h with
  | null => exact ⟨'n', by decide, _, rfl⟩
  | bool b =>
      cases b with
      | true => exact ⟨'t', by decide, _, rfl⟩
      | false => exact ⟨'f', by decide, _, rfl⟩
  | string t => exact ⟨'"', by decide, _, rfl⟩
  | array items => exact ⟨'[', by decide, _, rfl⟩
  | object members => exact ⟨'\x7b', by decide, _, rfl⟩

/-- A text that does not go on with a number that stands before it. -/
def Stops (rest : Text) : Prop :=
  ∀ c ∈ rest.head?, c.isDigit = false ∧ c ≠ '.' ∧ c ≠ 'e' ∧ c ≠ 'E'

theorem stops_nil : Stops [] := fun _ h => nomatch h

/-- What can stand behind a value. -/
theorem stops_mark (c : Char) (rest : Text) (hc : c ∈ [',', ']', '\x7d']) : Stops (c :: rest) := by
  intro d hd
  rw [← Option.some.inj hd]
  simp only [List.mem_cons, List.not_mem_nil, or_false] at hc
  rcases hc with rfl | rfl | rfl <;> decide

/-- The scanner of values gets through what was written for a value and stops
behind it. A value that is kept comes out as it was. -/
structure Scans (care : Care) (j : Json) : Prop where
  head : ∃ c t, written j = c :: t ∧ isGap c = false ∧ c ≠ ']'
  value : ∃ j', (care.keeps = true → j' = j) ∧ ∀ {fuel : Nat} {rest : Text}, Stops rest →
    (written j).length ≤ fuel → value care fuel (written j ++ rest) = .ok (j', rest)

theorem keeps_of_inside? {care inside : Care} (h : care.inside? = .ok inside) :
    inside.keeps = care.keeps := by
  match care with
  | .keep 0 => cases h
  | .keep (room + 1) =>
      cases h
      rfl
  | .pass =>
      cases h
      rfl

theorem join_writtenItems_singleton (j : Json) :
    Text.join [','] (writtenItems [j]) = written j := by
  rw [writtenItems, writtenItems, Text.join, List.intercalate_singleton]

theorem join_writtenItems_cons (j next : Json) (more : List Json) :
    Text.join [','] (writtenItems (j :: next :: more)) =
      written j ++ ',' :: Text.join [','] (writtenItems (next :: more)) := by
  rw [writtenItems, writtenItems, Text.join, List.intercalate_cons_cons, List.append_assoc]
  rfl

theorem items_written {care : Care} {j : Json} {more : List Json}
    (h : ∀ item ∈ j :: more, Scans care item) :
    ∃ found, (care.keeps = true → found = j :: more) ∧ ∀ {fuel : Nat} (rest : Text),
      (Text.join [','] (writtenItems (j :: more))).length < fuel →
        items care fuel (Text.join [','] (writtenItems (j :: more)) ++ ']' :: rest) =
          .ok (found, rest) := by
  induction more generalizing j with
  | nil =>
      obtain ⟨j', hj', hvalue⟩ := (h j List.mem_cons_self).value
      refine ⟨[j'], fun hkeeps => by rw [hj' hkeeps], fun {fuel} rest hfuel => ?_⟩
      obtain ⟨fuel, rfl⟩ : ∃ n, fuel = n + 1 := ⟨fuel - 1, by omega⟩
      rw [join_writtenItems_singleton] at hfuel ⊢
      rw [items, hvalue (stops_mark ']' _ (by decide)) (by omega)]
      rfl
  | cons next more ih =>
      obtain ⟨j', hj', hvalue⟩ := (h j List.mem_cons_self).value
      obtain ⟨found, hfound, hothers⟩ := ih fun item hitem => h item (List.mem_cons_of_mem _ hitem)
      refine ⟨j' :: found, fun hkeeps => by rw [hj' hkeeps, hfound hkeeps],
        fun {fuel} rest hfuel => ?_⟩
      rw [join_writtenItems_cons, List.length_append, List.length_cons] at hfuel
      obtain ⟨fuel, rfl⟩ : ∃ n, fuel = n + 1 := ⟨fuel - 1, by omega⟩
      rw [join_writtenItems_cons, List.append_assoc, List.cons_append, items,
        hvalue (stops_mark ',' _ (by decide)) (by omega)]
      simp only [bind, Except.bind, skipGap_of_not_gap (show isGap ',' = false by decide),
        hothers rest (by omega : _ < fuel)]

theorem join_writtenMembers_singleton (key : Text) (j : Json) :
    Text.join [','] (writtenMembers [(key, j)]) = writtenString key ++ ':' :: written j := by
  rw [writtenMembers, writtenMembers, Text.join, List.intercalate_singleton, List.append_assoc]
  rfl

theorem join_writtenMembers_cons (key : Text) (j : Json) (next : Text × Json)
    (more : List (Text × Json)) :
    Text.join [','] (writtenMembers ((key, j) :: next :: more)) =
      writtenString key ++ ':' :: (written j ++
        ',' :: Text.join [','] (writtenMembers (next :: more))) := by
  rw [writtenMembers, writtenMembers, Text.join, List.intercalate_cons_cons]
  simp only [List.append_assoc, List.singleton_append]
  rfl

theorem exists_head_members (member : Text × Json) (more : List (Text × Json)) :
    ∃ t, Text.join [','] (writtenMembers (member :: more)) = '"' :: t := by
  obtain ⟨key, j⟩ := member
  cases more with
  | nil => exact ⟨_, by rw [join_writtenMembers_singleton, writtenString_append]⟩
  | cons next more => exact ⟨_, by rw [join_writtenMembers_cons, writtenString_append]⟩

theorem skipGap_writtenString (t rest : Text) :
    skipGap (writtenString t ++ rest) = writtenString t ++ rest := by
  rw [writtenString_append, skipGap_of_not_gap (by decide)]

theorem members_written {care : Care} {member : Text × Json} {more : List (Text × Json)}
    (h : ∀ m ∈ member :: more, Scans care m.2) :
    ∃ found, (care.keeps = true → found = member :: more) ∧ ∀ {fuel : Nat} (rest : Text),
      (Text.join [','] (writtenMembers (member :: more))).length < fuel →
        members care fuel (Text.join [','] (writtenMembers (member :: more)) ++ '\x7d' :: rest) =
          .ok (found, rest) := by
  induction more generalizing member with
  | nil =>
      obtain ⟨key, j⟩ := member
      obtain ⟨key', hkey', hstring⟩ := string?_written care key
      obtain ⟨j', hj', hvalue⟩ := (h _ List.mem_cons_self).value
      refine ⟨[(key', j')], fun hkeeps => by rw [hkey' hkeeps, hj' hkeeps],
        fun {fuel} rest hfuel => ?_⟩
      obtain ⟨fuel, rfl⟩ : ∃ n, fuel = n + 1 := ⟨fuel - 1, by omega⟩
      rw [join_writtenMembers_singleton, List.length_append, List.length_cons] at hfuel
      rw [join_writtenMembers_singleton, List.append_assoc, List.cons_append, members,
        skipGap_writtenString, hstring]
      simp only [bind, Except.bind, skipGap_of_not_gap (show isGap ':' = false by decide),
        hvalue (stops_mark '\x7d' rest (by decide)) (by omega : (written j).length ≤ fuel),
        skipGap_of_not_gap (show isGap '\x7d' = false by decide)]
  | cons next more ih =>
      obtain ⟨key, j⟩ := member
      obtain ⟨key', hkey', hstring⟩ := string?_written care key
      obtain ⟨j', hj', hvalue⟩ := (h _ List.mem_cons_self).value
      obtain ⟨found, hfound, hothers⟩ := ih fun m hm => h m (List.mem_cons_of_mem _ hm)
      refine ⟨(key', j') :: found,
        fun hkeeps => by rw [hkey' hkeeps, hj' hkeeps, hfound hkeeps],
        fun {fuel} rest hfuel => ?_⟩
      rw [join_writtenMembers_cons, List.length_append, List.length_cons, List.length_append,
        List.length_cons] at hfuel
      obtain ⟨fuel, rfl⟩ : ∃ n, fuel = n + 1 := ⟨fuel - 1, by omega⟩
      rw [join_writtenMembers_cons, List.append_assoc, List.cons_append, List.append_assoc,
        List.cons_append, members, skipGap_writtenString, hstring]
      simp only [bind, Except.bind, skipGap_of_not_gap (show isGap ':' = false by decide),
        hvalue (stops_mark ',' _ (by decide)) (by omega : (written j).length ≤ fuel),
        skipGap_of_not_gap (show isGap ',' = false by decide), hothers rest (by omega : _ < fuel)]

theorem exists_head_items {care : Care} {j : Json} (h : Scans care j) (more : List Json) :
    ∃ c t, Text.join [','] (writtenItems (j :: more)) = c :: t ∧ isGap c = false ∧ c ≠ ']' := by
  obtain ⟨c, t, hhead, hc⟩ := h.head
  cases more with
  | nil => exact ⟨c, t, by rw [join_writtenItems_singleton, hhead], hc⟩
  | cons next more => exact ⟨c, _, by rw [join_writtenItems_cons, hhead]; rfl, hc⟩

theorem scans_array {care inside : Care} (hinside : care.inside? = .ok inside)
    {items : List Json} (h : ∀ item ∈ items, Scans inside item) : Scans care (.array items) := by
  have hwritten : written (.array items) =
      '[' :: (Text.join [','] (writtenItems items) ++ [']']) := rfl
  have hquote : '[' ≠ '"' := by decide
  refine ⟨⟨'[', _, hwritten, by decide, by decide⟩, ?_⟩
  rw [hwritten]
  cases items with
  | nil =>
      refine ⟨.array [], fun _ => rfl, fun {fuel rest} _ hfuel => ?_⟩
      rw [List.length_cons] at hfuel
      obtain ⟨fuel, rfl⟩ : ∃ n, fuel = n + 1 := ⟨fuel - 1, by omega⟩
      have hopen : skipGap ('[' :: ']' :: rest) = '[' :: ']' :: rest :=
        skipGap_of_not_gap (by decide) _
      have hclose : skipGap (']' :: rest) = ']' :: rest := skipGap_of_not_gap (by decide) rest
      change value care (fuel + 1) ('[' :: ']' :: rest) = _
      rw [value, hopen]
      simp only [hquote, if_false, if_true, hinside, bind, Except.bind, hclose]
  | cons j more =>
      obtain ⟨found, hfound, hall⟩ := items_written h
      refine ⟨.array found, fun hkeeps => by rw [hfound (keeps_of_inside? hinside ▸ hkeeps)],
        fun {fuel rest} _ hfuel => ?_⟩
      rw [List.length_cons, List.length_append, List.length_singleton] at hfuel
      obtain ⟨fuel, rfl⟩ : ∃ n, fuel = n + 1 := ⟨fuel - 1, by omega⟩
      obtain ⟨c, t, hhead, hgap, hclose⟩ := exists_head_items (h j List.mem_cons_self) more
      have hitems := hall rest (by omega : _ < fuel)
      rw [List.cons_append, List.append_assoc, List.singleton_append, value,
        skipGap_of_not_gap (by decide)]
      rw [hhead, List.cons_append] at hitems ⊢
      simp only [hquote, if_false, if_true, hinside, bind, Except.bind, skipGap_of_not_gap hgap]
      split
      · next heq => exact absurd (List.cons.inj heq).1 hclose
      · rw [hitems]

theorem scans_object {care inside : Care} (hinside : care.inside? = .ok inside)
    {members : List (Text × Json)} (h : ∀ m ∈ members, Scans inside m.2) :
    Scans care (.object members) := by
  have hwritten : written (.object members) =
      '\x7b' :: (Text.join [','] (writtenMembers members) ++ ['\x7d']) := rfl
  have hquote : '\x7b' ≠ '"' := by decide
  have hbracket : '\x7b' ≠ '[' := by decide
  refine ⟨⟨'\x7b', _, hwritten, by decide, by decide⟩, ?_⟩
  rw [hwritten]
  cases members with
  | nil =>
      refine ⟨.object [], fun _ => rfl, fun {fuel rest} _ hfuel => ?_⟩
      rw [List.length_cons] at hfuel
      obtain ⟨fuel, rfl⟩ : ∃ n, fuel = n + 1 := ⟨fuel - 1, by omega⟩
      have hopen : skipGap ('\x7b' :: '\x7d' :: rest) = '\x7b' :: '\x7d' :: rest :=
        skipGap_of_not_gap (by decide) _
      have hclose : skipGap ('\x7d' :: rest) = '\x7d' :: rest :=
        skipGap_of_not_gap (by decide) rest
      change value care (fuel + 1) ('\x7b' :: '\x7d' :: rest) = _
      rw [value, hopen]
      simp only [hquote, hbracket, if_false, if_true, hinside, bind, Except.bind, hclose]
  | cons member more =>
      obtain ⟨found, hfound, hall⟩ := members_written h
      refine ⟨.object found, fun hkeeps => by rw [hfound (keeps_of_inside? hinside ▸ hkeeps)],
        fun {fuel rest} _ hfuel => ?_⟩
      rw [List.length_cons, List.length_append, List.length_singleton] at hfuel
      obtain ⟨fuel, rfl⟩ : ∃ n, fuel = n + 1 := ⟨fuel - 1, by omega⟩
      obtain ⟨t, hhead⟩ := exists_head_members member more
      have hmembers := hall rest (by omega : _ < fuel)
      rw [List.cons_append, List.append_assoc, List.singleton_append, value,
        skipGap_of_not_gap (by decide)]
      rw [hhead, List.cons_append] at hmembers ⊢
      simp only [hquote, hbracket, if_false, if_true, hinside, bind, Except.bind,
        skipGap_of_not_gap (show isGap '"' = false by decide)]
      split
      · next heq => exact absurd (List.cons.inj heq).1 (by decide)
      · rw [hmembers]

theorem scans_null (care : Care) : Scans care .null :=
  ⟨⟨'n', _, rfl, by decide, by decide⟩, .null, fun _ => rfl, fun {fuel} _ _ hfuel => by
    cases fuel with
    | zero => cases hfuel
    | succ fuel => rfl⟩

theorem scans_bool (care : Care) (b : Bool) : Scans care (.bool b) := by
  cases b with
  | true =>
      refine ⟨⟨'t', _, rfl, by decide, by decide⟩, _, fun _ => rfl, fun {fuel} _ _ hfuel => ?_⟩
      cases fuel with
      | zero => cases hfuel
      | succ fuel => rfl
  | false =>
      refine ⟨⟨'f', _, rfl, by decide, by decide⟩, _, fun _ => rfl, fun {fuel} _ _ hfuel => ?_⟩
      cases fuel with
      | zero => cases hfuel
      | succ fuel => rfl

theorem scans_string (care : Care) (t : Text) : Scans care (.string t) := by
  obtain ⟨t', ht', hstring⟩ := string?_written care t
  refine ⟨⟨'"', _, rfl, by decide, by decide⟩, .string t', fun hkeeps => by rw [ht' hkeeps],
    fun {fuel rest} _ hfuel => ?_⟩
  cases fuel with
  | zero => cases hfuel
  | succ fuel =>
      have hback := hstring rest
      rw [writtenString_append, string?] at hback
      rw [written, writtenString_append, value, skipGap_of_not_gap (by decide)]
      simp only [if_true, hback, Except.map]

/-- The induction is on the value; an array and an object ask it of all that
they hold. -/
theorem Plain.scans {room : Nat} {j : Json} (h : Plain room j) : Scans (.keep room) j := by
  induction h with
  | null => exact scans_null _
  | bool b => exact scans_bool _ b
  | string t => exact scans_string _ t
  | array _ ih => exact scans_array rfl ih
  | object _ ih => exact scans_object rfl ih

theorem read_written {j : Json} (h : Plain deepest j) : read (written j) = .ok j := by
  obtain ⟨j', hj', hvalue⟩ := h.scans.value
  have hback := hvalue stops_nil (by rw [fuelFor]; omega : _ ≤ fuelFor (written j))
  rw [List.append_nil, hj' rfl] at hback
  rw [read, hback]
  rfl

/-! ## One line -/

theorem shows_writtenChar (c : Char) : Shows (writtenChar c) := by
  rcases writtenChar_cases .pass c with ⟨hself, _, _, hshows⟩ | ⟨s, hs, hshows, _⟩
  · rw [hself]
    exact shows_cons.mpr ⟨hshows, by decide⟩
  · rw [hs]
    exact shows_cons.mpr ⟨by decide, hshows⟩

theorem shows_writtenString (t : Text) : Shows (writtenString t) := by
  rw [writtenString, shows_append, shows_append]
  refine ⟨⟨by decide, fun d hd => ?_⟩, by decide⟩
  obtain ⟨c, _, hd⟩ := List.mem_flatMap.mp hd
  exact shows_writtenChar c d hd

theorem mem_writtenItems {items : List Json} {t : Text} (h : t ∈ writtenItems items) :
    ∃ item ∈ items, t = written item := by
  induction items with
  | nil => cases h
  | cons item items ih =>
      rw [writtenItems] at h
      rcases List.mem_cons.mp h with rfl | h
      · exact ⟨item, List.mem_cons_self, rfl⟩
      · obtain ⟨later, hlater, ht⟩ := ih h
        exact ⟨later, List.mem_cons_of_mem _ hlater, ht⟩

theorem mem_writtenMembers {members : List (Text × Json)} {t : Text}
    (h : t ∈ writtenMembers members) :
    ∃ m ∈ members, t = writtenString m.1 ++ [':'] ++ written m.2 := by
  induction members with
  | nil => cases h
  | cons member members ih =>
      obtain ⟨key, j⟩ := member
      rw [writtenMembers] at h
      rcases List.mem_cons.mp h with rfl | h
      · exact ⟨(key, j), List.mem_cons_self, rfl⟩
      · obtain ⟨later, hlater, ht⟩ := ih h
        exact ⟨later, List.mem_cons_of_mem _ hlater, ht⟩

/-- What is written has no control character, and so it has no end of line. -/
theorem Plain.shows {room : Nat} {j : Json} (h : Plain room j) : Shows (written j) := by
  induction h with
  | null => decide
  | bool b => cases b <;> decide
  | string t => exact shows_writtenString t
  | @array room items h ih =>
      rw [written, shows_append, shows_append]
      refine ⟨⟨by decide, shows_join (by decide) fun piece hpiece => ?_⟩, by decide⟩
      obtain ⟨item, hitem, rfl⟩ := mem_writtenItems hpiece
      exact ih item hitem
  | @object room members h ih =>
      rw [written, shows_append, shows_append]
      refine ⟨⟨by decide, shows_join (by decide) fun piece hpiece => ?_⟩, by decide⟩
      obtain ⟨m, hm, rfl⟩ := mem_writtenMembers hpiece
      rw [shows_append, shows_append]
      exact ⟨⟨shows_writtenString m.1, by decide⟩, ih m hm⟩

end Json

/-! ## Maps and segments -/

theorem putEntry_of_not_mem {α : Type} {key : Text} (value : α) {entries : List (Text × α)}
    (h : key ∉ entries.map Prod.fst) : putEntry key value entries = entries ++ [(key, value)] := by
  induction entries with
  | nil => rfl
  | cons entry rest ih =>
      rw [List.map_cons] at h
      rw [putEntry, if_neg (List.ne_of_not_mem_cons h).symm, ih (List.not_mem_of_not_mem_cons h),
        List.cons_append]

theorem Fields.entries_foldl_insert (pairs : List (Text × Text)) (fields : Fields)
    (h : ((fields.entries ++ pairs).map Prod.fst).Nodup) :
    (pairs.foldl (fun fields pair => fields.insert pair.1 pair.2) fields).entries =
      fields.entries ++ pairs := by
  induction pairs generalizing fields with
  | nil => rw [List.append_nil]; rfl
  | cons pair pairs ih =>
      have hnew : pair.1 ∉ fields.entries.map Prod.fst := by
        rw [List.map_append, List.map_cons] at h
        have := (List.nodup_append.mp h).2.2
        exact fun hmem => this _ hmem _ List.mem_cons_self rfl
      have hentries : (fields.insert pair.1 pair.2).entries = fields.entries ++ [pair] :=
        putEntry_of_not_mem pair.2 hnew
      rw [List.foldl_cons, ih _ (by rw [hentries, List.append_assoc]; exact h), hentries,
        List.append_assoc, List.singleton_append]

/-- A map is what its entries make. -/
theorem Fields.ofList_entries (fields : Fields) : Fields.ofList fields.entries = fields := by
  have hentries := Fields.entries_foldl_insert fields.entries Fields.empty fields.distinct
  cases fields
  rw [Fields.mk.injEq]
  exact hentries

/-- The segments of a path as an array. -/
def Request.segmentsJson (segments : List Text) : Json := .array (segments.map .string)

section Decoders

variable (fields : Fields)

theorem plain_fieldsJson : Json.Plain Json.deepest (Request.fieldsJson fields) := by
  refine .object fun m hm => ?_
  obtain ⟨entry, _, rfl⟩ := List.mem_map.mp hm
  exact .string entry.2

theorem decodeParam_written : decodeParam (Request.fieldsJson fields).written = .ok fields := by
  have hpairs : (fields.entries.map fun m => (m.1, Json.string m.2)).map
      (fun m => (m.1, m.2.plainText)) = fields.entries := by
    rw [List.map_map]
    exact List.map_id _
  rw [decodeParam, Json.read_written (plain_fieldsJson fields)]
  exact congrArg Except.ok ((congrArg Fields.ofList hpairs).trans (Fields.ofList_entries fields))

theorem fieldsOf_fieldsJson : Request.fieldsOf (Request.fieldsJson fields) = .ok fields := by
  have hpairs : (fields.entries.map fun m => (m.1, Json.string m.2)).mapM
      (fun m => m.2.asText >>= fun value => pure (m.1, value)) =
        (.ok fields.entries : Except Json.Fault _) := by
    rw [List.mapM_map]
    exact List.mapM_pure.trans (congrArg pure (List.map_id _))
  exact (congrArg (· >>= fun pairs => pure (Fields.ofList pairs)) hpairs).trans
    (congrArg Except.ok (Fields.ofList_entries fields))

theorem decodeHeader_written : decodeHeader (Request.fieldsJson fields).written = .ok fields := by
  rw [decodeHeader, Json.read_written (plain_fieldsJson fields)]
  exact fieldsOf_fieldsJson fields

theorem plain_segmentsJson (segments : List Text) :
    Json.Plain Json.deepest (Request.segmentsJson segments) := by
  refine .array fun item hitem => ?_
  obtain ⟨segment, _, rfl⟩ := List.mem_map.mp hitem
  exact .string segment

theorem decodeSegments_written (segments : List Text) :
    decodeSegments (Request.segmentsJson segments).written = .ok segments := by
  have hitems : (segments.map Json.string).map Json.plainText = segments := by
    rw [List.map_map]
    exact List.map_id _
  rw [decodeSegments, Json.read_written (plain_segmentsJson segments)]
  exact congrArg Except.ok hitems

end Decoders

end RequestBook
