import RequestBook.Proofs.Extracting

/-!
# Fields settle parts

A request has five parts that fields set, each on its own: a field that
settles a part puts the same there whatever stood there before
(`applyField_agree`), and leaves every other part alone (`applyField_frame`).
So after all fields two requests agree on a part when they agreed on it
before, or when one of the fields settles it (`applyFields_agree`).

A field for a part settles it, with one exception. A request line that cannot
be read leaves what an earlier one has set, while json that cannot be decoded
leaves nothing.
-/

namespace RequestBook

/-- The parts of a request that fields set. -/
inductive Part where
  /-- Method, url and version, which come from one line. -/
  | line
  | body
  | param
  | segments
  | header
  deriving DecidableEq, Repr

/-- What stands in a part. -/
def Part.Value : Part → Type
  | line => RequestLine
  | body => Text
  | param | header => Fields
  | segments => List Text

/-- A part of the request. -/
def Request.get (r : Request) : (part : Part) → part.Value
  | .line => ⟨r.method, r.url, r.httpVersion⟩
  | .body => r.body
  | .param => r.param
  | .segments => r.pathSegments
  | .header => r.header

/-- A request is its name and its parts. -/
theorem Request.eq_of_get {r r' : Request} (hname : r.name = r'.name)
    (h : ∀ part, r.get part = r'.get part) : r = r' := by
  obtain ⟨hmethod, hurl, hversion⟩ := RequestLine.mk.inj (h .line)
  have hbody : r.body = r'.body := h .body
  have hparam : r.param = r'.param := h .param
  have hsegments : r.pathSegments = r'.pathSegments := h .segments
  have hheader : r.header = r'.header := h .header
  cases r
  cases r'
  simp_all only

/-- The part that a role sets. -/
def FieldRole.part : FieldRole → Part
  | line => .line
  | body _ => .body
  | param _ => .param
  | segments _ => .segments
  | header _ => .header

namespace SectionField

/-- The part that a field is for. -/
def target? (field : SectionField) : Option Part :=
  (field.value.bind (fieldRole? field.heading)).map FieldRole.part

/-- The field is a request line that can be read: a quote under a heading that
mentions a url. -/
def ReadsLine (field : SectionField) : Prop :=
  ∃ value, field.value = some value ∧ value.kind = .quote ∧
    "url".toList <:+: field.heading.content ∧ (RequestLine.read? value.content).isSome = true

/-- The field is for a part and decides what is put there. -/
def Settles (field : SectionField) (part : Part) : Prop :=
  field.target? = some part ∧ (part = .line → field.ReadsLine)

end SectionField

/-! ## One field -/

section Field

variable {r r' : Request} {field : SectionField} {part : Part}

theorem SectionField.target?_eq_some_iff :
    field.target? = some part ↔ ∃ value role, field.value = some value ∧
      fieldRole? field.heading value = some role ∧ role.part = part := by
  simp only [target?, Option.map_eq_some_iff, Option.bind_eq_some_iff]
  constructor
  · rintro ⟨role, ⟨value, hvalue, hrole⟩, hpart⟩
    exact ⟨value, role, hvalue, hrole, hpart⟩
  · rintro ⟨value, role, hvalue, hrole, hpart⟩
    exact ⟨role, ⟨value, hvalue, hrole⟩, hpart⟩

theorem get_setPart {role : FieldRole} {value : Block}
    (h : role = .line → (RequestLine.read? value.content).isSome = true) (r r' : Request) :
    (setPart r role value).1.get role.part = (setPart r' role value).1.get role.part := by
  cases role with
  | line =>
      obtain ⟨line, hline⟩ := Option.isSome_iff_exists.mp (h rfl)
      simp only [setPart, hline]
      rfl
  | body | param | segments | header => rfl

theorem get_setPart_of_ne {role : FieldRole} (h : part ≠ role.part) (r : Request) (value : Block) :
    (setPart r role value).1.get part = r.get part := by
  cases role with
  | line =>
      rw [setPart]
      cases RequestLine.read? value.content with
      | none => rfl
      | some line =>
          cases part with
          | line => exact absurd rfl h
          | body | param | segments | header => rfl
  | body | param | segments | header =>
      cases part <;> first | exact absurd rfl h | rfl

theorem fieldRole?_eq_line_iff {heading value : Block} :
    fieldRole? heading value = some .line ↔
      value.kind = .quote ∧ "url".toList <:+: heading.content := by
  rw [fieldRole?, ← Text.holds_iff]
  cases value.kind with
  | heading level order | paragraph => simp
  | quote => simp
  | fence lang =>
      simp only [reduceCtorEq, false_and, iff_false]
      intro h
      repeat' split at h
      all_goals cases h

theorem SectionField.readsLine_iff {value : Block} (hvalue : field.value = some value) :
    field.ReadsLine ↔ fieldRole? field.heading value = some .line ∧
      (RequestLine.read? value.content).isSome = true := by
  rw [fieldRole?_eq_line_iff]
  constructor
  · rintro ⟨other, hother, hkind, hurl, hread⟩
    rw [hvalue, Option.some.injEq] at hother
    subst hother
    exact ⟨⟨hkind, hurl⟩, hread⟩
  · rintro ⟨⟨hkind, hurl⟩, hread⟩
    exact ⟨value, hvalue, hkind, hurl, hread⟩

theorem applyField_of_role {value : Block} {role : FieldRole} (hvalue : field.value = some value)
    (hrole : fieldRole? field.heading value = some role) (r : Request) :
    applyField r field = setPart r role value := by
  simp only [applyField, hvalue, hrole]

theorem applyField_of_target?_none (h : field.target? = none) (r : Request) :
    (applyField r field).1 = r := by
  rw [applyField]
  cases hvalue : field.value with
  | none => rfl
  | some value =>
      cases hrole : fieldRole? field.heading value with
      | none => simp only [hrole]
      | some role =>
          have htarget := SectionField.target?_eq_some_iff.mpr ⟨value, role, hvalue, hrole, rfl⟩
          rw [h] at htarget
          cases htarget

/-- A field that settles a part puts the same there in any request. -/
theorem applyField_agree (h : field.Settles part) (r r' : Request) :
    (applyField r field).1.get part = (applyField r' field).1.get part := by
  obtain ⟨value, role, hvalue, hrole, rfl⟩ := SectionField.target?_eq_some_iff.mp h.1
  rw [applyField_of_role hvalue hrole, applyField_of_role hvalue hrole]
  refine get_setPart (fun hline => ?_) r r'
  subst hline
  exact ((SectionField.readsLine_iff hvalue).mp (h.2 rfl)).2

/-- A field leaves alone the parts that it does not settle. -/
theorem applyField_frame (h : ¬ field.Settles part) (r : Request) :
    (applyField r field).1.get part = r.get part := by
  cases htarget : field.target? with
  | none => rw [applyField_of_target?_none htarget]
  | some target =>
      obtain ⟨value, role, hvalue, hrole, rfl⟩ := SectionField.target?_eq_some_iff.mp htarget
      rw [applyField_of_role hvalue hrole]
      by_cases hpart : part = role.part
      · subst hpart
        -- the field is for this part, so it is a request line that cannot be read
        have hunread : role = .line ∧ ¬ field.ReadsLine := by
          cases role with
          | line => exact ⟨rfl, fun hreads => h ⟨htarget, fun _ => hreads⟩⟩
          | body | param | segments | header =>
              exact absurd ⟨htarget, fun hline => nomatch hline⟩ h
        obtain ⟨rfl, hunread⟩ := hunread
        rw [SectionField.readsLine_iff hvalue] at hunread
        cases hread : RequestLine.read? value.content with
        | none => simp only [setPart, hread]
        | some line => exact absurd ⟨hrole, by rw [hread]; rfl⟩ hunread
      · exact get_setPart_of_ne hpart r value

theorem decoded_of_warned {α : Type} {default : α} {decode : Text → Except Json.Fault α}
    {lang : Text} {block : Block} (h : (decoded default decode lang block).2 ≠ []) :
    (decoded default decode lang block).1 = default := by
  rw [decoded] at h ⊢
  split at h
  · exact absurd rfl h
  · next hjson =>
      rw [if_neg hjson]
      cases hdecode : decode block.content with
      | ok value =>
          rw [hdecode] at h
          exact absurd rfl h
      | error fault => rfl

/-- Json that cannot be decoded leaves its part empty, with a warning. -/
theorem get_of_warned (htarget : field.target? = some part) (hline : part ≠ .line)
    (hwarned : (applyField r field).2 ≠ []) (name : Text) :
    (applyField r field).1.get part = Request.get { name } part := by
  obtain ⟨value, role, hvalue, hrole, rfl⟩ := SectionField.target?_eq_some_iff.mp htarget
  rw [applyField_of_role hvalue hrole] at hwarned ⊢
  cases role with
  | line => exact absurd rfl hline
  | body lang => exact absurd rfl hwarned
  | param lang => exact decoded_of_warned hwarned
  | segments lang => exact decoded_of_warned hwarned
  | header lang => exact decoded_of_warned hwarned

end Field

/-! ## All fields -/

section Fields

variable {r r' : Request} {fields more earlier later : List SectionField} {field : SectionField}
  {part : Part}

theorem applyFields_append (r : Request) (fields more : List SectionField) :
    (applyFields r (fields ++ more)).1 = (applyFields (applyFields r fields).1 more).1 := by
  induction fields generalizing r with
  | nil => rfl
  | cons field fields ih => exact ih (applyField r field).1

/-- Two requests agree on a part after the fields when they did before, or
when a field settles it. -/
theorem applyFields_agree
    (h : r.get part = r'.get part ∨ ∃ field ∈ fields, field.Settles part) :
    (applyFields r fields).1.get part = (applyFields r' fields).1.get part := by
  induction fields generalizing r r' with
  | nil =>
      rcases h with hsame | ⟨field, hfield, -⟩
      · exact hsame
      · cases hfield
  | cons field fields ih =>
      have hnext : (applyField r field).1.get part = (applyField r' field).1.get part ∨
          ∃ field ∈ fields, field.Settles part := by
        by_cases hsettles : field.Settles part
        · exact .inl (applyField_agree hsettles r r')
        · rw [applyField_frame hsettles, applyField_frame hsettles]
          refine h.imp id fun ⟨other, hother, hother'⟩ => ⟨other, ?_, hother'⟩
          exact (List.mem_cons.mp hother).resolve_left fun heq => hsettles (heq ▸ hother')
      exact ih hnext

theorem applyFields_frame (h : ∀ field ∈ fields, ¬ field.Settles part) (r : Request) :
    (applyFields r fields).1.get part = r.get part := by
  induction fields generalizing r with
  | nil => rfl
  | cons field fields ih =>
      obtain ⟨hfield, hfields⟩ := List.forall_mem_cons.mp h
      exact (ih hfields _).trans (applyField_frame hfield r)

/-- The last field that settles a part decides on it alone. -/
theorem applyFields_last (hfield : field.Settles part)
    (hlater : ∀ other ∈ later, ¬ other.Settles part) (r r' : Request) :
    (applyFields r (earlier ++ field :: later)).1.get part =
      (applyField r' field).1.get part := by
  rw [applyFields_append]
  exact (applyFields_frame hlater _).trans (applyField_agree hfield _ r')

/-- A field is not missed when a later one settles the part that it is for. -/
theorem applyFields_without (hfield : field.target? = some part)
    (hlater : ∃ last ∈ later, last.Settles part) (r : Request) :
    (applyFields r (earlier ++ field :: later)).1 = (applyFields r (earlier ++ later)).1 := by
  rw [applyFields_append, applyFields_append]
  refine Request.eq_of_get ?_ fun other => ?_
  · simp only [applyFields_name]
  · show (applyFields (applyField (applyFields r earlier).1 field).1 _).1.get other = _
    refine applyFields_agree ?_
    by_cases hother : other = part
    · subst hother
      exact .inr hlater
    · refine .inl (applyField_frame (fun hsettles => hother ?_) _)
      exact Option.some.inj (hsettles.1.symm.trans hfield)

end Fields

end RequestBook
