import RequestBook.Book
import RequestBook.Proofs.Parts
import RequestBook.Proofs.Resolving
import RequestBook.Proofs.Splitting
import RequestBook.Transport

/-!
# The service of a request is settled when it is read

A request has no line or a whole one: a method of one word, a url of the web
and a version of the protocol (`RequestLine.Whole`). That is so after every
field, since a line that cannot be read sets nothing and one that can be read
sets all three.

With no line there is no service. With a whole line there is one, and it stays
the same when placeholders are resolved: no placeholder reaches into the scheme
of the url, which stands first and has no brace, and the method is not
resolved at all. So what is listed for a request is what carries it out, and
the dry run refuses exactly the requests that have no line.
-/

namespace RequestBook

/-! ## Capitals -/

namespace Text

theorem mapCase_lowerAscii (c : Char) :
    mapCase upperRuns upperTexts (lowerAscii c) =
      mapCase upperRuns upperTexts c := by
  have hcapitals : ∀ n < 26,
      mapCase upperRuns upperTexts (Char.ofNat (65 + n + 32)) =
        mapCase upperRuns upperTexts (Char.ofNat (65 + n)) := by
    decide +kernel
  rw [lowerAscii]
  split
  · next hcapital =>
      rw [Bool.and_eq_true, decide_eq_true_eq, decide_eq_true_eq] at hcapital
      have hlow : 65 ≤ c.toNat := hcapital.1
      have hhigh : c.toNat ≤ 90 := hcapital.2
      obtain ⟨n, hn⟩ := Nat.exists_eq_add_of_le hlow
      have hletter := hcapitals n (by omega)
      rw [← hn, Char.ofNat_toNat] at hletter
      exact hletter
  · rfl

theorem upper_map_lowerAscii (t : Text) : upper (t.map lowerAscii) = upper t := by
  rw [upper, upper, List.flatMap_map]
  exact List.flatMap_congr fun c _ => mapCase_lowerAscii c

end Text

namespace RequestLine

/-- What can be said of every request line that was read. -/
structure Whole (line : RequestLine) : Prop where
  method_some : line.method ≠ []
  method_word : ' ' ∉ line.method
  url_web : Request.webScheme <+: line.url
  version_http : "HTTP/".toList <+: line.version

/-! ## What is read -/

section Read

variable {t word : Text} {line : RequestLine}

theorem mem_words (h : word ∈ words t) : word ≠ [] ∧ ' ' ∉ word := by
  obtain ⟨hfield, hsome⟩ := List.mem_filter.mp h
  refine ⟨?_, (Text.mem_fields hfield).1⟩
  rintro rfl
  cases hsome

theorem prefix_upper_of_isVersion (h : isVersion word = true) :
    "HTTP/".toList <+: Text.upper word := by
  have hmark : (word.take versionMark.length).map Text.lowerAscii = versionMark := eq_of_beq h
  have hupper : Text.upper (word.take versionMark.length) = "HTTP/".toList := by
    rw [← Text.upper_map_lowerAscii, hmark]
    decide +kernel
  refine ⟨Text.upper (word.drop versionMark.length), ?_⟩
  rw [← hupper, Text.upper, Text.upper, ← List.flatMap_append, List.take_append_drop, Text.upper]

theorem webScheme_prefix_urlOf {url : Text} (h : Request.webScheme <+: url) (more : List Text) :
    Request.webScheme <+: urlOf (url :: more) := by
  have hjoin : Request.webScheme <+: Text.join [' '] (url :: more) := by
    cases more with
    | nil =>
        rw [Text.join, List.intercalate_singleton]
        exact h
    | cons next more =>
        rw [Text.join, List.intercalate_cons_cons, List.append_assoc]
        exact h.trans (List.prefix_append _ _)
  have hstart : Text.trimStart (Text.join [' '] (url :: more)) = Text.join [' '] (url :: more) := by
    obtain ⟨rest, hrest⟩ := hjoin
    rw [← hrest]
    rfl
  have hmark : ∀ c ∈ Request.webScheme, Text.isBlank c = false := by
    intro c hc
    have hletter : c = 'h' ∨ c = 't' ∨ c = 'p' := by simpa [Request.webScheme] using hc
    rcases hletter with rfl | rfl | rfl <;> rfl
  rw [urlOf, ← Text.startsWith_iff, Text.startsWith_trim hmark, hstart, Text.startsWith_iff]
  exact hjoin

theorem whole_of_read? (h : read? t = some line) : line.Whole := by
  have hversion : "HTTP/".toList <+: defaultHttpVersion := by decide
  rw [read?] at h
  split at h
  · next method url more hwords =>
      obtain ⟨hsome, hword⟩ := mem_words (hwords ▸ List.mem_cons_self : method ∈ words t)
      split at h
      · cases h
      · next hstart =>
          have hweb : Request.webScheme <+: url := by
            rw [Bool.not_eq_true', Bool.not_eq_false] at hstart
            exact Text.startsWith_iff.mp hstart
          split at h
          · cases h
            exact ⟨hsome, hword, hweb, hversion⟩
          · next last _ =>
              split at h
              · next hlast =>
                  cases h
                  exact ⟨hsome, hword, webScheme_prefix_urlOf hweb _,
                    prefix_upper_of_isVersion hlast⟩
              · cases h
                exact ⟨hsome, hword, webScheme_prefix_urlOf hweb _, hversion⟩
  · cases h

end Read

end RequestLine

/-! ## What the fields leave -/

section Fields

variable {r : Request} {field : SectionField} {fields : List SectionField}

theorem not_settles_line (h : ¬ field.ReadsLine) : ¬ field.Settles .line :=
  fun hsettles => h (hsettles.2 rfl)

/-- No field leaves a line that is less than whole. -/
theorem applyField_whole (h : (r.get .line).Whole ∨ field.ReadsLine) :
    ((applyField r field).1.get .line).Whole := by
  by_cases hreads : field.ReadsLine
  · obtain ⟨value, hvalue⟩ : ∃ value, field.value = some value := hreads.imp fun _ h => h.1
    obtain ⟨hrole, hsome⟩ := (SectionField.readsLine_iff hvalue).mp hreads
    obtain ⟨line, hline⟩ := Option.isSome_iff_exists.mp hsome
    rw [applyField_of_role hvalue hrole, setPart, hline]
    exact RequestLine.whole_of_read? hline
  · rw [applyField_frame (not_settles_line hreads)]
    exact h.resolve_right hreads

theorem applyFields_whole (h : (r.get .line).Whole ∨ ∃ field ∈ fields, field.ReadsLine) :
    ((applyFields r fields).1.get .line).Whole := by
  induction fields generalizing r with
  | nil => exact h.resolve_right fun ⟨_, hmem, _⟩ => nomatch hmem
  | cons field fields ih =>
      refine ih ?_
      rcases h with hwhole | ⟨other, hother, hreads⟩
      · exact .inl (applyField_whole (.inl hwhole))
      · rcases List.mem_cons.mp hother with rfl | hother
        · exact .inl (applyField_whole (.inr hreads))
        · exact .inr ⟨other, hother, hreads⟩

/-- A section has no line, or a whole one that some field has read. -/
theorem line_cases (s : Section) :
    (∀ field ∈ s.fields, ¬ field.ReadsLine) ∧ s.request.1.get .line = ⟨[], [], []⟩ ∨
      (∃ field ∈ s.fields, field.ReadsLine) ∧ (s.request.1.get .line).Whole := by
  by_cases h : ∃ field ∈ s.fields, field.ReadsLine
  · exact .inr ⟨h, applyFields_whole (.inr h)⟩
  · have hnone : ∀ field ∈ s.fields, ¬ field.ReadsLine := fun field hfield hreads =>
      h ⟨field, hfield, hreads⟩
    have hframe : ∀ field ∈ s.fields, ¬ field.Settles .line := fun field hfield =>
      not_settles_line (hnone field hfield)
    exact .inl ⟨hnone, applyFields_frame hframe { name := s.name }⟩

end Fields

/-! ## What resolving leaves -/

theorem pieces_append_of_not_mem {s : Text} (h : '\x7b' ∉ s) (t : Text) :
    pieces (s ++ t) = s.map .plain ++ pieces t := by
  induction s with
  | nil => rfl
  | cons c s ih =>
      have hplain : Piece.head? (c :: (s ++ t)) = none := by
        -- a placeholder that begins here begins with a brace
        rw [Option.eq_none_iff_forall_ne_some]
        rintro ⟨body, after⟩ hhead
        obtain ⟨-, hwritten⟩ := Piece.head?_eq_some_iff.mp hhead
        obtain ⟨rfl, -⟩ := List.cons.inj hwritten
        exact h List.mem_cons_self
      rw [List.cons_append, pieces_plain hplain, ih fun hmem => h (List.mem_cons_of_mem _ hmem)]
      rfl

namespace Engine

variable (engine : Engine) (vars : Variables) (draws : Draws)

theorem resolve_nil : engine.resolve vars draws [] = [] := rfl

/-- Resolving keeps what a text begins with up to its first brace. -/
theorem prefix_resolve {s host : Text} (h : '\x7b' ∉ s) (hhost : s <+: host) :
    s <+: engine.resolve vars draws host := by
  rw [resolve]
  split
  · obtain ⟨t, rfl⟩ := hhost
    have hkept : (s.map Piece.plain).zipIdx.flatMap
        (fun p => engine.replace vars (draws.branch p.2) p.1) = s := by
      rw [List.zipIdx_map, List.flatMap_map]
      show (s.zipIdx.flatMap fun p => [p.1]) = s
      rw [← List.map_eq_flatMap, List.zipIdx_map_fst]
    rw [pieces_append_of_not_mem h, List.zipIdx_append, List.flatMap_append, hkept]
    exact List.prefix_append _ _
  · exact hhost

end Engine

/-! ## Services -/

/-- The status of a dry run. -/
def dryStatus (service : Service) : Text := "dry run (".toList ++ service.label ++ [')']

/-- The section that is kept under a name: the last one of that name. -/
def LastOfName (found : List Section) (name : Text) (s : Section) : Prop :=
  ∃ earlier later, found = earlier ++ s :: later ∧ s.name = name ∧
    ∀ other ∈ later, other.name ≠ name

/-- The request of a section, as far as its service goes. -/
structure ServiceSettled (s : Section) (r : Request) : Prop where
  line : (r.method = [] ∧ r.url = [] ∧ r.httpVersion = []) ∨
    RequestLine.Whole ⟨r.method, r.url, r.httpVersion⟩
  /-- Whether there is a service, and which, is the same with and without
  placeholders. -/
  service (engine : Engine) (vars : Variables) (draws : Draws) :
    (engine.resolveRequest vars draws r).service = r.service
  status (engine : Engine) (vars : Variables) (draws : Draws) :
    (DryRun.transports.dispatch (engine.resolveRequest vars draws r)).map (·.status) =
      r.service.map dryStatus
  refused (engine : Engine) (vars : Variables) (draws : Draws) :
    (∃ e, DryRun.transports.dispatch (engine.resolveRequest vars draws r) = .error e) ↔
      ∀ field ∈ s.fields, ¬ field.ReadsLine

section Service

variable {r : Request}

theorem dispatch_dryRun (r : Request) :
    (DryRun.transports.dispatch r).map (·.status) = r.service.map dryStatus := by
  rw [Transports.dispatch]
  cases hservice : r.service with
  | error e => rfl
  | ok service =>
      have hrun : DryRun.transports.get? service = some DryRun.transport := by
        cases service <;> rfl
      simp only [hrun, DryRun.transport, hservice]
      rfl

theorem dispatch_dryRun_eq_error_iff :
    (∃ e, DryRun.transports.dispatch r = .error e) ↔ ∃ e, r.service = .error e := by
  have hstatus := dispatch_dryRun r
  cases hservice : r.service with
  | error e =>
      refine ⟨fun _ => ⟨e, rfl⟩, fun _ => ⟨e, ?_⟩⟩
      rw [Transports.dispatch, hservice]
  | ok service =>
      rw [hservice] at hstatus
      constructor
      · rintro ⟨e, he⟩
        rw [he] at hstatus
        cases hstatus
      · rintro ⟨e, he⟩
        cases he

theorem service_of_web (h : Request.webScheme <+: r.url) :
    r.service = .ok ((Service.ofMethod? r.method).getD .http) := by
  rw [Request.service]
  cases Service.ofMethod? r.method with
  | some service => rfl
  | none => simp only [Text.startsWith_iff.mpr h, if_true, Option.getD_none]

theorem service_of_empty (hmethod : r.method = []) (hurl : r.url = []) :
    r.service = .error (.unknownService [] []) := by
  rw [Request.service, hmethod, hurl]
  rfl

/-- The scheme of a url stands before its first brace. -/
theorem service_resolveRequest (engine : Engine) (vars : Variables) (draws : Draws)
    (h : (r.method = [] ∧ r.url = []) ∨ Request.webScheme <+: r.url) :
    (engine.resolveRequest vars draws r).service = r.service := by
  rcases h with ⟨hmethod, hurl⟩ | hweb
  · rw [service_of_empty hmethod hurl]
    refine service_of_empty hmethod ?_
    rw [Engine.resolveRequest, hurl]
    exact engine.resolve_nil vars (draws.branch 0)
  · have hscheme : '\x7b' ∉ Request.webScheme := by decide
    rw [service_of_web hweb]
    exact service_of_web (engine.prefix_resolve vars (draws.branch 0) hscheme hweb)

end Service

theorem Section.service_eq_error_iff (s : Section) :
    (∃ e, s.request.1.service = .error e) ↔ ∀ field ∈ s.fields, ¬ field.ReadsLine := by
  rcases line_cases s with ⟨hnone, hempty⟩ | ⟨⟨field, hfield, hreads⟩, hwhole⟩
  · obtain ⟨hmethod, hurl, -⟩ := RequestLine.mk.inj hempty
    exact ⟨fun _ => hnone, fun _ => ⟨_, service_of_empty hmethod hurl⟩⟩
  · rw [service_of_web hwhole.url_web]
    constructor
    · rintro ⟨e, he⟩
      cases he
    · intro hnone
      exact absurd hreads (hnone field hfield)

theorem Section.serviceSettled (s : Section) : ServiceSettled s s.request.1 := by
  have hline := (line_cases s).imp And.right And.right
  have hcopy (engine : Engine) (vars : Variables) (draws : Draws) :
      (engine.resolveRequest vars draws s.request.1).service = s.request.1.service := by
    refine service_resolveRequest engine vars draws (hline.imp ?_ RequestLine.Whole.url_web)
    intro hempty
    obtain ⟨hmethod, hurl, -⟩ := RequestLine.mk.inj hempty
    exact ⟨hmethod, hurl⟩
  exact {
    line := hline.imp RequestLine.mk.inj id
    service := hcopy
    status := fun engine vars draws => by rw [dispatch_dryRun, hcopy]
    refused := fun engine vars draws => by
      rw [dispatch_dryRun_eq_error_iff, hcopy, s.service_eq_error_iff] }

/-- The service of every request in a book is settled by its section. -/
theorem compile_serviceSettled {text name : Text} {r : Request}
    (h : (name, r) ∈ (Book.compile text).requests) :
    ∃ s, LastOfName (sections (Grammar.standard.readText text).blocks) name s ∧
      s.request.1 = r ∧ ServiceSettled s r := by
  obtain ⟨earlier, s, later, hfound, hname, rfl, hlater⟩ := exists_last_section h
  exact ⟨s, ⟨earlier, later, hfound, hname, hlater⟩, rfl, s.serviceSettled⟩

/-- A url with a placeholder and a space, followed by a line that cannot be
read, and a section with no line at all. -/
theorem serviceSettled_with_and_without_line :
    let text := ("## R\n### url\n> GET http://\x7b\x7bhost\x7d\x7d/a b http/2\n### url\n> oops\n"
      ++ "## S\n### body\n\x60\x60\x60json\n1\n\x60\x60\x60\n").toList
    let blocks := (Grammar.standard.readText text).blocks
    let r : Request := { name := ['R'], method := "GET".toList, httpVersion := "HTTP/2".toList
                         url := "http://\x7b\x7bhost\x7d\x7d/a b".toList }
    let bare : Request := { name := ['S'], body := ['1'] }
    ((['R'], r) ∈ (Book.compile text).requests ∧
      ∃ s, LastOfName (sections blocks) ['R'] s ∧ s.request.1 = r ∧ ServiceSettled s r) ∧
    (['S'], bare) ∈ (Book.compile text).requests ∧
      ∃ s, LastOfName (sections blocks) ['S'] s ∧ s.request.1 = bare ∧ ServiceSettled s bare := by
  intro text blocks r bare
  have hr : (['R'], r) ∈ (Book.compile text).requests := by decide +kernel
  have hbare : (['S'], bare) ∈ (Book.compile text).requests := by decide +kernel
  exact ⟨⟨hr, compile_serviceSettled hr⟩, hbare, compile_serviceSettled hbare⟩

end RequestBook
