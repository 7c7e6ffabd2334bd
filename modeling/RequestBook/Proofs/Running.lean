import RequestBook.Proofs.Naming
import RequestBook.Proofs.Resolving
import RequestBook.Run

/-!
# Each name is run for itself

A run resolves the requests of its names, gathers what it found and what it did
not, and only then carries out what it found. Still each name adds its own part
and nothing else does: what is printed is what the names print one after the
other, and the run succeeds when each of them does (`out_attempts`,
`code_attempts`).

A name is resolved with draws that hang on its place among the others, and a run
has a moment of its own. So two runs can be compared where the placeholders of
the book read neither (`Book.Steady`). There a run of many names is the runs of
each one in turn (`report_names`), and to run two lists of names behind each other
is to run the one and then the other.
-/

namespace RequestBook

/-! ## Placeholders of a book -/

/-- The bodies of the placeholders in a text. -/
def placeholderBodies (t : Text) : List Text :=
  (pieces t).filterMap fun p =>
    match p with
    | .plain _ => none
    | .placeholder body => some body

def Fields.bodies (fields : Fields) : List Text :=
  fields.entries.flatMap fun entry => placeholderBodies entry.1 ++ placeholderBodies entry.2

/-- The bodies in all parts of a request that are resolved. -/
def Request.bodies (r : Request) : List Text :=
  placeholderBodies r.url ++ r.header.bodies ++ r.param.bodies
    ++ r.pathSegments.flatMap placeholderBodies ++ placeholderBodies r.body

def Book.bodies (book : Book) : List Text := book.requests.flatMap fun entry => entry.2.bodies

/-- The value of a placeholder is the same at every moment and for all draws. -/
def SteadyBody (body : Text) : Prop :=
  ∀ (vars : Variables) (now now' : Timestamp) (draws draws' : Draws),
    (Engine.standard now).render vars draws body =
      (Engine.standard now').render vars draws' body

/-- So it is with all placeholders of a book. -/
def Book.Steady (book : Book) : Prop := ∀ body ∈ book.bodies, SteadyBody body

/-- An expression that no evaluator answers is a variable or an error. -/
theorem steadyBody_of_lookup_eq_none {body : Text}
    (h : ∀ e, Expression.parse body = .ok e → Evaluator.standard.lookup e.tag = none) :
    SteadyBody body := by
  intro vars now now' draws draws'
  rw [Engine.render, Engine.render]
  cases hparse : Expression.parse body with
  | error e => rfl
  | ok e =>
      have hnone := h e hparse
      have hvalue (now : Timestamp) (draws : Draws) :
          (Engine.standard now).valueOf vars draws body e =
            if e.isBuiltin then .error (.unknownEvaluator e.tag)
            else .ok (.text ((vars.lookup e.text).getD body)) := by
        rw [Engine.valueOf, Engine.standard]
        simp only [hnone]
      simp only [bind, Except.bind, hvalue]

section Steady

variable {vars : Variables} {now now' : Timestamp} {draws draws' : Draws}

theorem replace_steady {t : Text} (h : ∀ body ∈ placeholderBodies t, SteadyBody body) {p : Piece}
    (hp : p ∈ pieces t) :
    (Engine.standard now).replace vars draws p = (Engine.standard now').replace vars draws' p := by
  cases p with
  | plain c => rfl
  | placeholder body =>
      have hbody : body ∈ placeholderBodies t := List.mem_filterMap.mpr ⟨_, hp, rfl⟩
      rw [Engine.replace, Engine.replace, h body hbody vars now now' draws draws']

theorem resolve_steady {t : Text} (h : ∀ body ∈ placeholderBodies t, SteadyBody body) :
    (Engine.standard now).resolve vars draws t = (Engine.standard now').resolve vars draws' t := by
  rw [Engine.resolve, Engine.resolve]
  split
  · exact List.flatMap_congr fun p hp => replace_steady h (List.fst_mem_of_mem_zipIdx hp)
  · rfl

theorem resolveFields_steady {fields : Fields} (h : ∀ body ∈ fields.bodies, SteadyBody body) :
    (Engine.standard now).resolveFields vars draws fields =
      (Engine.standard now').resolveFields vars draws' fields := by
  rw [Engine.resolveFields, Engine.resolveFields]
  refine congrArg Fields.ofList (List.map_congr_left fun entry hentry => ?_)
  have hmem := List.fst_mem_of_mem_zipIdx hentry
  have hbodies : ∀ body ∈ placeholderBodies entry.1.1 ++ placeholderBodies entry.1.2,
      SteadyBody body :=
    fun body hbody => h body (List.mem_flatMap.mpr ⟨entry.1, hmem, hbody⟩)
  rw [List.forall_mem_append] at hbodies
  exact Prod.ext (resolve_steady hbodies.1) (resolve_steady hbodies.2)

theorem resolveRequest_steady {r : Request} (h : ∀ body ∈ r.bodies, SteadyBody body) :
    (Engine.standard now).resolveRequest vars draws r =
      (Engine.standard now').resolveRequest vars draws' r := by
  simp only [Request.bodies, List.forall_mem_append] at h
  obtain ⟨⟨⟨⟨hurl, hheader⟩, hparam⟩, hpath⟩, hbody⟩ := h
  rw [Engine.resolveRequest, Engine.resolveRequest, Request.mk.injEq]
  refine ⟨rfl, resolve_steady hurl, rfl, rfl, resolveFields_steady hheader,
    resolveFields_steady hparam, ?_, resolve_steady hbody⟩
  refine List.map_congr_left fun segment hsegment => resolve_steady fun body hmem => ?_
  have hmember := List.fst_mem_of_mem_zipIdx hsegment
  exact hpath body (List.mem_flatMap.mpr ⟨segment.1, hmember, hmem⟩)

end Steady

theorem Book.mem_of_find {book : Book} {name : Text} {r : Request} (h : book.find name = .ok r) :
    ∃ key, (key, r) ∈ book.requests := by
  rw [Book.find] at h
  split at h
  · next request hlookup =>
      rw [← Except.ok.inj h]
      exact ⟨name, mem_of_lookup hlookup⟩
  · dsimp only at h
    split at h
    · next entry hfound =>
        rw [← Except.ok.inj h]
        exact ⟨entry.1, List.mem_of_find?_eq_some hfound⟩
    · cases h

namespace Run

/-! ## What one name adds -/

/-- What comes of one name. -/
def attemptReport (quiet : Bool) : Except RequestError Request → Report
  | .ok r => dispatchReport quiet r
  | .error e => .failure e.message

theorem out_attempts (quiet : Bool) (attempts : List (Except RequestError Request)) :
    (dispatchAll quiet (successes attempts)).out =
      attempts.flatMap fun attempt => (attemptReport quiet attempt).out := by
  induction attempts with
  | nil => rfl
  | cons attempt attempts ih =>
      cases attempt with
      | error e => exact ih
      | ok r => exact congrArg ((dispatchReport quiet r).out ++ ·) ih

theorem code_dispatchAll (quiet : Bool) (requests : List Request) :
    (dispatchAll quiet requests).code = 0 ↔
      ∀ r ∈ requests, (dispatchReport quiet r).code = 0 := by
  have hall : ((requests.map (dispatchReport quiet)).all fun report => report.code == 0) = true ↔
      ∀ r ∈ requests, (dispatchReport quiet r).code = 0 := by
    simp [List.all_eq_true]
  rw [← hall, dispatchAll]
  dsimp only
  split
  · next h => exact ⟨fun _ => h, fun _ => rfl⟩
  · next h => exact ⟨fun hone => absurd hone Nat.one_ne_zero, fun h' => absurd h' h⟩

theorem code_attempts (quiet : Bool) (attempts : List (Except RequestError Request)) :
    (if (failures attempts).isEmpty then (dispatchAll quiet (successes attempts)).code
      else 1) = 0 ↔ ∀ attempt ∈ attempts, (attemptReport quiet attempt).code = 0 := by
  induction attempts with
  | nil => exact ⟨fun _ _ h => absurd h List.not_mem_nil, fun _ => rfl⟩
  | cons attempt attempts ih =>
      rw [List.forall_mem_cons, ← ih]
      cases attempt with
      | error e =>
          have hone : ¬ (1 : Nat) = 0 := Nat.one_ne_zero
          exact ⟨fun h => absurd h hone, fun h => absurd h.1 hone⟩
      | ok r =>
          have hmissing : failures (.ok r :: attempts) = failures attempts := rfl
          have hfound : successes (.ok r :: attempts) = r :: successes attempts := rfl
          rw [hmissing, hfound]
          split
          · rw [code_dispatchAll, List.forall_mem_cons, code_dispatchAll]
            rfl
          · exact ⟨fun h => absurd h Nat.one_ne_zero, fun h => absurd h.2 Nat.one_ne_zero⟩

/-! ## Runs of steady books -/

section Steady

variable {book : Book} (h : book.Steady) {vars : Variables} {now now' : Timestamp}
  {draws draws' : Draws}

include h

/-- The moment and the draws may be any, and are the same for all names. -/
theorem resolved_steady (now' : Timestamp) (draws' : Draws) (names : List Text) :
    resolved (Engine.standard now) vars draws book names =
      (wanted book names).map fun name =>
        (book.find name).map ((Engine.standard now').resolveRequest vars draws') := by
  have hattempt : (fun p : Text × Nat =>
      (book.find p.1).map ((Engine.standard now).resolveRequest vars (draws.branch p.2))) =
      (fun name => (book.find name).map ((Engine.standard now').resolveRequest vars draws')) ∘
        Prod.fst := by
    funext p
    cases hfind : book.find p.1 with
    | error e => simp only [Function.comp, hfind, Except.map]
    | ok r =>
        obtain ⟨key, hmem⟩ := Book.mem_of_find hfind
        simp only [Function.comp, hfind, Except.map]
        exact congrArg Except.ok (resolveRequest_steady fun body hbody =>
          h body (List.mem_flatMap.mpr ⟨_, hmem, hbody⟩))
  rw [resolved, hattempt, ← List.map_map, List.zipIdx_map_fst]

/-- A run of a steady book reads neither the moment nor the draws. -/
theorem report_steady {tree : FileTree} {options : RunOptions}
    (hread : readBook tree options.file = .ok book) :
    report tree now draws options = report tree now' draws' options := by
  have hresolved (vars : Variables) :
      resolved (Engine.standard now) vars draws book options.names =
        resolved (Engine.standard now') vars draws' book options.names := by
    rw [resolved_steady h now' draws', ← resolved_steady h now' draws']
  have hrequests (vars : Variables) :
      requestsReport (Engine.standard now) vars draws options book =
        requestsReport (Engine.standard now') vars draws' options book := by
    rw [requestsReport, requestsReport, hresolved]
  rw [report, report, hread]
  simp only [bookReport, hrequests]

end Steady

/-! ## Runs that carry out requests -/

/-- Requests are carried out, and nothing else is asked for. -/
structure CarriesOut (options : RunOptions) : Prop where
  check : options.check = false
  nodes : options.nodes = false
  list : options.list = false
  json : options.json = false

theorem CarriesOut.withNames {options : RunOptions} (h : CarriesOut options) (names : List Text) :
    CarriesOut { options with names } :=
  ⟨h.check, h.nodes, h.list, h.json⟩

section CarriesOut

variable {tree : FileTree} {options : RunOptions} {book : Book} (hoptions : CarriesOut options)
  (hread : readBook tree options.file = .ok book) (now : Timestamp) (draws : Draws)

include hoptions hread

theorem report_of_variables {loaded : Except EnvironmentError Variables}
    (hvars : variablesFor tree options = loaded) :
    report tree now draws options =
      (match loaded with
        | .error e => Report.failure e.display
        | .ok vars => requestsReport (Engine.standard now) vars draws options book).after
          (book.diagnostics.flatMap (problemText options.file)) := by
  rw [report, hread]
  dsimp only
  rw [bookReport, hoptions.check, hoptions.nodes, hoptions.list, hvars]
  rfl

theorem report_attempts {vars : Variables} (hvars : variablesFor tree options = .ok vars) :
    let attempts := resolved (Engine.standard now) vars draws book options.names
    (report tree now draws options).out =
        attempts.flatMap (fun attempt => (attemptReport options.quiet attempt).out) ∧
      ((report tree now draws options).code = 0 ↔
        ∀ attempt ∈ attempts, (attemptReport options.quiet attempt).code = 0) := by
  intro attempts
  rw [← out_attempts, ← code_attempts, report_of_variables hoptions hread now draws hvars]
  dsimp only
  rw [requestsReport, hoptions.json]
  exact ⟨rfl, Iff.rfl⟩

end CarriesOut

section Names

variable {tree : FileTree} {options : RunOptions} {book : Book} (hoptions : CarriesOut options)
  (hread : readBook tree options.file = .ok book) (hsteady : book.Steady)
  (now now' : Timestamp) (draws draws' : Draws) {names : List Text}

include hoptions hread hsteady

theorem report_parts {vars : Variables} (hvars : variablesFor tree options = .ok vars)
    (hnames : names ≠ []) :
    let part (name : Text) : Report := attemptReport options.quiet
      ((book.find name).map ((Engine.standard now').resolveRequest vars draws'))
    (report tree now draws { options with names }).out =
        names.flatMap (fun name => (part name).out) ∧
      ((report tree now draws { options with names }).code = 0 ↔
        ∀ name ∈ names, (part name).code = 0) := by
  intro part
  have hwanted : wanted book names = names := if_neg (by simpa using hnames)
  obtain ⟨hout, hcode⟩ := report_attempts (hoptions.withNames names) hread now draws hvars
  dsimp only at hout hcode
  rw [resolved_steady hsteady now' draws', hwanted] at hout hcode
  rw [List.flatMap_map] at hout
  rw [List.forall_mem_map] at hcode
  exact ⟨hout, hcode⟩

/-- A run is the runs of its names, one after the other. -/
theorem report_names (hnames : names ≠ []) :
    (report tree now draws { options with names }).out =
        names.flatMap (fun name =>
          (report tree now' draws' { options with names := [name] }).out) ∧
      ((report tree now draws { options with names }).code = 0 ↔
        ∀ name ∈ names, (report tree now' draws' { options with names := [name] }).code = 0) := by
  cases hvars : variablesFor tree options with
  | error e =>
      -- without an environment every run comes to the same nothing
      have hnone (now : Timestamp) (draws : Draws) (names : List Text) :=
        report_of_variables (hoptions.withNames names) hread now draws hvars
      obtain ⟨name, hname⟩ := List.exists_mem_of_ne_nil names hnames
      refine ⟨?_, fun h => ?_, fun h => ?_⟩
      · simp only [hnone, Report.after, Report.failure]
        exact (List.flatMap_eq_nil_iff.mpr fun _ _ => rfl).symm
      · rw [hnone] at h
        exact absurd h Nat.one_ne_zero
      · have hcode := h name hname
        rw [hnone] at hcode
        exact absurd hcode Nat.one_ne_zero
  | ok vars =>
      obtain ⟨hout, hcode⟩ :=
        report_parts hoptions hread hsteady now now' draws draws' hvars hnames
      have hone (name : Text) := report_parts hoptions hread hsteady now' now' draws' draws' hvars
        (List.cons_ne_nil name [])
      simp only [List.flatMap_singleton, List.forall_mem_singleton] at hone
      refine ⟨hout.trans ?_, hcode.trans ?_⟩
      · exact List.flatMap_congr fun name _ => (hone name).1.symm
      · exact forall₂_congr fun name _ => (hone name).2.symm

end Names

theorem report_all {tree : FileTree} {options : RunOptions} {book : Book}
    (hread : readBook tree options.file = .ok book) (now : Timestamp) (draws : Draws) :
    report tree now draws { options with names := [] } =
      report tree now draws { options with names := book.names } := by
  have hwanted : wanted book [] = wanted book book.names := by
    rw [wanted, wanted, ite_self]
    rfl
  have hresolved (engine : Engine) (vars : Variables) :
      resolved engine vars draws book [] = resolved engine vars draws book book.names := by
    rw [resolved, resolved, hwanted]
  have hrequests (engine : Engine) (vars : Variables) :
      requestsReport engine vars draws { options with names := [] } book =
        requestsReport engine vars draws { options with names := book.names } book := by
    rw [requestsReport, requestsReport]
    dsimp only
    rw [hresolved]
  have hvars : variablesFor tree { options with names := [] } =
      variablesFor tree { options with names := book.names } := rfl
  rw [report, report]
  simp only [hread, bookReport, hrequests, hvars]

theorem report_append {tree : FileTree} {options : RunOptions} {book : Book}
    (hoptions : CarriesOut options) (hread : readBook tree options.file = .ok book)
    (hsteady : book.Steady) {first second : List Text} (hfirst : first ≠ []) (hsecond : second ≠ [])
    (now₁ now₂ now₃ : Timestamp) (draws₁ draws₂ draws₃ : Draws) :
    let both := report tree now₁ draws₁ { options with names := first ++ second }
    let one := report tree now₂ draws₂ { options with names := first }
    let other := report tree now₃ draws₃ { options with names := second }
    both.out = one.out ++ other.out ∧ (both.code = 0 ↔ one.code = 0 ∧ other.code = 0) ∧
      report tree now₁ draws₁ { options with names := [] } =
        report tree now₂ draws₂ { options with names := book.names } := by
  intro both one other
  have hruns (now : Timestamp) (draws : Draws) {names : List Text} (hnames : names ≠ []) :=
    report_names hoptions hread hsteady now now₁ draws draws₁ hnames
  obtain ⟨hboth, hbothCode⟩ := hruns now₁ draws₁ (List.append_ne_nil_of_left_ne_nil hfirst second)
  obtain ⟨hone, honeCode⟩ := hruns now₂ draws₂ hfirst
  obtain ⟨hother, hotherCode⟩ := hruns now₃ draws₃ hsecond
  refine ⟨?_, ?_, ?_⟩
  · rw [hboth, hone, hother, List.flatMap_append]
  · rw [hbothCode, honeCode, hotherCode, List.forall_mem_append]
  · rw [report_all hread, report_steady hsteady]
    exact hread

/-- A name that is in no book, one in another case and one that is there twice,
with a variable in a url and a method that belongs to no service. -/
theorem report_append_missing_and_repeated :
    let document : String :=
      "## a\n### url\n> GET http://\x7b\x7bhost\x7d\x7d\n## b\n### url\n> SEND x"
    let tree : FileTree := .folder [("api.md".toList, .file document.toUTF8)]
    let options : RunOptions :=
      { file := "api.md".toList, settings := [("host".toList, "x.org".toList)] }
    let first := ["A".toList, "c".toList]
    let second := ["b".toList, "a".toList, "a".toList]
    let start : Timestamp := ⟨⟨2024, 3, 15⟩, 10, 0, 0, 0⟩
    let later : Timestamp := ⟨⟨2024, 3, 16⟩, 0, 0, 0, 0⟩
    let both := report tree later (fun _ => 1) { options with names := first ++ second }
    let one := report tree start (fun _ => 0) { options with names := first }
    let other := report tree start (fun _ => 2) { options with names := second }
    ∃ book, readBook tree options.file = .ok book ∧ book.Steady ∧ CarriesOut options ∧
      first ≠ [] ∧ second ≠ [] ∧ book.names = ["a".toList, "b".toList] ∧
      both.out = one.out ++ other.out ∧ (both.code = 0 ↔ one.code = 0 ∧ other.code = 0) ∧
      report tree later (fun _ => 1) { options with names := [] } =
        report tree start (fun _ => 0) { options with names := book.names } := by
  intro document tree options first second start later both one other
  have hfound : (readBook tree options.file).toOption.map (fun book => (book.names, book.bodies)) =
      some (["a".toList, "b".toList], ["host".toList]) := by
    decide +kernel
  have hoptions : CarriesOut options := ⟨rfl, rfl, rfl, rfl⟩
  cases hread : readBook tree options.file with
  | error message =>
      rw [hread] at hfound
      cases hfound
  | ok book =>
      rw [hread] at hfound
      obtain ⟨hnames, hbodies⟩ := Prod.mk.inj (Option.some.inj hfound)
      have hhost : SteadyBody "host".toList := by
        refine steadyBody_of_lookup_eq_none fun e he => ?_
        have htag : (Expression.parse "host".toList).toOption.map (·.tag) = some "host".toList := by
          decide +kernel
        rw [he] at htag
        have hequal : e.tag = "host".toList := Option.some.inj htag
        rw [hequal]
        rfl
      have hsteady : book.Steady := by
        intro body hbody
        rw [hbodies, List.mem_singleton] at hbody
        exact hbody ▸ hhost
      have hfirst : first ≠ [] := List.cons_ne_nil _ _
      have hsecond : second ≠ [] := List.cons_ne_nil _ _
      exact ⟨book, rfl, hsteady, hoptions, hfirst, hsecond, hnames,
        report_append hoptions hread hsteady hfirst hsecond later start start
          (fun _ => 1) (fun _ => 0) (fun _ => 2)⟩

end Run

end RequestBook
