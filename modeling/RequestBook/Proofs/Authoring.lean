import RequestBook.Book
import RequestBook.Proofs.Decoding
import RequestBook.Proofs.Layout

/-!
# A request can be written down

Every request that keeps to a few rules of form can be put into a document by
hand, and compiling the document gives that request back and nothing else
(`compile_document`). The rules are those without which a line would not be
one line, a word not one word, or a fence would end too early; nothing is asked
of the maps and the segments, for JSON can hold any text.
-/

namespace RequestBook

/-! ## Lines as they are written -/

/-- A heading of a level. -/
def headingLine (level : Nat) (title : Text) : Text :=
  List.replicate level headingMark ++ ' ' :: title

/-- A quoted line. -/
def quoteLine (t : Text) : Text := quoteMark :: ' ' :: t

/-- The lines of a text between fences that are marked as json. -/
def fenceLines (t : Text) : List Text :=
  (fenceMark ++ "json".toList) :: Text.fields '\n' t ++ [fenceMark]

theorem trimEnd_append_full {s : Text} (hs : ∀ c ∈ s, Text.isBlank c = false) (t : Text) :
    Text.trimEnd (s ++ t) = s ++ Text.trimEnd t := by
  induction s with
  | nil => rfl
  | cons c s ih =>
      obtain ⟨hc, hs⟩ := List.forall_mem_cons.mp hs
      rw [List.cons_append, Text.trimEnd_cons hc, ih hs, List.cons_append]

/-- A space before a title stays when the title is not empty. -/
theorem trimEnd_space_cons {title : Text} (h : Text.trim title = title) :
    Text.trimEnd (' ' :: title) = if title = [] then [] else ' ' :: title := by
  split
  · next hnil =>
      rw [hnil]
      rfl
  · next hsome => exact Text.trimEnd_append_of_ne_nil (Text.trimEnd_of_trim h) hsome [' ']

section Headings

variable {level : Nat} {title : Text}

theorem headingLine_succ (level : Nat) (title : Text) :
    headingLine (level + 1) title = headingMark :: headingLine level title := rfl

theorem trim_headingLine (hlevel : 0 < level) (htitle : Text.trim title = title) :
    Text.trim (headingLine level title) =
      List.replicate level headingMark ++ if title = [] then [] else ' ' :: title := by
  obtain ⟨n, rfl⟩ : ∃ n, level = n + 1 := ⟨level - 1, by omega⟩
  have hstart : Text.trimStart (headingLine (n + 1) title) = headingLine (n + 1) title :=
    Text.trimStart_eq_self_iff.mpr fun c hc => by
      rw [headingLine_succ, List.head?_cons, Option.some.injEq] at hc
      rw [← hc]
      rfl
  have hfull : ∀ c ∈ List.replicate (n + 1) headingMark, Text.isBlank c = false := fun c hc => by
    rw [List.eq_of_mem_replicate hc]
    rfl
  rw [Text.trim, hstart, headingLine, trimEnd_append_full hfull, trimEnd_space_cons htitle]

theorem shape_headingLine (hlevel : 0 < level) : Shape.of (headingLine level title) = .heading := by
  obtain ⟨n, rfl⟩ : ∃ n, level = n + 1 := ⟨level - 1, by omega⟩
  rw [Shape.of_eq_heading_iff, headingLine_succ]
  exact List.prefix_append [headingMark] _

theorem allBlank_headingLine (hlevel : 0 < level) :
    Text.allBlank (headingLine level title) = false := by
  obtain ⟨n, rfl⟩ : ∃ n, level = n + 1 := ⟨level - 1, by omega⟩
  rfl

/-- The marks at the head of a heading end where its title begins. -/
theorem takeWhile_headingLine (hlevel : 0 < level) (htitle : Text.trim title = title) :
    (Text.trim (headingLine level title)).takeWhile (· = headingMark) =
      List.replicate level headingMark := by
  rw [trim_headingLine hlevel htitle]
  refine takeWhile_append_stop (fun c hc => decide_eq_true (List.eq_of_mem_replicate hc)) ?_
  intro c hc
  split at hc
  · cases hc
  · rw [List.head?_cons, Option.some.injEq] at hc
    rw [← hc]
    rfl

theorem kindFrom_headingLine (hlevel : 0 < level) (htitle : Text.trim title = title) :
    kindFrom (headingLine level title) = .heading level 1 := by
  rw [kindFrom, shape_headingLine hlevel]
  simp only [takeWhile_headingLine hlevel htitle, List.length_replicate]

theorem contentFrom_headingLine (hlevel : 0 < level) (htitle : Text.trim title = title) :
    contentFrom [headingLine level title] = title := by
  have hdrop : (Text.trim (headingLine level title)).dropWhile (· = headingMark) =
      if title = [] then [] else ' ' :: title := by
    have hsplit := List.takeWhile_append_dropWhile (p := (· = headingMark))
      (l := Text.trim (headingLine level title))
    rw [takeWhile_headingLine hlevel htitle, trim_headingLine hlevel htitle] at hsplit
    rw [trim_headingLine hlevel htitle]
    exact List.append_cancel_left hsplit
  simp only [contentFrom, shape_headingLine hlevel, hdrop]
  split
  · next hnil =>
      rw [hnil]
      rfl
  · exact Text.trimStart_of_trim htitle

end Headings

theorem shape_quoteLine (t : Text) : Shape.of (quoteLine t) = .quote :=
  Shape.of_eq_quote_iff.mpr (List.prefix_append [quoteMark] _)

theorem kindFrom_quoteLine (t : Text) : kindFrom (quoteLine t) = .quote := by
  rw [kindFrom, shape_quoteLine]

/-- A quoted line says its text, but for the blanks at its end. -/
theorem contentFrom_quoteLine_eq (t : Text) : contentFrom [quoteLine t] = Text.trimEnd t := by
  have hdrop : (Text.trimStart (quoteLine t)).drop 1 = ' ' :: t := rfl
  have hspace : [' '] <+: ' ' :: t := List.prefix_append [' '] t
  have hquoted : quotedText (quoteLine t) = Text.trimEnd t := by
    simp only [quotedText, hdrop]
    rw [if_pos hspace]
    rfl
  simp only [contentFrom, shape_quoteLine, List.map_nil, hquoted, Text.join,
    List.intercalate_singleton]

theorem contentFrom_quoteLine {t : Text} (h : Text.trimEnd t = t) :
    contentFrom [quoteLine t] = t := by
  rw [contentFrom_quoteLine_eq, h]

/-- Text that can stand between fences. -/
structure Fenceable (t : Text) : Prop where
  no_return : '\r' ∉ t
  no_end : ∀ line ∈ Text.fields '\n' t, Text.trim line ≠ fenceMark

theorem Json.Plain.fenceable {room : Nat} {j : Json} (h : Json.Plain room j) :
    Fenceable j.written where
  no_return := h.shows.oneLine.1
  no_end line hline := by
    obtain ⟨c, hc, t, hhead⟩ := h.exists_head
    obtain ⟨_, hfull, _, hmark⟩ := Json.of_mem_openers hc
    rw [Text.fields_of_not_mem h.shows.oneLine.2, List.mem_singleton] at hline
    rw [hline, hhead, Text.trim, Text.trimStart_eq_self_iff.mpr fun d hd => by
      rwa [← Option.some.inj hd], Text.trimEnd_cons hfull]
    exact fun heq => hmark (List.cons.inj heq).1

theorem Json.Plain.not_blank {room : Nat} {j : Json} (h : Json.Plain room j) :
    Text.allBlank j.written = false := by
  obtain ⟨c, hc, t, hhead⟩ := h.exists_head
  rw [hhead, Text.allBlank, List.all_cons, (Json.of_mem_openers hc).2.1, Bool.false_and]

theorem contentFrom_fenceLines (t : Text) : contentFrom (fenceLines t) = t := by
  have hshape : Shape.of (fenceMark ++ "json".toList) = .fence := by decide
  rw [fenceLines, List.cons_append]
  simp only [contentFrom, hshape, List.dropLast_concat, Text.join_fields]

theorem extent?_fenceLines {t : Text} (h : Fenceable t) (rest : List Text) :
    extent? (fenceLines t ++ rest) = some (fenceLines t).length := by
  have hshape : Shape.of (fenceMark ++ "json".toList) = .fence := by decide
  have hbody : ∀ line ∈ Text.fields '\n' t, isFenceEnd line = false := fun line hline =>
    beq_false_of_ne (h.no_end line hline)
  have hextent := extent?_fence hshape hbody (by decide : isFenceEnd fenceMark = true) rest
  rw [fenceLines, List.length_append, List.length_cons, List.length_singleton, ← hextent,
    List.append_assoc, List.singleton_append]

/-! ## The document of a request -/

/-- Text between fences that are marked as json. -/
def fenced (t : Text) : Text :=
  fenceMark ++ "json".toList ++ ['\n'] ++ t ++ ['\n'] ++ fenceMark ++ ['\n']

/-- The heading of a field, with its end of line. -/
def fieldHeading (word : String) : Text := headingLine 3 word.toList ++ ['\n']

namespace Request

/-- The line that asks for the request. -/
def line (r : Request) : Text := r.method ++ ' ' :: (r.url ++ ' ' :: r.httpVersion)

/-- A document that asks for the request, with each part under its heading. -/
def document (r : Request) : Text :=
  headingLine 2 r.name ++ ['\n']
    ++ fieldHeading "url" ++ quoteLine r.line ++ ['\n']
    ++ fieldHeading "header" ++ fenced (fieldsJson r.header).written
    ++ fieldHeading "param" ++ fenced (fieldsJson r.param).written
    ++ fieldHeading "pathVar" ++ fenced (segmentsJson r.pathSegments).written
    ++ fieldHeading "body" ++ fenced r.body

/-- The rules of form for a request that is written down. -/
structure Authorable (r : Request) : Prop where
  name_line : Text.OneLine r.name
  name_trim : Text.trim r.name = r.name
  method_some : r.method ≠ []
  method_line : Text.OneLine r.method
  method_word : ' ' ∉ r.method
  url_web : webScheme <+: r.url
  url_line : Text.OneLine r.url
  url_spaces : ¬ [' ', ' '] <:+: r.url
  url_trim : Text.trim r.url = r.url
  version_mark : RequestLine.isVersion r.httpVersion = true
  version_upper : Text.upper r.httpVersion = r.httpVersion
  version_line : Text.OneLine r.httpVersion
  version_word : ' ' ∉ r.httpVersion
  version_trimEnd : Text.trimEnd r.httpVersion = r.httpVersion
  body : Fenceable r.body

/-- The fields of the document: the word in the heading of each and the lines
of its value. -/
def fieldLines (r : Request) : List (Text × List Text) := [
  (headingLine 3 "url".toList, [quoteLine r.line]),
  (headingLine 3 "header".toList, fenceLines (fieldsJson r.header).written),
  (headingLine 3 "param".toList, fenceLines (fieldsJson r.param).written),
  (headingLine 3 "pathVar".toList, fenceLines (segmentsJson r.pathSegments).written),
  (headingLine 3 "body".toList, fenceLines r.body)]

/-- The parts of the document, which become one block each. -/
def parts (r : Request) : List (List Text) := sectionParts (headingLine 2 r.name) r.fieldLines

end Request

theorem ofLines_fenceLines (t : Text) : Text.ofLines (fenceLines t) = fenced t := by
  rw [fenceLines, Text.ofLines_append, Text.ofLines_cons, Text.ofLines_fields,
    Text.ofLines_singleton, fenced]
  simp only [List.append_assoc, List.cons_append, List.nil_append]

theorem document_eq (r : Request) : r.document = Text.ofLines r.parts.flatten := by
  simp only [Request.parts, sectionParts, Request.fieldLines, List.flatMap_cons, List.flatMap_nil,
    List.flatten_cons, List.flatten_append, List.flatten_nil, Text.ofLines_append,
    ofLines_fenceLines, Text.ofLines_singleton, Request.document, fieldHeading, List.append_assoc,
    List.append_nil]

example : Request.document {
      name := "n".toList
      method := "GET".toList
      url := "http://h".toList
      httpVersion := "HTTP/2".toList
      pathSegments := ["v 1".toList]
      body := "a\nb".toList } =
    ("## n\n### url\n> GET http://h HTTP/2\n### header\n\x60\x60\x60json\n\x7b\x7d\n\x60\x60\x60\n" ++
      "### param\n\x60\x60\x60json\n\x7b\x7d\n\x60\x60\x60\n" ++
      "### pathVar\n\x60\x60\x60json\n[\"v 1\"]\n\x60\x60\x60\n" ++
      "### body\n\x60\x60\x60json\na\nb\n\x60\x60\x60\n").toList := by decide +kernel

/-! ## What the document is read as -/

theorem oneLine_headingLine (level : Nat) {title : Text} (h : Text.OneLine title) :
    Text.OneLine (headingLine level title) := by
  rw [headingLine, Text.oneLine_append, Text.oneLine_cons]
  refine ⟨⟨fun hmem => ?_, fun hmem => ?_⟩, by decide, h⟩
  · exact absurd (List.eq_of_mem_replicate hmem) (by decide)
  · exact absurd (List.eq_of_mem_replicate hmem) (by decide)

theorem oneLine_fenceLines {t : Text} (h : Fenceable t) : ∀ line ∈ fenceLines t, Text.OneLine line := by
  intro line hline
  rw [fenceLines, List.mem_append, List.mem_cons, List.mem_singleton] at hline
  rcases hline with (rfl | hline) | rfl
  · decide
  · obtain ⟨hfeed, hsubset⟩ := Text.mem_fields hline
    exact ⟨fun hmem => h.no_return (hsubset hmem), hfeed⟩
  · decide

theorem isField_fence {word : Text} (hword : Text.trim word = word) {t : Text} (h : Fenceable t) :
    IsField (headingLine 3 word, fenceLines t) where
  heading := kindFrom_headingLine (by decide) hword
  first := ⟨_, _, rfl, by decide, by decide⟩
  ends rest _ := extent?_fenceLines h rest

theorem isField_quote {word : Text} (hword : Text.trim word = word) (t : Text) :
    IsField (headingLine 3 word, [quoteLine t]) where
  heading := kindFrom_headingLine (by decide) hword
  first := ⟨_, _, rfl, rfl, by rw [shape_quoteLine]; decide⟩
  ends rest hrest := by
    refine extent?_quote (shape_quoteLine t) fun next hnext => ?_
    rw [Bool.eq_false_iff, ne_eq, isQuoted_iff, hrest next hnext]
    decide

namespace Request.Authorable

variable {r : Request}

theorem oneLine_line (h : r.Authorable) : Text.OneLine r.line := by
  have hversion : Text.OneLine (' ' :: r.httpVersion) :=
    Text.oneLine_cons.mpr ⟨by decide, h.version_line⟩
  have hurl : Text.OneLine (' ' :: (r.url ++ ' ' :: r.httpVersion)) :=
    Text.oneLine_cons.mpr ⟨by decide, Text.oneLine_append.mpr ⟨h.url_line, hversion⟩⟩
  exact Text.oneLine_append.mpr ⟨h.method_line, hurl⟩

theorem version_some (h : r.Authorable) : r.httpVersion ≠ [] := by
  intro hnil
  have hmark := h.version_mark
  rw [hnil] at hmark
  exact absurd hmark (by decide)

theorem trimEnd_line (h : r.Authorable) : Text.trimEnd r.line = r.line := by
  have hsplit : r.line = (r.method ++ ' ' :: (r.url ++ [' '])) ++ r.httpVersion := by
    simp only [Request.line, List.append_assoc, List.cons_append, List.nil_append]
  rw [hsplit, Text.trimEnd_append_of_ne_nil h.version_trimEnd h.version_some]

theorem oneLine (h : r.Authorable) : ∀ line ∈ r.parts.flatten, Text.OneLine line := by
  have hquote : Text.OneLine (quoteLine r.line) :=
    Text.oneLine_cons.mpr ⟨by decide, Text.oneLine_cons.mpr ⟨by decide, h.oneLine_line⟩⟩
  have hfence : ∀ {j : Json}, Json.Plain Json.deepest j →
      ∀ line ∈ fenceLines j.written, Text.OneLine line :=
    fun hplain => oneLine_fenceLines hplain.fenceable
  have hword : ∀ word, Text.OneLine word → Text.OneLine (headingLine 3 word) :=
    fun _ => oneLine_headingLine 3
  simp only [Request.parts, sectionParts, Request.fieldLines, List.flatMap_cons, List.flatMap_nil,
    List.flatten_cons, List.flatten_append, List.flatten_nil, List.forall_mem_append,
    List.forall_mem_singleton, List.append_nil]
  exact ⟨oneLine_headingLine 2 h.name_line, ⟨hword _ (by decide), hquote⟩,
    ⟨hword _ (by decide), hfence (plain_fieldsJson _)⟩,
    ⟨hword _ (by decide), hfence (plain_fieldsJson _)⟩,
    ⟨hword _ (by decide), hfence (plain_segmentsJson _)⟩,
    ⟨hword _ (by decide), oneLine_fenceLines h.body⟩⟩

theorem isField (h : r.Authorable) : ∀ field ∈ r.fieldLines, IsField field := by
  simp only [Request.fieldLines, List.forall_mem_cons]
  exact ⟨isField_quote (by decide) r.line, isField_fence (by decide) (plain_fieldsJson _).fenceable,
    isField_fence (by decide) (plain_fieldsJson _).fenceable,
    isField_fence (by decide) (plain_segmentsJson _).fenceable,
    isField_fence (by decide) h.body, by simp⟩

end Request.Authorable

/-! ## What the fields set -/

section Fields

variable (s : Request) (p q i j : Nat)

theorem applyField_line {r : Request} (h : r.Authorable) :
    applyField s ⟨.ofLines p i [headingLine 3 "url".toList], some (.ofLines q j [quoteLine r.line])⟩ =
      ({ s with method := r.method, url := r.url, httpVersion := r.httpVersion }, []) := by
  have hrole : fieldRole? (.ofLines p i [headingLine 3 "url".toList])
      (.ofLines q j [quoteLine r.line]) = some .line := rfl
  have hcontent : (Block.ofLines q j [quoteLine r.line]).content = r.line :=
    contentFrom_quoteLine h.trimEnd_line
  have hread : RequestLine.read? r.line = some ⟨r.method, r.url, r.httpVersion⟩ := by
    have htidy := RequestLine.read?_of_tidy h.method_word h.method_some h.url_web h.url_trim
      h.url_spaces h.version_mark h.version_word
    rwa [h.version_upper] at htidy
  simp only [applyField, hrole, setPart, hcontent, hread]

/-- A part that is decoded from JSON gets the value that is written between the
fences. -/
theorem applyField_json {α : Type} {default found : α} {decode : Text → Except Json.Fault α}
    {room : Nat} {value : Json} (word : String) (role : FieldRole) (set : α → Request)
    (hrole : fieldRole? (.ofLines p i [headingLine 3 word.toList])
      (.ofLines q j (fenceLines value.written)) = some role)
    (hset : ∀ block, setPart s role block =
      (decoded default decode "json".toList block).map set id)
    (h : Json.Plain room value) (hdecode : decode value.written = .ok found) :
    applyField s ⟨.ofLines p i [headingLine 3 word.toList],
        some (.ofLines q j (fenceLines value.written))⟩ = (set found, []) := by
  have hcontent : (Block.ofLines q j (fenceLines value.written)).content = value.written :=
    contentFrom_fenceLines _
  have hjson : isJson "json".toList = true := rfl
  have hdecoded : decoded default decode "json".toList
      (.ofLines q j (fenceLines value.written)) = (found, []) := by
    rw [decoded, hcontent, h.not_blank, hjson, hdecode]
    rfl
  simp only [applyField, hrole, hset, hdecoded, Prod.map_apply, id_eq]

theorem applyField_body (body : Text) :
    applyField s ⟨.ofLines p i [headingLine 3 "body".toList],
        some (.ofLines q j (fenceLines body))⟩ = ({ s with body }, []) := by
  have hrole : fieldRole? (.ofLines p i [headingLine 3 "body".toList])
      (.ofLines q j (fenceLines body)) = some (.body "json".toList) := rfl
  have hcontent : (Block.ofLines q j (fenceLines body)).content = body :=
    contentFrom_fenceLines _
  have hjson : isJson "json".toList = true := rfl
  simp only [applyField, hrole, setPart, hcontent, hjson, if_true]

end Fields

/-- A request that keeps to the rules of form comes back from its document, and
nothing else does. -/
theorem compile_document {r : Request} (h : r.Authorable) :
    (Book.compile r.document).requests = [(r.name, r)] ∧
      (Book.compile r.document).diagnostics = [] := by
  have hlines : Text.documentLines r.document = r.parts.flatten := by
    have hfirst : (Text.ofLines r.parts.flatten).head? = some headingMark := rfl
    rw [document_eq]
    exact Text.documentLines_ofLines h.oneLine (by rw [hfirst]; decide)
  have hcontent : Text.trim (contentFrom [headingLine 2 r.name]) = r.name := by
    rw [contentFrom_headingLine (by decide) h.name_trim, h.name_trim]
  obtain ⟨hfaults, hextract⟩ := extract_sectionParts
    (kindFrom_headingLine (by decide) h.name_trim : kindFrom (headingLine 2 r.name) = _)
    h.isField (List.cons_ne_nil _ _)
  have hheader := fun s p q i j => applyField_json s p q i j "header" (.header "json".toList)
    ({ s with header := · }) rfl (fun _ => rfl) (plain_fieldsJson r.header)
    (decodeHeader_written r.header)
  have hparam := fun s p q i j => applyField_json s p q i j "param" (.param "json".toList)
    ({ s with param := · }) rfl (fun _ => rfl) (plain_fieldsJson r.param)
    (decodeParam_written r.param)
  have hsegments := fun s p q i j => applyField_json s p q i j "pathVar" (.segments "json".toList)
    ({ s with pathSegments := · }) rfl (fun _ => rfl) (plain_segmentsJson r.pathSegments)
    (decodeSegments_written r.pathSegments)
  have hasked : applyFields { name := r.name } ((fieldBlocks 1 2 r.fieldLines).map fun field =>
      ⟨field.1, some field.2⟩) = (r, []) := by
    simp only [Request.fieldLines, fieldBlocks, List.map_cons, List.map_nil, applyFields,
      applyField_line _ _ _ _ _ h, hheader, hparam, hsegments, applyField_body,
      List.append_nil]
  rw [hcontent, hasked] at hextract
  rw [Book.compile, Book.ofOutline, Grammar.readText, hlines, Request.parts]
  simp only [hextract, hfaults, List.append_nil, and_self]

/-- Marks of headings, quotes and fences stand in every part of this request,
and so do line ends where a line end may stand. -/
theorem compile_document_full_of_marks :
    let r : Request := {
      name := "# > 1".toList
      method := "\t>GET".toList
      url := "http://h/a b?\x60\x60\x60 HTTP/1".toList
      httpVersion := "HTTP/2\t>".toList
      header := ⟨[("\"\n".toList, "\x60\x60\x60".toList), ([], "\uFEFF\\".toList)], by decide +kernel⟩
      param := ⟨[("b".toList, "\x01".toList), ("a".toList, "\x7b\x7d".toList)], by decide +kernel⟩
      pathSegments := [[], "\r\n".toList]
      body := "\x60\x60\x60json\n\n## url\n> x".toList }
    r.Authorable ∧ (Book.compile r.document).requests = [(r.name, r)] ∧
      (Book.compile r.document).diagnostics = [] := by
  intro r
  have h : r.Authorable := {
    name_line := by decide +kernel
    name_trim := by decide +kernel
    method_some := by decide +kernel
    method_line := by decide +kernel
    method_word := by decide +kernel
    url_web := by decide +kernel
    url_line := by decide +kernel
    url_spaces := by decide +kernel
    url_trim := by decide +kernel
    version_mark := by decide +kernel
    version_upper := by decide +kernel
    version_line := by decide +kernel
    version_word := by decide +kernel
    version_trimEnd := by decide +kernel
    body := ⟨by decide +kernel, by decide +kernel⟩ }
  exact ⟨h, compile_document h⟩

end RequestBook
