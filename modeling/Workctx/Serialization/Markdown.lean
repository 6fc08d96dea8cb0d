import Mathlib.Data.List.DropRight
import Workctx.Serialization.Canonical
import Workctx.Text.Lines

/-! Markdown documents: a model as front matter between two fences, and a body behind a blank line. -/

namespace Workctx.Serialization
open Workctx.Json Workctx.Text List

/-! Newlines. -/

/-- `value.replace("\r\n", "\n")` -/
def foldPairs : List Char → List Char
  | '\r' :: '\n' :: rest => '\n' :: foldPairs rest
  | c :: rest => c :: foldPairs rest
  | [] => []

def normalizeNewlines (value : List Char) : List Char := (foldPairs value).map fun c => if c = '\r' then '\n' else c

def isNewline (c : Char) : Bool := c = '\n'

def normalizeBody (body : List Char) : List Char :=
  let normalized := (normalizeNewlines body).dropWhile isNewline
  if normalized = [] then [] else normalized.rdropWhile isNewline ++ ['\n']

def removeStructuralBlankLine (body : List Char) : List Char :=
  match normalizeNewlines body with
  | '\n' :: rest => rest
  | normalized => normalized

/-! Front matter. -/

def delimiter : List Char := ['-', '-', '-']

def isDelimiter (line : List Char) : Bool := line.rdropWhile (fun c => c = '\r') = delimiter

/-- The lines before the closing delimiter, and those behind it -/
def splitClosing : List (List Char) → Option (List (List Char) × List (List Char))
  | [] => none
  | line :: rest => if isDelimiter line then some ([], rest) else (splitClosing rest).map fun parts => (line :: parts.1, parts.2)

inductive Failure where
  /-- `UnicodeDecodeError` -/
  | decode
  | value (message : String)
  /-- An error of the YAML reader -/
  | yaml
  /-- The model refuses the mapping -/
  | validation
  /-- `TypeError` of the canonical form -/
  | canonical
deriving DecidableEq

def joinNewline (lines : List (List Char)) : List Char := ['\n'].intercalate lines

def splitFrontmatter (text : List Char) : Except Failure (List Char × List Char) :=
  match text.splitOn '\n' with
  | [] => .error (.value "Canonical document must start with a '---' frontmatter delimiter")
  | first :: lines =>
    if isDelimiter first then
      match splitClosing lines with
      | some (raw, body) => .ok (joinNewline raw, joinNewline body)
      | none => .error (.value "Frontmatter is missing its closing '---' delimiter")
    else .error (.value "Canonical document must start with a '---' frontmatter delimiter")

/-- The YAML library and the validation of the model -/
structure Kit (Loaded : Type) where
  /-- `yaml.safe_dump` with the options of the canonical form -/
  safeDump : Value → List Char
  safeLoad : List Char → Option Loaded
  /-- `isinstance(loaded, dict)` -/
  isMapping : Loaded → Bool
  /-- The canonical data as the object it is to the library -/
  ofData : Value → Loaded
  modelValidate : Loaded → Option ModelInstance

structure MarkdownDocument where
  frontmatter : ModelInstance
  body : List Char

section
variable {Loaded : Type} (kit : Kit Loaded)

/-- `dump_yaml` of canonical data -/
def dumpYaml (data : Value) : List Char := normalizeNewlines (kit.safeDump data)

def parseFrontmatter (text : List Char) : Except Failure (Loaded × List Char) := do
  let (raw, body) ← splitFrontmatter text
  match kit.safeLoad raw with
  | none => .error .yaml
  | some loaded => if kit.isMapping loaded then .ok (loaded, body) else .error (.value "Frontmatter must contain a YAML mapping")

def renderMarkdown (frontmatter : ModelInstance) (body : List Char) : Except Failure (List Char) :=
  match canonicalModelData frontmatter with
  | none => .error .canonical
  | some data => .ok ("---\n".toList ++ dumpYaml kit data ++ "---\n\n".toList ++ normalizeBody body)

def renderMarkdownBytes (frontmatter : ModelInstance) (body : List Char) : Except Failure Bytes :=
  (renderMarkdown kit frontmatter body).map encodeUtf8

/-- `_decode` of bytes -/
def decode (data : Bytes) : Except Failure (List Char) :=
  match decodeUtf8 data with
  | some text => .ok text
  | none => .error .decode

def loadMarkdownModel (data : Bytes) : Except Failure MarkdownDocument := do
  let (loaded, storedBody) ← parseFrontmatter kit (← decode data)
  let body := removeStructuralBlankLine storedBody
  match kit.modelValidate loaded with
  | none => .error .validation
  | some frontmatter => .ok ⟨frontmatter, body⟩

def hasHandEditsMarkdown (raw : Bytes) : Except Failure Bool := do
  let document ← loadMarkdownModel kit raw
  let expected ← renderMarkdownBytes kit document.frontmatter document.body
  .ok (raw != expected)

end

/-- The library reads its own text of the data, without the line break that ends it, and no line of the text is the fence. -/
structure Kit.ReadsBack {Loaded : Type} (kit : Kit Loaded) (data : Value) (text : List Char) : Prop where
  dumped : dumpYaml kit data = text ++ ['\n']
  loaded : kit.safeLoad text = some (kit.ofData data)
  mapping : kit.isMapping (kit.ofData data) = true
  fenceless : delimiter ∉ text.splitOn '\n'

/-! Newlines are normalised once. -/

theorem not_mem_normalizeNewlines (value : List Char) : '\r' ∉ normalizeNewlines value := by
  unfold normalizeNewlines
  rw [mem_map]
  rintro ⟨c, _, same⟩
  split at same
  · cases same
  · next other => exact other same

theorem foldPairs_of_not_mem {value : List Char} (clean : '\r' ∉ value) : foldPairs value = value := by
  induction value with
  | nil => rfl
  | cons c rest ih =>
    rw [mem_cons, not_or] at clean
    rw [foldPairs, ih clean.2]
    rintro rest' rfl
    exact absurd rfl clean.1

theorem normalizeNewlines_of_not_mem {value : List Char} (clean : '\r' ∉ value) : normalizeNewlines value = value := by
  unfold normalizeNewlines
  rw [foldPairs_of_not_mem clean]
  calc
    value.map (fun c => if c = '\r' then '\n' else c) = value.map id :=
      map_congr_left fun c member => if_neg (ne_of_mem_of_not_mem member clean)
    _ = value := map_id value

theorem normalizeBody_clean (body : List Char) : '\r' ∉ normalizeBody body := by
  unfold normalizeBody
  dsimp only
  split
  · exact not_mem_nil
  · rw [mem_append, mem_singleton]
    rintro (member | wrong)
    · exact not_mem_normalizeNewlines body ((dropWhile_sublist _).mem ((List.rdropWhile_prefix _ _).subset member))
    · cases wrong

/-- What is left between the newlines at the ends begins with something else. -/
theorem strip_cons {value : List Char} (some : value.dropWhile isNewline ≠ []) :
    ∃ c rest, (value.dropWhile isNewline).rdropWhile isNewline = c :: rest ∧ isNewline c = false := by
  have first := head_dropWhile_not isNewline some
  have filled : (value.dropWhile isNewline).rdropWhile isNewline ≠ [] := by
    rw [ne_eq, rdropWhile_eq_nil_iff]
    intro every
    rw [every _ (head_mem some)] at first
    cases first
  obtain ⟨c, rest, left⟩ := exists_cons_of_ne_nil filled
  refine ⟨c, rest, left, ?_⟩
  obtain ⟨back, whole⟩ := rdropWhile_prefix isNewline (l := value.dropWhile isNewline)
  have heads := head?_dropWhile_not isNewline value
  rw [← whole, left] at heads
  exact heads

theorem normalizeBody_idempotent (body : List Char) : normalizeBody (normalizeBody body) = normalizeBody body := by
  have clean := normalizeNewlines_of_not_mem (normalizeBody_clean body)
  by_cases none : (normalizeNewlines body).dropWhile isNewline = []
  · have empty : normalizeBody body = [] := if_pos none
    rw [empty]
    rfl
  · have kept : normalizeBody body = ((normalizeNewlines body).dropWhile isNewline).rdropWhile isNewline ++ ['\n'] := if_neg none
    obtain ⟨c, rest, left, plain⟩ := strip_cons none
    rw [left] at kept
    have stays : (normalizeNewlines (normalizeBody body)).dropWhile isNewline = c :: rest ++ ['\n'] := by
      rw [clean, kept, cons_append, dropWhile_cons_of_neg (by rw [plain]; decide)]
    have ended : (c :: rest ++ ['\n']).rdropWhile isNewline = c :: rest := by
      rw [rdropWhile_concat_pos _ _ _ rfl, ← left, rdropWhile_idempotent]
    unfold normalizeBody at kept ⊢
    dsimp only at kept ⊢
    unfold normalizeBody at stays
    dsimp only at stays
    rw [stays, ended, kept]
    rfl

/-! The fences are found again. -/

theorem isDelimiter_iff {line : List Char} (clean : '\r' ∉ line) : isDelimiter line = true ↔ line = delimiter := by
  unfold isDelimiter
  rw [decide_eq_true_eq, rdropWhile_eq_self_iff.mpr]
  intro filled
  rw [decide_eq_true_eq]
  exact ne_of_mem_of_not_mem (getLast_mem filled) clean

theorem splitClosing_first {lines rest : List (List Char)} (clean : ∀ line ∈ lines, '\r' ∉ line) (fenceless : delimiter ∉ lines) :
    splitClosing (lines ++ delimiter :: rest) = some (lines, rest) := by
  induction lines with
  | nil => rfl
  | cons line others ih =>
    rw [mem_cons, not_or] at fenceless
    have plain : isDelimiter line ≠ true := fun fence =>
      fenceless.1 ((isDelimiter_iff (clean line mem_cons_self)).mp fence).symm
    rw [cons_append, splitClosing, if_neg plain, ih (fun line member => clean line (mem_cons_of_mem _ member)) fenceless.2]
    rfl

theorem mem_joinNewline {lines : List (List Char)} {line : List Char} {c : Char} (member : line ∈ lines) (inside : c ∈ line) :
    c ∈ joinNewline lines := by
  unfold joinNewline
  induction lines with
  | nil => cases member
  | cons first rest ih =>
    by_cases last : rest = []
    · rw [last, mem_singleton] at member
      rw [last, intercalate_singleton, ← member]
      exact inside
    · rw [intercalate_cons_of_ne_nil last, mem_append, mem_append]
      rcases mem_cons.mp member with rfl | later
      · exact .inl (.inl inside)
      · exact .inr (ih later)

theorem joinNewline_splitOn (text : List Char) : joinNewline (text.splitOn '\n') = text := intercalate_splitOn '\n'

theorem splitFrontmatter_rendered {text body : List Char} (clean : '\r' ∉ text) (fenceless : delimiter ∉ text.splitOn '\n') :
    splitFrontmatter ("---\n".toList ++ (text ++ ['\n']) ++ "---\n\n".toList ++ body) = .ok (text, '\n' :: body) := by
  have lines : ("---\n".toList ++ (text ++ ['\n']) ++ "---\n\n".toList ++ body).splitOn '\n' =
      delimiter :: (text.splitOn '\n' ++ delimiter :: [] :: body.splitOn '\n') := by
    calc
      _ = (delimiter ++ '\n' :: (text ++ '\n' :: (delimiter ++ '\n' :: ([] ++ '\n' :: body)))).splitOn '\n' := by simp [delimiter]
      _ = _ := by
        simp only [splitOn_append_cons_self]
        rfl
  have closing := @splitClosing_first (text.splitOn '\n') ([] :: body.splitOn '\n')
    (fun line member inside => clean (joinNewline_splitOn text ▸ mem_joinNewline member inside)) fenceless
  have opening : isDelimiter delimiter = true := by decide
  have behind : joinNewline ([] :: body.splitOn '\n') = '\n' :: body := by
    unfold joinNewline
    rw [intercalate_cons_of_ne_nil (splitOn_ne_nil _ _), intercalate_splitOn]
    rfl
  unfold splitFrontmatter
  rw [lines]
  dsimp only
  rw [if_pos opening, closing]
  dsimp only
  rw [joinNewline_splitOn, behind]

/-! What is rendered is loaded. -/

theorem removeStructuralBlankLine_rendered {body : List Char} (clean : '\r' ∉ body) : removeStructuralBlankLine ('\n' :: body) = body := by
  have kept : normalizeNewlines ('\n' :: body) = '\n' :: body := by
    apply normalizeNewlines_of_not_mem
    rw [mem_cons, not_or]
    exact ⟨by decide, clean⟩
  unfold removeStructuralBlankLine
  rw [kept]
  rfl

section
variable {Loaded : Type} {kit : Kit Loaded} {model : ModelInstance} {data : Value} {body text : List Char} {bytes : Bytes}

theorem renderMarkdownBytes_ok : renderMarkdownBytes kit model body = .ok bytes ↔ ∃ data, canonicalModelData model = some data ∧
    bytes = encodeUtf8 ("---\n".toList ++ dumpYaml kit data ++ "---\n\n".toList ++ normalizeBody body) := by
  unfold renderMarkdownBytes renderMarkdown
  cases canonicalModelData model with
  | none => simp [Except.map]
  | some data =>
    rw [show ∀ text : List Char, (Except.ok text : Except Failure (List Char)).map encodeUtf8 = .ok (encodeUtf8 text) from fun _ => rfl]
    simp [eq_comm]

theorem dumpYaml_clean (kit : Kit Loaded) (data : Value) : '\r' ∉ dumpYaml kit data := not_mem_normalizeNewlines _

theorem parseFrontmatter_rendered (reads : kit.ReadsBack data text) (body : List Char) :
    parseFrontmatter kit ("---\n".toList ++ dumpYaml kit data ++ "---\n\n".toList ++ body) = .ok (kit.ofData data, '\n' :: body) := by
  have clean : '\r' ∉ text := by
    intro inside
    have whole := dumpYaml_clean kit data
    rw [reads.dumped] at whole
    exact whole (mem_append_left _ inside)
  unfold parseFrontmatter
  rw [reads.dumped, splitFrontmatter_rendered clean reads.fenceless]
  simp only [bind, Except.bind, reads.loaded]
  exact if_pos reads.mapping

theorem decode_encodeUtf8 (text : List Char) : decode (encodeUtf8 text) = .ok text := by
  unfold decode
  rw [decodeUtf8_encodeUtf8]

theorem loadMarkdownModel_rendered (reads : kit.ReadsBack data text) (body : List Char) :
    loadMarkdownModel kit (encodeUtf8 ("---\n".toList ++ dumpYaml kit data ++ "---\n\n".toList ++ normalizeBody body)) =
      (kit.modelValidate (kit.ofData data)).elim (.error .validation) fun frontmatter => .ok ⟨frontmatter, normalizeBody body⟩ := by
  unfold loadMarkdownModel
  simp only [decode_encodeUtf8, parseFrontmatter_rendered reads, removeStructuralBlankLine_rendered (normalizeBody_clean body), bind, Except.bind]
  cases kit.modelValidate (kit.ofData data) <;> rfl

theorem hasHandEditsMarkdown_false {raw : Bytes} : hasHandEditsMarkdown kit raw = .ok false ↔
    ∃ document, loadMarkdownModel kit raw = .ok document ∧ renderMarkdownBytes kit document.frontmatter document.body = .ok raw := by
  unfold hasHandEditsMarkdown
  constructor
  · intro none
    cases loaded : loadMarkdownModel kit raw with
    | error failure =>
      rw [loaded] at none
      cases none
    | ok document =>
      refine ⟨document, rfl, ?_⟩
      cases rendered : renderMarkdownBytes kit document.frontmatter document.body with
      | error failure =>
        simp only [loaded, rendered, bind, Except.bind] at none
        cases none
      | ok expected =>
        simp only [loaded, rendered, bind, Except.bind, Except.ok.injEq, bne_eq_false_iff_eq] at none
        rw [none]
  · rintro ⟨document, loaded, rendered⟩
    simp only [loaded, rendered, bind, Except.bind, bne_self_eq_false]

end

/-- What is rendered is read back: the same metadata at every path, and the body with its newlines normalised; where the model writes the
metadata again it has no hand edits. And bytes have none exactly where they are the rendering of what they load to. -/
theorem markdown_codec {Loaded : Type} (kit : Kit Loaded) {model : ModelInstance} {data : Value} {text : List Char}
    (canonical : canonicalModelData model = some data) (reads : kit.ReadsBack data text) :
    (∀ body, ∃ bytes, renderMarkdownBytes kit model body = .ok bytes ∧ (∀ path, found path data = found path model.serialized) ∧
      ((decode bytes).bind fun text => parseFrontmatter kit text) = .ok (kit.ofData data, '\n' :: normalizeBody body) ∧
      ∀ frontmatter, kit.modelValidate (kit.ofData data) = some frontmatter →
        loadMarkdownModel kit bytes = .ok ⟨frontmatter, normalizeBody body⟩ ∧
        (canonicalModelData frontmatter = some data → hasHandEditsMarkdown kit bytes = .ok false)) ∧
      ∀ raw, hasHandEditsMarkdown kit raw = .ok false ↔
        ∃ document, loadMarkdownModel kit raw = .ok document ∧ renderMarkdownBytes kit document.frontmatter document.body = .ok raw := by
  refine ⟨fun body => ?_, fun _ => hasHandEditsMarkdown_false⟩
  refine ⟨_, renderMarkdownBytes_ok.mpr ⟨data, canonical, rfl⟩, found_canonicalModelData canonical, ?_, ?_⟩
  · rw [decode_encodeUtf8]
    exact parseFrontmatter_rendered reads (normalizeBody body)
  · intro frontmatter valid
    have loaded := loadMarkdownModel_rendered reads body
    rw [valid] at loaded
    refine ⟨loaded, fun again => hasHandEditsMarkdown_false.mpr ⟨_, loaded, renderMarkdownBytes_ok.mpr ⟨data, again, ?_⟩⟩⟩
    rw [normalizeBody_idempotent]

/-- A model with the field `id` -/
def idModel (id : String) : ModelInstance := ⟨[(some "id", .native)], [], [], .object [("id", .string id)]⟩

/-- The texts `id: name`, which are all that models with one plain name need. -/
def idKit : Kit Value where
  safeDump
    | .object [("id", .string id)] => "id: ".toList ++ id.toList ++ ['\n']
    | _ => "{}\n".toList
  safeLoad text := if "id: ".toList.isPrefixOf text then some (.object [("id", .string (String.ofList (text.drop 4)))]) else none
  isMapping := isObject
  ofData := id
  modelValidate
    | .object [("id", .string id)] => some (idModel id)
    | _ => none

theorem idModel_canonical (id : String) : canonicalModelData (idModel id) = some (.object [("id", .string id)]) := by
  have keys : orderedKeys (some (idModel id).object) ["id"] = ["id"] := by
    show ["id"] ++ ([] : List String).mergeSort _ = ["id"]
    rw [mergeSort_nil]
    rfl
  unfold canonicalModelData
  show (if preflightDeclared (idModel id).object && isObject (normalizeSerialized (some (idModel id).object) (.object [("id", .string id)])) then
    some (normalizeSerialized (some (idModel id).object) (.object [("id", .string id)])) else none) = _
  rw [normalizeSerialized, map_singleton, keys]
  rfl

theorem markdown_codec_sample :
    (∀ body, ∃ bytes, renderMarkdownBytes idKit (idModel "core") body = .ok bytes ∧
      (∀ path, found path (.object [("id", .string "core")]) = found path (idModel "core").serialized) ∧
      ((decode bytes).bind fun text => parseFrontmatter idKit text) =
        .ok (idKit.ofData (.object [("id", .string "core")]), '\n' :: normalizeBody body) ∧
      ∀ frontmatter, idKit.modelValidate (idKit.ofData (.object [("id", .string "core")])) = some frontmatter →
        loadMarkdownModel idKit bytes = .ok ⟨frontmatter, normalizeBody body⟩ ∧
        (canonicalModelData frontmatter = some (.object [("id", .string "core")]) → hasHandEditsMarkdown idKit bytes = .ok false)) ∧
      ∀ raw, hasHandEditsMarkdown idKit raw = .ok false ↔
        ∃ document, loadMarkdownModel idKit raw = .ok document ∧ renderMarkdownBytes idKit document.frontmatter document.body = .ok raw :=
  @markdown_codec Value idKit (idModel "core") _ "id: core".toList (idModel_canonical "core") ⟨rfl, rfl, rfl, by decide⟩

end Workctx.Serialization
