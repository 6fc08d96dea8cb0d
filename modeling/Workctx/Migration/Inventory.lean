import Workctx.Ingestion.Models
import Workctx.Migration.Mapping
import Workctx.Text.Newlines

/-! The inventory of a legacy tree: what its files are taken for, and the documents that are made of them. -/

namespace Workctx.Migration
open Workctx.Concurrent Workctx.Domain Workctx.Text Workctx.Topics Workctx.Ingestion

def textSuffixes : List String := [".cfg", ".conf", ".ini", ".json", ".log", ".md", ".toml", ".txt", ".yaml", ".yml"]

def generatedParts : List String := ["04_views", "generated", "indexes", "views"]

def generatedNames : List String := ["brief.md", "current-focus.md", "next-actions.md", "waiting-on.md"]

def obsoleteParts : List String := [".git", ".obsidian", ".venv", "archive", "node_modules", "obsolete"]

def obsoleteNames : List String := ["agents.md", "readme.md"]

def directoryEntityTypes : List (String × String) :=
  [("claims", "claim"), ("decisions", "decision"), ("drafts", "draft"), ("evidence", "evidence"), ("flows", "flow"),
    ("incidents", "incident"), ("integrations", "integration"), ("investigations", "investigation"), ("modules", "module"),
    ("people", "person"), ("persons", "person"), ("projects", "project"), ("questions", "question"), ("risks", "risk"),
    ("services", "service"), ("systems", "system"), ("tasks", "task"), ("teams", "team")]

def idEntityTypes : List (String × String) :=
  [("ART-", "artifact"), ("CLM-", "claim"), ("DEC-", "decision"), ("DRAFT-", "draft"), ("EVD-", "evidence"), ("FLOW-", "flow"),
    ("INC-", "incident"), ("INT-", "integration"), ("INV-", "investigation"), ("MOD-", "module"), ("PER-", "person"), ("PRJ-", "project"),
    ("Q-", "question"), ("RISK-", "risk"), ("SVC-", "service"), ("SYS-", "system"), ("TASK-", "task"), ("TEAM-", "team")]

inductive FileClassification where
  | canonical
  | generated
  | obsolete
  | unknown
deriving DecidableEq

/-- `MigrationBoundaryError` -/
structure BoundaryError where
  message : String

structure SourceFile where
  relativePath : String
  content : Bytes

structure LegacyTree where
  files : List SourceFile
  apart : (files.map SourceFile.relativePath).Nodup

/-- The readers and the finders that the inventory calls -/
structure InventoryLibrary where
  unicode : UnicodeData
  hexdigest : Bytes → String
  containsPossibleSecret : String → Bool
  /-- none where the front matter is refused -/
  parseFrontmatter : String → Option (Directory String Yaml × String)
  frontmatterSpans : String → Directory String (Nat × Nat)
  /-- none where the file cannot be scanned -/
  scanArtifact : SourceFile → Option (List QuarantineReason)

/-- `PurePosixPath(path).suffix` -/
def suffix (path : String) : String :=
  let name := (pathParts path).getLastD []
  let tail := (name.reverse.takeWhile (· != '.')).length
  if name.contains '.' && tail != 0 && tail + 1 < name.length then String.ofList (name.drop (name.length - tail - 1)) else ""

section
variable (library : InventoryLibrary)

def readText (source : SourceFile) : Option String :=
  if textSuffixes.contains (library.unicode.casefold (suffix source.relativePath)) then
    (decodeUtf8 source.content).map fun text => String.ofList (universalNewlines text)
  else none

def safeReportPath (relativePath : String) : String :=
  if library.containsPossibleSecret relativePath then
    "[redacted-path-" ++ String.ofList ((library.hexdigest (encodeUtf8 relativePath.toList)).toList.take 12) ++ "]"
  else relativePath

def foldedParts (path : String) : List String := (pathParts path).map fun part => library.unicode.casefold (String.ofList part)

/-- `is_raw_evidence_path` -/
def isRawEvidence (parts : List String) : Bool :=
  parts.head? == some "raw" ||
    (parts.zip parts.tail).any fun pair => pair.2 == "raw" && ["00_inbox", "evidence", "inbox"].contains pair.1

def inferEntityType (parts : List String) (identifier : Option Yaml) : Option String :=
  match parts.dropLast.reverse.findSome? (fun part => directoryEntityTypes.lookup part) with
  | some entityType => some entityType
  | none =>
    match identifier.bind Yaml.text with
    | none => none
    | some id => (idEntityTypes.find? fun row => row.1.toList.isPrefixOf id.toList).map Prod.snd

def declaredType (parts : List String) (frontmatter : Directory String Yaml) : Option String :=
  let explicit := match frontmatter.get "entity_type" with
    | some value => some value
    | none => frontmatter.get "type"
  match explicit.bind Yaml.text with
  | some text => some (library.unicode.casefold (String.ofList (strip text.toList)))
  | none => inferEntityType parts (frontmatter.get "id")

def classify (relativePath : String) (frontmatter : Option (Directory String Yaml)) : FileClassification × Option String :=
  let parts := foldedParts library relativePath
  let name := parts.getLastD ""
  if parts.any generatedParts.contains || generatedNames.contains name then (.generated, none)
  else if (frontmatter.bind fun members => (members.get "generated_by").bind Yaml.text).isSome then (.generated, none)
  else if parts.any obsoleteParts.contains || obsoleteNames.contains name then (.obsolete, none)
  else if isRawEvidence parts then (.canonical, some "artifact")
  else
    match frontmatter with
    | none => (.unknown, none)
    | some members =>
      if library.unicode.casefold (suffix relativePath) != ".md" then (.unknown, none)
      else
        match declaredType library parts members with
        | none => (.unknown, none)
        | some entityType =>
          if entityType = "artifact" then (.obsolete, some entityType)
          else if entityTypes.contains entityType then (.canonical, some entityType)
          else (.unknown, some entityType)

/-- The front matter and the body of a Markdown file with its text, where they can be read -/
def readFrontmatter (source : SourceFile) : Option (String × Directory String Yaml × String) :=
  match readText library source with
  | none => none
  | some text =>
    if library.unicode.casefold (suffix source.relativePath) == ".md" && "---".toList.isPrefixOf text.toList then
      (library.parseFrontmatter text).map fun read => (text, read)
    else none

def classified (source : SourceFile) : FileClassification × Option String :=
  classify library source.relativePath ((readFrontmatter library source).map fun read => read.2.1)

/-- What is canonical is raw evidence, or a document with its front matter. -/
theorem classify_canonical {relativePath : String} {frontmatter : Option (Directory String Yaml)} {entityType : Option String}
    (canonical : classify library relativePath frontmatter = (.canonical, entityType)) :
    entityType = some "artifact" ∨ (entityType ≠ some "artifact" ∧ entityType.isSome = true ∧ frontmatter.isSome = true) := by
  unfold classify at canonical
  dsimp only at canonical
  split at canonical
  · cases canonical
  split at canonical
  · cases canonical
  split at canonical
  · cases canonical
  split at canonical
  · cases canonical
    exact Or.inl rfl
  split at canonical
  · cases canonical
  split at canonical
  · cases canonical
  split at canonical
  · cases canonical
  split at canonical
  · cases canonical
  split at canonical
  · next other _ =>
    cases canonical
    exact Or.inr ⟨fun same => other (Option.some.inj same), rfl, rfl⟩
  · cases canonical

/-! Inventoried files -/

/-- The flags of a file: the secrets found in its path, its text or by the scan, and the instructions found by the scan -/
def flagged (source : SourceFile) (reasons : List QuarantineReason) : Bool × Bool :=
  ((library.containsPossibleSecret source.relativePath ||
      (readText library source).any library.containsPossibleSecret) || reasons.contains .possibleSecret,
    (classified library source).2 != some "artifact" && reasons.contains .promptInjection)

def documentOf (source : SourceFile) (flags : Bool × Bool) : Option LegacyDocument :=
  match (classified library source), readFrontmatter library source with
  | (.canonical, some entityType), some (text, frontmatter, body) =>
    if entityType = "artifact" then none
    else some
      { relativePath := source.relativePath
        reportPath := safeReportPath library source.relativePath
        frontmatter
        body
        entityType
        oldId := ((frontmatter.get "id").bind Yaml.text).filter fun id => id != ""
        frontmatterSpans := library.frontmatterSpans text
        containsSecret := flags.1
        unsafeContent := flags.2 }
  | _, _ => none

end

/-- A `LegacyFile` with its report path, its classification and its document -/
structure InventoriedFile where
  file : LegacyFile
  reportPath : String
  classification : FileClassification
  document : Option LegacyDocument
  canonical : file.isCanonical = decide (classification = .canonical)
  reported : file.containsSecret = false → reportPath = file.relativePath
  matched : ∀ made ∈ document, made.relativePath = file.relativePath ∧ made.containsSecret = file.containsSecret ∧
    made.unsafeContent = file.unsafeContent
  migrates : document.isSome = (file.isCanonical && file.entityType != some "artifact")

section
variable {library : InventoryLibrary}

theorem documentOf_matched {source : SourceFile} {flags : Bool × Bool} : ∀ made ∈ documentOf library source flags,
    made.relativePath = source.relativePath ∧ made.containsSecret = flags.1 ∧ made.unsafeContent = flags.2 := by
  intro made found
  rw [Option.mem_def, documentOf] at found
  split at found
  · split at found
    · cases found
    · cases found
      exact ⟨rfl, rfl, rfl⟩
  · cases found

theorem documentOf_isSome {source : SourceFile} {flags : Bool × Bool} : (documentOf library source flags).isSome =
    (decide ((classified library source).1 = .canonical) && (classified library source).2 != some "artifact") := by
  cases kind : classified library source with
  | mk classification entityType =>
    rw [documentOf, kind]
    by_cases canonical : classification = .canonical
    · subst canonical
      rcases classify_canonical library kind with raw | ⟨other, typed, fronted⟩
      · subst raw
        cases readFrontmatter library source <;> rfl
      · obtain ⟨name, rfl⟩ := Option.isSome_iff_exists.mp typed
        rw [Option.isSome_map] at fronted
        obtain ⟨⟨text, frontmatter, body⟩, read⟩ := Option.isSome_iff_exists.mp fronted
        rw [read]
        dsimp only
        rw [if_neg fun same => other (congrArg some same), Option.isSome_some, bne_iff_ne.mpr other]
        rfl
    · rw [decide_eq_false canonical, Bool.false_and]
      cases classification with
      | canonical => exact absurd rfl canonical
      | _ => rfl

end

section
variable (library : InventoryLibrary)

def inventoried (source : SourceFile) (reasons : List QuarantineReason) : InventoriedFile where
  file :=
    { relativePath := source.relativePath
      contentHash := "sha256:" ++ library.hexdigest source.content
      isCanonical := decide ((classified library source).1 = .canonical)
      entityType := (classified library source).2
      containsSecret := (flagged library source reasons).1
      unsafeContent := (flagged library source reasons).2 }
  reportPath := safeReportPath library source.relativePath
  classification := (classified library source).1
  document := documentOf library source (flagged library source reasons)
  canonical := rfl
  reported := by
    intro clean
    change (flagged library source reasons).1 = false at clean
    rw [flagged, Bool.or_eq_false_iff, Bool.or_eq_false_iff] at clean
    rw [safeReportPath, clean.1.1, if_neg Bool.false_ne_true]
  matched := documentOf_matched
  migrates := documentOf_isSome

/-- A step of the loop of `inventory_source`: canonical files are scanned. -/
def inventoryFile (source : SourceFile) : Except BoundaryError InventoriedFile :=
  if (classified library source).1 = .canonical then
    match library.scanArtifact source with
    | none => .error ⟨"A canonical legacy source file changed or could not be scanned safely."⟩
    | some reasons => .ok (inventoried library source reasons)
  else .ok (inventoried library source [])

def inventoryFiles : List SourceFile → Except BoundaryError (List InventoriedFile)
  | [] => .ok []
  | source :: rest => do
    let file ← inventoryFile library source
    let files ← inventoryFiles rest
    .ok (file :: files)

variable {library}

theorem inventoryFile_path {source : SourceFile} {made : InventoriedFile} (done : inventoryFile library source = .ok made) :
    made.file.relativePath = source.relativePath := by
  unfold inventoryFile at done
  split at done
  · split at done
    · cases done
    · cases done
      rfl
  · cases done
    rfl

theorem inventoryFiles_paths {sources : List SourceFile} {made : List InventoriedFile} (done : inventoryFiles library sources = .ok made) :
    made.map (fun file => file.file.relativePath) = sources.map SourceFile.relativePath := by
  induction sources generalizing made with
  | nil =>
    cases done
    rfl
  | cons source rest ih =>
    rw [inventoryFiles] at done
    obtain ⟨file, first, more⟩ := bind_ok.mp done
    obtain ⟨files, later, same⟩ := bind_ok.mp more
    cases same
    rw [List.map_cons, List.map_cons, inventoryFile_path first, ih later]

end

/-- `InventoryAnalysis`, with what is reported of its files -/
structure Inventory where
  files : List InventoriedFile
  apart : (files.map fun file => file.file.relativePath).Nodup

section
variable (library : InventoryLibrary)

/-- `inventory_source`, but for its findings and its hash of the tree -/
def inventorySource (tree : LegacyTree) : Except BoundaryError Inventory :=
  match made : inventoryFiles library tree.files with
  | .error error => .error error
  | .ok files => .ok
    { files := sortByPath library.unicode (fun file => file.file.relativePath) files
      apart := by
        have permuted : (sortByPath library.unicode (fun file => file.file.relativePath) files).Perm files := List.mergeSort_perm _ _
        rw [(permuted.map _).nodup_iff, inventoryFiles_paths made]
        exact tree.apart }

end

section
variable (inventory : Inventory)

theorem Inventory.documents_apart : ((inventory.files.filterMap InventoriedFile.document).map LegacyDocument.relativePath).Nodup := by
  have paths : List.Sublist ((inventory.files.filterMap InventoriedFile.document).map LegacyDocument.relativePath)
      (inventory.files.map fun file => file.file.relativePath) := by
    induction inventory.files with
    | nil => exact List.Sublist.refl []
    | cons file rest ih =>
      cases made : file.document with
      | none =>
        rw [List.filterMap_cons_none made, List.map_cons]
        exact ih.cons _
      | some document =>
        rw [List.filterMap_cons_some made, List.map_cons, List.map_cons, (file.matched document made).1]
        exact ih.cons_cons _
  exact inventory.apart.sublist paths

def Inventory.analysis (unicode : UnicodeData) : InventoryAnalysis where
  files := inventory.files.map InventoriedFile.file
  documents := sortByPath unicode LegacyDocument.relativePath (inventory.files.filterMap InventoriedFile.document)
  apart := by
    have permuted : (sortByPath unicode LegacyDocument.relativePath (inventory.files.filterMap InventoriedFile.document)).Perm
        (inventory.files.filterMap InventoriedFile.document) := List.mergeSort_perm _ _
    rw [(permuted.map _).nodup_iff]
    exact inventory.documents_apart

end

end Workctx.Migration
