import Workctx.Domain.Tasks
import Workctx.Drafting.Models
import Workctx.Suggestions.Models

/-! The canonical documents as their bytes are parsed, and the readers of drafts and of suggestions. -/

namespace Workctx.Services
open Workctx.Domain Workctx.Drafting Workctx.Suggestions

/-- The members behind the shared ones: a draft's, a suggestion's, a task's, or another's. -/
inductive Extras (platform : Platform) where
  | draft (fields : DraftFields)
  | suggestion (fields : SuggestionFields platform)
  | task (fields : TaskFields)
  | other

structure CanonicalDocument (library : Library) where
  relativePath : String
  frontmatter : EntityFrontmatter (Extras library.platform)
  body : String

section
variable (library : Library)

/-- The front matter, seen with the members of one reader. -/
def narrow {extras other : Type} (frontmatter : EntityFrontmatter extras) (members : other) : EntityFrontmatter other :=
  { frontmatter with extras := members }

def readDraft (document : CanonicalDocument library) : Except String DraftRecord :=
  match document.frontmatter.extras with
  | .draft fields => draftFrontmatterRecord library (narrow document.frontmatter fields) document.body document.relativePath
  | _ => .error "delivery_state"

/-- `SuggestionRecord.model_validate` of a document. -/
def readSuggestion (document : CanonicalDocument library) : Except String (SuggestionRecord library) :=
  match document.frontmatter.extras with
  | .suggestion fields => SuggestionRecord.modelValidate (narrow document.frontmatter fields)
  | _ => .error "type"

def draftPath (draftId : String) : String := "05_outbox/" ++ draftId ++ ".md"

/-- `_DRAFT_FILE`, directly below the outbox. -/
def isDraftFile (path : String) : Bool :=
  match path.toList.splitOn '/' with
  | [zone, name] =>
    zone == "05_outbox".toList && "DRAFT-".toList.isPrefixOf name && ".md".toList.isSuffixOf name && 10 ≤ name.length &&
      !name.contains '\n'
  | _ => false

/-- `_read_draft`: the record has the identity of its path. -/
def readDraftFile (document : CanonicalDocument library) : Except String DraftRecord := do
  let record ← readDraft library document
  check (document.relativePath == draftPath record.id) "The canonical draft state is invalid."
  .ok record

def suggestionPath (suggestionId : String) : String := "03_work/suggestions/" ++ suggestionId ++ ".md"

/-- `SuggestionService._read`: the record has the identity of its path. -/
def readSuggestionFile (document : CanonicalDocument library) : Except String (SuggestionRecord library) := do
  let record ← readSuggestion library document
  check (document.relativePath == suggestionPath record.id)
    "Suggestion identity does not match its canonical path."
  .ok record

theorem readDraft_ok {library : Library} {document : CanonicalDocument library} {record : DraftRecord}
    (read : readDraft library document = .ok record) : ∃ fields, document.frontmatter.extras = .draft fields ∧
      record.deliveryState = fields.deliveryState ∧ record.delivery = fields.delivery ∧ record.body = document.body := by
  unfold readDraft at read
  cases kind : document.frontmatter.extras with
  | draft fields =>
    rw [kind] at read
    dsimp only at read
    obtain ⟨refined, shaped, _, _, rfl⟩ := draftFrontmatterRecord_ok.mp read
    obtain ⟨_, ⟨_, _, rfl⟩, _⟩ := refineDraft_ok.mp shaped
    exact ⟨fields, rfl, rfl, rfl, rfl⟩
  | suggestion fields =>
    rw [kind] at read
    cases read
  | task fields =>
    rw [kind] at read
    cases read
  | other =>
    rw [kind] at read
    cases read

end
end Workctx.Services
