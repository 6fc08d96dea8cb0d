import Workctx.Ledger.Verify
import Workctx.Services.Documents
import Workctx.Topics.Merging

/-! The documents a merge rewrites, and the readers of drafts and suggestions that read them again. -/

namespace Workctx.Topics
open Workctx.Domain Workctx.Drafting Workctx.Suggestions Workctx.Services

section
variable (library : Library)

/-- The model the rewritten front matter is validated with: a task's own, and the shared one of all others. -/
def validateUpdated (frontmatter : EntityFrontmatter (Extras library.platform)) : Except String Unit :=
  match frontmatter.extras with
  | .task fields => Task.modelValidate library (narrow frontmatter fields)
  | _ => frontmatter.modelValidate library

/-- The rewrite of one document in `TopicService.merge`. -/
def rewriteDocument (topics : List Topic) (sourceSlug targetSlug : String) (now : AwareDatetime)
    (document : CanonicalDocument library) : Except String (CanonicalDocument library) :=
  let retagged := retagValues library.unicode topics sourceSlug targetSlug document.frontmatter.topics
  if retagged = document.frontmatter.topics then .ok document
  else do
    let updated := { document.frontmatter with topics := retagged, updatedAt := now }
    validateUpdated library updated
    .ok { document with frontmatter := updated }

inductive MergeError where
  | topic (error : TopicError)
  | validation (message : String)
deriving DecidableEq

/-- `TopicService.merge` of a registry that exists and the documents that can carry topics, up to its commit. -/
def mergeTopics (registry : TopicRegistry library.unicode) (sourceSlug targetSlug : String) (now : AwareDatetime)
    (documents : List (CanonicalDocument library)) :
    Except MergeError (TopicRegistry library.unicode × List (CanonicalDocument library)) := do
  let merged ← (merge library.unicode registry sourceSlug targetSlug).mapError .topic
  let rewritten ← (documents.mapM (rewriteDocument library registry.topics sourceSlug targetSlug now)).mapError .validation
  .ok (merged, rewritten)

/-- `list_drafts`, in the order of the documents. -/
def listDrafts (documents : List (CanonicalDocument library)) : Except String (List DraftRecord) :=
  (documents.filter fun document => isDraftFile document.relativePath).mapM (readDraftFile library)

def getDraft (documents : List (CanonicalDocument library)) (draftId : String) : Except String DraftRecord :=
  match documents.find? fun document => document.relativePath == draftPath draftId with
  | none => .error "The draft was not found."
  | some document => readDraftFile library document

end

/-! What the readers accept. -/

section
variable {library : Library} {extras : Type} {topics : List Topic} {now : AwareDatetime}

/-- The front matter with other topics and another time of update. -/
def retimed (frontmatter : EntityFrontmatter extras) (values : List String) (now : AwareDatetime) : EntityFrontmatter extras :=
  { frontmatter with topics := values, updatedAt := now }

variable {values : List String} {record : DraftRecord}

/-- The reader of drafts accepts a draft with other topics at another time exactly when the rule
of its delivery holds then, and reads the same delivery. -/
theorem draftFrontmatterRecord_retimed {frontmatter : DraftFrontmatter} {body path : String} (accepted : draftFrontmatterRecord library frontmatter body path = .ok record)
    (shared : (retimed frontmatter values now).modelValidate library = .ok ()) :
    (∀ again, draftFrontmatterRecord library (retimed frontmatter values now) body path = .ok again →
      again = { record with updatedAt := now }) ∧
    ((∃ again, draftFrontmatterRecord library (retimed frontmatter values now) body path = .ok again) ↔
      validateDelivery record.deliveryState record.delivery now = .ok ()) := by
  obtain ⟨refined, shaped, id, uri, rfl⟩ := draftFrontmatterRecord_ok.mp accepted
  obtain ⟨_, ⟨sourceRefs, shape, rfl⟩, _⟩ := refineDraft_ok.mp shaped
  constructor
  · intro again read
    obtain ⟨other, reshaped, _, _, rfl⟩ := draftFrontmatterRecord_ok.mp read
    obtain ⟨_, ⟨others, reshape, rfl⟩, _⟩ := refineDraft_ok.mp reshaped
    have references : Except.ok sourceRefs = (Except.ok others : Except String (List String)) :=
      shape.references.symm.trans reshape.references
    cases references
    rfl
  · constructor
    · rintro ⟨again, read⟩
      obtain ⟨other, reshaped, _⟩ := draftFrontmatterRecord_ok.mp read
      exact (refineDraft_ok.mp reshaped).2.2
    · intro rule
      have reshaped : refineDraft library (retimed frontmatter values now) = .ok _ :=
        refineDraft_ok.mpr ⟨shared, ⟨sourceRefs,
          ⟨shape.entityType, shape.status, shape.delivery, shape.recipient, shape.task, shape.references⟩, rfl⟩, rule⟩
      exact ⟨_, draftFrontmatterRecord_ok.mpr ⟨_, reshaped, id, uri, rfl⟩⟩

theorem draftFrontmatterRecord_rule {frontmatter : DraftFrontmatter} {body path : String}
    (accepted : draftFrontmatterRecord library frontmatter body path = .ok record) :
    validateDelivery record.deliveryState record.delivery record.updatedAt = .ok () := by
  obtain ⟨refined, shaped, _, _, rfl⟩ := draftFrontmatterRecord_ok.mp accepted
  obtain ⟨_, ⟨_, _, rfl⟩, rule⟩ := refineDraft_ok.mp shaped
  exact rule

/-- The rule of a delivery survives another time of update exactly when it is the time of the delivery. -/
theorem validateDelivery_retimed {state : DeliveryState} {delivery : Option DraftDelivery} {before now : AwareDatetime}
    (rule : validateDelivery state delivery before = .ok ()) :
    validateDelivery state delivery now = .ok () ↔
      ∀ known, delivery = some known → now.instant = known.sentAt.instant := by
  cases state with
  | unsent =>
    cases delivery with
    | none =>
      constructor
      · intro _ known same
        cases same
      · exact fun _ => rfl
    | some known => cases rule
  | sent =>
    cases delivery with
    | none => cases rule
    | some known =>
      rw [validateDelivery, check_ok, beq_iff_eq]
      constructor
      · intro same other here
        cases here
        exact same
      · exact fun all => all known rfl

/-- The contract of a suggestion survives another time of update exactly when it does not precede
its creation. -/
theorem suggestion_retimed {record again : SuggestionRecord library}
    (accepted : SuggestionRecord.modelValidate record = .ok again)
    (shared : (retimed record values now).modelValidate library = .ok ()) :
    (∀ later, SuggestionRecord.modelValidate (retimed record values now) = .ok later → later.id = again.id) ∧
      ((∃ later, SuggestionRecord.modelValidate (retimed record values now) = .ok later) ↔
        again.createdAt.instant ≤ now.instant) := by
  obtain ⟨_, ⟨sourceRefs, shape, rfl⟩, contract⟩ := SuggestionRecord.modelValidate_ok.mp accepted
  obtain ⟨day, contract⟩ := check_bind_ok.mp contract
  obtain ⟨_, contract⟩ := check_bind_ok.mp contract
  constructor
  · intro later read
    obtain ⟨_, ⟨_, _, rfl⟩, _⟩ := SuggestionRecord.modelValidate_ok.mp read
    rfl
  · constructor
    · rintro ⟨later, read⟩
      obtain ⟨_, _, contract⟩ := SuggestionRecord.modelValidate_ok.mp read
      obtain ⟨_, contract⟩ := check_bind_ok.mp contract
      exact of_decide_eq_true (check_bind_ok.mp contract).1
    · intro ordered
      have renewed : SuggestionRecord.validateSuggestionContract (retimed record values now) = .ok () :=
        check_bind_ok.mpr ⟨day, check_bind_ok.mpr ⟨decide_eq_true ordered, contract⟩⟩
      have again : SuggestionRecord.Shape (retimed record values now) sourceRefs :=
        ⟨shape.id, shape.entityType, shape.title, shape.status, shape.rationale, shape.signal, shape.count,
          shape.supersedes, shape.supersededBy, shape.rationaleLine, shape.signalLine, shape.references⟩
      exact ⟨_, SuggestionRecord.modelValidate_ok.mpr ⟨shared, ⟨sourceRefs, again, rfl⟩, renewed⟩⟩

/-! The rewrite of a document. -/

variable {sourceSlug targetSlug : String} {document after : CanonicalDocument library}

def Retagged (topics : List Topic) (sourceSlug targetSlug : String) (document : CanonicalDocument library) : Prop :=
  retagValues library.unicode topics sourceSlug targetSlug document.frontmatter.topics ≠ document.frontmatter.topics

theorem rewriteDocument_kept (kept : ¬Retagged topics sourceSlug targetSlug document)
    (rewritten : rewriteDocument library topics sourceSlug targetSlug now document = .ok after) : after = document := by
  unfold rewriteDocument at rewritten
  rw [if_pos (not_not.mp kept)] at rewritten
  cases rewritten
  rfl

theorem rewriteDocument_retagged (changed : Retagged topics sourceSlug targetSlug document)
    (rewritten : rewriteDocument library topics sourceSlug targetSlug now document = .ok after) :
    ∃ values, validateUpdated library (retimed document.frontmatter values now) = .ok () ∧
      after = { document with frontmatter := retimed document.frontmatter values now } := by
  unfold rewriteDocument at rewritten
  rw [if_neg changed] at rewritten
  obtain ⟨_, valid, same⟩ := bind_ok.mp rewritten
  cases same
  exact ⟨_, valid, rfl⟩

/-- A draft that was read before is read behind the rewrite, with the same delivery. -/
def DraftKept (document after : CanonicalDocument library) : Prop :=
  ∀ record, readDraftFile library document = .ok record → ∃ again, readDraftFile library after = .ok again ∧
    again.deliveryState = record.deliveryState ∧ again.delivery = record.delivery ∧ again.body = record.body

/-- A suggestion that was read before is read behind the rewrite. -/
def SuggestionKept (document after : CanonicalDocument library) : Prop :=
  ∀ record, readSuggestionFile library document = .ok record → ∃ again, readSuggestionFile library after = .ok again

/-- The document may change its topics at this time: as a draft it was not delivered at another
time, as a suggestion it was created before. -/
structure Survives (now : AwareDatetime) (document : CanonicalDocument library) : Prop where
  draft : ∀ record delivery, readDraftFile library document = .ok record → record.delivery = some delivery →
    now.instant = delivery.sentAt.instant
  suggestion : ∀ record, readSuggestionFile library document = .ok record → record.createdAt.instant ≤ now.instant

theorem readDraftFile_retimed
    (valid : validateUpdated library (retimed document.frontmatter values now) = .ok ())
    (read : readDraftFile library document = .ok record) :
    (∃ again, readDraftFile library { document with frontmatter := retimed document.frontmatter values now } = .ok again ∧
      again.deliveryState = record.deliveryState ∧ again.delivery = record.delivery ∧ again.body = record.body) ↔
      ∀ delivery, record.delivery = some delivery → now.instant = delivery.sentAt.instant := by
  obtain ⟨_, accepted, placed⟩ := bind_ok.mp read
  obtain ⟨path, same⟩ := check_bind_ok.mp placed
  cases same
  unfold readDraft at accepted
  cases kind : document.frontmatter.extras with
  | draft fields =>
    rw [kind] at accepted
    dsimp only at accepted
    have shared : (retimed (narrow document.frontmatter fields) values now).modelValidate library = .ok () := by
      unfold validateUpdated retimed at valid
      rw [kind] at valid
      exact valid
    obtain ⟨renewed, survives⟩ := draftFrontmatterRecord_retimed accepted shared
    rw [validateDelivery_retimed (draftFrontmatterRecord_rule accepted)] at survives
    rw [← survives]
    have reread : ∀ again, readDraftFile library { document with frontmatter := retimed document.frontmatter values now } =
        .ok again ↔ draftFrontmatterRecord library (retimed (narrow document.frontmatter fields) values now) document.body
          document.relativePath = .ok again ∧ (document.relativePath == draftPath again.id) = true := by
      intro again
      have reader : readDraft library { document with frontmatter := retimed document.frontmatter values now } =
          draftFrontmatterRecord library (retimed (narrow document.frontmatter fields) values now) document.body
            document.relativePath := by
        unfold readDraft retimed
        dsimp only
        rw [kind]
        rfl
      unfold readDraftFile
      rw [bind_ok, reader]
      constructor
      · rintro ⟨middle, found, later⟩
        obtain ⟨here, equal⟩ := check_bind_ok.mp later
        cases equal
        exact ⟨found, here⟩
      · rintro ⟨found, here⟩
        exact ⟨again, found, check_bind_ok.mpr ⟨here, rfl⟩⟩
    constructor
    · rintro ⟨again, found, _⟩
      exact ⟨again, ((reread again).mp found).1⟩
    · rintro ⟨again, found⟩
      have same := renewed again found
      refine ⟨again, (reread again).mpr ⟨found, ?_⟩, ?_⟩
      · rw [same]
        exact path
      · rw [same]
        exact ⟨rfl, rfl, rfl⟩
  | suggestion fields =>
    rw [kind] at accepted
    cases accepted
  | task fields =>
    rw [kind] at accepted
    cases accepted
  | other =>
    rw [kind] at accepted
    cases accepted

theorem readSuggestionFile_retimed {record : SuggestionRecord library}
    (valid : validateUpdated library (retimed document.frontmatter values now) = .ok ())
    (read : readSuggestionFile library document = .ok record) :
    (∃ again, readSuggestionFile library { document with frontmatter := retimed document.frontmatter values now } =
      .ok again) ↔ record.createdAt.instant ≤ now.instant := by
  obtain ⟨_, accepted, placed⟩ := bind_ok.mp read
  obtain ⟨path, same⟩ := check_bind_ok.mp placed
  cases same
  unfold readSuggestion at accepted
  cases kind : document.frontmatter.extras with
  | suggestion fields =>
    rw [kind] at accepted
    dsimp only at accepted
    have shared : (retimed (narrow document.frontmatter fields) values now).modelValidate library = .ok () := by
      unfold validateUpdated retimed at valid
      rw [kind] at valid
      exact valid
    obtain ⟨renewed, survives⟩ := suggestion_retimed accepted shared
    rw [← survives]
    have reader : readSuggestion library { document with frontmatter := retimed document.frontmatter values now } =
        SuggestionRecord.modelValidate (retimed (narrow document.frontmatter fields) values now) := by
      unfold readSuggestion retimed
      dsimp only
      rw [kind]
      rfl
    unfold readSuggestionFile
    rw [reader]
    constructor
    · rintro ⟨again, found⟩
      obtain ⟨middle, found, _⟩ := bind_ok.mp found
      exact ⟨middle, found⟩
    · rintro ⟨later, found⟩
      refine ⟨later, bind_ok.mpr ⟨later, found, check_bind_ok.mpr ⟨?_, rfl⟩⟩⟩
      rw [renewed later found]
      exact path
  | draft fields =>
    rw [kind] at accepted
    cases accepted
  | task fields =>
    rw [kind] at accepted
    cases accepted
  | other =>
    rw [kind] at accepted
    cases accepted

theorem rewriteDocument_kept_iff
    (rewritten : rewriteDocument library topics sourceSlug targetSlug now document = .ok after) :
    (DraftKept document after ∧ SuggestionKept document after) ↔
      (Retagged topics sourceSlug targetSlug document → Survives now document) := by
  by_cases changed : Retagged topics sourceSlug targetSlug document
  · obtain ⟨values, valid, rfl⟩ := rewriteDocument_retagged changed rewritten
    constructor
    · intro kept _
      constructor
      · intro record delivery read
        exact (readDraftFile_retimed valid read).mp (kept.1 record read) delivery
      · intro record read
        exact (readSuggestionFile_retimed valid read).mp (kept.2 record read)
    · intro survives
      constructor
      · intro record read
        exact (readDraftFile_retimed valid read).mpr fun delivery => (survives changed).draft record delivery read
      · intro record read
        exact (readSuggestionFile_retimed valid read).mpr ((survives changed).suggestion record read)
  · have same := rewriteDocument_kept changed rewritten
    subst same
    constructor
    · exact fun _ claimed => absurd claimed changed
    · intro _
      exact ⟨fun record read => ⟨record, read, rfl, rfl, rfl⟩, fun record read => ⟨record, read⟩⟩

theorem rewriteDocument_path (rewritten : rewriteDocument library topics sourceSlug targetSlug now document = .ok after) :
    after.relativePath = document.relativePath := by
  by_cases changed : Retagged topics sourceSlug targetSlug document
  · obtain ⟨values, valid, rfl⟩ := rewriteDocument_retagged changed rewritten
    rfl
  · rw [rewriteDocument_kept changed rewritten]

/-! The workspace behind the merge. -/

variable {documents rewritten : List (CanonicalDocument library)}

/-- The documents keep their paths, and every draft stays readable. -/
structure Kept (document after : CanonicalDocument library) : Prop where
  path : after.relativePath = document.relativePath
  draft : DraftKept document after

theorem listDrafts_kept (kept : List.Forall₂ Kept documents rewritten)
    (listed : ∃ records, listDrafts library documents = .ok records) :
    ∃ records, listDrafts library rewritten = .ok records := by
  obtain ⟨records, listed⟩ := listed
  unfold listDrafts at listed ⊢
  induction kept generalizing records with
  | nil => exact ⟨records, listed⟩
  | @cons document after rest others one _ ih =>
    rw [List.filter_cons] at listed ⊢
    rw [one.path]
    by_cases draft : isDraftFile document.relativePath = true
    · rw [if_pos draft] at listed ⊢
      obtain ⟨first, tail, read, all, rfl⟩ := List.forall₂_cons_left_iff.mp (mapM_ok_iff.mp listed)
      obtain ⟨again, reread, _⟩ := one.draft first read
      obtain ⟨later, found⟩ := ih tail (mapM_ok_iff.mpr all)
      exact ⟨again :: later, mapM_ok_iff.mpr (.cons reread (mapM_ok_iff.mp found))⟩
    · rw [if_neg draft] at listed ⊢
      exact ih records listed

theorem getDraft_kept (kept : List.Forall₂ Kept documents rewritten) {draftId : String}
    (found : getDraft library documents draftId = .ok record) :
    ∃ again, getDraft library rewritten draftId = .ok again ∧ again.deliveryState = record.deliveryState ∧
      again.delivery = record.delivery ∧ again.body = record.body := by
  unfold getDraft at found ⊢
  induction kept with
  | nil => cases found
  | @cons document after rest others one _ ih =>
    rw [List.find?_cons] at found ⊢
    rw [one.path]
    by_cases here : (document.relativePath == draftPath draftId) = true
    · rw [here] at found ⊢
      exact one.draft record found
    · rw [Bool.not_eq_true] at here
      rw [here] at found ⊢
      exact ih found

theorem mergeTopics_ok {registry merged : TopicRegistry library.unicode} :
    mergeTopics library registry sourceSlug targetSlug now documents = .ok (merged, rewritten) ↔
      merge library.unicode registry sourceSlug targetSlug = .ok merged ∧
        List.Forall₂ (fun document after =>
          rewriteDocument library registry.topics sourceSlug targetSlug now document = .ok after) documents rewritten := by
  unfold mergeTopics
  rw [bind_ok, ← mapM_ok_iff]
  constructor
  · rintro ⟨_, one, later⟩
    obtain ⟨_, two, same⟩ := bind_ok.mp later
    cases same
    exact ⟨mapError_ok.mp one, mapError_ok.mp two⟩
  · rintro ⟨one, two⟩
    exact ⟨merged, mapError_ok.mpr one, bind_ok.mpr ⟨rewritten, mapError_ok.mpr two, rfl⟩⟩

theorem documents_kept_iff
    (steps : List.Forall₂ (fun document after =>
      rewriteDocument library topics sourceSlug targetSlug now document = .ok after) documents rewritten) :
    List.Forall₂ (fun document after => DraftKept document after ∧ SuggestionKept document after) documents rewritten ↔
      ∀ document ∈ documents, Retagged topics sourceSlug targetSlug document → Survives now document := by
  induction steps with
  | nil => simp
  | @cons document after rest others one _ ih =>
    rw [List.forall₂_cons, rewriteDocument_kept_iff one, ih, List.forall_mem_cons]

/-- A merge leaves every draft and every suggestion readable by its own reader, and every delivery
as it was, exactly when the documents it tags again survive the time of the merge. -/
theorem merge_leaves_readable_iff {registry merged : TopicRegistry library.unicode}
    (committed : mergeTopics library registry sourceSlug targetSlug now documents = .ok (merged, rewritten))
    (drafts : ∃ records, listDrafts library documents = .ok records) :
    (List.Forall₂ (fun document after => DraftKept document after ∧ SuggestionKept document after) documents rewritten ∧
      (∃ records, listDrafts library rewritten = .ok records) ∧
      ∀ draftId record, getDraft library documents draftId = .ok record →
        ∃ again, getDraft library rewritten draftId = .ok again ∧ again.deliveryState = record.deliveryState ∧
          again.delivery = record.delivery ∧ again.body = record.body) ↔
      ∀ document ∈ documents, Retagged registry.topics sourceSlug targetSlug document → Survives now document := by
  obtain ⟨_, steps⟩ := mergeTopics_ok.mp committed
  rw [← documents_kept_iff steps]
  constructor
  · exact fun all => all.1
  · intro readable
    have paths : List.Forall₂ (fun document after => after.relativePath = document.relativePath) documents rewritten :=
      steps.imp fun _ _ => rewriteDocument_path
    have kept : List.Forall₂ Kept documents rewritten :=
      paths.mp (fun _ _ path both => ⟨path, both.1⟩) readable
    exact ⟨readable, listDrafts_kept kept drafts, fun _ _ => getDraft_kept kept⟩

end

/-! A sent draft with the topic that is merged. -/

def sampleLibrary : Library where
  unicode := sampleUnicode
  platform := Ledger.samplePlatform
  parseUri := fun text =>
    match text.toList.splitOn '/' with
    | [scheme, [], contextId, entityType, entityId] =>
      if scheme = "workctx:".toList then
        some ⟨String.ofList contextId, String.ofList entityType, String.ofList entityId⟩
      else none
    | _ => none
  formatUri := fun uri => "workctx://" ++ uri.contextId ++ "/" ++ uri.entityType ++ "/" ++ uri.entityId
  utcDay := fun _ => "20260101"

def sampleDelivery : DraftDelivery where
  target := "octo/notes#1"
  remoteCommentId := "7"
  remoteCommentUrl := "https://github.com/octo/notes/issues/1#issuecomment-7"
  sentAt := ⟨5, 0⟩

/-- The draft was sent, and carries the topic `payments`. -/
def sentDocument : CanonicalDocument sampleLibrary where
  relativePath := "05_outbox/DRAFT-20260101-note-01.md"
  body := "Done."
  frontmatter :=
    { id := "DRAFT-20260101-note-01"
      entityType := "draft"
      title := "Note"
      uri := "workctx://demo/draft/DRAFT-20260101-note-01"
      aliases := []
      status := some "draft"
      confidence := some "high"
      tags := ["outbox", "sent"]
      topics := ["payments"]
      references := []
      createdAt := ⟨1, 0⟩
      updatedAt := ⟨5, 0⟩
      extras := .draft
        { deliveryState := .sent
          delivery := some sampleDelivery
          recipientUri := "workctx://demo/person/PER-ann"
          purpose := "Report"
          draftFormat := .chat
          taskUri := none
          sourceRefs := [] } }

theorem sentDocument_read : (readDraftFile sampleLibrary sentDocument).map DraftRecord.delivery = .ok (some sampleDelivery) := by
  decide +kernel

theorem sentDocument_listed : ∃ records, listDrafts sampleLibrary [sentDocument] = .ok records := by
  have listed : (listDrafts sampleLibrary [sentDocument]).isOk = true := by decide +kernel
  cases found : listDrafts sampleLibrary [sentDocument] with
  | ok records => exact ⟨records, rfl⟩
  | error message =>
    rw [found] at listed
    cases listed

/-- The merge of the topic `payments` into `bank` at a time, with the sent draft. -/
def sampleMerge (now : AwareDatetime) :
    Except MergeError (TopicRegistry sampleUnicode × List (CanonicalDocument sampleLibrary)) :=
  mergeTopics sampleLibrary chainedRegistry "payments" "bank" now [sentDocument]

theorem sentDocument_survives : Survives ⟨5, 0⟩ sentDocument where
  draft := by
    intro record delivery read delivered
    have known := sentDocument_read
    rw [read] at known
    have same : record.delivery = some sampleDelivery := Except.ok.inj known
    rw [delivered] at same
    cases same
    rfl
  suggestion := by
    intro record read
    have refused : (readSuggestionFile sampleLibrary sentDocument).isOk = false := by decide +kernel
    rw [read] at refused
    cases refused

theorem merge_leaves_readable_iff_sample : ∃ merged rewritten, sampleMerge ⟨5, 0⟩ = .ok (merged, rewritten) ∧
    ∃ records, listDrafts sampleLibrary rewritten = .ok records := by
  have done : (sampleMerge ⟨5, 0⟩).isOk = true := by decide +kernel
  cases committed : sampleMerge ⟨5, 0⟩ with
  | error failure =>
    rw [committed] at done
    cases done
  | ok result =>
    have readable := (merge_leaves_readable_iff committed sentDocument_listed).mpr fun document member _ => by
      rw [List.mem_singleton.mp member]
      exact sentDocument_survives
    exact ⟨result.1, result.2, rfl, readable.2.1⟩

/-- A merge behind the delivery leaves the workspace with a draft that no reader of drafts accepts. -/
theorem merge_hides_sent_draft : ∃ merged rewritten, sampleMerge ⟨9, 0⟩ = .ok (merged, rewritten) ∧
    (∃ records, listDrafts sampleLibrary [sentDocument] = .ok records) ∧
    (¬∃ records, listDrafts sampleLibrary rewritten = .ok records) ∧
    ¬∃ record, getDraft sampleLibrary rewritten "DRAFT-20260101-note-01" = .ok record := by
  have refused : (sampleMerge ⟨9, 0⟩).map (fun result => ((listDrafts sampleLibrary result.2).isOk,
      (getDraft sampleLibrary result.2 "DRAFT-20260101-note-01").isOk)) = .ok (false, false) := by decide +kernel
  cases committed : sampleMerge ⟨9, 0⟩ with
  | error failure =>
    rw [committed] at refused
    cases refused
  | ok result =>
    rw [committed] at refused
    have both := Prod.mk.inj (Except.ok.inj refused)
    refine ⟨result.1, result.2, rfl, sentDocument_listed, ?_, ?_⟩
    · rintro ⟨records, listed⟩
      rw [listed] at both
      cases both.1
    · rintro ⟨record, found⟩
      rw [found] at both
      cases both.2

end Workctx.Topics
