import Workctx.Checkpoints.Successors

/-! Verdicts of a check: what each status says of an item and of its successors, and which documents are new. -/

namespace Workctx.Checkpoints
open Workctx.References Workctx.Retrieval Workctx.Search Workctx.Projection Workctx.Topics List
open Workctx.Text (Bytes)
open Workctx.Domain (mem_of_mapM mapM_ok_iff)

section
variable {library : Library} {before after : Workspace library} {item : CheckpointItem} {checkpoint : Checkpoint}

/-! Saved items -/

structure Saved (workspace : Workspace library) (item : CheckpointItem) (uri : WorkctxUri) (record : Record) (content : Bytes) : Prop where
  own : Local workspace item.uri uri
  document : workspace.projection.documentOf uri = .ok (some record)
  place : item.sourcePath = (columnsOf record).sourcePath
  bytes : workspace.contents item.sourcePath = some content
  hash : item.contentHash = library.contentHash content
  revision : item.revision = library.revisionOf content item.uri

theorem saveItem_saved {reference : Text} (saved : saveItem before reference = .ok item) :
    ∃ uri record content, Saved before item uri record content := by
  unfold saveItem at saved
  split at saved
  · cases saved
  · next uri _ =>
    split at saved
    · cases saved
    · next context =>
      rw [before.projection.getDocumentByUri_own (not_not.mp context)] at saved
      cases found : before.projection.documentOf uri with
      | error cause =>
        rw [found] at saved
        cases saved
      | ok current =>
        rw [found] at saved
        cases current with
        | none => cases saved
        | some record =>
          dsimp only [ofRead, Except.mapError, bind, Except.bind] at saved
          cases printed : uri.str with
          | error cause =>
            rw [printed] at saved
            cases saved
          | ok text =>
            unfold ofValue contentHash at saved
            rw [printed] at saved
            dsimp only [Except.mapError] at saved
            cases held : before.contents (columnsOf record).sourcePath with
            | none =>
              rw [held] at saved
              cases saved
            | some content =>
              rw [held] at saved
              cases saved
              exact ⟨uri, record, content, ⟨not_not.mp context, printed⟩, found, rfl, held, rfl,
                before.revisions uri record text content found printed held⟩

def Apart (before after : Workspace library) : Prop :=
  ∀ path one two, before.contents path = some one → after.contents path = some two → library.contentHash one = library.contentHash two →
    one = two

/-! The verdict on an item -/

/-- The document is at the saved path with the saved bytes. -/
def Kept (before after : Workspace library) (item : CheckpointItem) : Prop :=
  ∃ record, after.projection.getDocumentByUri (.text item.uri) = .ok (some record) ∧ (columnsOf record).sourcePath = item.sourcePath ∧
    after.contents item.sourcePath = before.contents item.sourcePath

def Elsewhere (after : Workspace library) (item : CheckpointItem) : Prop :=
  ∃ record, after.projection.getDocumentByUri (.text item.uri) = .ok (some record) ∧ (columnsOf record).sourcePath ≠ item.sourcePath

def Successor (after : Workspace library) (item : CheckpointItem) (newer : Text) : Prop :=
  Existing after newer ∧ Supersedes after newer item.uri

structure ExactVerdict (before after : Workspace library) (item : CheckpointItem) (verdict : CheckpointItemResult) : Prop where
  about : verdict.uri = item.uri
  green : verdict.status = .green ↔ Kept before after item ∧ ¬∃ newer, Successor after item newer
  red : verdict.status = .red ↔ ¬Existing after item.uri ∨ Elsewhere after item ∨ ∃ newer, Successor after item newer
  yellow : verdict.status = .yellow ↔ (Existing after item.uri ∧ ¬Elsewhere after item ∧ ¬Kept before after item) ∧
    ¬∃ newer, Successor after item newer
  listed : ∀ newer, Successor after item newer → ∃ location ∈ verdict.successors, location.uri = newer

/-- The five cases of a verdict, by the successors that the check finds -/
inductive Judged (before after : Workspace library) (item : CheckpointItem) (found : List CheckpointLocation)
    (verdict : CheckpointItemResult) : Prop where
  | superseded (some : found ≠ []) (status : verdict.status = .red) (listed : verdict.successors = found)
  | deleted (none : found = []) (gone : ¬Existing after item.uri) (status : verdict.status = .red) (listed : verdict.successors = [])
  | moved (none : found = []) (place : Elsewhere after item) (location : CheckpointLocation) (own : location.uri = item.uri)
      (status : verdict.status = .red) (listed : verdict.successors = [location])
  | changed (none : found = []) (there : Existing after item.uri) (place : ¬Elsewhere after item) (content : ¬Kept before after item)
      (status : verdict.status = .yellow) (listed : verdict.successors = [])
  | unchanged (none : found = []) (kept : Kept before after item) (status : verdict.status = .green) (listed : verdict.successors = [])

theorem Saved.later {uri : WorkctxUri} {record : Record} {content : Bytes} (saved : Saved before item uri record content)
    (context : after.contextId = before.contextId) : Local after item.uri uri := ⟨saved.own.1.trans context.symm, saved.own.2⟩

theorem checkItem_judged {uri : WorkctxUri} {record : Record} {content : Bytes} (saved : Saved before item uri record content)
    (context : after.contextId = before.contextId) (apart : Apart before after) {current : Option Record}
    (found : after.projection.documentOf uri = .ok current) {located : List CheckpointLocation}
    (successor : successors after item.uri current = .ok located) :
    ∃ verdict, checkItem after item = .ok verdict ∧ verdict.uri = item.uri ∧ Judged before after item located verdict := by
  have own := saved.later context
  have got : after.projection.getDocumentByUri (.text item.uri) = .ok current := own.get.trans found
  cases current with
  | none =>
    by_cases any : located = []
    · refine ⟨itemResult item .red .deleted none none [] [], ?_, rfl, .deleted any ?_ rfl rfl⟩
      · unfold checkItem
        rw [got]
        dsimp only [ofRead, Except.mapError, bind, Except.bind]
        rw [successor]
        dsimp only [Option.map, Option.elim]
        rw [if_neg (not_not.mpr any)]
      · rintro ⟨other, there⟩
        rw [got] at there
        cases there
    · refine ⟨itemResult item .red .superseded none none [] located, ?_, rfl, .superseded any rfl rfl⟩
      unfold checkItem
      rw [got]
      dsimp only [ofRead, Except.mapError, bind, Except.bind]
      rw [successor]
      dsimp only [Option.map, Option.elim]
      rw [if_pos any]
  | some now =>
    obtain ⟨bytes, held⟩ := Option.isSome_iff_exists.mp (after.readable uri now found)
    have hash : contentHash after (columnsOf now).sourcePath = .ok (library.contentHash bytes) := by
      unfold contentHash
      rw [held]
    have opened : checkItem after item =
        if located ≠ [] then .ok (itemResult item .red .superseded (some now) (some (library.contentHash bytes)) [] located)
        else if (columnsOf now).sourcePath ≠ item.sourcePath then
          .ok (itemResult item .red .moved (some now) (some (library.contentHash bytes)) []
            [⟨item.uri, (columnsOf now).sourcePath, (columnsOf now).revision, library.contentHash bytes⟩])
        else if documentChanges item (library.contentHash bytes) (columnsOf now).revision ≠ [] then
          .ok (itemResult item .yellow .changed (some now) (some (library.contentHash bytes))
            (documentChanges item (library.contentHash bytes) (columnsOf now).revision) [])
        else .ok (itemResult item .green .unchanged (some now) (some (library.contentHash bytes)) [] []) := by
      unfold checkItem
      rw [got]
      dsimp only [ofRead, Except.mapError, bind, Except.bind]
      rw [successor]
      dsimp only [Option.map, Option.elim]
      rw [hash]
      rfl
    rw [opened]
    by_cases any : located = []
    · rw [if_neg (not_not.mpr any)]
      by_cases place : (columnsOf now).sourcePath = item.sourcePath
      · rw [if_neg (not_not.mpr place)]
        have stays : ¬Elsewhere after item := by
          rintro ⟨other, there, moved⟩
          rw [got] at there
          cases there
          exact moved place
        rw [place] at held
        have revised : (columnsOf now).revision = library.revisionOf bytes item.uri :=
          after.revisions uri now item.uri bytes found own.2 (by rw [place, held])
        by_cases same : bytes = content
        · have none : documentChanges item (library.contentHash bytes) (columnsOf now).revision = [] := by
            unfold documentChanges
            rw [if_pos (by rw [same, saved.hash]), if_pos (by rw [revised, same, saved.revision])]
            rfl
          rw [if_neg (not_not.mpr none)]
          exact ⟨_, rfl, rfl, .unchanged any ⟨now, got, place, by rw [held, saved.bytes, same]⟩ rfl rfl⟩
        · have changes : documentChanges item (library.contentHash bytes) (columnsOf now).revision ≠ [] := by
            unfold documentChanges
            rw [if_neg (fun equal => same (apart item.sourcePath content bytes saved.bytes held (saved.hash ▸ equal.symm)).symm)]
            exact cons_ne_nil _ _
          rw [if_pos changes]
          refine ⟨_, rfl, rfl, .changed any ⟨now, got⟩ stays ?_ rfl rfl⟩
          rintro ⟨_, _, _, kept⟩
          rw [held, saved.bytes] at kept
          exact same (Option.some.inj kept)
      · rw [if_pos place]
        exact ⟨_, rfl, rfl, .moved any ⟨now, got, place⟩ _ rfl rfl rfl⟩
    · rw [if_pos any]
      exact ⟨_, rfl, rfl, .superseded any rfl rfl⟩

theorem Kept.stays (kept : Kept before after item) : Existing after item.uri ∧ ¬Elsewhere after item := by
  obtain ⟨record, got, place, _⟩ := kept
  refine ⟨⟨record, got⟩, ?_⟩
  rintro ⟨other, there, moved⟩
  rw [got] at there
  cases there
  exact moved place

theorem Judged.exact {found : List CheckpointLocation} {verdict : CheckpointItemResult} (judged : Judged before after item found verdict)
    (about : verdict.uri = item.uri) (all : ∀ newer, (∃ location ∈ found, location.uri = newer) ↔ Successor after item newer) :
    ExactVerdict before after item verdict := by
  have lacking (none : found = []) : ¬∃ newer, Successor after item newer := by
    rintro ⟨newer, successor⟩
    obtain ⟨_, member, _⟩ := (all newer).mpr successor
    rw [none] at member
    cases member
  have listing (none : found = []) (newer : Text) (successor : Successor after item newer) :
      ∃ location ∈ verdict.successors, location.uri = newer := absurd ⟨newer, successor⟩ (lacking none)
  cases judged with
  | superseded some status listed =>
    have successor : ∃ newer, Successor after item newer := by
      obtain ⟨location, member⟩ := exists_mem_of_ne_nil found some
      exact ⟨location.uri, (all _).mp ⟨location, member, rfl⟩⟩
    exact ⟨about, ⟨fun other => by simp [status] at other, fun kept => absurd successor kept.2⟩, ⟨fun _ => Or.inr (Or.inr successor), fun _ => status⟩,
      ⟨fun other => by simp [status] at other, fun kept => absurd successor kept.2⟩, fun newer has => listed ▸ (all newer).mpr has⟩
  | deleted none gone status listed =>
    exact ⟨about, ⟨fun other => by simp [status] at other, fun kept => absurd kept.1.stays.1 gone⟩, ⟨fun _ => Or.inl gone, fun _ => status⟩,
      ⟨fun other => by simp [status] at other, fun kept => absurd kept.1.1 gone⟩, listing none⟩
  | moved none place location own status listed =>
    exact ⟨about, ⟨fun other => by simp [status] at other, fun kept => absurd place kept.1.stays.2⟩, ⟨fun _ => Or.inr (Or.inl place), fun _ => status⟩,
      ⟨fun other => by simp [status] at other, fun kept => absurd place kept.1.2.1⟩, listing none⟩
  | changed none there place content status listed =>
    refine ⟨about, ⟨fun other => by simp [status] at other, fun kept => absurd kept.1 content⟩, ⟨fun other => by simp [status] at other, ?_⟩,
      ⟨fun _ => ⟨⟨there, place, content⟩, lacking none⟩, fun _ => status⟩, listing none⟩
    rintro (gone | moved | successor)
    · exact absurd there gone
    · exact absurd moved place
    · exact absurd successor (lacking none)
  | unchanged none kept status listed =>
    refine ⟨about, ⟨fun _ => ⟨kept, lacking none⟩, fun _ => status⟩, ⟨fun other => by simp [status] at other, ?_⟩,
      ⟨fun other => by simp [status] at other, fun changed => absurd kept changed.1.2.2⟩, listing none⟩
    rintro (gone | moved | successor)
    · exact absurd kept.stays.1 gone
    · exact absurd moved kept.stays.2
    · exact absurd successor (lacking none)

theorem told_of_itself {text : Text} {uri : WorkctxUri} (own : Local after text uri) {current : Option Record}
    (found : after.projection.documentOf uri = .ok current) (itself : Supersedes after text text) :
    Told after current text ∨ ∃ row ∈ after.projection.edges, row.relation = .supersedes ∧ row.target = text ∧ row.source = text := by
  have document {claim : ClaimRecord Columns} (member : claim ∈ after.projection.claims) (made : claimText after claim.id = .ok text) :
      current = some (.claim claim) := by
    obtain ⟨uri', own', kind, entity⟩ := claimText_uri made
    obtain rfl := own.unique own'
    have again := documentOf_claim member kind entity
    rw [found] at again
    exact Except.ok.inj again
  cases itself with
  | edge row member relation target source => exact Or.inr ⟨row, member, relation, target, source⟩
  | named claim member successor names made text => exact Or.inl ⟨claim, document member made, Or.inl ⟨successor, names, text⟩⟩
  | naming candidate member predecessor names made own' =>
    exact Or.inl ⟨candidate, document member own', Or.inr ⟨candidate, member, rfl, claimText_injective made own' ▸ names, own'⟩⟩

theorem checkItem_exact {uri : WorkctxUri} {record : Record} {content : Bytes} (saved : Saved before item uri record content)
    (context : after.contextId = before.contextId) (apart : Apart before after) :
    ∃ verdict, checkItem after item = .ok verdict ∧ (ExactVerdict before after item verdict ↔ Heard after item.uri) := by
  have own := saved.later context
  obtain ⟨current, found⟩ := own.found
  obtain ⟨located, successor, listed⟩ := successors_total own (typed_of_documentOf saved.own saved.document) found
  obtain ⟨verdict, checked, about, judged⟩ := checkItem_judged saved context apart found successor
  refine ⟨verdict, checked, ?_⟩
  rw [← told_iff_heard own found]
  have sound : ∀ newer, (∃ location ∈ located, location.uri = newer) → Successor after item newer := by
    intro newer location
    obtain ⟨existing, told | edge⟩ := (listed newer).mp location
    · exact ⟨existing, told.supersedes own found⟩
    · obtain ⟨row, member, relation, target, source⟩ := edge
      exact ⟨existing, .edge row member relation target source⟩
  constructor
  · intro exact newer existing superseded
    obtain ⟨location, member, same⟩ := exact.listed newer ⟨existing, superseded⟩
    cases judged with
    | superseded _ _ all => exact ((listed newer).mp ⟨location, all ▸ member, same⟩).2
    | deleted _ _ _ all | changed _ _ _ _ _ all | unchanged _ _ _ all =>
      rw [all] at member
      cases member
    | moved _ _ other itself _ all =>
      rw [all, mem_singleton] at member
      rw [member, itself] at same
      rw [← same] at superseded ⊢
      exact told_of_itself own found superseded
  · intro every
    exact judged.exact about fun newer => ⟨sound newer, fun ⟨existing, superseded⟩ => (listed newer).mpr ⟨existing, every newer existing superseded⟩⟩

/-! New documents -/

/-- The documents that the checkpoint has not, whose topics resolve to its topic and that were created after it was taken -/
def New (after : Workspace library) (instant : Int) (checkpoint : Checkpoint) (document : TopicDocument) : Prop :=
  instant < document.createdAt ∧ document.uri ∉ checkpoint.items.map CheckpointItem.uri ∧
    ∃ slug, checkpoint.topic.bind (resolvedSlug after) = some slug ∧ ∃ topic ∈ document.topics, resolvedSlug after topic = some slug

def ExactNews (after : Workspace library) (instant : Int) (checkpoint : Checkpoint) (news : List CheckpointNewItem) : Prop :=
  ∀ item, item ∈ news ↔ ∃ document ∈ after.topicDocuments, document.newItem = item ∧ New after instant checkpoint document

/-- No absent document of the topic was created in the second in which the checkpoint was taken, up to that instant. -/
def Timely (after : Workspace library) (instant : Int) (checkpoint : Checkpoint) : Prop :=
  ∀ document ∈ after.topicDocuments, New after (truncated instant) checkpoint document → instant < document.createdAt

theorem mem_newTopicItems {item : CheckpointNewItem} : item ∈ newTopicItems after checkpoint ↔
    ∃ document ∈ after.topicDocuments, document.newItem = item ∧ New after checkpoint.createdAt checkpoint document := by
  unfold newTopicItems New
  cases chosen : checkpoint.topic.bind (resolvedSlug after) with
  | none => simp
  | some slug =>
    dsimp only
    rw [mem_sortedBy, mem_map]
    constructor
    · rintro ⟨document, kept, same⟩
      obtain ⟨member, new⟩ := mem_filter.mp kept
      unfold isNew at new
      simp only [Bool.and_eq_true, decide_eq_true_eq, Bool.not_eq_true', contains_eq_mem, decide_eq_false_iff_not, mem_filterMap] at new
      exact ⟨document, member, same, new.1.1, new.1.2, slug, rfl, new.2⟩
    · rintro ⟨document, member, same, later, absent, _, own, topic⟩
      cases own
      refine ⟨document, mem_filter.mpr ⟨member, ?_⟩, same⟩
      unfold isNew
      simp only [Bool.and_eq_true, decide_eq_true_eq, Bool.not_eq_true', contains_eq_mem, decide_eq_false_iff_not, mem_filterMap]
      exact ⟨⟨later, absent⟩, topic⟩

theorem truncated_le (instant : Int) : truncated instant ≤ instant := by
  unfold truncated
  omega

theorem exactNews_iff {instant : Int} (taken : checkpoint.createdAt = truncated instant) :
    ExactNews after instant checkpoint (newTopicItems after checkpoint) ↔ Timely after instant checkpoint := by
  constructor
  · intro exact document member new
    have listed : document.newItem ∈ newTopicItems after checkpoint :=
      mem_newTopicItems.mpr ⟨document, member, rfl, by rwa [taken]⟩
    obtain ⟨other, _, same, later, _⟩ := (exact _).mp listed
    rw [show document.createdAt = other.createdAt from (congrArg CheckpointNewItem.createdAt same).symm]
    exact later
  · intro timely item
    rw [mem_newTopicItems, taken]
    constructor
    · rintro ⟨document, member, same, new⟩
      exact ⟨document, member, same, timely document member new, new.2⟩
    · rintro ⟨document, member, same, later, rest⟩
      exact ⟨document, member, same, lt_of_le_of_lt (truncated_le instant) later, rest⟩

/-! The check -/

theorem save_parts {instant : Int} {references : List Text} {topic : Option String}
    (saved : save before instant references topic = .ok checkpoint) :
    checkpoint.createdAt = truncated instant ∧ ∀ item ∈ checkpoint.items, ∃ uri record content, Saved before item uri record content := by
  unfold save at saved
  cases chosen : selectTopic before topic with
  | error cause =>
    rw [chosen] at saved
    cases saved
  | ok selected =>
    rw [chosen] at saved
    dsimp only [bind, Except.bind] at saved
    split at saved
    · cases saved
    · cases made : (sortedBy codes references.dedup).mapM (saveItem before) with
      | error cause =>
        rw [made] at saved
        cases saved
      | ok items =>
        rw [made] at saved
        dsimp only at saved
        split at saved
        · cases saved
          refine ⟨rfl, fun item member => ?_⟩
          obtain ⟨_, _, one⟩ := mem_of_mapM made member
          exact saveItem_saved one
        · cases saved

/-- The verdicts and the new items of a check are what they should be of a checkpoint that was taken at an instant. -/
structure ExactCheck (before after : Workspace library) (instant : Int) (checkpoint : Checkpoint) (result : CheckpointCheckResult) : Prop where
  verdicts : List.Forall₂ (ExactVerdict before after) (sortedBy (fun item : CheckpointItem => codes item.uri) checkpoint.items) result.items
  news : ExactNews after instant checkpoint result.newItems

theorem verdicts_exact (items : List CheckpointItem) (saved : ∀ item ∈ items, ∃ uri record content, Saved before item uri record content)
    (context : after.contextId = before.contextId) (apart : Apart before after) :
    ∃ results, items.mapM (checkItem after) = .ok results ∧
      (List.Forall₂ (ExactVerdict before after) items results ↔ ∀ item ∈ items, Heard after item.uri) := by
  have verdicts : ∀ item ∈ items, ∃ verdict, checkItem after item = .ok verdict ∧
      (ExactVerdict before after item verdict ↔ Heard after item.uri) := by
    intro item member
    obtain ⟨uri, record, content, one⟩ := saved item member
    exact checkItem_exact one context apart
  obtain ⟨results, checked, -⟩ := mapM_total (checkItem after) _ fun item member => (verdicts item member).imp fun _ both => both.1
  refine ⟨results, checked, ?_⟩
  have each := mapM_ok_iff.mp checked
  clear checked saved
  induction each with
  | nil => simp
  | cons here _ ih =>
    obtain ⟨verdict, again, heard⟩ := verdicts _ mem_cons_self
    rw [here] at again
    cases again
    rw [forall₂_cons, heard, forall_mem_cons]
    exact and_congr_right' (ih fun item member => verdicts item (mem_cons_of_mem _ member))

/-- A check of a saved checkpoint returns, and is exact just when every claim that names an item as its predecessor is heard of and no new
document of the topic is as young as the second of the checkpoint. -/
theorem check_exact_iff {instant : Int} {references : List Text} {topic : Option String}
    (saved : save before instant references topic = .ok checkpoint) (context : after.contextId = before.contextId)
    (apart : Apart before after) :
    ∃ result, check after checkpoint = .ok result ∧ (ExactCheck before after instant checkpoint result ↔
      (∀ item ∈ checkpoint.items, Heard after item.uri) ∧ Timely after instant checkpoint) := by
  obtain ⟨taken, items⟩ := save_parts saved
  obtain ⟨results, checked, exact⟩ := verdicts_exact (sortedBy (fun item : CheckpointItem => codes item.uri) checkpoint.items)
    (fun item member => items item (mem_sortedBy.mp member)) context apart
  simp only [mem_sortedBy] at exact
  refine ⟨⟨results, newTopicItems after checkpoint⟩, ?_, ?_⟩
  · unfold check
    rw [checked]
    rfl
  · constructor
    · intro both
      exact ⟨exact.mp both.verdicts, (exactNews_iff taken).mp both.news⟩
    · intro both
      exact ⟨exact.mpr both.1, (exactNews_iff taken).mpr both.2⟩

end

/-! Two claims, the newer of which names the older. -/

def sampleLibrary : Library where
  tables := plainTables
  lawful _ _ := rfl
  unicode := sampleUnicode
  contentHash _ := "sha256:"
  revisionOf _ _ := none

def olderId : Text := literal "CLM-2026-00001".toList

def newerId : Text := literal "CLM-2026-00002".toList

def olderText : Text := literal "workctx://acme/claim/CLM-2026-00001".toList

def newerText : Text := literal "workctx://acme/claim/CLM-2026-00002".toList

def taskTwoText : Text := literal "workctx://acme/task/T-2".toList

def sampleClaim (id subject : Text) (supersedes : Option Text) : ClaimRecord Columns :=
  ⟨id, subject, .current, "2026-01-01T00:00:00Z", [], ⟨"04_evidence/claims/CLM.md", none, supersedes, none⟩⟩

def claimPair (subject : Text) : SQLiteProjection plainTables Columns where
  contextId := acme
  metadata := ⟨"sha256:", 2, 2, 0⟩
  entities := []
  tasks := []
  claims := [sampleClaim olderId taskText none, sampleClaim newerId subject (some olderId)]
  observations := []
  edges := []
  indexed := rfl
  identities := by
    show [olderId, newerId].Nodup
    decide
  entityUris := List.nodup_nil
  taskIds := List.nodup_nil
  taskEntities := by simp
  edgePlaces := List.nodup_nil
  sources := by simp
  targets := by simp

theorem claimPair_found {subject : Text} {uri : WorkctxUri} {record : Record} (found : (claimPair subject).documentOf uri = .ok (some record)) :
    ∃ claim ∈ (claimPair subject).claims, record = .claim claim := by
  unfold SQLiteProjection.documentOf at found
  split at found
  · next special held =>
    cases found
    unfold SQLiteProjection.specialDocument at held
    split at held
    · cases held
    · split at held
      · split at held
        · obtain ⟨claim, row, same⟩ := Option.map_eq_some_iff.mp held
          exact ⟨claim, mem_of_find?_eq_some row, same.symm⟩
        · cases held
      · split at held
        · split at held <;> cases held
        · cases held
  · cases printed : uri.str with
    | error cause =>
      rw [printed] at found
      cases found
    | ok text =>
      rw [printed] at found
      cases found

def sampleWorkspace (subject : Text) (local_ : ∃ uri : WorkctxUri, uri.contextId = acme ∧ uri.str = .ok subject) : Workspace sampleLibrary where
  projection := claimPair subject
  contents _ := some []
  registry := ⟨[], by decide +kernel⟩
  topicDocuments := []
  typed := by simp [claimPair]
  claimIds := by
    intro claim member
    rcases List.mem_pair.mp member with rfl | rfl <;> rfl
  related := by
    intro claim member id names
    rcases List.mem_pair.mp member with rfl | rfl <;> cases names
  subjects := by
    intro claim member
    rcases List.mem_pair.mp member with rfl | rfl
    · exact ⟨taskOne, rfl, taskOne_printed⟩
    · exact local_
  readable := fun _ _ _ => rfl
  revisions := by
    intro uri record text content found _ _
    obtain ⟨claim, member, rfl⟩ := claimPair_found found
    rcases List.mem_pair.mp member with rfl | rfl <;> rfl

def olderItem : CheckpointItem := ⟨olderText, "04_evidence/claims/CLM.md", "sha256:", none⟩

theorem sortedBy_one {α κ : Type} [LinearOrder κ] (key : α → κ) (item : α) : sortedBy key [item] = [item] :=
  mergeSort_singleton item

section
variable {subject : Text} {local_ : ∃ uri : WorkctxUri, uri.contextId = acme ∧ uri.str = .ok subject}

def olderUri : WorkctxUri := ⟨acme, claimType, olderId, by decide⟩

theorem olderUri_printed : olderUri.str = .ok olderText := by rfl

theorem claimText_older : claimText (sampleWorkspace subject local_) olderId = .ok olderText := by
  have made : WorkctxUri.make acme claimType olderId = .ok olderUri := guarded_ok _
  unfold claimText ofRead ofValue
  rw [show (sampleWorkspace subject local_).contextId = acme from rfl, made]
  rfl

theorem claimText_newer : claimText (sampleWorkspace subject local_) newerId = .ok newerText := by
  have made : WorkctxUri.make acme claimType newerId = .ok ⟨acme, claimType, newerId, by decide⟩ := guarded_ok _
  unfold claimText ofRead ofValue
  rw [show (sampleWorkspace subject local_).contextId = acme from rfl, made]
  rfl

theorem saveItem_older : saveItem (sampleWorkspace subject local_) olderText = .ok olderItem := by
  have found : (sampleWorkspace subject local_).projection.documentOf olderUri = .ok (some (.claim (sampleClaim olderId taskText none))) :=
    documentOf_claim mem_cons_self rfl rfl
  unfold saveItem
  rw [WorkctxUri.parse_str sampleLibrary.tables olderUri_printed]
  dsimp only
  rw [if_neg (fun other => other rfl), (sampleWorkspace subject local_).projection.getDocumentByUri_own rfl, found]
  dsimp only [ofRead, Except.mapError, bind, Except.bind]
  unfold ofValue
  rw [olderUri_printed]
  rfl

theorem save_older : save (sampleWorkspace subject local_) 0 [olderText] none = .ok ⟨0, none, [olderItem]⟩ := by
  have items : [olderText].mapM (saveItem (sampleWorkspace subject local_)) = .ok [olderItem] := by
    rw [mapM_cons, saveItem_older, mapM_nil]
    rfl
  unfold save
  rw [dedup_cons_of_notMem not_mem_nil, dedup_nil, sortedBy_one]
  dsimp only
  rw [items]
  rfl

theorem apart_same {library : Library} (workspace : Workspace library) : Apart workspace workspace := by
  intro path one two first second _
  rw [first] at second
  exact Option.some.inj second

end

def onOneSubject : Workspace sampleLibrary := sampleWorkspace taskText ⟨taskOne, rfl, taskOne_printed⟩

def onTwoSubjects : Workspace sampleLibrary :=
  sampleWorkspace taskTwoText ⟨⟨acme, literal "task".toList, literal "T-2".toList, by decide⟩, rfl, by rfl⟩

/-- The newer claim is on the subject of the older, which is superseded. -/
theorem check_exact_sample : ∃ result, check onOneSubject ⟨0, none, [olderItem]⟩ = .ok result ∧
    (ExactCheck onOneSubject onOneSubject 0 ⟨0, none, [olderItem]⟩ result ↔
      (∀ item ∈ [olderItem], Heard onOneSubject item.uri) ∧ Timely onOneSubject 0 ⟨0, none, [olderItem]⟩) :=
  check_exact_iff (show save onOneSubject 0 [olderText] none = .ok ⟨0, none, [olderItem]⟩ from save_older) rfl (apart_same onOneSubject)

/-- A claim on another subject names the older claim, and the check does not hear of it. -/
theorem successor_unheard : save onTwoSubjects 0 [olderText] none = .ok ⟨0, none, [olderItem]⟩ ∧
    ∃ result, check onTwoSubjects ⟨0, none, [olderItem]⟩ = .ok result ∧
      ¬ExactCheck onTwoSubjects onTwoSubjects 0 ⟨0, none, [olderItem]⟩ result := by
  have saved : ∀ item ∈ [olderItem], ∃ uri record content, Saved onTwoSubjects item uri record content := by
    intro item member
    rw [List.mem_singleton.mp member]
    exact saveItem_saved (show saveItem onTwoSubjects olderText = .ok olderItem from saveItem_older)
  obtain ⟨results, checked, heard⟩ := verdicts_exact _ saved rfl (apart_same onTwoSubjects)
  refine ⟨save_older, ⟨results, []⟩, ?_, ?_⟩
  · unfold check
    rw [sortedBy_one, checked]
    rfl
  · intro both
    have verdicts := both.verdicts
    rw [sortedBy_one] at verdicts
    have newer : sampleClaim newerId taskTwoText (some olderId) ∈ onTwoSubjects.projection.claims := List.mem_cons_of_mem _ List.mem_cons_self
    cases heard.mp verdicts olderItem (List.mem_singleton_self _) _ newer olderId newerText rfl claimText_older claimText_newer with
    | inl claims =>
      obtain ⟨claim, member, id, subject | named⟩ := claims
      · rcases List.mem_pair.mp member with rfl | rfl
        · exact absurd subject (by decide)
        · exact absurd id (by decide)
      · rcases List.mem_pair.mp member with rfl | rfl <;> cases named
    | inr edge =>
      obtain ⟨row, member, _⟩ := edge
      cases member

end Workctx.Checkpoints
