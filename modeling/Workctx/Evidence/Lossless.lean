import Workctx.Evidence.Staging

/-! A committed evidence proposal appends references to the documents it found, and changes nothing
else of them, if they were hashed as they were read. -/

namespace Workctx.Evidence
open Workctx.Concurrent Workctx.Text Workctx.Json Workctx.Domain Workctx.Staging Workctx.Engine Workctx.Services List

section
variable (site : Site) {members : Type} (formats : Formats members)

/-- The first content with references appended to it is the second one. -/
def Extends (old new : Bytes) : Prop :=
  ∃ document body added, (formats.readEntity old = some (document, body) ∨ formats.readTask old = some (document, body)) ∧
    new = formats.render { document with references := document.references ++ added } body

/-- Apart from those with the authored paths every file keeps its content, but for appended references. -/
def Lossless (authored : List String) (before after : EvidenceWorld) : Prop :=
  ∀ path old, path ∉ authored → before.files.get path = some old →
    ∃ new, after.files.get path = some new ∧ (new = old ∨ Extends formats old new)

/-- The actions of the runs in question: the files have known contents, and a document is hashed as
it was read. -/
def Careful (known : Set Bytes) (note : Note) (before _ : EvidenceWorld) : Prop :=
  Inside known before ∧ ∀ path parsed, note = .hashed path parsed → before.files.get path = some parsed

/-- The paths of the tasks that the payload itself writes. -/
def PreparedPayload.authored (prepared : PreparedPayload members) : List String :=
  prepared.tasks.map fun task => task.1.target

def Grown (known : Set Bytes) (state : DocumentState members) (expectedHash : String) : Prop :=
  ∃ content ∈ known, expectedHash = hashBytes site content ∧
    Extends formats content (formats.render state.document state.body) ∧
    ∃ document added, (formats.readEntity content = some (document, state.body) ∨
        formats.readTask content = some (document, state.body)) ∧
      state.document = { document with references := document.references ++ added }

def Sourced (known : Set Bytes) (authored : List String) (state : DocumentState members) : Prop :=
  ∀ expectedHash, state.expectedHash = some expectedHash →
    state.target ∈ authored ∨ Grown site formats known state expectedHash

end

section
variable {site : Site} {members : Type} {formats : Formats members} {known : Set Bytes} {authored : List String}
  {start : EvidenceWorld} {α : Type}

/-- The client keeps the documents, whatever the others do. -/
structure Behaves (formats : Formats members) (known : Set Bytes) (authored : List String) (client : EvidenceClient α)
    (start : EvidenceWorld) (post : α → Prop) : Prop where
  keeps : client.Keeps (Careful known) (fun _ _ => True) (Lossless formats authored)
    (fun result _ => ∀ value, result = .ok value → post value) start

theorem Lossless.refl (world : EvidenceWorld) : Lossless formats authored world world :=
  fun _ old _ found => ⟨old, found, .inl rfl⟩

variable {post : α → Prop} {error : EvidenceError} {declared : List Declared} {path : String} {staged : List (String × String)}
  {state : DocumentState members} {states : DocumentStates members} {proposal : Proposal}

theorem behaves_ret {value : α} (done : post value) : Behaves formats known authored (.ret value) start post := by
  constructor
  intro state _ result same
  cases same
  exact done

theorem behaves_raise :
    Behaves formats known authored (.raise error : EvidenceClient α) start post := by
  constructor
  intro state _ value same
  cases same

theorem behaves_bind {β : Type} {mid : β → Prop} {first : EvidenceClient β} {next : β → EvidenceClient α}
    (one : Behaves formats known authored first start mid)
    (two : ∀ value state, mid value → Behaves formats known authored (next value) state post) :
    Behaves formats known authored (first >>= next) start post := by
  constructor
  apply Client.Keeps.bind (fun _ => trivial) one.keeps
  · exact fun value state met => (two value state (met value rfl)).keeps
  · intro error state _ value same
    cases same

theorem behaves_observe {note : Note} {view : EvidenceWorld → α}
    (seen : ∀ state, Careful known note state state → post (view state)) :
    Behaves formats known authored (Client.observe note view) start post := by
  constructor
  intro state _ meets
  refine ⟨Lossless.refl state, ?_⟩
  intro later _ value same
  cases same
  exact seen state meets

theorem behaves_look {note : Note} {view : EvidenceWorld → α} :
    Behaves formats known authored (Client.observe note view) start fun _ => True := behaves_observe fun _ _ => trivial

theorem behaves_ensure {test : Bool} :
    Behaves formats known authored (Client.ensure test error) start fun _ => test = true := by
  cases test with
  | true => exact behaves_ret rfl
  | false => exact behaves_raise

theorem behaves_ofExcept {result : Except EvidenceError α} :
    Behaves formats known authored (Client.ofExcept result) start fun value => result = .ok value := by
  cases result with
  | ok value => exact behaves_ret rfl
  | error error => exact behaves_raise

/-! The resolver only reads. -/

/-- A check of what is seen at this moment, before a value is returned. -/
theorem confirm_behaves {view : EvidenceWorld → Bool} {value : α} :
    Behaves formats known authored (do
      let found ← Client.observe .plain view
      .ensure found error
      .ret value) start fun _ => True := by
  apply behaves_bind behaves_look
  intro found _ _
  exact behaves_bind behaves_ensure fun _ _ _ => behaves_ret trivial

theorem resolveUri_behaves {authored' : String} :
    Behaves formats known authored (resolveUri site formats declared authored' path) start fun _ => True := by
  unfold resolveUri
  split
  · exact behaves_raise
  · split
    · exact behaves_raise
    · split
      · exact behaves_ret trivial
      · exact confirm_behaves

theorem resolveName_behaves {authored' : String} :
    Behaves formats known authored (resolveName site declared authored' path) start fun _ => True := by
  apply behaves_bind behaves_look
  intro byId _ _
  apply behaves_bind behaves_look
  intro byAlias _ _
  apply behaves_bind behaves_look
  intro hits _ _
  split
  · exact behaves_raise
  · exact behaves_ret trivial
  · exact behaves_raise

theorem resolveEntity_behaves {value : String} :
    Behaves formats known authored (resolveEntity site formats declared value path) start fun _ => True := by
  unfold resolveEntity
  dsimp only
  split
  · exact behaves_raise
  · split
    · exact resolveUri_behaves
    · split
      · exact behaves_raise
      · exact resolveName_behaves

theorem resolveTarget_behaves {value : String} :
    Behaves formats known authored (resolveTarget site formats declared value path) start fun _ => True := by
  unfold resolveTarget
  dsimp only
  split
  · exact resolveEntity_behaves
  · split
    · exact behaves_ret trivial
    · exact behaves_raise

theorem observationUri_behaves {value : String} :
    Behaves formats known authored (observationUri site formats staged value path) start fun _ => True := by
  unfold observationUri
  split
  · exact behaves_ret trivial
  · split
    · exact behaves_raise
    · split
      · exact behaves_raise
      · split
        · exact behaves_raise
        · split
          · exact behaves_ret trivial
          · exact confirm_behaves

theorem observationUris_behaves (values : List String) :
    Behaves formats known authored (observationUris site formats staged path values) start fun _ => True := by
  induction values generalizing start with
  | nil => exact behaves_ret trivial
  | cons value rest ih =>
    apply behaves_bind observationUri_behaves
    intro uri _ _
    apply behaves_bind ih
    exact fun uris _ _ => behaves_ret trivial

/-! Relations. -/

theorem loadDocument_behaves {isTask : Bool} {sourcePath : String} :
    Behaves formats known authored (loadDocument site formats isTask sourcePath) start (Sourced site formats known authored) := by
  apply behaves_bind behaves_look
  intro content _ _
  cases content with
  | none => exact behaves_raise
  | some content =>
    dsimp only
    split
    · exact behaves_raise
    · next document body parsed =>
      have read : formats.readEntity content = some (document, body) ∨ formats.readTask content = some (document, body) := by
        cases isTask with
        | true => exact .inr parsed
        | false => exact .inl parsed
      have again : ∀ state, Careful known (.hashed sourcePath content) state state →
          state.files.get sourcePath = some content ∧ content ∈ known := by
        intro state careful
        have same := careful.2 sourcePath content rfl
        exact ⟨same, careful.1 sourcePath content same⟩
      have hashed : ∀ state, Behaves formats known authored
          (Client.observe (.hashed sourcePath content) fun world => world.files.get sourcePath) state
          fun bytes => bytes = some content ∧ content ∈ known := fun _ => behaves_observe again
      apply behaves_bind (hashed _)
      rintro bytes _ ⟨rfl, member⟩
      apply behaves_ret
      intro expectedHash same
      cases same
      have whole : document = { document with references := document.references ++ [] } := by
        rw [append_nil]
      refine .inr ⟨content, member, rfl, ⟨document, body, [], read, ?_⟩, document, [], read, whole⟩
      rw [← whole]

theorem loadExistingRelationSource_behaves {uri : String} :
    Behaves formats known authored (loadExistingRelationSource site formats uri) start
      (Sourced site formats known authored) := by
  apply behaves_bind behaves_look
  intro record _ _
  split
  · exact loadDocument_behaves
  · exact loadDocument_behaves
  · exact behaves_raise

theorem appendReference_ok {document updated : EntityFrontmatter members} {reference : TypedReference}
    (done : appendReference formats document reference = .ok updated) :
    ∃ added, updated = { document with references := document.references ++ added } := by
  unfold appendReference at done
  split at done
  · cases done
    unfold withReference
    split
    · refine ⟨[], ?_⟩
      rw [append_nil]
    · exact ⟨_, rfl⟩
  · cases done

theorem Sourced.append {updated : EntityFrontmatter members} {reference : TypedReference}
    (sourced : Sourced site formats known authored state) (done : appendReference formats state.document reference = .ok updated) :
    Sourced site formats known authored { state with document := updated } := by
  obtain ⟨more, rfl⟩ := appendReference_ok done
  intro expectedHash same
  rcases sourced expectedHash same with written | ⟨content, member, hash, _, document, added, read, shape⟩
  · exact .inl written
  · right
    have whole : ({ state.document with references := state.document.references ++ more } : EntityFrontmatter members) =
        { document with references := document.references ++ (added ++ more) } := by
      rw [shape, append_assoc]
    exact ⟨content, member, hash, ⟨document, state.body, added ++ more, read, by rw [whole]⟩, document, added ++ more, read, whole⟩

def AllSourced (site : Site) (formats : Formats members) (known : Set Bytes) (authored : List String)
    (states : DocumentStates members) : Prop := ∀ entry ∈ states, Sourced site formats known authored entry.2

theorem AllSourced.put {uri : String}
    (all : AllSourced site formats known authored states) (sourced : Sourced site formats known authored state) :
    AllSourced site formats known authored (states.put uri state) := by
  intro entry member
  rcases mem_cons.mp member with same | there
  · rw [same]
    exact sourced
  · exact all entry (mem_filter.mp there).1

theorem attachRelation_behaves {index : Nat}
    {relation : ProposedRelation} (all : AllSourced site formats known authored states) :
    Behaves formats known authored (attachRelation site formats declared staged index relation states) start
      (AllSourced site formats known authored) := by
  apply behaves_bind resolveEntity_behaves
  intro sourceUri _ _
  apply behaves_bind resolveTarget_behaves
  intro target _ _
  apply behaves_bind (observationUris_behaves _)
  intro sources _ _
  apply behaves_bind behaves_ensure
  intro _ _ _
  apply behaves_bind behaves_ensure
  intro _ later _
  have source : Behaves formats known authored (relationSource site formats states sourceUri) later
      (Sourced site formats known authored) := by
    unfold relationSource
    split
    · next state found => exact behaves_ret (all (sourceUri, state) (Directory.mem_of_get found))
    · exact loadExistingRelationSource_behaves
  apply behaves_bind source
  intro state _ sourced
  apply behaves_bind behaves_ofExcept
  intro document _ done
  exact behaves_ret (all.put (sourced.append done))

theorem attachRelations_behaves (relations : List ProposedRelation)
    {index : Nat} (all : AllSourced site formats known authored states) :
    Behaves formats known authored (attachRelations site formats declared staged index relations states) start
      (AllSourced site formats known authored) := by
  induction relations generalizing index states start with
  | nil => exact behaves_ret all
  | cons relation rest ih =>
    apply behaves_bind (attachRelation_behaves all)
    exact fun attached _ sourced => ih sourced

/-! Staging and the proposal. -/

theorem prepared_sourced (prepared : PreparedPayload members) :
    AllSourced site formats known prepared.authored prepared.states := by
  intro entry member expectedHash same
  rcases mem_append.mp member with created | updated
  · rcases mem_cons.mp created with here | there
    · rw [here] at same
      cases same
    · obtain ⟨entity, _, rfl⟩ := mem_map.mp there
      cases same
  · obtain ⟨task, there, rfl⟩ := mem_map.mp updated
    exact .inl (mem_map.mpr ⟨task, there, rfl⟩)

theorem mem_orderedStates {evidenceUri : String}
    (member : state ∈ orderedStates evidenceUri states) : ∃ uri, (uri, state) ∈ states := by
  unfold orderedStates at member
  rw [mem_append, mem_append, mem_mergeSort, mem_mergeSort] at member
  have others : state ∈ (states.filter fun entry => entry.1 != evidenceUri).map Prod.snd → ∃ uri, (uri, state) ∈ states := by
    intro there
    obtain ⟨entry, among, rfl⟩ := mem_map.mp there
    exact ⟨entry.1, (mem_filter.mp among).1⟩
  rcases member with (note | entity) | task
  · exact ⟨evidenceUri, Directory.mem_of_get (Option.mem_toList.mp note)⟩
  · exact others (mem_filter.mp entity).1
  · exact others (mem_filter.mp task).1

theorem stageObservations_behaves (prepared : PreparedPayload members) :
    Behaves formats known prepared.authored (stageObservations site formats prepared) start fun staging =>
      ∀ state ∈ staging.documents, Sourced site formats known prepared.authored state := by
  apply behaves_bind (attachRelations_behaves prepared.relations (prepared_sourced prepared))
  intro states _ all
  apply behaves_bind behaves_look
  intro base _ _
  apply behaves_ret
  intro state member
  obtain ⟨uri, there⟩ := mem_orderedStates member
  exact all (uri, state) there

def Guarded (site : Site) (formats : Formats members) (known : Set Bytes) (authored : List String) (proposal : Proposal) : Prop :=
  acceptsProposal site proposal = true ∧ ∀ operation ∈ proposal.operations,
    (∃ target content, operation = .create target content) ∨
      ∃ target new expectedHash, operation = .update target new expectedHash ∧ (target ∈ authored ∨
        ∃ content ∈ known, expectedHash = hashBytes site content ∧ Extends formats content new)

theorem buildEvidenceProposal_guarded {staging : EvidenceStagingResult members}
    (sourced : ∀ state ∈ staging.documents, Sourced site formats known authored state)
    (built : buildEvidenceProposal site formats staging = .ok proposal) : Guarded site formats known authored proposal := by
  unfold buildEvidenceProposal at built
  dsimp only at built
  split at built
  · next accepted =>
    cases built
    refine ⟨accepted, ?_⟩
    intro operation member
    rcases mem_append.mp member with document | claim
    · obtain ⟨state, there, rfl⟩ := mem_map.mp document
      cases expected : state.expectedHash with
      | none =>
        left
        unfold stagedOperation
        rw [expected]
        exact ⟨_, _, rfl⟩
      | some expectedHash =>
        right
        unfold stagedOperation
        rw [expected]
        refine ⟨_, _, _, rfl, ?_⟩
        rcases sourced state there expectedHash expected with written | ⟨content, inside, hash, grown, _⟩
        · exact .inl written
        · exact .inr ⟨content, inside, hash, grown⟩
    · obtain ⟨claim, _, rfl⟩ := mem_map.mp claim
      exact .inl ⟨_, _, rfl⟩
  · cases built

theorem Guarded.lossless {before after : EvidenceWorld} (guarded : Guarded site formats known authored proposal)
    (free : Set.InjOn (hashBytes site) known) (inside : Inside known before) (committed : Committed site proposal before after) :
    Lossless formats authored before after := by
  intro path old outside found
  by_cases addressed : ∃ operation ∈ proposal.operations, path ∈ operation.paths
  · obtain ⟨operation, member, here⟩ := addressed
    obtain ⟨first, middle, done, same, last⟩ := committed.addressed guarded.1 member here
    rcases guarded.2 operation member with ⟨target, content, rfl⟩ | ⟨target, new, expectedHash, rfl, source⟩
    · have absent := (operate_create.mp done).1
      rw [← mem_singleton.mp here, same, found] at absent
      cases absent
    · obtain ⟨⟨present, there, hash⟩, rfl⟩ := operate_update.mp done
      have target_ := mem_singleton.mp here
      rw [← target_, same, found] at there
      cases there
      rw [last, target_, Directory.get_put_self]
      rcases source with written | ⟨content, member', expected, extends_⟩
      · rw [target_] at outside
        exact absurd written outside
      · have equal : old = content := free (inside path old found) member' (hash.trans expected)
        rw [equal]
        exact ⟨new, rfl, .inr extends_⟩
  · refine ⟨old, ?_, .inl rfl⟩
    rw [committed.elsewhere fun operation member here => addressed ⟨operation, member, here⟩]
    exact found

theorem transactionApply_behaves {approved : Bool} (guarded : Guarded site formats known authored proposal)
    (free : Set.InjOn (hashBytes site) known) :
    Behaves formats known authored (transactionApply site proposal approved) start fun _ => True := by
  constructor
  apply Client.Keeps.transact Lossless.refl
  · intro state outcome after _ found careful
    have done : commit site proposal approved state = .ok (outcome, after) := by
      cases result : commit site proposal approved state with
      | error failure =>
        rw [result] at found
        cases found
      | ok value =>
        rw [result] at found
        cases found
        rfl
    refine ⟨?_, Client.Keeps.weaken behaves_ofExcept.keeps fun _ _ _ _ _ => trivial⟩
    rcases commit_ok done with ⟨_, committed⟩ | ⟨_, rolledBack⟩
    · exact guarded.lossless free careful.1 committed
    · intro path old _ here
      rw [rolledBack.files]
      exact ⟨old, here, .inl rfl⟩
  · intro state error _ _
    exact behaves_raise.keeps

theorem processEvidence_behaves (free : Set.InjOn (hashBytes site) known) (prepared : PreparedPayload members) (approved : Bool) :
    Behaves formats known prepared.authored (processEvidence site formats prepared approved) start fun _ => True := by
  apply behaves_bind (stageObservations_behaves prepared)
  intro staging _ sourced
  apply behaves_bind behaves_ofExcept
  intro proposal _ built
  exact transactionApply_behaves (buildEvidenceProposal_guarded sourced built) free

end

/-! Runs. -/

section
variable (site : Site) {members : Type} (formats : Formats members)

/-- The client about to start in a workspace that others change. -/
def evidencePool (prepared : PreparedPayload members) (approved : Bool) (world : EvidenceWorld) :
    Pool Unit EvidenceWorld Note EvidenceError Event := ⟨fun _ => processEvidence site formats prepared approved, world⟩

/-- In every course of the client and of changes by others, in which every document is hashed as it
was read, each step of the client leaves the documents it did not author as they were immediately
before, but for appended references. -/
theorem evidence_lossless (known : Set Bytes) (free : Set.InjOn (hashBytes site) known) (prepared : PreparedPayload members)
    (approved : Bool) (world : EvidenceWorld) (moves : List (Pool.Move Unit EvidenceWorld))
    (careful : (evidencePool site formats prepared approved world).Obeys (Careful known) (fun _ _ => True)
      (moves ++ [.take ()])) :
    Lossless formats prepared.authored ((evidencePool site formats prepared approved world).course moves).state
      ((evidencePool site formats prepared approved world).course (moves ++ [.take ()])).state := by
  have compatible : Pool.Compatible (fun (_ : Unit) (_ _ : EvidenceWorld) => True) (fun _ => Lossless formats prepared.authored) :=
    ⟨fun _ _ => trivial, fun _ _ _ _ _ _ => trivial, fun _ _ _ _ _ _ => trivial⟩
  have keeps : (evidencePool site formats prepared approved world).Keeps (Careful known) (fun _ _ _ => True)
      (fun _ => Lossless formats prepared.authored) (fun _ result _ => ∀ value, result = .ok value → True) :=
    fun _ => (processEvidence_behaves free prepared approved).keeps
  obtain ⟨early, last⟩ := careful.append
  have kept := (keeps.course compatible (fun _ _ _ _ => trivial) (fun _ => trivial) (fun _ _ => trivial)
    (fun _ _ _ _ => trivial) (fun _ _ _ => trivial) early : _ ∧ True).1
  rw [Pool.course_append]
  rcases (kept.advance compatible last.1).2 with same | lossless
  · change Lossless formats prepared.authored _ (((evidencePool site formats prepared approved world).course moves).advance ()).state
    rw [same]
    exact Lossless.refl _
  · exact lossless

end
/-! A workspace with one project, to which a relation is attached. -/

def projectPath : String := "02_knowledge/projects/PRJ-1.md"

def projectUri : String := "workctx://demo/project/PRJ-1"

def evidenceUri : String := "workctx://demo/evidence/EVD-1"

def observationOne : String := "workctx://demo/observation/EVD-1-OBS-001"

def sampleReference : TypedReference := ⟨"supports", evidenceUri, none, [observationOne], none, none, none⟩

def project (title : String) (count : Nat) : EntityFrontmatter Unit :=
  { id := "PRJ-1", entityType := "project", title := title, uri := projectUri, aliases := [], status := none,
    confidence := none, tags := [], topics := [], references := List.replicate count (sampleReference.dump nullable),
    createdAt := ⟨0, 0⟩, updatedAt := ⟨0, 0⟩, extras := () }

/-- A document is written as its title, a sign for each of its references, and its body. -/
def sampleFormats : Formats Unit where
  readEntity content :=
    match (asciiText content).toList with
    | title :: rest => some (project (String.ofList [title]) (rest.takeWhile (· == '+')).length,
        String.ofList (rest.dropWhile (· == '+')))
    | [] => none
  readTask _ := none
  accepts _ := true
  render document body :=
    encodeUtf8 (document.title.toList ++ List.replicate document.references.length '+' ++ body.toList)
  entityUri := demoUri
  observationUri := demoUri

def evidenceSite : Site where
  library := demoLibrary
  contextId := "demo"
  render := fun _ body => encodeUtf8 body.toList
  parse := fun _ => none
  compile := fun payload => encodeUtf8 payload.body.toList
  utcStamp := fun _ => "20260101T000000Z"
  revision := fun events => toString events.length
  resolvesReference := fun _ _ => true
  verdict := fun _ _ _ => .accepted
  localReview := true
  possibleSecret := fun _ => false

def samplePayload : PreparedPayload Unit where
  artifactId := "ART-20260101-note-01"
  artifactRef := "workctx://demo/artifact/ART-20260101-note-01"
  actor := .system "workctx"
  evidenceNote :=
    ⟨"02_knowledge/evidence/EVD-1.md", { project "E" 0 with id := "EVD-1", entityType := "evidence", uri := evidenceUri }, ""⟩
  entities := []
  tasks := []
  claims := []
  observations := [("EVD-1#OBS-001", observationOne)]
  relations := [⟨projectUri, "supports", evidenceUri, none, ["EVD-1#OBS-001"], none, none, none⟩]
  proposalId := "TXP-20260101T000000Z-process-note"

def sampleProjection : Projection where
  documentByUri uri := if uri = projectUri then some (.entity projectPath) else none
  entityById _ := none
  entitiesByAlias _ := []
  search _ := []
  observation _ := false

def firstContent : Bytes := encodeUtf8 "A".toList

def secondContent : Bytes := encodeUtf8 "B".toList

def extendedContent : Bytes := encodeUtf8 "A+".toList

def evidenceWorld : EvidenceWorld := ⟨[(projectPath, firstContent)], [], sampleProjection⟩

/-- The client takes some actions, another one may replace the project, and the client ends. -/
def sampleMoves (early : Nat) (change : EvidenceWorld → EvidenceWorld) (late : Nat) : List (Pool.Move Unit EvidenceWorld) :=
  List.replicate early (.take ()) ++ [.outside change] ++ List.replicate late (.take ())

/-- Another client commits the project with its second title. -/
def replaceProject (world : EvidenceWorld) : EvidenceWorld :=
  { world with files := world.files.put projectPath secondContent }

def sampleCourse (moves : List (Pool.Move Unit EvidenceWorld)) : EvidenceWorld :=
  ((evidencePool evidenceSite sampleFormats samplePayload true evidenceWorld).course moves).state

def evidenceContents : List Bytes := [firstContent, extendedContent, encodeUtf8 "E".toList]

def evidenceTest (note : Note) (before _ : EvidenceWorld) : Bool :=
  before.files.all (fun entry => evidenceContents.contains entry.2) &&
    match note with
    | .plain => true
    | .hashed path parsed => before.files.get path == some parsed

theorem careful_of_test (note : Note) (before after : EvidenceWorld) (passed : evidenceTest note before after = true) :
    Careful { content | content ∈ evidenceContents } note before after := by
  obtain ⟨inside, hashed⟩ := Bool.and_eq_true_iff.mp passed
  refine ⟨inside_of_all inside, ?_⟩
  rintro path parsed rfl
  exact beq_iff_eq.mp hashed

theorem evidenceSite_free : Set.InjOn (hashBytes evidenceSite) { content | content ∈ evidenceContents } := by
  have distinct : (evidenceContents.map (hashBytes evidenceSite)).Nodup := by decide +kernel
  exact fun one oneKnown two twoKnown same => inj_on_of_nodup_map distinct oneKnown twoKnown same

theorem evidence_lossless_sample : Lossless sampleFormats [] (sampleCourse (List.replicate 5 (.take ())))
    (sampleCourse (List.replicate 5 (.take ()) ++ [.take ()])) := by
  apply evidence_lossless evidenceSite sampleFormats _ evidenceSite_free samplePayload true evidenceWorld
  have passed : (evidencePool evidenceSite sampleFormats samplePayload true evidenceWorld).admits evidenceTest
      (List.replicate 6 ()) = true := by decide +kernel
  exact (Pool.Meets.of_admits careful_of_test passed).obeys

/-- The project is replaced between the two reads of it, and the commit takes the replacement back. -/
theorem stale_relation_source :
    (sampleCourse (sampleMoves 3 replaceProject 2)).files.get projectPath = some secondContent ∧
      (sampleCourse (sampleMoves 3 replaceProject 3)).files.get projectPath = some extendedContent ∧
      ¬Lossless sampleFormats samplePayload.authored (sampleCourse (sampleMoves 3 replaceProject 2))
        (sampleCourse (sampleMoves 3 replaceProject 3)) := by
  have states : (sampleCourse (sampleMoves 3 replaceProject 2)).files.get projectPath = some secondContent ∧
      (sampleCourse (sampleMoves 3 replaceProject 3)).files.get projectPath = some extendedContent := by
    decide +kernel
  obtain ⟨before, after⟩ := states
  refine ⟨before, after, ?_⟩
  intro lossless
  obtain ⟨new, found, kept⟩ := lossless projectPath secondContent (List.not_mem_nil) before
  rw [after] at found
  cases found
  rcases kept with same | ⟨document, body, added, read, same⟩
  · exact absurd same (by decide)
  · have parsed : sampleFormats.readEntity secondContent = some (project "B" 0, "") := by rfl
    rcases read with read | read
    · rw [parsed] at read
      cases read
      have first : ∀ rest, (encodeUtf8 ('B' :: rest)).head? = some 66 := fun _ => rfl
      have title : ("B".toList ++ List.replicate ((project "B" 0).references ++ added).length '+' ++ "".toList) =
          'B' :: (List.replicate ((project "B" 0).references ++ added).length '+' ++ "".toList) := by
        have one : "B".toList = ['B'] := by decide
        rw [one]
        rfl
      have marked := congrArg List.head? (same.trans (congrArg encodeUtf8 title))
      rw [first] at marked
      exact absurd marked (by decide)
    · cases read

end Workctx.Evidence
