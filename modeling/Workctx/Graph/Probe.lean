import Mathlib.Data.List.Dedup
import Workctx.Graph.Edges

/-! The freshness probe: when the edges of the projection are those that the validator has collected. -/

namespace Workctx.Graph
open Workctx.Text Workctx.Concurrent Workctx.Domain Workctx.Migration Workctx.Owners List

inductive FreshnessState where
  | fresh
  | stale
  | backlinkMismatch
deriving DecidableEq

namespace Validator
variable (validator : Validator)

/-! The edges of the projection. -/

def entityEdges (document : ParsedDocument) : List Edge :=
  document.record.entity.toList.flatMap fun head => document.references.map (edgeOf head.uri)

def observationEdges (document : ParsedDocument) : List Edge :=
  document.record.observations.flatMap fun observation =>
    (recordUri validator.contextId "observation" observation.id).toList.flatMap fun source => observation.related.map (edgeOf source)

/-- The rows of the table of edges behind a rebuild: those of `_insert_edge`. -/
def projectedEdges (files : Files) : List Edge :=
  (validator.projection.rebuild files).1.flatMap fun document => entityEdges document ++ validator.observationEdges document

/-- `SqliteFreshnessProbe.probe` of a projection with these rows; none where a source is of another context. -/
def probe (ready : Bool) (edges rows : List Edge) : Option FreshnessState :=
  if !ready then some .stale
  else if edges.all fun edge => validator.projection.isLocalUri edge.source then
    let projected := rows.filter fun row => edges.any fun edge => edge.source == row.source
    if projected.all edges.contains && edges.all projected.contains then some .fresh else some .backlinkMismatch
  else none

/-! What the two sides do not have in common. -/

/-- The edges of the records whose documents the projection does not index. -/
def unindexedEdges (files : Files) : List Edge :=
  (validator.records files).flatMap fun record =>
    if ((validator.projection.rebuild files).1.map ParsedDocument.sourcePath).contains record.1 then []
    else validator.referenceEdges record.2

/-- The edges of the indexed documents that the validator does not read, and of the observations within entities that are no
evidence. -/
def unvalidatedEdges (files : Files) : List Edge :=
  (validator.projection.rebuild files).1.flatMap fun document =>
    if !(files.get document.sourcePath).any (validator.isValidated document.sourcePath) then
      entityEdges document ++ validator.observationEdges document
    else if document.record.entity.any fun head => head.entityType != "evidence" then validator.observationEdges document
    else []

/-! One document, as the validator and as the projection read it. -/

section
variable {validator : Validator} {path : String} {raw : Frontmatter} {record : Record} {references : List Reference}

theorem filterMap_of_mapM {α β : Type} {items : List α} {read other : α → Option β} {results : List β}
    (made : items.mapM read = some results) (same : ∀ item ∈ items, ∀ result, read item = some result → other item = some result) :
    items.filterMap other = results := by
  induction items generalizing results with
  | nil =>
    obtain rfl : results = [] := by simpa using made.symm
    rfl
  | cons item rest ih =>
    rw [mapM_cons] at made
    obtain ⟨first, here, made⟩ := Option.bind_eq_some_iff.mp made
    obtain ⟨others, later, made⟩ := Option.bind_eq_some_iff.mp made
    cases made
    have below := ih later fun item member => same item (mem_cons_of_mem _ member)
    rw [filterMap_cons_some (same item mem_cons_self first here), below]

theorem payloads_eq (referred : validator.projection.parseEntityReferences raw = some references)
    (accepted : ∃ items, (raw.get "references").getD (.list []) = .list items ∧
      ∀ item ∈ items, (validator.referencePayload item).isSome = true) :
    validator.payloads raw = references ∧ ∀ reference ∈ references, validator.durable reference.target = true := by
  obtain ⟨items, listed, each⟩ := accepted
  unfold Projection.parseEntityReferences at referred
  unfold payloads
  rw [listed] at referred ⊢
  have referred := (Option.filter_eq_some_iff.mp referred).1
  constructor
  · refine filterMap_of_mapM referred ?_
    intro item member typed read
    obtain ⟨payload, also⟩ := Option.isSome_iff_exists.mp (each item member)
    rw [also, validator.typedReference_payload item typed payload read also]
  · intro reference member
    obtain ⟨item, _, read⟩ := (mapM_some_mem referred).1 reference member
    exact validator.typedReference_durable item reference read

theorem mem_referenceEdges (edge : Edge) {model : Model} {source : String} (named : validator.identity model = some source)
    (durable : ∀ reference ∈ typedReferences model, validator.durable reference.target = true) :
    edge ∈ validator.referenceEdges model ↔ edge ∈ (typedReferences model).map (edgeOf source) := by
  unfold referenceEdges
  rw [named, filter_eq_self.mpr durable]
  simp

variable {head : EntityHead} {observations : List Observation}

theorem embedded_eq
    (read : embeddedObservations validator.models head raw = some observations) :
    (validator.validateEmbedded head.id raw).2 = observations.map Model.observation := by
  unfold embeddedObservations at read
  unfold validateEmbedded
  cases found : raw.get "observations" with
  | none =>
    rw [found] at read
    obtain rfl : observations = [] := by simpa using read.symm
    rfl
  | some value =>
    rw [found] at read
    cases value with
    | list items =>
      have same : items.filterMap validator.models.observation = observations :=
        filterMap_of_mapM read fun item _ result accepted => (Option.filter_eq_some_iff.mp accepted).1
      rw [← same, map_filterMap]
      rfl
    | _ => exact absurd read (by simp)

theorem embedded_durable
    (read : embeddedObservations validator.models head raw = some observations) :
    ∀ observation ∈ observations, ∀ reference ∈ observation.related, validator.durable reference.target = true := by
  unfold embeddedObservations at read
  split at read
  · intro observation member
    obtain ⟨item, _, accepted⟩ := (mapM_some_mem read).1 observation member
    exact validator.observation_durable item observation (Option.filter_eq_some_iff.mp accepted).1
  · exact absurd read (by simp)

theorem mem_observations (edge : Edge)
    (durable : ∀ observation ∈ observations, ∀ reference ∈ observation.related, validator.durable reference.target = true) :
    edge ∈ (observations.map Model.observation).flatMap validator.referenceEdges ↔
      edge ∈ observations.flatMap fun observation => (recordUri validator.contextId "observation" observation.id).toList.flatMap
        fun source => observation.related.map (edgeOf source) := by
  rw [mem_flatMap, mem_flatMap]
  constructor
  · rintro ⟨model, member, inside⟩
    obtain ⟨observation, own, rfl⟩ := mem_map.mp member
    obtain ⟨source, named, inside⟩ := mem_flatMap.mp inside
    have kept : (typedReferences (.observation observation)).filter _ = observation.related :=
      filter_eq_self.mpr (durable observation own)
    rw [kept] at inside
    exact ⟨observation, own, mem_flatMap.mpr ⟨source, named, inside⟩⟩
  · rintro ⟨observation, own, inside⟩
    obtain ⟨source, named, inside⟩ := mem_flatMap.mp inside
    refine ⟨.observation observation, mem_map.mpr ⟨observation, own, rfl⟩, mem_flatMap.mpr ⟨source, named, ?_⟩⟩
    have kept : (typedReferences (.observation observation)).filter _ = observation.related :=
      filter_eq_self.mpr (durable observation own)
    rw [kept]
    exact inside

def embeddedIn (validator : Validator) (raw : Frontmatter) : Model → List Model
  | .entity head _ => if head.entityType = "evidence" then (validator.validateEmbedded head.id raw).2 else []
  | _ => []

theorem validateDocument_silent {document : Document} (silent : (validator.validateDocument document).1 = []) :
    ∃ model, validator.validate document = some model ∧
      (validator.validateDocument document).2 = model :: embeddedIn validator document.raw model := by
  unfold validateDocument at silent ⊢
  cases made : validator.validate document with
  | none =>
    rw [made] at silent
    exact absurd silent (by simp)
  | some model =>
    refine ⟨model, rfl, ?_⟩
    cases model with
    | entity head references =>
      unfold embeddedIn
      dsimp only
      split <;> rfl
    | _ => rfl

/-- A document with a type is validated as the entity, or as the task, that the projection finds. -/
theorem typed_validate {value : Yaml} {model : Model} (typed : raw.get "entity_type" = some value)
    (read : readHead validator.models value raw = some head)
    (made : validator.validate ⟨path, raw, typedKind value⟩ = some model) :
    typedReferences model = validator.payloads raw ∧ validator.identity model = some head.uri ∧
      embeddedIn validator raw model = (if head.entityType = "evidence" then (validator.validateEmbedded head.id raw).2 else []) ∧
      ∃ items, (raw.get "references").getD (.list []) = .list items ∧
        ∀ item ∈ items, (validator.referencePayload item).isSome = true := by
  have present : (raw.get "entity_type").isSome = true := by rw [typed]; rfl
  unfold readHead at read
  unfold typedKind at made
  split at read
  · next task =>
    rw [if_pos task] at made
    have same : validator.validate ⟨path, raw, .task⟩ = some (.task head (validator.payloads raw) _) :=
      Option.map_eq_some_iff.mpr ⟨head, read, rfl⟩
    obtain rfl := Option.some.inj (made.symm.trans same)
    have other : head.entityType ≠ "evidence" := by
      rw [validator.task_head raw head read]
      decide
    rw [if_neg other]
    exact ⟨rfl, rfl, rfl, validator.task_references raw head read⟩
  · next other =>
    rw [if_neg other] at made
    split at made
    · obtain ⟨claim, accepted, _⟩ := Option.map_eq_some_iff.mp made
      exact absurd (validator.claim_members raw claim accepted _ present) (by decide)
    · split at made
      · obtain ⟨id, accepted, _⟩ := Option.map_eq_some_iff.mp made
        rw [validator.manifest_members raw id accepted] at present
        exact absurd present (by simp)
      · split at made
        · obtain ⟨observation, accepted, _⟩ := Option.map_eq_some_iff.mp made
          exact absurd (validator.observation_members raw observation accepted _ present) (by decide)
        · obtain ⟨own, accepted, rfl⟩ := Option.map_eq_some_iff.mp made
          have same := (Option.filter_eq_some_iff.mp accepted).1
          obtain rfl := Option.some.inj (read.symm.trans same)
          exact ⟨rfl, rfl, rfl, validator.entity_references raw head read⟩

theorem startsWith_apart {one two text : String} {c d : Char} (first : one.toList.head? = some c) (second : two.toList.head? = some d)
    (differ : c ≠ d) (tagged : startsWith one text = true) : startsWith two text = false := by
  unfold startsWith at tagged ⊢
  obtain ⟨front, first⟩ := head?_eq_some_iff.mp first
  obtain ⟨back, second⟩ := head?_eq_some_iff.mp second
  rw [first] at tagged
  rw [second]
  cases spelled : text.toList with
  | nil => rfl
  | cons head rest =>
    rw [spelled, isPrefixOf_cons_cons, Bool.and_eq_true] at tagged
    obtain rfl := beq_iff_eq.mp tagged.1
    rw [isPrefixOf_cons_cons, beq_false_of_ne differ.symm, Bool.false_and]

theorem member_absent {members : List String} (listed : ∀ key, (raw.get key).isSome = true → key ∈ members) (key : String)
    (outside : key ∉ members) : (raw.get key).isSome = false := by
  cases present : (raw.get key).isSome with
  | false => rfl
  | true => exact absurd (listed key present) outside

/-- A document without a type is validated as the claim that the projection finds. -/
theorem untypedKind_claim {id : String} {claim : ClaimHead} (named : (raw.get "id").bind Yaml.text = some id)
    (tagged : startsWith "CLM-" id = true) (accepted : validator.models.claim raw = some claim) :
    untypedKind raw = some .claim := by
  have members := validator.claim_members raw claim accepted
  have noTask := member_absent members "task_type" (by decide)
  have apart : startsWith "TASK-" id = false := startsWith_apart (c := 'C') (d := 'T') (by decide) (by decide) (by decide) tagged
  unfold untypedKind
  dsimp only
  rw [named, Option.any_some, noTask, apart, Bool.or_false, if_neg (by simp), Option.any_some, tagged, Bool.true_or, if_pos rfl]

theorem startsWith_observation {id : String} (accepted : isObservationId id = true) : startsWith "EVD-" id = true := by
  unfold isObservationId at accepted
  dsimp only at accepted
  rw [Bool.and_eq_true, Bool.and_eq_true] at accepted
  have dated := accepted.1.1
  unfold matchesDatedSequence at dated
  rw [Bool.and_eq_true] at dated
  have front := isPrefixOf_iff_prefix.mp dated.1
  exact isPrefixOf_iff_prefix.mpr (front.trans (List.takeWhile_prefix _))

/-- A document without a type is validated as the observation that the projection finds. -/
theorem untypedKind_observation {id : String} {observation : Observation} (named : (raw.get "id").bind Yaml.text = some id)
    (marked : occursIn "#OBS-" id = true) (accepted : validator.models.standaloneObservation raw = some observation) :
    untypedKind raw = some .observation := by
  have members := validator.observation_members raw observation accepted
  have noTask := member_absent members "task_type" (by decide)
  have noSubject := member_absent members "subject" (by decide)
  have noHash := member_absent members "content_hash" (by decide)
  have own : id = observation.id := Option.some.inj (named.symm.trans (validator.observation_own raw observation accepted))
  have evidence : startsWith "EVD-" id = true := by
    rw [own]
    exact startsWith_observation (validator.models.standaloneObservation_id raw observation accepted)
  have task : startsWith "TASK-" id = false := startsWith_apart (c := 'E') (d := 'T') (by decide) (by decide) (by decide) evidence
  have claim : startsWith "CLM-" id = false := startsWith_apart (c := 'E') (d := 'C') (by decide) (by decide) (by decide) evidence
  have artifact : startsWith "ART-" id = false := startsWith_apart (c := 'E') (d := 'A') (by decide) (by decide) (by decide) evidence
  unfold untypedKind
  dsimp only
  rw [named, Option.any_some, Option.any_some, Option.any_some, Option.any_some, noTask, task, Bool.or_false, if_neg (by simp), claim,
    noSubject, Bool.false_and, Bool.or_false, if_neg (by simp), artifact, noHash, Bool.or_false, if_neg (by simp), marked,
    Bool.true_or, if_pos rfl]

/-- Observations within an entity that is no evidence are not validated. -/
def hidesObservations (document : ParsedDocument) : Bool := document.record.entity.any fun head => head.entityType != "evidence"

theorem documentKind_typed {value : Yaml} (typed : (raw.get "entity_type").getD .null = value) (some' : value ≠ .null) :
    raw.get "entity_type" = some value ∧ documentKind raw = some (typedKind value) := by
  have present : raw.get "entity_type" = some value := by
    cases found : raw.get "entity_type" with
    | none =>
      rw [found] at typed
      exact absurd typed.symm some'
    | some other =>
      rw [found] at typed
      rw [← typed]
      rfl
  refine ⟨present, ?_⟩
  unfold documentKind
  rw [typed]
  cases value with
  | null => exact absurd rfl some'
  | _ => rfl

/-- The edges of the typed references of a document are the same on both sides, but for the hidden observations. -/
theorem document_agrees (edge : Edge) {document : ParsedDocument} (read : readRecord validator.models raw = some document.record)
    (referred : validator.projection.parseReferences raw document.record = some document.references)
    (silent : (validator.validateDocument ⟨path, raw, (documentKind raw).getD .entity⟩).1 = []) :
    edge ∈ (validator.validateDocument ⟨path, raw, (documentKind raw).getD .entity⟩).2.flatMap validator.referenceEdges ↔
      edge ∈ entityEdges document ∨ hidesObservations document = false ∧ edge ∈ validator.observationEdges document := by
  obtain ⟨model, made, models⟩ := validateDocument_silent silent
  rw [models]
  unfold readRecord at read
  split at read
  · next untyped =>
    have kind : documentKind raw = untypedKind raw := by
      unfold documentKind
      rw [untyped]
    rw [kind] at made
    split at read
    · exact absurd read (by simp)
    · next id named =>
      split at read
      · next tagged =>
        obtain ⟨claim, accepted, same⟩ := Option.map_eq_some_iff.mp read
        rw [untypedKind_claim named tagged accepted] at made
        obtain ⟨claim', _, rfl⟩ := Option.map_eq_some_iff.mp made
        unfold entityEdges observationEdges
        rw [← same]
        simp [embeddedIn, referenceEdges, typedReferences]
      · split at read
        · next marked =>
          obtain ⟨observation, accepted, same⟩ := Option.map_eq_some_iff.mp read
          rw [untypedKind_observation named marked accepted] at made
          obtain ⟨observation', accepted', rfl⟩ := Option.map_eq_some_iff.mp made
          obtain rfl := Option.some.inj (accepted.symm.trans accepted')
          have durable : ∀ own ∈ [observation], ∀ reference ∈ own.related, validator.durable reference.target = true := by
            intro own member
            obtain rfl := mem_singleton.mp member
            exact validator.standalone_durable raw own accepted
          have edges := mem_observations edge durable
          unfold entityEdges observationEdges hidesObservations
          rw [← same]
          simpa [embeddedIn] using edges
        · exact absurd read (by simp)
  · next value typed =>
    obtain ⟨head, found, more⟩ := Option.bind_eq_some_iff.mp read
    obtain ⟨observations, embedded, done⟩ := Option.bind_eq_some_iff.mp more
    have same := Option.some.inj done
    obtain ⟨present, kind⟩ := documentKind_typed rfl typed
    rw [kind] at made
    obtain ⟨own, named, nested, accepted⟩ := typed_validate present found made
    have entity : validator.projection.parseEntityReferences raw = some document.references := by
      unfold Projection.parseReferences at referred
      rw [← same] at referred
      exact referred
    obtain ⟨equal, durable⟩ := payloads_eq entity accepted
    rw [equal] at own
    have first := mem_referenceEdges edge named (own ▸ durable)
    rw [flatMap_cons, mem_append, first, own, nested]
    unfold entityEdges observationEdges hidesObservations
    rw [← same]
    have others := mem_observations edge (embedded_durable embedded)
    by_cases evidence : head.entityType = "evidence"
    · rw [if_pos evidence, embedded_eq embedded, others]
      simp [evidence]
    · rw [if_neg evidence]
      simp [evidence]

end

/-! A workspace without errors. -/

section
variable {validator : Validator} {files : Files}

variable {document : Document}

theorem mem_documents :
    document ∈ validator.documents files ↔ ∃ path content, (path, content) ∈ files ∧
      (validator.parseDocument path content).2 = some document := by
  unfold documents sorted
  rw [mem_filterMap]
  constructor
  · rintro ⟨⟨path, content⟩, member, made⟩
    exact ⟨path, content, (mergeSort_perm _ _).mem_iff.mp member, made⟩
  · rintro ⟨path, content, member, made⟩
    exact ⟨(path, content), (mergeSort_perm _ _).mem_iff.mpr member, made⟩

structure Silent (validator : Validator) (files : Files) : Prop where
  parsed : ∀ path content, (path, content) ∈ files → (validator.parseDocument path content).1 = []
  validated : ∀ document ∈ validator.documents files, (validator.validateDocument document).1 = []
  identities : ((validator.records files).filterMap fun record => validator.identity record.2).Nodup
  references : ∀ record ∈ validator.records files, ∀ value ∈ referenceValues record.2, validator.checkReference value = []

theorem issues_silent (valid : validator.issues files = []) : Silent validator files := by
  unfold issues at valid
  rw [append_eq_nil_iff, append_eq_nil_iff, append_eq_nil_iff, append_eq_nil_iff] at valid
  obtain ⟨⟨⟨⟨parsed, validated⟩, identities⟩, checked⟩, _⟩ := valid
  refine ⟨?_, flatMap_eq_nil_iff.mp validated, ?_, ?_⟩
  · intro path content member
    exact flatMap_eq_nil_iff.mp parsed (path, content) ((mergeSort_perm _ _).mem_iff.mpr member)
  · unfold checkIdentities at identities
    split at identities
    · next distinct => exact distinct
    · exact absurd identities (by simp)
  · intro record member value inside
    exact flatMap_eq_nil_iff.mp (flatMap_eq_nil_iff.mp checked record member) value inside

theorem mem_records {record : String × Model} :
    record ∈ validator.records files ↔ ∃ document ∈ validator.documents files, document.path = record.1 ∧
      record.2 ∈ (validator.validateDocument document).2 := by
  unfold records
  rw [mem_flatMap]
  constructor
  · rintro ⟨document, member, inside⟩
    obtain ⟨model, own, rfl⟩ := mem_map.mp inside
    exact ⟨document, member, rfl, own⟩
  · rintro ⟨document, member, same, own⟩
    exact ⟨document, member, mem_map.mpr ⟨record.2, own, by rw [same]⟩⟩

theorem isValidated_document {path : String} {content : Bytes} {raw : Frontmatter} (member : (path, content) ∈ files)
    (validated : validator.isValidated path content = true) (read : validator.models.frontmatter content = some raw) :
    ⟨path, raw, (documentKind raw).getD .entity⟩ ∈ validator.documents files := by
  refine mem_documents.mpr ⟨path, content, member, ?_⟩
  unfold parseDocument
  rw [if_pos validated, read]

theorem document_of_indexed {path : String} {content : Bytes} (indexed : isIndexedPath path = true)
    (made : (validator.parseDocument path content).2 = some document) :
    validator.isValidated path content = true ∧ ∃ raw, validator.models.frontmatter content = some raw ∧
      document = ⟨path, raw, (documentKind raw).getD .entity⟩ := by
  unfold parseDocument at made
  split at made
  · next validated =>
    refine ⟨validated, ?_⟩
    cases read : validator.models.frontmatter content with
    | none =>
      rw [read] at made
      exact absurd made (by simp)
    | some raw =>
      rw [read] at made
      exact ⟨raw, rfl, (Option.some.inj made).symm⟩
  · split at made
    · next structured =>
      have markdown : lowered (suffixOf path) = ".md".toList := by
        unfold isIndexedPath isCanonicalPath isNarrativePath at indexed
        simp only [Bool.and_eq_true] at indexed
        exact beq_iff_eq.mp indexed.1.1.2
      rw [markdown] at structured
      exact absurd structured (by simp)
    · exact absurd made (by simp)

theorem document_path {path : String} {content : Bytes}
    (made : (validator.parseDocument path content).2 = some document) : document.path = path := by
  unfold parseDocument at made
  split at made
  · split at made
    · exact absurd made (by simp)
    · rw [← Option.some.inj made]
  · split at made
    · split at made
      · exact absurd made (by simp)
      · rw [← Option.some.inj made]
    · exact absurd made (by simp)

theorem recordUri_local {entityType id uri : String} (made : recordUri validator.contextId entityType id = some uri) :
    validator.projection.isLocalUri uri = true := by
  have parsed : validator.models.parseUri uri = _ := recordUri_made made
  unfold Projection.isLocalUri
  rw [show validator.projection.models.parseUri uri = _ from parsed]
  exact beq_self_eq_true _

theorem checkReference_silent {value : String} (silent : validator.checkReference value = []) :
    validator.projection.isLocalReference value = true := by
  unfold checkReference at silent
  unfold Projection.isLocalReference
  split at silent
  · cases parsed : validator.models.parseUri value with
    | none =>
      rw [parsed] at silent
      exact absurd silent (by simp)
    | some uri =>
      have known : validator.projection.models.parseUri value = some uri := parsed
      rw [parsed] at silent
      dsimp only at silent
      split at silent
      · exact absurd silent (by simp)
      · next spelled =>
        split at silent
        · exact absurd silent (by simp)
        · next same =>
          split at silent
          · next typed =>
            rw [validator.durable_workctx value uri known (not_not.mp spelled) typed, known]
            exact beq_iff_eq.mpr (not_not.mp same)
          · exact absurd silent (by simp)
  · next other =>
    split at silent
    · next durable =>
      have foreign : validator.projection.models.parseUri value = none := by
        cases parsed : validator.projection.models.parseUri value with
        | none => rfl
        | some uri => exact absurd (validator.parseUri_scheme value uri parsed) other
      have known : validator.projection.models.durable value = true := durable
      rw [known, foreign]
      rfl
    · exact absurd silent (by simp)

theorem isLocalUri_of_reference {value : String} (inContext : validator.projection.isLocalReference value = true) {uri : WorkctxUri}
    (parsed : validator.projection.models.parseUri value = some uri) : validator.projection.isLocalUri value = true := by
  have both := (Bool.and_eq_true_iff.mp inContext).2
  unfold Projection.isLocalUri
  rw [parsed] at both ⊢
  exact both

theorem head_local {head : EntityHead} (address : ∃ contextId entityType,
    validUri ⟨contextId, entityType, head.id⟩ = true ∧ head.uri = uriText ⟨contextId, entityType, head.id⟩)
    (silent : validator.checkReference head.uri = []) : validator.projection.isLocalUri head.uri = true := by
  obtain ⟨contextId, entityType, valid, spelled⟩ := address
  have parsed : validator.projection.models.parseUri head.uri = some ⟨contextId, entityType, head.id⟩ := by
    rw [spelled]
    exact validator.projection.models.parse_uriText _ valid
  exact isLocalUri_of_reference (checkReference_silent silent) parsed

theorem mem_validateDocument {model : Model} (silent : (validator.validateDocument document).1 = [])
    (member : model ∈ (validator.validateDocument document).2) :
    validator.validate document = some model ∨ ∃ observation, model = .observation observation := by
  obtain ⟨first, made, models⟩ := validateDocument_silent silent
  rw [models] at member
  rcases mem_cons.mp member with rfl | nested
  · exact .inl made
  · right
    unfold embeddedIn at nested
    split at nested
    · split at nested
      · unfold validateEmbedded at nested
        split at nested
        · exact absurd nested (by simp)
        · obtain ⟨item, _, same⟩ := mem_filterMap.mp nested
          obtain ⟨observation, _, rfl⟩ := Option.map_eq_some_iff.mp same
          exact ⟨observation, rfl⟩
        · exact absurd nested (by simp)
      · exact absurd nested (by simp)
    · exact absurd nested (by simp)

theorem address_of_validate {head : EntityHead} {model : Model} (made : validator.validate document = some model)
    (own : (∃ references, model = .entity head references) ∨ ∃ references relations, model = .task head references relations) :
    ∃ contextId entityType, validUri ⟨contextId, entityType, head.id⟩ = true ∧ head.uri = uriText ⟨contextId, entityType, head.id⟩ := by
  unfold validate at made
  split at made
  · obtain ⟨other, accepted, rfl⟩ := Option.map_eq_some_iff.mp made
    rcases own with ⟨_, same⟩ | ⟨_, _, same⟩
    · exact absurd same (by simp)
    · obtain ⟨rfl, _⟩ := Model.task.inj same
      obtain ⟨contextId, address⟩ := validator.projection.models.task_uri _ _ accepted
      exact ⟨contextId, _, address⟩
  · obtain ⟨_, _, rfl⟩ := Option.map_eq_some_iff.mp made
    exact absurd own (by simp)
  · obtain ⟨_, _, rfl⟩ := Option.map_eq_some_iff.mp made
    exact absurd own (by simp)
  · obtain ⟨_, _, rfl⟩ := Option.map_eq_some_iff.mp made
    exact absurd own (by simp)
  · obtain ⟨other, accepted, rfl⟩ := Option.map_eq_some_iff.mp made
    rcases own with ⟨_, same⟩ | ⟨_, _, same⟩
    · obtain ⟨rfl, _⟩ := Model.entity.inj same
      obtain ⟨contextId, address⟩ := validator.projection.models.entity_uri _ _ (Option.filter_eq_some_iff.mp accepted).1
      exact ⟨contextId, _, address⟩
    · exact absurd same (by simp)

section
variable (valid : validator.issues files = [])
include valid

theorem identity_local {record : String × Model} (member : record ∈ validator.records files)
    {source : String} (named : validator.identity record.2 = some source) : validator.projection.isLocalUri source = true := by
  have silent := issues_silent valid
  obtain ⟨document, among, _, inside⟩ := mem_records.mp member
  have made := mem_validateDocument (silent.validated document among) inside
  have checked := silent.references record member
  obtain ⟨path, model⟩ := record
  cases model with
  | entity head references =>
    cases named
    have address := address_of_validate (made.resolve_right (by simp)) (.inl ⟨references, rfl⟩)
    exact head_local address (checked _ mem_cons_self)
  | task head references relations =>
    cases named
    have address := address_of_validate (made.resolve_right (by simp)) (.inr ⟨references, relations, rfl⟩)
    exact head_local address (checked _ mem_cons_self)
  | claim claim => exact recordUri_local named
  | artifact id => exact recordUri_local named
  | observation observation => exact recordUri_local named

theorem source_local {edge : Edge} (member : edge ∈ validator.canonicalEdges files) :
    validator.projection.isLocalUri edge.source = true := by
  unfold canonicalEdges structuralEdges at member
  rw [mem_append, mem_append, mem_flatMap, mem_flatMap] at member
  rcases member with ⟨record, inside, edge'⟩ | ⟨record, inside, edge'⟩ | edge'
  · obtain ⟨source, named, edge'⟩ := mem_flatMap.mp edge'
    obtain ⟨reference, _, rfl⟩ := mem_map.mp edge'
    exact identity_local valid inside (Option.mem_toList.mp named)
  · rcases mem_append.mp edge' with derived | superseded
    · unfold derivationEdges at derived
      split at derived
      · obtain ⟨source, named, edge'⟩ := mem_flatMap.mp derived
        obtain ⟨target, _, rfl⟩ := mem_map.mp edge'
        exact identity_local valid inside (Option.mem_toList.mp named)
      · exact absurd derived (by simp)
    · unfold supersessionEdges at superseded
      split at superseded
      · obtain ⟨source, named, edge'⟩ := mem_flatMap.mp superseded
        rcases mem_append.mp edge' with older | newer
        · obtain ⟨target, _, rfl⟩ := mem_map.mp older
          exact identity_local valid inside (Option.mem_toList.mp named)
        · obtain ⟨newer, first, rfl⟩ := mem_map.mp newer
          obtain ⟨id, _, made⟩ := Option.bind_eq_some_iff.mp (Option.mem_toList.mp first)
          exact recordUri_local made
      · exact absurd superseded (by simp)
  · unfold taskEdges at edge'
    dsimp only at edge'
    obtain ⟨id, _, edge'⟩ := mem_flatMap.mp edge'
    obtain ⟨value, _, edge'⟩ := mem_flatMap.mp edge'
    obtain ⟨target, _, edge'⟩ := mem_flatMap.mp edge'
    obtain ⟨source, named, rfl⟩ := mem_map.mp edge'
    exact recordUri_local (Option.mem_toList.mp named)

/-! The two sides. -/

theorem canonical_of_projected {document : ParsedDocument} {edge : Edge}
    (indexed : document ∈ (validator.projection.rebuild files).1) (unique : (files.map Prod.fst).Nodup)
    (member : edge ∈ entityEdges document ++ validator.observationEdges document) :
    edge ∈ validator.unvalidatedEdges files ∨ edge ∈ validator.canonicalEdges files := by
  obtain ⟨content, found, _, made⟩ := Projection.mem_rebuild indexed
  obtain ⟨raw, parsed⟩ := Projection.parseDocument_iff.mp made
  have stored : files.get document.sourcePath = some content := Directory.get_of_mem unique found
  by_cases validated : validator.isValidated document.sourcePath content = true
  · have own := isValidated_document found validated parsed.read
    have agrees := document_agrees edge parsed.record parsed.references ((issues_silent valid).validated _ own)
    by_cases seen : edge ∈ entityEdges document ∨ hidesObservations document = false ∧ edge ∈ validator.observationEdges document
    · obtain ⟨model, inside, here⟩ := mem_flatMap.mp (agrees.mpr seen)
      right
      refine mem_append_left _ (mem_flatMap.mpr ⟨(document.sourcePath, model), ?_, here⟩)
      exact mem_records.mpr ⟨_, own, rfl, inside⟩
    · left
      rw [not_or, not_and] at seen
      have hidden := (mem_append.mp member).resolve_left seen.1
      have hides : hidesObservations document = true := by
        by_contra shown
        exact seen.2 ((Bool.not_eq_true _).mp shown) hidden
      refine mem_flatMap.mpr ⟨document, indexed, ?_⟩
      rw [stored, Option.any_some, validated, if_neg (by simp)]
      unfold hidesObservations at hides
      rw [if_pos hides]
      exact hidden
  · left
    refine mem_flatMap.mpr ⟨document, indexed, ?_⟩
    rw [stored, Option.any_some, (Bool.not_eq_true _).mp validated, Bool.not_false, if_pos rfl]
    exact member

theorem projected_of_reference (unique : (files.map Prod.fst).Nodup)
    {record : String × Model} {edge : Edge} (member : record ∈ validator.records files)
    (own : edge ∈ validator.referenceEdges record.2) :
    edge ∈ validator.unindexedEdges files ∨ edge ∈ validator.projectedEdges files := by
  by_cases indexed : record.1 ∈ (validator.projection.rebuild files).1.map ParsedDocument.sourcePath
  · right
    obtain ⟨parsed, inside, same⟩ := mem_map.mp indexed
    obtain ⟨content, found, canonical, made⟩ := Projection.mem_rebuild inside
    obtain ⟨raw, accepted⟩ := Projection.parseDocument_iff.mp made
    obtain ⟨document, among, path, model⟩ := mem_records.mp member
    obtain ⟨place, other, file, read⟩ := mem_documents.mp among
    have here : place = parsed.sourcePath := by
      rw [← document_path read, path, same]
    subst here
    obtain rfl : other = content :=
      Option.some.inj ((Directory.get_of_mem unique file).symm.trans (Directory.get_of_mem unique found))
    obtain ⟨_, raw', read', rfl⟩ := document_of_indexed canonical read
    obtain rfl := Option.some.inj (accepted.read.symm.trans read')
    have agrees := document_agrees edge accepted.record accepted.references ((issues_silent valid).validated _ among)
    refine mem_flatMap.mpr ⟨parsed, inside, mem_append.mpr ?_⟩
    exact (agrees.mp (mem_flatMap.mpr ⟨record.2, model, own⟩)).imp id And.right
  · left
    refine mem_flatMap.mpr ⟨record, member, ?_⟩
    rw [if_neg (by simpa using indexed)]
    exact own

end

/-! The answer of the probe. -/

theorem probe_fresh {ready : Bool} {edges rows : List Edge} :
    validator.probe ready edges rows = some .fresh ↔
      ready = true ∧ (∀ edge ∈ edges, validator.projection.isLocalUri edge.source = true) ∧ (∀ edge ∈ edges, edge ∈ rows) ∧
        ∀ row ∈ rows, (∃ edge ∈ edges, edge.source = row.source) → row ∈ edges := by
  unfold probe
  cases ready with
  | false => simp
  | true =>
    rw [if_neg (by simp)]
    by_cases sources : (edges.all fun edge => validator.projection.isLocalUri edge.source) = true
    · rw [if_pos sources]
      rw [all_eq_true] at sources
      have same : ((rows.filter fun row => edges.any fun edge => edge.source == row.source).all edges.contains &&
          edges.all (rows.filter fun row => edges.any fun edge => edge.source == row.source).contains) = true ↔
          (∀ edge ∈ edges, edge ∈ rows) ∧ ∀ row ∈ rows, (∃ edge ∈ edges, edge.source = row.source) → row ∈ edges := by
        rw [Bool.and_eq_true, all_eq_true, all_eq_true]
        simp only [mem_filter, any_eq_true, beq_iff_eq, contains_iff_mem, and_imp]
        constructor
        · rintro ⟨back, forth⟩
          exact ⟨fun edge member => (forth edge member).1, back⟩
        · rintro ⟨forth, back⟩
          exact ⟨back, fun edge member => ⟨forth edge member, edge, member, rfl⟩⟩
      dsimp only
      split
      · next equal =>
        have facts := same.mp equal
        exact iff_of_true rfl ⟨rfl, sources, facts⟩
      · next differ => exact iff_of_false (by simp) fun facts => differ (same.mpr facts.2.2)
    · rw [if_neg sources]
      rw [all_eq_true] at sources
      exact iff_of_false (by simp) fun facts => sources facts.2.1

theorem probe_rebuilt {workspace : Workspace} (valid : validator.issues workspace.files = []) :
    validator.probe true (validator.canonicalEdges workspace.files) (validator.projectedEdges workspace.files) = some .fresh ↔
      (∀ edge ∈ validator.structuralEdges workspace.files ++ validator.unindexedEdges workspace.files,
        edge ∈ validator.projectedEdges workspace.files) ∧
      ∀ edge ∈ validator.unvalidatedEdges workspace.files,
        (∃ other ∈ validator.canonicalEdges workspace.files, other.source = edge.source) →
          edge ∈ validator.canonicalEdges workspace.files := by
  rw [probe_fresh]
  constructor
  · rintro ⟨_, _, forth, back⟩
    constructor
    · intro edge member
      refine forth edge ?_
      rcases mem_append.mp member with structural | unindexed
      · exact mem_append_right _ structural
      · obtain ⟨record, inside, own⟩ := mem_flatMap.mp unindexed
        split at own
        · exact absurd own (by simp)
        · exact mem_append_left _ (mem_flatMap.mpr ⟨record, inside, own⟩)
    · intro edge member
      refine back edge ?_
      obtain ⟨document, indexed, own⟩ := mem_flatMap.mp member
      refine mem_flatMap.mpr ⟨document, indexed, ?_⟩
      split at own
      · exact own
      · split at own
        · exact mem_append_right _ own
        · exact absurd own (by simp)
  · rintro ⟨forth, back⟩
    refine ⟨rfl, fun edge member => source_local valid member, ?_, ?_⟩
    · intro edge member
      rcases mem_append.mp member with reference | structural
      · obtain ⟨record, inside, own⟩ := mem_flatMap.mp reference
        rcases projected_of_reference valid workspace.apart inside own with unindexed | projected
        · exact forth edge (mem_append_right _ unindexed)
        · exact projected
      · exact forth edge (mem_append_left _ structural)
    · intro row member occurs
      obtain ⟨document, indexed, own⟩ := mem_flatMap.mp member
      rcases canonical_of_projected valid indexed workspace.apart own with unvalidated | canonical
      · exact back row unvalidated occurs
      · exact canonical

/-- A fresh answer says that the edges are the same, unless a row has a source that has no canonical edge any more. -/
theorem probe_exact {ready : Bool} {edges rows : List Edge} :
    (validator.probe ready edges rows = some .fresh → ∀ edge, edge ∈ edges ↔ edge ∈ rows) ↔
      (∀ row ∈ rows, ∃ edge ∈ edges, edge.source = row.source) ∨ ready = false ∨
        (∃ edge ∈ edges, validator.projection.isLocalUri edge.source = false) ∨ (∃ edge ∈ edges, edge ∉ rows) ∨
        ∃ row ∈ rows, (∃ edge ∈ edges, edge.source = row.source) ∧ row ∉ edges := by
  rw [probe_fresh]
  constructor
  · intro implied
    by_contra otherwise
    simp only [not_or, not_exists, not_and, not_not, Bool.not_eq_false] at otherwise
    obtain ⟨lost, ready, sources, forth, back⟩ := otherwise
    have same := implied ⟨ready, sources, forth, fun row member ⟨edge, inside, equal⟩ => back row member ⟨edge, inside, equal⟩⟩
    exact lost fun row member => ⟨row, (same row).mpr member, rfl⟩
  · rintro (occur | ready | ⟨edge, member, other⟩ | ⟨edge, member, absent⟩ | ⟨row, member, occurs, absent⟩) ⟨rises, sources, forth, back⟩
    · exact fun edge => ⟨forth edge, fun member => back edge member (occur edge member)⟩
    · exact absurd (ready.symm.trans rises) (by simp)
    · exact absurd (other.symm.trans (sources edge member)) (by simp)
    · exact absurd (forth edge member) absent
    · exact absurd (back row member occurs) absent

end

end Validator

/-- When the probe agrees with the projection: behind a rebuild of a workspace without errors, and whenever it says fresh. -/
theorem probe_agrees (validator : Validator) :
    (∀ workspace : Workspace, validator.issues workspace.files = [] →
      (validator.probe true (validator.canonicalEdges workspace.files) (validator.projectedEdges workspace.files) = some .fresh ↔
        (∀ edge ∈ validator.structuralEdges workspace.files ++ validator.unindexedEdges workspace.files,
          edge ∈ validator.projectedEdges workspace.files) ∧
        ∀ edge ∈ validator.unvalidatedEdges workspace.files,
          (∃ other ∈ validator.canonicalEdges workspace.files, other.source = edge.source) →
            edge ∈ validator.canonicalEdges workspace.files)) ∧
      ∀ ready edges rows, (validator.probe ready edges rows = some .fresh → ∀ edge, edge ∈ edges ↔ edge ∈ rows) ↔
        (∀ row ∈ rows, ∃ edge ∈ edges, edge.source = row.source) ∨ ready = false ∨
          (∃ edge ∈ edges, validator.projection.isLocalUri edge.source = false) ∨ (∃ edge ∈ edges, edge ∉ rows) ∨
          ∃ row ∈ rows, (∃ edge ∈ edges, edge.source = row.source) ∧ row ∉ edges :=
  ⟨fun _ valid => Validator.probe_rebuilt valid, fun _ _ _ => Validator.probe_exact⟩

/-! An observation that is derived from a report. -/

namespace Sample

def note : Bytes :=
  encodeUtf8 "---\n".toList ++ encodeUtf8 ("id: EVD-20260101-a-01#OBS-001\nkind: fact\nstatement: The service is slow.\nconfidence: high\n" ++
    "source:\n  ref: artifact://sha256/0000000000000000000000000000000000000000000000000000000000000000\n" ++
    "  locator:\n    type: whole_artifact\nderived_from:\n- https://example.org/report\n---\n").toList

def frontmatter : Frontmatter :=
  [("id", .string "EVD-20260101-a-01#OBS-001"), ("kind", .string "fact"), ("statement", .string "The service is slow."),
    ("confidence", .string "high"),
    ("source", .dict [(.string "ref", .string ("artifact://sha256/" ++ String.ofList (List.replicate 64 '0'))),
      (.string "locator", .dict [(.string "type", .string "whole_artifact")])]),
    ("derived_from", .list [.string "https://example.org/report"])]

def textsOf (raw : Frontmatter) (key : String) : List String :=
  match raw.get key with
  | some (.list items) => items.filterMap Yaml.text
  | _ => []

/-- The observation of a front matter with its members only. -/
def readObservation (raw : Frontmatter) : Option Observation :=
  if raw.all fun entry => observationMembers.contains entry.1 then
    (((raw.get "id").bind Yaml.text).filter isObservationId).map fun id =>
      ⟨id, "fact", "", "high", "", "whole_artifact", .null, none, none, none, (textsOf raw "derived_from").dedup, []⟩
  else none

theorem readObservation_made {raw : Frontmatter} {observation : Observation} (made : readObservation raw = some observation) :
    (∀ key, (raw.get key).isSome = true → key ∈ observationMembers) ∧ (raw.get "id").bind Yaml.text = some observation.id ∧
      isObservationId observation.id = true ∧ observation.related = [] ∧ ∀ values ∈ observation.lists, values.Nodup := by
  unfold readObservation at made
  split at made
  · next members =>
    obtain ⟨id, named, rfl⟩ := Option.map_eq_some_iff.mp made
    obtain ⟨named, valid⟩ := Option.filter_eq_some_iff.mp named
    refine ⟨?_, named, valid, rfl, ?_⟩
    · intro key present
      obtain ⟨value, found⟩ := Option.isSome_iff_exists.mp present
      exact contains_iff_mem.mp (all_eq_true.mp members (key, value) (Directory.mem_of_get found))
    · intro values member
      obtain rfl := mem_singleton.mp member
      exact nodup_dedup _
  · exact absurd made (by simp)

theorem parseUriText_scheme {value : String} {uri : WorkctxUri} (parsed : parseUriText value = some uri) :
    startsWith "workctx:" (String.ofList (lowered value.toList)) = true := by
  unfold parseUriText at parsed
  split at parsed
  · next scheme contextId entityType entityId split' =>
    split at parsed
    · next same =>
      have spelled : ['/'].intercalate (value.toList.splitOn '/') = value.toList := intercalate_splitOn _
      rw [split', same] at spelled
      unfold startsWith lowered
      rw [← spelled]
      simp [List.intercalate]
    · exact absurd parsed (by simp)
  · exact absurd parsed (by simp)

/-- The canonical references of the context, and those by `https`. -/
def durable (value : String) : Bool :=
  startsWith "https://" value || (parseUriText value).any fun uri => uriText uri == value && entityTypes.contains uri.entityType

theorem durable_canonical {value : String} {uri : WorkctxUri} (parsed : parseUriText value = some uri) (spelled : uriText uri = value)
    (typed : uri.entityType ∈ entityTypes) : durable value = true := by
  unfold durable
  rw [parsed, Option.any_some, spelled, beq_self_eq_true, contains_iff_mem.mpr typed, Bool.and_true, Bool.or_true]

def absent {α β : Type} (_ : α) : Option β := none

def models : Models where
  parseUri := parseUriText
  parse_uriText := @parseUriText_uriText
  frontmatter := fun _ => some frontmatter
  entity := absent
  task := absent
  entity_uri := fun _ _ => nofun
  task_uri := fun _ _ => nofun
  claim := absent
  claim_id := fun _ _ => nofun
  observation := absent
  standaloneObservation := readObservation
  observation_id := fun _ _ => nofun
  standaloneObservation_id := fun _ _ made => (readObservation_made made).2.2.1
  taskHead := fun _ => ⟨false, none, "", "P2", "ready", none, none, [], none, "", [], [], []⟩
  task_place := fun _ _ => nofun
  typedReference := absent
  entity_lists := fun _ _ => nofun
  task_lists := fun _ _ => nofun
  claim_lists := fun _ _ => nofun
  observation_lists := fun _ _ => nofun
  standaloneObservation_lists := fun _ _ made => (readObservation_made made).2.2.2.2
  typedReference_lists := fun _ _ => nofun
  durable := durable
  artifact := fun _ => absent
  encodes := fun _ => true
  encodes_ascii := fun _ _ => rfl
  jsonText := absent

def lower (text : List Char) : List Char := text.map Char.toLower

theorem lower_ascii (text : List Char) (_ : ∀ c ∈ text, c.toNat < 128) : lower text = text.map Char.toLower := rfl

def validator : Validator where
  projection := ⟨models, "demo"⟩
  casefold := lower
  casefold_ascii := lower_ascii
  structured := fun _ _ => none
  manifest := fun _ => none
  entityIdIsValid := fun _ => true
  referencePayload := fun _ => none
  otherIssues := fun _ => []
  typedReference_payload := fun _ _ _ => nofun
  typedReference_of_payload := fun _ _ made => absurd made (by simp)
  typedReference_durable := fun _ _ => nofun
  observation_durable := fun _ _ => nofun
  standalone_durable := by
    intro raw observation made reference member
    rw [(readObservation_made made).2.2.2.1] at member
    exact absurd member (by simp)
  entity_references := fun _ _ => nofun
  task_references := fun _ _ => nofun
  task_head := fun _ _ => nofun
  claim_members := fun _ _ => nofun
  observation_members := fun _ _ made => (readObservation_made made).1
  observation_own := fun _ _ made => (readObservation_made made).2.1
  claim_own := fun _ _ => nofun
  entity_typed := fun _ _ => nofun
  task_typed := fun _ _ => nofun
  parseUri_scheme := fun _ _ parsed => parseUriText_scheme parsed
  durable_workctx := fun _ _ parsed spelled typed => durable_canonical parsed spelled typed
  claim_subject := fun _ _ => nofun
  claim_observations := fun _ _ => nofun
  manifest_members := fun _ _ made => absurd made (by simp)

def workspace : Workspace where
  files := [("02_knowledge/EVD-20260101-a-01%23OBS-001.md", note)]
  apart := by simp

theorem valid : validator.issues workspace.files = [] := by decide +kernel

end Sample

/-- The derivation of an observation is no row of the projection; and rows without canonical edges are not seen. -/
theorem derivation_mismatch : Sample.validator.issues Sample.workspace.files = [] ∧
    Sample.validator.probe true (Sample.validator.canonicalEdges Sample.workspace.files)
      (Sample.validator.projectedEdges Sample.workspace.files) = some .backlinkMismatch ∧
    Sample.validator.probe true [] [⟨"workctx://demo/person/ana", "mentions", "https://example.org/report"⟩] = some .fresh := by
  refine ⟨Sample.valid, ?_, ?_⟩
  · decide +kernel
  · decide +kernel

theorem probe_agrees_sample :
    Sample.validator.probe true (Sample.validator.canonicalEdges Sample.workspace.files)
      (Sample.validator.projectedEdges Sample.workspace.files) ≠ some .fresh ↔
    ¬((∀ edge ∈ Sample.validator.structuralEdges Sample.workspace.files ++ Sample.validator.unindexedEdges Sample.workspace.files,
        edge ∈ Sample.validator.projectedEdges Sample.workspace.files) ∧
      ∀ edge ∈ Sample.validator.unvalidatedEdges Sample.workspace.files,
        (∃ other ∈ Sample.validator.canonicalEdges Sample.workspace.files, other.source = edge.source) →
          edge ∈ Sample.validator.canonicalEdges Sample.workspace.files) :=
  not_congr ((probe_agrees Sample.validator).1 Sample.workspace Sample.valid)

end Workctx.Graph
