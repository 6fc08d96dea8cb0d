import Workctx.Graph.Probe
import Workctx.Owners.Building

/-! Which documents of a valid workspace the projection parses. -/

namespace Workctx.Graph
open Workctx.Text Workctx.Concurrent Workctx.Domain Workctx.Migration Workctx.Owners List

/-! The identifiers of claims and observations are segments of a URI. -/

def isSegment (c : Char) : Prop := c ≠ '/' ∧ c ≠ '\\'

variable {text : List Char} {id : String}

theorem segment_of_digits {count : Nat} (digits : isDigits count text = true) : ∀ c ∈ text, isSegment c := by
  unfold isDigits at digits
  rw [Bool.and_eq_true, all_eq_true] at digits
  intro c member
  have digit := digits.2 c member
  constructor
  · rintro rfl
    exact absurd digit (by decide)
  · rintro rfl
    exact absurd digit (by decide)

theorem segment_of_slug (slug : matchesSlug text = true) : ∀ c ∈ text, isSegment c := by
  intro c member
  have plain := (matchesSlug_chars slug).1 c member
  constructor
  · rintro rfl
    exact absurd plain (by decide)
  · rintro rfl
    exact absurd plain (by decide)

theorem segment_of_pieces (first second : Nat) (front : ∀ c ∈ text.take first, isSegment c)
    (middle : ∀ c ∈ (text.drop first).take second, isSegment c) (back : ∀ c ∈ text.drop (first + second), isSegment c) :
    ∀ c ∈ text, isSegment c := by
  intro c member
  rw [← take_append_drop first text, mem_append] at member
  rcases member with early | late
  · exact front c early
  · rw [← take_append_drop second (text.drop first), mem_append, drop_drop] at late
    exact late.elim (middle c) (back c)

theorem segment_of_claimId (valid : isClaimId id = true) : ∀ c ∈ id.toList, isSegment c := by
  unfold isClaimId isNumbered at valid
  dsimp only at valid
  simp only [Bool.and_eq_true, beq_iff_eq] at valid
  obtain ⟨tag, ⟨year, hyphen⟩, number⟩ := valid
  obtain ⟨rest, spelled⟩ := isPrefixOf_iff_prefix.mp tag
  have body : id.toList.drop "CLM-".length = rest := by
    rw [← spelled]
    exact drop_left' rfl
  rw [body] at year hyphen number
  have inner := segment_of_pieces 4 1 (segment_of_digits year) (by rw [hyphen]; simp [isSegment]) (segment_of_digits number)
  intro c member
  rw [← spelled, mem_append] at member
  rcases member with first | later
  · have letters : ∀ c ∈ "CLM-".toList, isSegment c := by simp [isSegment]
    exact letters c first
  · exact inner c later

theorem segment_of_observationId (valid : isObservationId id = true) : ∀ c ∈ id.toList, isSegment c := by
  unfold isObservationId at valid
  dsimp only at valid
  rw [Bool.and_eq_true, Bool.and_eq_true] at valid
  obtain ⟨⟨dated, mark⟩, number⟩ := valid
  unfold matchesDatedSequence at dated
  dsimp only at dated
  simp only [Bool.and_eq_true, beq_iff_eq] at dated
  obtain ⟨tag, ⟨⟨⟨day, hyphen⟩, segments⟩, _⟩, _⟩ := dated
  have taken : id.toList.take (id.toList.takeWhile (· != '#')).length = id.toList.takeWhile (· != '#') :=
    (prefix_iff_eq_take.mp (List.takeWhile_prefix _)).symm
  refine segment_of_pieces (id.toList.takeWhile (· != '#')).length 5 ?_ ?_ ?_
  · rw [taken]
    obtain ⟨rest, spelled⟩ := isPrefixOf_iff_prefix.mp tag
    have body : (id.toList.takeWhile (· != '#')).drop "EVD-".toList.length = rest := by
      rw [← spelled]
      exact drop_left' rfl
    rw [body] at day hyphen segments
    have inner := segment_of_pieces 8 1 (segment_of_digits day) (by rw [hyphen]; simp [isSegment]) (segment_of_slug segments)
    intro c member
    rw [← spelled, mem_append] at member
    rcases member with first | later
    · have letters : ∀ c ∈ "EVD-".toList, isSegment c := by simp [isSegment]
      exact letters c first
    · exact inner c later
  · obtain ⟨rest, spelled⟩ := isPrefixOf_iff_prefix.mp mark
    have letters : ∀ c ∈ "#OBS-".toList, isSegment c := by simp [isSegment]
    have front : ("#OBS-".toList ++ rest).take 5 = "#OBS-".toList := take_left' rfl
    rw [← spelled, front]
    exact letters
  · rw [← drop_drop]
    exact segment_of_digits number

theorem recordUri_made_of {contextId entityType : String} (context : matchesSlug contextId.toList = true)
    (typed : matchesSlug entityType.toList = true) (segment : ∀ c ∈ id.toList, isSegment c) (tag : String)
    (tagged : startsWith tag id = true) (long : 3 ≤ tag.toList.length) :
    recordUri contextId entityType id = some (uriText ⟨contextId, entityType, id⟩) := by
  have length : 3 ≤ id.toList.length := long.trans (List.isPrefixOf_iff_prefix.mp tagged).length_le
  have short : ∀ other : String, other.toList.length < 3 → id ≠ other := by
    rintro other bound rfl
    omega
  have plain : (id.toList.any fun c => c == '/' || c == '\\') = false := by
    rw [any_eq_false]
    intro c member
    obtain ⟨slash, backslash⟩ := segment c member
    simp [slash, backslash]
  unfold recordUri
  rw [if_pos]
  unfold validUri
  rw [context, typed, plain]
  simp [short "" (by decide), short "." (by decide), short ".." (by decide)]

theorem claimUri_made {contextId id : String} (context : matchesSlug contextId.toList = true) (valid : isClaimId id = true) :
    recordUri contextId "claim" id = some (uriText ⟨contextId, "claim", id⟩) := by
  refine recordUri_made_of context (by decide) (segment_of_claimId valid) "CLM-" ?_ (by decide)
  unfold isClaimId isNumbered at valid
  exact (Bool.and_eq_true_iff.mp valid).1

theorem observationUri_made {contextId : String} (context : matchesSlug contextId.toList = true) (valid : isObservationId id = true) :
    recordUri contextId "observation" id = some (uriText ⟨contextId, "observation", id⟩) :=
  recordUri_made_of context (by decide) (segment_of_observationId valid) "EVD-" (Validator.startsWith_observation valid) (by decide)

theorem occursIn_observation (valid : isObservationId id = true) : occursIn "#OBS-" id = true := by
  unfold isObservationId at valid
  dsimp only at valid
  rw [Bool.and_eq_true, Bool.and_eq_true] at valid
  refine any_eq_true.mpr ⟨_, ?_, valid.1.2⟩
  rw [mem_tails]
  exact drop_suffix _ _

namespace Validator
variable (validator : Validator)

/-! What the validator leaves open. -/

/-- The observations that a reference is made from are named by URIs of observations. -/
def TypedSources (reference : Reference) : Prop :=
  ∀ value ∈ reference.sourceObservations, ∃ uri, validator.models.parseUri value = some uri ∧ uri.entityType = "observation"

/-- The observations within an entity: those of evidence are validated, and those of other entities are not. -/
def Embeds (head : EntityHead) (raw : Frontmatter) : Prop :=
  if head.entityType = "evidence" then
    raw.get "observations" ≠ some .null ∧ ∀ observation, .observation observation ∈ (validator.validateEmbedded head.id raw).2 →
      ∀ reference ∈ observation.related, validator.TypedSources reference
  else ∃ observations, embeddedObservations validator.models head raw = some observations ∧
    (∀ observation ∈ observations, validator.projection.localObservation observation = true) ∧
    (head.id :: observations.map Observation.id).Nodup

/-- Whether the projection parses a document that the validator has accepted. -/
def Projectable (raw : Frontmatter) : Model → Prop
  | .entity head references => (∀ reference ∈ references, validator.TypedSources reference) ∧ validator.Embeds head raw
  | .task head references _ => (∀ reference ∈ references, validator.TypedSources reference) ∧ validator.Embeds head raw ∧
      validator.projection.localTask (validator.models.taskHead raw) = true
  | .claim _ => True
  | .artifact _ => False
  | .observation observation => ∀ reference ∈ observation.related, validator.TypedSources reference

variable {validator : Validator}

/-! References. -/

theorem localReference_iff {reference : Reference} (silent : ∀ value ∈ valuesOf [reference], validator.checkReference value = []) :
    validator.projection.localReference reference = true ↔ validator.TypedSources reference := by
  unfold valuesOf at silent
  rw [flatMap_singleton, forall_mem_cons] at silent
  unfold Projection.localReference
  rw [checkReference_silent silent.1, Bool.true_and, all_eq_true]
  refine forall₂_congr fun value member => ?_
  have inContext := checkReference_silent (silent.2 value member)
  unfold Projection.isLocalObservation
  rw [Option.any_eq_true]
  constructor
  · rintro ⟨uri, parsed, typed⟩
    exact ⟨uri, parsed, beq_iff_eq.mp (Bool.and_eq_true_iff.mp typed).2⟩
  · rintro ⟨uri, parsed, typed⟩
    have own := isLocalUri_of_reference inContext parsed
    unfold Projection.isLocalUri at own
    have found : validator.projection.models.parseUri value = some uri := parsed
    rw [found, Option.any_some] at own
    exact ⟨uri, parsed, Bool.and_eq_true_iff.mpr ⟨own, beq_iff_eq.mpr typed⟩⟩

theorem silent_of_values {references : List Reference} (silent : ∀ value ∈ valuesOf references, validator.checkReference value = []) :
    ∀ reference ∈ references, ∀ value ∈ valuesOf [reference], validator.checkReference value = [] := by
  intro reference member value inside
  unfold valuesOf at inside
  rw [flatMap_singleton] at inside
  exact silent value (mem_flatMap.mpr ⟨reference, member, inside⟩)

theorem localObservation_iff {observation : Observation}
    (silent : ∀ value ∈ referenceValues (.observation observation), validator.checkReference value = []) :
    validator.projection.localObservation observation = true ↔ ∀ reference ∈ observation.related, validator.TypedSources reference := by
  have parts : (∀ value ∈ observation.derivedFrom, validator.checkReference value = []) ∧
      ∀ value ∈ valuesOf observation.related, validator.checkReference value = [] := forall_mem_append.mp silent
  have derived : observation.derivedFrom.all validator.projection.isLocalReference = true :=
    all_eq_true.mpr fun value member => checkReference_silent (parts.1 value member)
  unfold Projection.localObservation
  rw [derived, Bool.true_and, all_eq_true]
  exact forall₂_congr fun reference member => localReference_iff (silent_of_values parts.2 reference member)

theorem mapM_filterMap {α β : Type} {items : List α} {read : α → Option β} (other : α → Option β)
    (each : ∀ item ∈ items, ∃ result, other item = some result ∧ read item = some result) :
    items.mapM read = some (items.filterMap other) := by
  induction items with
  | nil => rfl
  | cons item rest ih =>
    rw [forall_mem_cons] at each
    obtain ⟨⟨result, also, here⟩, others⟩ := each
    rw [mapM_cons, here, ih others, filterMap_cons_some also]
    rfl

theorem parseEntityReferences_iff {raw : Frontmatter} (accepted : ∃ items, (raw.get "references").getD (.list []) = .list items ∧
      ∀ item ∈ items, (validator.referencePayload item).isSome = true)
    (silent : ∀ value ∈ valuesOf (validator.payloads raw), validator.checkReference value = []) :
    (∃ references, validator.projection.parseEntityReferences raw = some references) ↔
      ∀ reference ∈ validator.payloads raw, validator.TypedSources reference := by
  obtain ⟨items, listed, each⟩ := accepted
  have spelled : validator.payloads raw = items.filterMap validator.referencePayload := by
    unfold payloads
    rw [listed]
  have typed : items.mapM validator.projection.models.typedReference = some (items.filterMap validator.referencePayload) := by
    refine mapM_filterMap _ fun item member => ?_
    obtain ⟨payload, read⟩ := Option.isSome_iff_exists.mp (each item member)
    refine ⟨payload, read, validator.typedReference_of_payload item payload read ?_⟩
    have own : payload ∈ validator.payloads raw := spelled ▸ mem_filterMap.mpr ⟨item, member, read⟩
    have target := checkReference_silent (silent payload.target (mem_flatMap.mpr ⟨payload, own, mem_cons_self⟩))
    exact (Bool.and_eq_true_iff.mp target).1
  have references : (validator.payloads raw).all validator.projection.localReference = true ↔
      ∀ reference ∈ validator.payloads raw, validator.TypedSources reference := by
    rw [all_eq_true]
    exact forall₂_congr fun reference member => localReference_iff (silent_of_values silent reference member)
  rw [← references, spelled]
  unfold Projection.parseEntityReferences
  rw [listed]
  dsimp only
  rw [typed]
  constructor
  · rintro ⟨made, read⟩
    obtain ⟨same, kept⟩ := Option.filter_eq_some_iff.mp read
    cases same
    exact kept
  · intro kept
    exact ⟨_, Option.filter_eq_some_iff.mpr ⟨rfl, kept⟩⟩

/-! Kinds. -/

/-- What a document that is validated as this model is. -/
inductive Form (validator : Validator) (raw : Frontmatter) : Model → Prop
  | entity (value : Yaml) (head : EntityHead) (typed : raw.get "entity_type" = some value) (present : value ≠ .null)
    (other : value.text ≠ some "task") (accepted : validator.models.entity raw = some head) :
    Form validator raw (.entity head (validator.payloads raw))
  | task (value : Yaml) (head : EntityHead) (relations : List String) (typed : raw.get "entity_type" = some value)
    (own : value.text = some "task") (accepted : validator.models.task raw = some head) :
    Form validator raw (.task head (validator.payloads raw) relations)
  | claim (claim : ClaimHead) (accepted : validator.models.claim raw = some claim) : Form validator raw (.claim claim)
  | artifact (id : String) (untyped : raw.get "entity_type" = none) (kind : untypedKind raw = some .artifact) :
    Form validator raw (.artifact id)
  | observation (observation : Observation) (accepted : validator.models.standaloneObservation raw = some observation) :
    Form validator raw (.observation observation)

theorem form_of_validate {path : String} {raw : Frontmatter} {model : Model}
    (made : validator.validate ⟨path, raw, (documentKind raw).getD .entity⟩ = some model) : Form validator raw model := by
  cases kind : (documentKind raw).getD .entity with
  | task =>
    rw [kind] at made
    obtain ⟨head, accepted, rfl⟩ := Option.map_eq_some_iff.mp made
    have named := validator.task_typed raw head accepted
    obtain ⟨value, found, typed⟩ := Option.bind_eq_some_iff.mp named
    rw [validator.task_head raw head accepted] at typed
    exact .task value head _ found typed accepted
  | entity =>
    rw [kind] at made
    obtain ⟨head, accepted, rfl⟩ := Option.map_eq_some_iff.mp made
    have accepted := (Option.filter_eq_some_iff.mp accepted).1
    obtain ⟨value, found, typed⟩ := Option.bind_eq_some_iff.mp (validator.entity_typed raw head accepted)
    have present : value ≠ .null := by
      rintro rfl
      exact absurd typed (by simp [Yaml.text])
    refine .entity value head found present ?_ accepted
    intro task
    have typed : (raw.get "entity_type").getD .null = value := by rw [found]; rfl
    have known := (documentKind_typed typed present).2
    rw [known, Option.getD_some] at kind
    unfold typedKind at kind
    rw [if_pos task] at kind
    exact absurd kind (by simp)
  | claim =>
    rw [kind] at made
    obtain ⟨claim, accepted, rfl⟩ := Option.map_eq_some_iff.mp made
    exact .claim claim accepted
  | observation =>
    rw [kind] at made
    obtain ⟨observation, accepted, rfl⟩ := Option.map_eq_some_iff.mp made
    exact .observation observation accepted
  | artifact =>
    rw [kind] at made
    obtain ⟨id, accepted, rfl⟩ := Option.map_eq_some_iff.mp made
    have untyped := validator.manifest_members raw id accepted
    refine .artifact id untyped ?_
    unfold documentKind at kind
    rw [untyped] at kind
    cases known : untypedKind raw with
    | none =>
      rw [Option.getD_none, known] at kind
      exact absurd kind (by simp)
    | some other =>
      rw [Option.getD_none, known] at kind
      rw [show other = .artifact from kind]

/-! The records that the projection reads. -/

section
variable {raw : Frontmatter}

theorem readRecord_claim {claim : ClaimHead} (accepted : validator.models.claim raw = some claim) :
    readRecord validator.models raw = some ⟨none, none, some claim, []⟩ := by
  have untyped : raw.get "entity_type" = none := by
    have absent := member_absent (validator.claim_members raw claim accepted) "entity_type" (by decide)
    exact Option.isNone_iff_eq_none.mp (Option.isSome_eq_false_iff.mp absent)
  have tagged : "CLM-".toList.isPrefixOf claim.id.toList = true := by
    have valid := validator.projection.models.claim_id raw claim accepted
    unfold isClaimId isNumbered at valid
    exact (Bool.and_eq_true_iff.mp valid).1
  unfold readRecord
  rw [untyped, Option.getD_none]
  dsimp only
  rw [validator.claim_own raw claim accepted]
  dsimp only
  rw [if_pos tagged, accepted]
  rfl

theorem readRecord_observation {observation : Observation} (accepted : validator.models.standaloneObservation raw = some observation) :
    readRecord validator.models raw = some ⟨none, none, none, [observation]⟩ := by
  have valid := validator.projection.models.standaloneObservation_id raw observation accepted
  have untyped : raw.get "entity_type" = none := by
    have absent := member_absent (validator.observation_members raw observation accepted) "entity_type" (by decide)
    exact Option.isNone_iff_eq_none.mp (Option.isSome_eq_false_iff.mp absent)
  have apart : "CLM-".toList.isPrefixOf observation.id.toList = false :=
    startsWith_apart (c := 'E') (d := 'C') (by decide) (by decide) (by decide) (startsWith_observation valid)
  have marked : (observation.id.toList.tails.any fun rest => "#OBS-".toList.isPrefixOf rest) = true := occursIn_observation valid
  unfold readRecord
  rw [untyped, Option.getD_none]
  dsimp only
  rw [validator.observation_own raw observation accepted]
  dsimp only
  rw [if_neg (by rw [apart]; simp), if_pos marked, accepted]
  rfl

theorem readRecord_artifact (untyped : raw.get "entity_type" = none) (kind : untypedKind raw = some .artifact) :
    readRecord validator.models raw = none := by
  cases made : readRecord validator.models raw with
  | none => rfl
  | some record =>
    exfalso
    unfold readRecord at made
    rw [untyped, Option.getD_none] at made
    dsimp only at made
    split at made
    · exact absurd made (by simp)
    · next id named =>
      split at made
      · next tagged =>
        obtain ⟨claim, accepted, _⟩ := Option.map_eq_some_iff.mp made
        rw [untypedKind_claim named tagged accepted] at kind
        exact absurd kind (by simp)
      · split at made
        · next marked =>
          obtain ⟨observation, accepted, _⟩ := Option.map_eq_some_iff.mp made
          rw [untypedKind_observation named marked accepted] at kind
          exact absurd kind (by simp)
        · exact absurd made (by simp)

theorem readRecord_of_typed {value : Yaml} {record : Record} (typed : raw.get "entity_type" = some value) (present : value ≠ .null) :
    readRecord validator.models raw = some record ↔ ∃ head observations, readHead validator.models value raw = some head ∧
      embeddedObservations validator.models head raw = some observations ∧
      record = ⟨some head, if value.text = some "task" then some (validator.models.taskHead raw) else none, none, observations⟩ := by
  unfold readRecord
  rw [typed, Option.getD_some]
  split
  · exact absurd rfl present
  · constructor
    · intro made
      obtain ⟨head, read, more⟩ := Option.bind_eq_some_iff.mp made
      obtain ⟨observations, embedded, done⟩ := Option.bind_eq_some_iff.mp more
      exact ⟨head, observations, read, embedded, (Option.some.inj done).symm⟩
    · rintro ⟨head, observations, read, embedded, rfl⟩
      exact Option.bind_eq_some_iff.mpr ⟨head, read, Option.bind_eq_some_iff.mpr ⟨observations, embedded, rfl⟩⟩

end

/-! Parsing. -/

structure Accepts (validator : Validator) (files : Files) (path : String) (content : Bytes) (raw : Frontmatter) (model : Model) : Prop where
  member : (path, content) ∈ files
  indexed : isIndexedPath path = true
  validated : validator.isValidated path content = true
  read : validator.models.frontmatter content = some raw
  made : validator.validate ⟨path, raw, (documentKind raw).getD .entity⟩ = some model

section
variable {files : Files} {path : String} {content : Bytes} {raw : Frontmatter} {model : Model}

section
variable (accepts : Accepts validator files path content raw model)
include accepts

theorem Accepts.document :
    ⟨path, raw, (documentKind raw).getD .entity⟩ ∈ validator.documents files :=
  isValidated_document accepts.member accepts.validated accepts.read

section
variable (valid : validator.issues files = [])
include valid

theorem Accepts.models :
    (validator.validateDocument ⟨path, raw, (documentKind raw).getD .entity⟩).2 = model :: embeddedIn validator raw model := by
  obtain ⟨other, made, models⟩ := validateDocument_silent ((issues_silent valid).validated _ accepts.document)
  obtain rfl := Option.some.inj (accepts.made.symm.trans made)
  exact models

theorem Accepts.silent
    {other : Model} (own : other ∈ model :: embeddedIn validator raw model) :
    ∀ value ∈ referenceValues other, validator.checkReference value = [] :=
  (issues_silent valid).references (path, other)
    (mem_records.mpr ⟨_, accepts.document, rfl, by rw [accepts.models valid]; exact own⟩)

theorem Accepts.identities :
    ((model :: embeddedIn validator raw model).filterMap validator.identity).Nodup := by
  have distinct := (issues_silent valid).identities
  unfold records at distinct
  rw [filterMap_flatMap, nodup_flatMap] at distinct
  have own := distinct.1 _ accepts.document
  rw [filterMap_map, accepts.models valid] at own
  exact own

end

end

theorem parses_iff (context : matchesSlug validator.contextId.toList = true) (read : validator.models.frontmatter content = some raw)
    {record : Record} (recorded : readRecord validator.models raw = some record) :
    (∃ document, validator.projection.parseDocument path content = some document) ↔
      (∃ references, validator.projection.parseReferences raw record = some references) ∧
        validator.projection.localRecord record = true ∧
        (record.entity.toList.map EntityHead.id ++ record.claim.toList.map ClaimHead.id ++ record.observations.map Observation.id).Nodup := by
  have typed := readRecord_typed recorded
  have identities : ∃ identities, record.identities validator.contextId = some identities := by
    have claims : ∃ pairs, (record.claim.toList.mapM fun claim =>
        (recordUri validator.contextId "claim" claim.id).map fun uri => (claim.id, uri)) = some pairs := by
      refine ⟨_, mapM_filterMap (fun claim => (recordUri validator.contextId "claim" claim.id).map fun uri => (claim.id, uri)) ?_⟩
      intro claim member
      rw [claimUri_made context (typed.claim claim (Option.mem_toList.mp member))]
      exact ⟨_, rfl, rfl⟩
    have observations : ∃ pairs, (record.observations.mapM fun observation =>
        (recordUri validator.contextId "observation" observation.id).map fun uri => (observation.id, uri)) = some pairs := by
      refine ⟨_, mapM_filterMap (fun observation =>
        (recordUri validator.contextId "observation" observation.id).map fun uri => (observation.id, uri)) ?_⟩
      intro observation member
      rw [observationUri_made context (typed.observations observation member)]
      exact ⟨_, rfl, rfl⟩
    obtain ⟨first, claimed⟩ := claims
    obtain ⟨second, observed⟩ := observations
    refine ⟨(record.entity.toList.map fun head => (head.id, head.uri)) ++ first ++ second, ?_⟩
    unfold Record.identities
    rw [claimed, observed]
    rfl
  obtain ⟨identities, named⟩ := identities
  have ids := (identities_parts named).1
  constructor
  · rintro ⟨document, made⟩
    obtain ⟨raw', parsed⟩ := Projection.parseDocument_iff.mp made
    obtain rfl := Option.some.inj (read.symm.trans parsed.read)
    have same : record = document.record := Option.some.inj (recorded.symm.trans parsed.record)
    subst same
    have equal : identities = document.identities := Option.some.inj (named.symm.trans parsed.identities)
    subst equal
    exact ⟨⟨_, parsed.references⟩, parsed.inContext, ids ▸ parsed.apart⟩
  · rintro ⟨⟨references, referred⟩, inContext, apart⟩
    exact ⟨⟨path, record, references, identities⟩,
      Projection.parseDocument_iff.mpr ⟨raw, rfl, read, recorded, referred, named, inContext, ids ▸ apart⟩⟩

variable {head : EntityHead}

/-- The observations within evidence without errors are those that the projection reads. -/
theorem embedded_of_silent (silent : (validator.validateEmbedded head.id raw).1 = [])
    (present : raw.get "observations" ≠ some .null) : ∃ observations, embeddedObservations validator.models head raw = some observations := by
  unfold validateEmbedded at silent
  unfold embeddedObservations
  cases found : raw.get "observations" with
  | none => exact ⟨[], rfl⟩
  | some value =>
    rw [found] at silent present
    cases value with
    | null => exact absurd rfl present
    | list items =>
      refine ⟨_, mapM_filterMap validator.models.observation ?_⟩
      intro item member
      have clear := flatMap_eq_nil_iff.mp silent item member
      cases read : validator.models.observation item with
      | none =>
        rw [read] at clear
        exact absurd clear (by simp)
      | some observation =>
        rw [read] at clear
        dsimp only at clear
        split at clear
        · next tagged =>
          refine ⟨observation, rfl, Option.filter_eq_some_iff.mpr ⟨rfl, ?_⟩⟩
          rw [tagged, Bool.or_true]
        · exact absurd clear (by simp)
    | _ => exact absurd silent (by simp)

theorem evidence_ids (context : matchesSlug validator.contextId.toList = true) (references : List Reference)
    {observations : List Observation} (evidence : head.entityType = "evidence")
    (embedded : embeddedObservations validator.models head raw = some observations)
    (distinct : ((Model.entity head references :: observations.map Model.observation).filterMap validator.identity).Nodup) :
    (head.id :: observations.map Observation.id).Nodup := by
  have facts : ∀ observation ∈ observations, isObservationId observation.id = true ∧
      (head.id ++ "#OBS-").toList.isPrefixOf observation.id.toList = true := by
    intro observation member
    unfold embeddedObservations at embedded
    split at embedded
    · obtain ⟨item, _, accepted⟩ := (mapM_some_mem embedded).1 observation member
      obtain ⟨read, tagged⟩ := Option.filter_eq_some_iff.mp accepted
      rw [evidence] at tagged
      exact ⟨validator.projection.models.observation_id _ _ read, by simpa using tagged⟩
    · exact absurd embedded (by simp)
  refine nodup_cons.mpr ⟨?_, ?_⟩
  · intro member
    obtain ⟨observation, own, same⟩ := mem_map.mp member
    have length := (List.isPrefixOf_iff_prefix.mp (facts observation own).2).length_le
    rw [same, String.toList_append, length_append] at length
    have mark : "#OBS-".toList.length = 5 := rfl
    omega
  · rw [filterMap_cons, filterMap_map] at distinct
    have uris : observations.filterMap (validator.identity ∘ Model.observation) =
        (observations.map Observation.id).map fun id => uriText ⟨validator.contextId, "observation", id⟩ := by
      rw [map_map, ← filterMap_eq_map]
      refine filterMap_congr fun observation member => ?_
      exact observationUri_made context (facts observation member).1
    rw [uris] at distinct
    exact List.Nodup.of_map _ (nodup_cons.mp distinct).2

theorem entity_parses (accepts : Accepts validator files path content raw model) (valid : validator.issues files = [])
    (context : matchesSlug validator.contextId.toList = true) {value : Yaml}
    (typed : raw.get "entity_type" = some value) (present : value ≠ .null) (own : readHead validator.models value raw = some head)
    (nested : embeddedIn validator raw model = if head.entityType = "evidence" then (validator.validateEmbedded head.id raw).2 else [])
    (values : referenceValues model = head.uri :: valuesOf (validator.payloads raw)) (identity : validator.identity model = some head.uri)
    (errors : head.entityType = "evidence" → (validator.validateEmbedded head.id raw).1 = [])
    (referred : ∃ items, (raw.get "references").getD (.list []) = .list items ∧
      ∀ item ∈ items, (validator.referencePayload item).isSome = true)
    (address : ∃ contextId entityType, validUri ⟨contextId, entityType, head.id⟩ = true ∧ head.uri = uriText ⟨contextId, entityType, head.id⟩) :
    (∃ document, validator.projection.parseDocument path content = some document) ↔
      (∀ reference ∈ validator.payloads raw, validator.TypedSources reference) ∧ validator.Embeds head raw ∧
        (value.text = some "task" → validator.projection.localTask (validator.models.taskHead raw) = true) := by
  have silent := accepts.silent valid (mem_cons_self (a := model))
  rw [values, forall_mem_cons] at silent
  have references := parseEntityReferences_iff referred silent.2
  have headLocal := head_local address silent.1
  have tasks : (if value.text = some "task" then some (validator.models.taskHead raw) else none).all validator.projection.localTask = true ↔
      (value.text = some "task" → validator.projection.localTask (validator.models.taskHead raw) = true) := by
    split
    · next task => simp [task]
    · next other => simp [other]
  -- The embedded observations, as the projection reads them.
  have embeds : validator.Embeds head raw ↔ ∃ observations, embeddedObservations validator.models head raw = some observations ∧
      (∀ observation ∈ observations, validator.projection.localObservation observation = true) ∧
      (head.id :: observations.map Observation.id).Nodup := by
    unfold Embeds
    split
    · next evidence =>
      rw [if_pos evidence] at nested
      have agree : ∀ observations, embeddedObservations validator.models head raw = some observations →
          ((∀ observation, .observation observation ∈ (validator.validateEmbedded head.id raw).2 →
            ∀ reference ∈ observation.related, validator.TypedSources reference) ↔
          ∀ observation ∈ observations, validator.projection.localObservation observation = true) := by
        intro observations embedded
        have same := embedded_eq embedded
        have each : ∀ observation ∈ observations, (validator.projection.localObservation observation = true ↔
            ∀ reference ∈ observation.related, validator.TypedSources reference) := by
          intro observation member
          refine localObservation_iff (accepts.silent valid ?_)
          rw [nested, same]
          exact mem_cons_of_mem _ (mem_map_of_mem member)
        rw [same]
        constructor
        · exact fun all observation member => (each observation member).mpr (all observation (mem_map_of_mem member))
        · intro all observation member
          obtain ⟨other, inside, equal⟩ := mem_map.mp member
          obtain rfl := Model.observation.inj equal
          exact (each other inside).mp (all other inside)
      constructor
      · rintro ⟨listed, typed⟩
        obtain ⟨observations, embedded⟩ := embedded_of_silent (errors evidence) listed
        refine ⟨observations, embedded, (agree observations embedded).mp typed, ?_⟩
        have distinct := accepts.identities valid
        rw [nested, embedded_eq embedded, filterMap_cons, identity] at distinct
        exact evidence_ids context [] evidence embedded distinct
      · rintro ⟨observations, embedded, locals, _⟩
        refine ⟨?_, (agree observations embedded).mpr locals⟩
        intro null
        unfold embeddedObservations at embedded
        rw [null] at embedded
        exact absurd embedded (by simp)
    · exact Iff.rfl
  rw [embeds]
  constructor
  · rintro ⟨document, made⟩
    obtain ⟨raw', parsed⟩ := Projection.parseDocument_iff.mp made
    obtain rfl := Option.some.inj (accepts.read.symm.trans parsed.read)
    obtain ⟨head', observations, read, embedded, same⟩ := (readRecord_of_typed typed present).mp parsed.record
    obtain rfl := Option.some.inj (own.symm.trans read)
    have facts := (parses_iff context accepts.read parsed.record).mp ⟨document, made⟩
    rw [same] at facts
    obtain ⟨refs, inContext, ids⟩ := facts
    unfold Projection.localRecord at inContext
    simp only [Bool.and_eq_true] at inContext
    refine ⟨references.mp refs, ⟨observations, embedded, all_eq_true.mp inContext.1.2, by simpa using ids⟩, ?_⟩
    exact tasks.mp inContext.1.1.1
  · rintro ⟨sources, ⟨observations, embedded, locals, ids⟩, task⟩
    have recorded := (readRecord_of_typed typed present).mpr ⟨head, observations, own, embedded, rfl⟩
    refine (parses_iff context accepts.read recorded).mpr ⟨references.mpr sources, ?_, by simpa using ids⟩
    unfold Projection.localRecord
    simp only [Bool.and_eq_true]
    refine ⟨⟨⟨tasks.mpr task, rfl⟩, all_eq_true.mpr locals⟩, ?_⟩
    simpa using headLocal

theorem Accepts.parses (accepts : Accepts validator files path content raw model) (valid : validator.issues files = [])
    (context : matchesSlug validator.contextId.toList = true) :
    (∃ document, validator.projection.parseDocument path content = some document) ↔ validator.Projectable raw model := by
  have made := accepts.made
  have clear := (issues_silent valid).validated _ accepts.document
  have silent := accepts.silent valid (mem_cons_self (a := model))
  have form := form_of_validate made
  cases form with
  | entity value head typed present other accepted =>
    have own : readHead validator.models value raw = some head := by
      unfold readHead
      rw [if_neg other]
      exact accepted
    have errors : head.entityType = "evidence" → (validator.validateEmbedded head.id raw).1 = [] := by
      intro evidence
      unfold validateDocument at clear
      rw [made] at clear
      dsimp only at clear
      rw [if_pos evidence] at clear
      exact clear
    rw [entity_parses accepts valid context typed present own rfl rfl rfl errors (validator.entity_references raw head accepted)
      (address_of_validate made (.inl ⟨_, rfl⟩))]
    unfold Projectable
    exact and_congr_right fun _ => and_iff_left fun task => absurd task other
  | task value head relations typed task accepted =>
    have present : value ≠ .null := by
      rintro rfl
      exact absurd task (by simp [Yaml.text])
    have own : readHead validator.models value raw = some head := by
      unfold readHead
      rw [if_pos task]
      exact accepted
    have kind : head.entityType ≠ "evidence" := by
      rw [validator.task_head raw head accepted]
      decide
    rw [entity_parses accepts valid context typed present own (by rw [if_neg kind]; rfl) rfl rfl (fun evidence => absurd evidence kind)
      (validator.task_references raw head accepted) (address_of_validate made (.inr ⟨_, _, rfl⟩))]
    unfold Projectable
    exact and_congr_right fun _ => and_congr_right fun _ => ⟨fun implied => implied task, fun holds _ => holds⟩
  | claim claim accepted =>
    refine iff_of_true ?_ trivial
    refine (parses_iff context accepts.read (readRecord_claim accepted)).mpr ⟨⟨[], rfl⟩, ?_, by simp⟩
    have references : validator.projection.isLocalUri claim.subject = true ∧
        ∀ value ∈ claim.sourceObservations, validator.projection.isLocalObservation value = true := by
      have both : (∀ value ∈ claim.subject :: claim.sourceObservations, validator.checkReference value = []) := silent
      rw [forall_mem_cons] at both
      constructor
      · obtain ⟨uri, parsed⟩ := validator.claim_subject raw claim accepted
        exact isLocalUri_of_reference (checkReference_silent both.1) parsed
      · intro value member
        obtain ⟨uri, parsed, typed⟩ := validator.claim_observations raw claim accepted value member
        have inContext := isLocalUri_of_reference (checkReference_silent (both.2 value member)) parsed
        unfold Projection.isLocalUri at inContext
        unfold Projection.isLocalObservation
        rw [parsed] at inContext ⊢
        exact Bool.and_eq_true_iff.mpr ⟨inContext, beq_iff_eq.mpr typed⟩
    unfold Projection.localRecord Projection.localClaim
    simp only [Option.all_none, Option.all_some, all_nil, Bool.true_and, Bool.and_true, Bool.and_eq_true]
    exact ⟨references.1, all_eq_true.mpr references.2⟩
  | artifact id untyped kind =>
    refine iff_of_false ?_ fun impossible => impossible
    rintro ⟨document, parsed⟩
    obtain ⟨raw', facts⟩ := Projection.parseDocument_iff.mp parsed
    obtain rfl := Option.some.inj (accepts.read.symm.trans facts.read)
    have none : readRecord validator.models raw = none := readRecord_artifact untyped kind
    exact absurd (none.symm.trans facts.record) (by simp)
  | observation observation accepted =>
    rw [parses_iff context accepts.read (readRecord_observation accepted)]
    refine Iff.trans ?_ (localObservation_iff silent)
    unfold Projection.localRecord
    constructor
    · rintro ⟨_, inContext, _⟩
      simpa using inContext
    · intro inContext
      exact ⟨⟨[], rfl⟩, by simpa using inContext, by simp⟩

end

end Validator
end Workctx.Graph
