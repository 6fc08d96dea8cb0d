import Workctx.Checkpoints.Service
import Workctx.Graph.Admission
import Workctx.Projection.Agreement

/-! What a check of a checkpoint reads: the documents of URIs and the successors of an item; and when no successor is missed. -/

namespace Workctx.Checkpoints
open Workctx.References Workctx.Retrieval Workctx.Search Workctx.Projection Workctx.Topics List
open Workctx.Text (Bytes)
open Workctx.Domain (isClaimId matchesSlug mapM_ok_iff mem_of_mapM)

/-! Reads of a list -/

theorem mapM_total {ε α β : Type} (read : α → Except ε β) (items : List α) (every : ∀ item ∈ items, ∃ value, read item = .ok value) :
    ∃ values, items.mapM read = .ok values ∧ ∀ value, value ∈ values ↔ ∃ item ∈ items, read item = .ok value := by
  induction items with
  | nil => exact ⟨[], rfl, by simp⟩
  | cons item rest ih =>
    obtain ⟨first, here⟩ := every item mem_cons_self
    obtain ⟨others, later, members⟩ := ih fun other member => every other (mem_cons_of_mem item member)
    refine ⟨first :: others, ?_, ?_⟩
    · rw [mapM_cons, here, later]
      rfl
    · intro value
      rw [mem_cons, members]
      constructor
      · rintro (rfl | ⟨other, member, read⟩)
        · exact ⟨item, mem_cons_self, here⟩
        · exact ⟨other, mem_cons_of_mem item member, read⟩
      · rintro ⟨other, member, read⟩
        cases mem_cons.mp member with
        | inl same =>
          rw [same, here] at read
          exact Or.inl (Except.ok.inj read).symm
        | inr inside => exact Or.inr ⟨other, inside, read⟩

section
variable {library : Library} {workspace : Workspace library} {text : Text} {uri older : WorkctxUri}

/-! The documents of URIs -/

def Local (workspace : Workspace library) (text : Text) (uri : WorkctxUri) : Prop :=
  uri.contextId = workspace.contextId ∧ uri.str = .ok text

theorem Local.get (own : Local workspace text uri) : workspace.projection.getDocumentByUri (.text text) = workspace.projection.documentOf uri := by
  unfold SQLiteProjection.getDocumentByUri SQLiteProjection.coerceLocalUri
  dsimp only
  rw [WorkctxUri.parse_str library.tables own.2]
  dsimp only
  rw [if_pos (show uri.contextId = workspace.projection.contextId from own.1)]
  rfl

theorem Local.found (own : Local workspace text uri) : ∃ current, workspace.projection.documentOf uri = .ok current := by
  unfold SQLiteProjection.documentOf
  split
  · next record _ => exact ⟨some record, rfl⟩
  · rw [own.2]
    exact ⟨_, rfl⟩

theorem Local.unique {other : WorkctxUri} (one : Local workspace text uri) (two : Local workspace text other) : uri = other := by
  have parsed := WorkctxUri.parse_str library.tables one.2
  rw [WorkctxUri.parse_str library.tables two.2] at parsed
  exact (Except.ok.inj parsed).symm

def Existing (workspace : Workspace library) (text : Text) : Prop :=
  ∃ record, workspace.projection.getDocumentByUri (.text text) = .ok (some record)

theorem claim_of_documentOf {record : ClaimRecord Columns} (found : workspace.projection.documentOf older = .ok (some (.claim record))) :
    record ∈ workspace.projection.claims ∧ older.entityType = claimType ∧ record.id = older.entityId := by
  unfold SQLiteProjection.documentOf at found
  split at found
  · next special held =>
    cases found
    unfold SQLiteProjection.specialDocument at held
    split at held
    · obtain ⟨_, _, other⟩ := Option.map_eq_some_iff.mp held
      cases other
    · split at held
      · next kind =>
        split at held
        · obtain ⟨claim, row, same⟩ := Option.map_eq_some_iff.mp held
          cases same
          exact ⟨mem_of_find?_eq_some row, kind, by simpa using find?_some row⟩
        · cases held
      · split at held
        · split at held
          · obtain ⟨_, _, other⟩ := Option.map_eq_some_iff.mp held
            cases other
          · cases held
        · cases held
  · cases printed : older.str with
    | error cause =>
      rw [printed] at found
      cases found
    | ok text =>
      rw [printed] at found
      change Except.ok _ = _ at found
      rw [Except.ok.injEq, Option.map_eq_some_iff] at found
      obtain ⟨_, _, other⟩ := found
      cases other

variable {claim : ClaimRecord Columns} {current : Option Record}

theorem documentOf_claim (member : claim ∈ workspace.projection.claims) (kind : uri.entityType = claimType)
    (id : uri.entityId = claim.id) : workspace.projection.documentOf uri = .ok (some (.claim claim)) := by
  have row : workspace.projection.claims.find? (fun record => decide (record.id = uri.entityId)) = some claim := by
    cases found : workspace.projection.claims.find? fun record => decide (record.id = uri.entityId) with
    | none => exact absurd id.symm (by simpa using find?_eq_none.mp found claim member)
    | some other =>
      have same : other.id = uri.entityId := by simpa using find?_some found
      rw [inj_on_of_nodup_map workspace.projection.claimIds (mem_of_find?_eq_some found) member (same.trans id)]
  have special : workspace.projection.specialDocument uri = some (.claim claim) := by
    unfold SQLiteProjection.specialDocument
    rw [kind, if_neg (by decide), if_pos (show claimType = literal "claim".toList from rfl), if_pos, row, Option.map_some]
    rw [id]
    exact workspace.claimIds claim member
  unfold SQLiteProjection.documentOf
  rw [special]

theorem claimUri_ok {contextId id : Text} (slug : fullmatch matchesSlug contextId = true) (shape : isClaim id = true) :
    ∃ uri text, WorkctxUri.make contextId claimType id = .ok uri ∧ uri.contextId = contextId ∧ uri.entityType = claimType ∧
      uri.entityId = id ∧ uri.str = .ok text := by
  obtain ⟨context, rfl, own⟩ := exists_of_fullmatch slug
  obtain ⟨chars, rfl, numbered⟩ := exists_of_fullmatch shape
  have made := @Graph.claimUri_made (String.ofList context) (String.ofList chars) (by rwa [String.toList_ofList]) numbered
  unfold Owners.recordUri at made
  split at made
  · next valid =>
    have parts := (WorkctxUri.ofValid _ valid).valid
    have contexts : (WorkctxUri.ofValid _ valid).contextId = literal context := congrArg literal String.toList_ofList
    have ids : (WorkctxUri.ofValid _ valid).entityId = literal chars := congrArg literal String.toList_ofList
    have kinds : (WorkctxUri.ofValid _ valid).entityType = claimType := by
      unfold WorkctxUri.ofValid claimType
      dsimp only
    rw [contexts, ids, kinds] at parts
    refine ⟨⟨literal context, claimType, literal chars, parts⟩,
      literal (Domain.uriText ⟨String.ofList context, "claim", String.ofList chars⟩).toList, guarded_ok parts, rfl, rfl, rfl, ?_⟩
    have printed := WorkctxUri.str_ofValid _ valid
    unfold WorkctxUri.str at printed ⊢
    rw [contexts, ids, kinds] at printed
    exact printed
  · cases made

theorem Local.slug (own : Local workspace text uri) : fullmatch matchesSlug workspace.contextId = true := by
  have valid := uri.valid
  unfold checkWorkctxUri at valid
  rw [require_bind_ok, own.1] at valid
  exact valid.1

theorem claimText_ok (slug : fullmatch matchesSlug workspace.contextId = true) {id : Text} (shape : isClaim id = true) :
    ∃ text uri, claimText workspace id = .ok text ∧ Local workspace text uri ∧ uri.entityType = claimType ∧ uri.entityId = id := by
  obtain ⟨uri, text, made, own, kind, same, printed⟩ := claimUri_ok slug shape
  refine ⟨text, uri, ?_, ⟨own, printed⟩, kind, same⟩
  unfold claimText ofValue
  rw [made]
  dsimp only [Except.mapError, bind, Except.bind]
  rw [printed]
  rfl

theorem claimText_uri {id : Text} (made : claimText workspace id = .ok text) :
    ∃ uri, Local workspace text uri ∧ uri.entityType = claimType ∧ uri.entityId = id := by
  unfold claimText ofRead ofValue at made
  cases parts : WorkctxUri.make workspace.contextId claimType id with
  | error cause =>
    rw [parts] at made
    cases made
  | ok uri =>
    rw [parts] at made
    dsimp only [Except.mapError, bind, Except.bind] at made
    obtain ⟨valid, rfl⟩ := exists_of_guarded parts
    cases printed : (WorkctxUri.mk workspace.contextId claimType id valid).str with
    | error cause =>
      rw [printed] at made
      cases made
    | ok spelled =>
      rw [printed] at made
      cases made
      exact ⟨_, ⟨rfl, printed⟩, rfl, rfl⟩

theorem claimText_injective {one two : Text} (first : claimText workspace one = .ok text) (second : claimText workspace two = .ok text) :
    one = two := by
  obtain ⟨uri, own, _, id⟩ := claimText_uri first
  obtain ⟨uri', own', _, id'⟩ := claimText_uri second
  rw [← id, ← id', own.unique own']

/-! Successors -/

/-- A claim is superseded by another when either of the two says so, and a record by the source of a `supersedes` edge to it. -/
inductive Supersedes (workspace : Workspace library) (newer older : Text) : Prop where
  | named (claim : ClaimRecord Columns) (member : claim ∈ workspace.projection.claims) (successor : Text)
      (names : claim.rest.supersededBy = some successor) (own : claimText workspace claim.id = .ok older)
      (text : claimText workspace successor = .ok newer)
  | naming (candidate : ClaimRecord Columns) (member : candidate ∈ workspace.projection.claims) (predecessor : Text)
      (names : candidate.rest.supersedes = some predecessor) (text : claimText workspace predecessor = .ok older)
      (own : claimText workspace candidate.id = .ok newer)
  | edge (row : EdgeRecord) (member : row ∈ workspace.projection.edges) (relation : row.relation = .supersedes)
      (target : row.target = older) (source : row.source = newer)

/-- A claim that names the item as its predecessor is on the subject of the item's claim, or the item names it too, or an edge says so. -/
def Heard (workspace : Workspace library) (older : Text) : Prop :=
  ∀ candidate ∈ workspace.projection.claims, ∀ predecessor newer, candidate.rest.supersedes = some predecessor →
    claimText workspace predecessor = .ok older → claimText workspace candidate.id = .ok newer →
    (∃ claim ∈ workspace.projection.claims, claim.id = predecessor ∧
      (claim.subject = candidate.subject ∨ claim.rest.supersededBy = some candidate.id)) ∨
    ∃ row ∈ workspace.projection.edges, row.relation = .supersedes ∧ row.target = older ∧ row.source = newer

theorem typed_of_documentOf {record : Record} (own : Local workspace text uri)
    (found : workspace.projection.documentOf uri = .ok (some record)) : checkEntityType uri.entityType = .ok () := by
  unfold SQLiteProjection.documentOf at found
  split at found
  · next special held =>
    unfold SQLiteProjection.specialDocument at held
    split at held
    · next kind =>
      rw [kind]
      decide
    · split at held
      · next kind =>
        rw [kind]
        decide
      · split at held
        · next kind =>
          rw [kind]
          decide
        · cases held
  · rw [own.2] at found
    change Except.ok _ = _ at found
    rw [Except.ok.injEq, Option.map_eq_some_iff] at found
    obtain ⟨entity, row, _⟩ := found
    have printed := entity.printed
    rw [show entity.uri = text by simpa using find?_some row] at printed
    have parsed := WorkctxUri.parse_str library.tables printed
    rw [WorkctxUri.parse_str library.tables own.2] at parsed
    rw [Except.ok.inj parsed]
    exact workspace.typed entity (mem_of_find?_eq_some row)

/-- The sources of the `supersedes` edges to a document -/
theorem inboundEdges_superseding (own : Local workspace text uri) (typed : checkEntityType uri.entityType = .ok ()) :
    ∃ rows, workspace.projection.inboundEdges (.text text) (some [.supersedes]) = .ok rows ∧
      ∀ row, row ∈ rows ↔ row ∈ workspace.projection.edges ∧ row.target = text ∧ row.relation = .supersedes := by
  refine ⟨workspace.projection.queryEdges EdgeRecord.target text (some [.supersedes]), ?_, ?_⟩
  · have parsed := @DurableReference.parse_str library.tables library.lawful (.workctx uri) text own.2
      (fun _ same => DurableReference.workctx.inj same ▸ typed) (fun _ other => nomatch other)
    unfold SQLiteProjection.inboundEdges SQLiteProjection.coerceDurableTarget
    dsimp only
    rw [parsed]
    dsimp only
    rw [if_pos (show uri.contextId = workspace.projection.contextId from own.1), own.2]
    rfl
  · intro row
    unfold SQLiteProjection.queryEdges
    rw [if_neg (by simp), mem_sortedBy]
    simp [Relations.allow]

theorem claimsForSubject_total (member : claim ∈ workspace.projection.claims) :
    ∃ rows, workspace.projection.claimsForSubject (.text claim.subject) none = .ok rows ∧
      ∀ row, row ∈ rows ↔ row ∈ workspace.projection.claims ∧ row.subject = claim.subject := by
  obtain ⟨subject, context, printed⟩ := workspace.subjects claim member
  refine ⟨sortedBy SQLiteProjection.claimOrder (workspace.projection.claims.filter fun record =>
    decide (record.subject = claim.subject) && (none : Option (List Domain.ClaimStatus)).all fun wanted => wanted.contains record.status), ?_, ?_⟩
  · unfold SQLiteProjection.claimsForSubject SQLiteProjection.coerceLocalUri
    dsimp only
    rw [WorkctxUri.parse_str library.tables printed]
    dsimp only
    rw [if_pos context]
    dsimp only [bind, Except.bind]
    rw [if_neg (by simp), printed]
    rfl
  · intro row
    rw [mem_sortedBy]
    simp

/-- What the claims of the item and of its subject tell of its successors -/
def Told (workspace : Workspace library) (current : Option Record) (newer : Text) : Prop :=
  ∃ claim, current = some (.claim claim) ∧
    ((∃ successor, claim.rest.supersededBy = some successor ∧ claimText workspace successor = .ok newer) ∨
      ∃ candidate ∈ workspace.projection.claims, candidate.subject = claim.subject ∧ candidate.rest.supersedes = some claim.id ∧
        claimText workspace candidate.id = .ok newer)

theorem claimSuccessors_total (slug : fullmatch matchesSlug workspace.contextId = true) (current : Option Record)
    (held : ∀ claim, current = some (.claim claim) → claim ∈ workspace.projection.claims) :
    ∃ texts, claimSuccessors workspace current = .ok texts ∧ ∀ newer, newer ∈ texts ↔ Told workspace current newer := by
  have others (rest : ∀ claim, current ≠ some (.claim claim)) (none : claimSuccessors workspace current = .ok []) :
      ∃ texts, claimSuccessors workspace current = .ok texts ∧ ∀ newer, newer ∈ texts ↔ Told workspace current newer :=
    ⟨[], none, fun newer => ⟨fun member => absurd member not_mem_nil, fun ⟨claim, same, _⟩ => absurd same (rest claim)⟩⟩
  cases current with
  | none => exact others (fun _ other => nomatch other) rfl
  | some record =>
    cases record with
    | entity entity => exact others (fun _ other => nomatch other) rfl
    | task task => exact others (fun _ other => nomatch other) rfl
    | observation observation => exact others (fun _ other => nomatch other) rfl
    | claim claim =>
      have member := held claim rfl
      obtain ⟨named, naming, names⟩ := mapM_total (claimText workspace) claim.rest.supersededBy.toList (by
        intro successor chosen
        obtain ⟨text, _, made, _⟩ := claimText_ok slug (workspace.related claim member successor (Option.mem_toList.mp chosen))
        exact ⟨text, made⟩)
      obtain ⟨rows, read, inside⟩ := claimsForSubject_total member
      obtain ⟨others, telling, tells⟩ := mapM_total (fun candidate : ClaimRecord Columns => claimText workspace candidate.id)
        (rows.filter fun candidate => decide (candidate.rest.supersedes = some claim.id)) (by
          intro candidate chosen
          obtain ⟨text, _, made, _⟩ := claimText_ok slug (workspace.claimIds candidate ((inside candidate).mp (mem_filter.mp chosen).1).1)
          exact ⟨text, made⟩)
      refine ⟨named ++ others, ?_, ?_⟩
      · unfold claimSuccessors
        dsimp only
        rw [naming]
        dsimp only [bind, Except.bind]
        rw [read]
        dsimp only [ofRead, Except.mapError]
        rw [telling]
      · intro newer
        rw [mem_append, names, tells]
        constructor
        · rintro (⟨successor, chosen, made⟩ | ⟨candidate, chosen, made⟩)
          · exact ⟨claim, rfl, Or.inl ⟨successor, Option.mem_toList.mp chosen, made⟩⟩
          · obtain ⟨row, tagged⟩ := mem_filter.mp chosen
            exact ⟨claim, rfl, Or.inr ⟨candidate, ((inside candidate).mp row).1, ((inside candidate).mp row).2, of_decide_eq_true tagged, made⟩⟩
        · rintro ⟨_, same, ⟨successor, chosen, made⟩ | ⟨candidate, row, subject, tagged, made⟩⟩
          · cases same
            exact Or.inl ⟨successor, Option.mem_toList.mpr chosen, made⟩
          · cases same
            exact Or.inr ⟨candidate, mem_filter.mpr ⟨(inside candidate).mpr ⟨row, subject⟩, decide_eq_true tagged⟩, made⟩

theorem locate_total (own : Local workspace text uri) :
    (∃ location, locate workspace text = .ok (some location) ∧ location.uri = text ∧ Existing workspace text) ∨
      locate workspace text = .ok none ∧ ¬Existing workspace text := by
  obtain ⟨current, found⟩ := own.found
  have got : workspace.projection.getDocumentByUri (.text text) = .ok current := own.get.trans found
  cases current with
  | none =>
    refine Or.inr ⟨?_, ?_⟩
    · unfold locate
      rw [got]
      rfl
    · rintro ⟨record, other⟩
      rw [got] at other
      cases other
  | some record =>
    obtain ⟨content, held⟩ := Option.isSome_iff_exists.mp (workspace.readable uri record found)
    refine Or.inl ⟨⟨text, (columnsOf record).sourcePath, (columnsOf record).revision, library.contentHash content⟩, ?_, rfl, record, got⟩
    unfold locate contentHash
    rw [got]
    dsimp only [ofRead, Except.mapError, bind, Except.bind]
    rw [held]

theorem Told.printed {newer : Text} (told : Told workspace current newer) : ∃ uri, Local workspace newer uri := by
  obtain ⟨claim, _, ⟨successor, _, made⟩ | ⟨candidate, _, _, _, made⟩⟩ := told
  · obtain ⟨uri, own, _⟩ := claimText_uri made
    exact ⟨uri, own⟩
  · obtain ⟨uri, own, _⟩ := claimText_uri made
    exact ⟨uri, own⟩

/-- The successors of an item are the existing documents that its claim, the claims of its subject or an edge tell of. -/
theorem successors_total (own : Local workspace text uri) (typed : checkEntityType uri.entityType = .ok ())
    (found : workspace.projection.documentOf uri = .ok current) :
    ∃ located, successors workspace text current = .ok located ∧ ∀ newer, (∃ location ∈ located, location.uri = newer) ↔
      Existing workspace newer ∧ (Told workspace current newer ∨
        ∃ row ∈ workspace.projection.edges, row.relation = .supersedes ∧ row.target = text ∧ row.source = newer) := by
  obtain ⟨texts, told, tells⟩ := claimSuccessors_total own.slug current (by
    intro claim same
    rw [same] at found
    exact (claim_of_documentOf found).1)
  obtain ⟨rows, read, edges⟩ := inboundEdges_superseding own typed
  have members (newer : Text) : newer ∈ sortedBy codes (texts ++ rows.map EdgeRecord.source).dedup ↔
      Told workspace current newer ∨ ∃ row ∈ workspace.projection.edges, row.relation = .supersedes ∧ row.target = text ∧ row.source = newer := by
    rw [mem_sortedBy, mem_dedup, mem_append, tells, mem_map]
    constructor
    · rintro (claims | ⟨row, inside, source⟩)
      · exact Or.inl claims
      · obtain ⟨member, target, relation⟩ := (edges row).mp inside
        exact Or.inr ⟨row, member, relation, target, source⟩
    · rintro (claims | ⟨row, member, relation, target, source⟩)
      · exact Or.inl claims
      · exact Or.inr ⟨row, (edges row).mpr ⟨member, target, relation⟩, source⟩
  have locals : ∀ newer ∈ sortedBy codes (texts ++ rows.map EdgeRecord.source).dedup, ∃ uri, Local workspace newer uri := by
    intro newer member
    cases (members newer).mp member with
    | inl claims => exact claims.printed
    | inr edge =>
      obtain ⟨row, inside, _, _, source⟩ := edge
      exact ⟨row.sourceUri, workspace.projection.sources row inside, source ▸ row.printed⟩
  obtain ⟨outcomes, locates, located⟩ := mapM_total (locate workspace) _ (by
    intro newer member
    obtain ⟨uri, own⟩ := locals newer member
    cases locate_total own with
    | inl there =>
      obtain ⟨location, made, _⟩ := there
      exact ⟨some location, made⟩
    | inr absent => exact ⟨none, absent.1⟩)
  refine ⟨outcomes.filterMap id, ?_, ?_⟩
  · unfold successors
    rw [told]
    dsimp only [bind, Except.bind]
    rw [read]
    dsimp only [ofRead, Except.mapError]
    rw [locates]
  · intro newer
    constructor
    · rintro ⟨location, member, rfl⟩
      obtain ⟨outcome, inside, kept⟩ := mem_filterMap.mp member
      obtain rfl : outcome = some location := kept
      obtain ⟨newer, listed, made⟩ := (located _).mp inside
      obtain ⟨uri, own⟩ := locals newer listed
      cases locate_total own with
      | inl there =>
        obtain ⟨other, again, same, existing⟩ := there
        rw [made] at again
        cases again
        rw [same]
        exact ⟨existing, (members newer).mp listed⟩
      | inr absent =>
        rw [made] at absent
        cases absent.1
    · rintro ⟨existing, reason⟩
      have listed := (members newer).mpr reason
      obtain ⟨uri, own⟩ := locals newer listed
      cases locate_total own with
      | inl there =>
        obtain ⟨location, made, same, _⟩ := there
        exact ⟨location, mem_filterMap.mpr ⟨some location, (located _).mpr ⟨newer, listed, made⟩, rfl⟩, same⟩
      | inr absent => exact absurd existing absent.2

theorem existing_of_claim (member : claim ∈ workspace.projection.claims)
    (made : claimText workspace claim.id = .ok text) : Existing workspace text := by
  obtain ⟨uri, own, kind, id⟩ := claimText_uri made
  exact ⟨.claim claim, own.get.trans (documentOf_claim member kind id)⟩

theorem Told.supersedes (own : Local workspace text uri) (found : workspace.projection.documentOf uri = .ok current)
    {newer : Text} (told : Told workspace current newer) : Supersedes workspace newer text := by
  obtain ⟨claim, rfl, reason⟩ := told
  obtain ⟨member, kind, id⟩ := claim_of_documentOf found
  obtain ⟨older, uri', made, own', kind', id'⟩ := claimText_ok own.slug (workspace.claimIds claim member)
  have same : uri = uri' := by
    obtain ⟨context, type, entity, valid⟩ := uri
    obtain ⟨context', type', entity', valid'⟩ := uri'
    obtain rfl : context = context' := own.1.trans own'.1.symm
    obtain rfl : type = type' := kind.trans kind'.symm
    obtain rfl : entity = entity' := id.symm.trans id'.symm
    rfl
  obtain rfl : text = older := by
    have printed := own'.2
    rw [← same, own.2] at printed
    exact Except.ok.inj printed
  cases reason with
  | inl named =>
    obtain ⟨successor, names, text⟩ := named
    exact .named claim member successor names made text
  | inr naming =>
    obtain ⟨candidate, inside, _, names, text⟩ := naming
    exact .naming candidate inside claim.id names made text

theorem told_iff_heard (own : Local workspace text uri) (found : workspace.projection.documentOf uri = .ok current) :
    (∀ newer, Existing workspace newer → Supersedes workspace newer text → Told workspace current newer ∨
      ∃ row ∈ workspace.projection.edges, row.relation = .supersedes ∧ row.target = text ∧ row.source = newer) ↔ Heard workspace text := by
  have document {predecessor : Text} (made : claimText workspace predecessor = .ok text) {claim : ClaimRecord Columns}
      (member : claim ∈ workspace.projection.claims) (id : claim.id = predecessor) : current = some (.claim claim) := by
    obtain ⟨uri', own', kind, entity⟩ := claimText_uri made
    obtain rfl := own.unique own'
    have again := documentOf_claim member kind (entity.trans id.symm)
    rw [found] at again
    exact Except.ok.inj again
  constructor
  · intro every candidate member predecessor newer names text own'
    cases every newer (existing_of_claim member own') (.naming candidate member predecessor names text own') with
    | inr edge => exact Or.inr edge
    | inl told =>
      obtain ⟨claim, rfl, reason⟩ := told
      obtain ⟨inside, _, id⟩ := claim_of_documentOf found
      obtain ⟨uri', own'', _, entity⟩ := claimText_uri text
      obtain rfl := own.unique own''
      refine Or.inl ⟨claim, inside, id.trans entity, ?_⟩
      cases reason with
      | inl named =>
        obtain ⟨successor, named', made⟩ := named
        rw [claimText_injective own' made]
        exact Or.inr named'
      | inr naming =>
        obtain ⟨other, row, subject, _, made⟩ := naming
        have same : other = candidate :=
          inj_on_of_nodup_map workspace.projection.claimIds row member (claimText_injective made own')
        exact Or.inl (same ▸ subject.symm)
  · intro heard newer _ superseded
    cases superseded with
    | edge row member relation target source => exact Or.inr ⟨row, member, relation, target, source⟩
    | named claim member successor names made text =>
      exact Or.inl ⟨claim, document made member rfl, Or.inl ⟨successor, names, text⟩⟩
    | naming candidate member predecessor names made own' =>
      cases heard candidate member predecessor newer names made own' with
      | inr edge => exact Or.inr edge
      | inl claims =>
        obtain ⟨claim, inside, id, reason⟩ := claims
        refine Or.inl ⟨claim, document made inside id, ?_⟩
        cases reason with
        | inl subject => exact Or.inr ⟨candidate, member, subject.symm, id ▸ names, own'⟩
        | inr named => exact Or.inl ⟨candidate.id, named, own'⟩

end

end Workctx.Checkpoints
