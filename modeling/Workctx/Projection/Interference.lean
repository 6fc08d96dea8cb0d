import Workctx.Projection.Agreement

/-! What the scope of a topic reveals, and what it does not. -/

namespace Workctx.Projection
open Workctx.References Workctx.Search

/-! People. -/

def alice : WorkctxUri := ⟨acme, literal "person".toList, literal "alice".toList, by decide⟩

def bob : WorkctxUri := ⟨acme, literal "person".toList, literal "bob".toList, by decide⟩

def aliceText : Text := literal "workctx://acme/person/alice".toList

def bobText : Text := literal "workctx://acme/person/bob".toList

theorem alice_printed : alice.str = .ok aliceText := by rfl

theorem bob_printed : bob.str = .ok bobText := by rfl

def aliceRecord : EntityRecord Bool := ⟨literal "alice".toList, alice, aliceText, [], ["alpha"], true, alice_printed, rfl⟩

def bobRecord (topics : List String) (rest : Bool) : EntityRecord Bool :=
  ⟨literal "bob".toList, bob, bobText, [], topics, rest, bob_printed, rfl⟩

def aliceEdge : EdgeRecord where
  sourceUri := alice
  source := aliceText
  relation := .relatedTo
  target := bobText
  confidence := none
  sourceObservations := []
  validFrom := none
  validTo := none
  note := none
  sourcePath := "01_entities/alice.md"
  ordinal := 0
  topics := ["alpha"]
  printed := alice_printed

theorem bob_parsed : WorkctxUri.parse plainTables bobText = .ok bob := WorkctxUri.parse_str plainTables bob_printed

theorem aliceEdge_target (uri : WorkctxUri) (parsed : WorkctxUri.parse plainTables aliceEdge.target = .ok uri) : uri.contextId = acme := by
  have read : WorkctxUri.parse plainTables aliceEdge.target = .ok bob := bob_parsed
  rw [read] at parsed
  rw [← Except.ok.inj parsed]
  rfl

/-- Entities of the context with the edges of Alice, where there are any. -/
def people (entities : List (EntityRecord Bool)) (linked : Bool) (ids : (entities.map EntityRecord.id).Nodup)
    (uris : (entities.map EntityRecord.uri).Nodup) : SQLiteProjection plainTables Bool where
  contextId := acme
  metadata := ⟨"", entities.length, entities.length, 0⟩
  entities := entities
  tasks := []
  claims := []
  observations := []
  edges := if linked then [aliceEdge] else []
  indexed := rfl
  identities := by simpa using ids
  entityUris := uris
  taskIds := List.nodup_nil
  taskEntities := fun _ member => nomatch member
  edgePlaces := by cases linked <;> simp
  sources := by
    intro edge member
    cases linked with
    | false => cases member
    | true =>
      rw [List.mem_singleton.mp member]
      rfl
  targets := by
    intro edge member
    cases linked with
    | false => cases member
    | true =>
      rw [List.mem_singleton.mp member]
      exact aliceEdge_target

def alone (linked : Bool) : SQLiteProjection plainTables Bool := people [aliceRecord] linked (by simp) (by simp)

theorem two_ids : [literal "alice".toList, literal "bob".toList].Nodup := by decide

theorem two_uris : [aliceText, bobText].Nodup := by decide

def together (topics : List String) (rest linked : Bool) : SQLiteProjection plainTables Bool :=
  people [aliceRecord, bobRecord topics rest] linked two_ids two_uris

def alpha (topicOnly : Bool) : TopicScope := ⟨"alpha", topicOnly, by decide⟩

/-! Scopes. -/

def SQLiteProjection.LeadsTo {tables : Tables} {ρ : Type} (projection : SQLiteProjection tables ρ) (topic : String) (target : Text) : Prop :=
  ∃ uri record, WorkctxUri.parse tables target = .ok uri ∧ projection.getDocumentByUri (.uri uri) = .ok (some record) ∧
    record.topics.contains topic = true

/-- The documents with the topic are the same, and so are their edges among each other. -/
structure AgreeOnTopic {tables : Tables} {ρ : Type} (topic : String) (one two : SQLiteProjection tables ρ) : Prop where
  contextId : one.contextId = two.contextId
  entities : Agree (fun record => record.topics.contains topic) one.entities two.entities
  tasks : Agree (fun record => record.topics.contains topic) one.tasks two.tasks
  claims : Agree (fun record => record.topics.contains topic) one.claims two.claims
  observations : Agree (fun record => record.topics.contains topic) one.observations two.observations
  edges : ∀ edge : EdgeRecord, edge.topics.contains topic = true →
    (edge ∈ one.edges ∧ one.LeadsTo topic edge.target ↔ edge ∈ two.edges ∧ two.LeadsTo topic edge.target)

structure OnlyAlice (projection : SQLiteProjection plainTables Bool) : Prop where
  contextId : projection.contextId = acme
  entities : ∀ record : EntityRecord Bool, record.topics.contains "alpha" = true → (record ∈ projection.entities ↔ record = aliceRecord)
  tasks : projection.tasks = []
  claims : projection.claims = []
  observations : projection.observations = []
  edges : ∀ edge ∈ projection.edges, ¬projection.LeadsTo "alpha" edge.target

theorem OnlyAlice.agree {one two : SQLiteProjection plainTables Bool} (only : OnlyAlice one) (also : OnlyAlice two) : AgreeOnTopic "alpha" one two where
  contextId := only.contextId.trans also.contextId.symm
  entities record shown := (only.entities record shown).trans (also.entities record shown).symm
  tasks record _ := by rw [only.tasks, also.tasks]
  claims record _ := by rw [only.claims, also.claims]
  observations record _ := by rw [only.observations, also.observations]
  edges edge _ := ⟨fun ⟨member, leads⟩ => absurd leads (only.edges edge member), fun ⟨member, leads⟩ => absurd leads (also.edges edge member)⟩

theorem people_edge {edge : EdgeRecord} {linked : Bool} (member : edge ∈ if linked then [aliceEdge] else []) : edge = aliceEdge := by
  cases linked with
  | false => cases member
  | true => exact List.mem_singleton.mp member

theorem alone_onlyAlice (linked : Bool) : OnlyAlice (alone linked) where
  contextId := rfl
  entities _ _ := List.mem_singleton
  tasks := rfl
  claims := rfl
  observations := rfl
  edges := by
    intro edge member ⟨uri, record, parsed, found, _⟩
    rw [people_edge member] at parsed
    obtain rfl := Except.ok.inj (bob_parsed.symm.trans parsed)
    have missing : (alone linked).getDocumentByUri (.uri bob) = .ok none := rfl
    rw [missing] at found
    cases found

theorem together_onlyAlice (topics : List String) (other : topics.contains "alpha" = false) (rest linked : Bool) :
    OnlyAlice (together topics rest linked) where
  contextId := rfl
  entities := by
    intro record shown
    have members : record ∈ (together topics rest linked).entities ↔ record = aliceRecord ∨ record = bobRecord topics rest := List.mem_pair
    rw [members, or_iff_left]
    rintro rfl
    exact absurd shown (by simpa [bobRecord] using other)
  tasks := rfl
  claims := rfl
  observations := rfl
  edges := by
    intro edge member ⟨uri, record, parsed, found, shown⟩
    rw [people_edge member] at parsed
    obtain rfl := Except.ok.inj (bob_parsed.symm.trans parsed)
    have there : (together topics rest linked).getDocumentByUri (.uri bob) = .ok (some (.entity (bobRecord topics rest))) := rfl
    rw [there] at found
    rw [← Option.some.inj (Except.ok.inj found)] at shown
    exact absurd shown (by simpa [DocumentRecord.topics, bobRecord] using other)

theorem bob_hidden (rest linked : Bool) : (TopicScopedReader.mk (together ["beta"] rest linked) (alpha true)).hides bobText = true :=
  (TopicScopedReader.mk (together ["beta"] rest linked) (alpha true)).hides_iff.mpr
    ⟨by decide, bob, .entity (bobRecord ["beta"] rest), bob_parsed, rfl, rfl⟩

theorem bob_missing (linked : Bool) : (TopicScopedReader.mk (alone linked) (alpha true)).hides bobText = false := by
  rw [← Bool.not_eq_true, TopicScopedReader.hides_iff]
  intro ⟨_, uri, record, parsed, found, _⟩
  obtain rfl := Except.ok.inj (bob_parsed.symm.trans parsed)
  have missing : (alone linked).getDocumentByUri (.uri bob) = .ok none := rfl
  rw [missing] at found
  cases found

theorem bob_inbound (rest linked : Bool) :
    (TopicScopedReader.mk (together ["beta"] rest linked) (alpha true)).inboundEdges (.uri bob) none = .ok (if linked then [aliceEdge] else []) := by
  have asked : (together ["beta"] rest linked).queryEdges EdgeRecord.target bobText none = if linked then [aliceEdge] else [] := by
    have kept : (if linked then [aliceEdge] else []).filter (fun edge => decide (edge.target = bobText) && Relations.allow none edge.relation) =
        if linked then [aliceEdge] else [] := by
      refine List.filter_eq_self.mpr fun edge member => ?_
      rw [people_edge member]
      simp [aliceEdge, Relations.allow]
    unfold SQLiteProjection.queryEdges
    rw [if_neg (by decide)]
    refine (congrArg (sortedBy SQLiteProjection.edgeOrder) kept).trans ?_
    cases linked with
    | false => exact List.mergeSort_nil
    | true => exact List.mergeSort_singleton _
  have read : (together ["beta"] rest linked).inboundEdges (.uri bob) none = .ok (if linked then [aliceEdge] else []) := congrArg Except.ok asked
  unfold TopicScopedReader.inboundEdges
  rw [read]
  cases linked <;> rfl

/-- An edge to a document with another topic is listed or not as that document is there, it is listed by its target, an untagged document
is read, and all documents are counted. -/
theorem scope_reveals :
    (AgreeOnTopic "alpha" (alone true) (together ["beta"] true true) ∧
      (TopicScopedReader.mk (alone true) (alpha true)).outboundEdges (.uri alice) none ≠
        (TopicScopedReader.mk (together ["beta"] true true) (alpha true)).outboundEdges (.uri alice) none ∧
      (TopicScopedReader.mk (alone true) (alpha true)).metadata ≠
        (TopicScopedReader.mk (together ["beta"] true true) (alpha true)).metadata) ∧
    (AgreeOnTopic "alpha" (together ["beta"] true true) (together ["beta"] true false) ∧
      (TopicScopedReader.mk (together ["beta"] true true) (alpha true)).inboundEdges (.uri bob) none ≠
        (TopicScopedReader.mk (together ["beta"] true false) (alpha true)).inboundEdges (.uri bob) none) ∧
    AgreeOnTopic "alpha" (alone true) (together [] true true) ∧
      (TopicScopedReader.mk (alone true) (alpha false)).getEntityById (literal "bob".toList) ≠
        (TopicScopedReader.mk (together [] true true) (alpha false)).getEntityById (literal "bob".toList) := by
  have there := fun rest linked => together_onlyAlice ["beta"] (by decide) rest linked
  refine ⟨⟨(alone_onlyAlice true).agree (there true true), ?_, by decide⟩, ⟨(there true true).agree (there true false), ?_⟩,
    (alone_onlyAlice true).agree (together_onlyAlice [] (by decide) true true), ?_⟩
  · intro same
    have shown : (alpha true).includes aliceEdge.topics = true := by decide
    obtain ⟨edges, read, listed⟩ :=
      (TopicScopedReader.mk (alone true) (alpha true)).outboundEdges_lists aliceEdge List.mem_cons_self shown
    obtain ⟨others, again, also⟩ :=
      (TopicScopedReader.mk (together ["beta"] true true) (alpha true)).outboundEdges_lists aliceEdge List.mem_cons_self shown
    obtain rfl := Except.ok.inj ((read.symm.trans same).trans again)
    exact absurd (also.mp (listed.mpr (bob_missing true))) (by rw [show aliceEdge.target = bobText from rfl, bob_hidden]; decide)
  · intro same
    rw [bob_inbound, bob_inbound] at same
    cases same
  · intro same
    have missing : (TopicScopedReader.mk (alone true) (alpha false)).getEntityById (literal "bob".toList) = .ok none := rfl
    have found : (TopicScopedReader.mk (together [] true true) (alpha false)).getEntityById (literal "bob".toList) =
        .ok (some (bobRecord [] true)) := rfl
    rw [missing, found] at same
    cases same

/-- Nothing out of the scope is observed but which edges of the scope lead to a document there. -/
theorem scoped_reads_agree (scope : TopicScope) (one two : SQLiteProjection tables ρ) (agree : AgreeInScope scope one two) :
    Indistinguishable scope one two ↔ HidesAlike scope one two :=
  ⟨agree.hidesAlike, agree.indistinguishable⟩

/-- What a document with another topic says is not observed. -/
theorem scoped_reads_agree_sample :
    AgreeInScope (alpha true) (together ["beta"] true true) (together ["beta"] false true) ∧
      Indistinguishable (alpha true) (together ["beta"] true true) (together ["beta"] false true) := by
  have agree : AgreeInScope (alpha true) (together ["beta"] true true) (together ["beta"] false true) := by
    have only := fun rest => together_onlyAlice ["beta"] (by decide) rest true
    have kept : ∀ record : EntityRecord Bool, (alpha true).includes record.topics = true → record.topics.contains "alpha" = true := by
      intro record shown
      simpa [TopicScope.includes, topicMatches, alpha] using shown
    exact {
      contextId := rfl
      entities := fun record shown =>
        ((only true).entities record (kept record shown)).trans ((only false).entities record (kept record shown)).symm
      tasks := fun _ _ => Iff.rfl
      claims := fun _ _ => Iff.rfl
      observations := fun _ _ => Iff.rfl
      edges := fun _ _ => Iff.rfl }
  have alike : HidesAlike (alpha true) (together ["beta"] true true) (together ["beta"] false true) := by
    intro edge member _
    rw [List.mem_singleton.mp member]
    exact (bob_hidden true true).trans (bob_hidden false true).symm
  exact ⟨agree, (scoped_reads_agree (alpha true) _ _ agree).mpr alike⟩

end Workctx.Projection
