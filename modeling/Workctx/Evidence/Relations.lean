import Mathlib.Data.List.Duplicate
import Workctx.Concurrent.Returns
import Workctx.Evidence.Lossless
import Workctx.Search.Sorted

/-! The references of the staged documents: a relation that is there already is attached again unless both of its times are given. -/

namespace Workctx.Evidence
open Workctx.Concurrent Workctx.Text Workctx.Json Workctx.Domain Workctx.Search Workctx.Services List

/-! Dumps. -/

def TypedReference.timed (reference : TypedReference) : Bool := reference.validFrom.isSome && reference.validTo.isSome

def dumps (references : List TypedReference) : List Value := references.map fun reference => reference.dump nullable

theorem lookup_optional (key name : String) (value : Option String) :
    (optional name value).lookup key = if key = name then value.map Value.string else none := by
  cases value with
  | none => simp [optional]
  | some text => by_cases same : key = name <;> simp [optional, lookup_cons, same, beq_false_of_ne]

theorem lookup_nullable (key name : String) (value : Option String) :
    (nullable name value).lookup key = if key = name then some ((value.map Value.string).getD .null) else none := by
  by_cases same : key = name <;> simp [nullable, lookup_cons, same, beq_false_of_ne]

theorem texts_injective {one two : List String} (same : one.map Value.string = two.map Value.string) : one = two :=
  map_injective_iff.mpr (fun _ _ equal => Value.string.inj equal) same

variable {one two : Option String} {known : List TypedReference}

theorem text_injective (same : one.map Value.string = two.map Value.string) : one = two :=
  Option.map_injective (fun _ _ equal => Value.string.inj equal) same

theorem null_injective (same : (one.map Value.string).getD .null = (two.map Value.string).getD .null) : one = two := by
  cases one <;> cases two <;> simp_all

theorem null_optional (same : ∃ text, two = some text ∧ Value.string text = (one.map Value.string).getD .null) :
    one = two ∧ one.isSome = true := by
  obtain ⟨text, rfl, equal⟩ := same
  cases one with
  | none => cases equal
  | some other => rw [Value.string.inj equal]; exact ⟨rfl, rfl⟩

theorem members_of_dump {times times' : String → Option String → List (String × Value)} {one two : TypedReference}
    (same : one.dump times = two.dump times') (key : String) :
    ([("relation", Value.string one.relation), ("target", Value.string one.target)] ++ optional "confidence" one.confidence ++
        [("source_observations", Value.array (one.sourceObservations.map Value.string))] ++
        times "valid_from" one.validFrom ++ times "valid_to" one.validTo ++ optional "note" one.note).lookup key =
      ([("relation", Value.string two.relation), ("target", Value.string two.target)] ++ optional "confidence" two.confidence ++
        [("source_observations", Value.array (two.sourceObservations.map Value.string))] ++
        times' "valid_from" two.validFrom ++ times' "valid_to" two.validTo ++ optional "note" two.note).lookup key :=
  congrArg (List.lookup key) (Value.object.inj same)

/-- The dump with null times is the one without null members where both times are given. -/
theorem dump_eq_optional {one two : TypedReference} : one.dump nullable = two.dump optional ↔ one = two ∧ one.timed = true := by
  constructor
  · intro same
    have field := members_of_dump same
    have relation := field "relation"
    have target := field "target"
    have confidence := field "confidence"
    have observations := field "source_observations"
    have validFrom := field "valid_from"
    have validTo := field "valid_to"
    have note := field "note"
    simp [lookup_append, lookup_cons, lookup_optional, lookup_nullable] at relation target confidence observations validFrom validTo note
    obtain ⟨first, given⟩ := null_optional validFrom
    obtain ⟨last, also⟩ := null_optional validTo
    refine ⟨?_, Bool.and_eq_true_iff.mpr ⟨given, also⟩⟩
    cases one
    cases two
    simp only [TypedReference.mk.injEq]
    exact ⟨relation, target, text_injective confidence, texts_injective observations, first, last, text_injective note⟩
  · rintro ⟨rfl, timed⟩
    obtain ⟨first, last⟩ := Bool.and_eq_true_iff.mp timed
    obtain ⟨start, begins⟩ := Option.isSome_iff_exists.mp first
    obtain ⟨stop, ends⟩ := Option.isSome_iff_exists.mp last
    unfold TypedReference.dump
    rw [begins, ends]
    rfl

theorem dump_injective : Function.Injective fun reference : TypedReference => reference.dump nullable := by
  intro one two same
  have field := members_of_dump same
  have relation := field "relation"
  have target := field "target"
  have confidence := field "confidence"
  have observations := field "source_observations"
  have validFrom := field "valid_from"
  have validTo := field "valid_to"
  have note := field "note"
  simp [lookup_append, lookup_cons, lookup_optional, lookup_nullable] at relation target confidence observations validFrom validTo note
  cases one
  cases two
  simp only [TypedReference.mk.injEq]
  exact ⟨relation, target, text_injective confidence, texts_injective observations, null_injective validFrom, null_injective validTo,
    text_injective note⟩

theorem dumps_injective : Function.Injective dumps := map_injective_iff.mpr dump_injective

theorem optional_exact (name : String) (value : Option String) : MembersExact (optional name value) := by
  cases value <;> simp [optional, MembersExact, Value.Exact]

theorem nullable_exact (name : String) (value : Option String) : MembersExact (nullable name value) := by
  cases value <;> simp [nullable, MembersExact, Value.Exact]

theorem dump_exact {times : String → Option String → List (String × Value)} (plain : ∀ name value, MembersExact (times name value))
    (reference : TypedReference) : (reference.dump times).Exact := by
  have observations : ElementsExact (reference.sourceObservations.map Value.string) := by
    rw [elementsExact_iff]
    intro item member
    obtain ⟨text, _, rfl⟩ := mem_map.mp member
    trivial
  have confidence := (membersExact_iff _).mp (optional_exact "confidence" reference.confidence)
  have note := (membersExact_iff _).mp (optional_exact "note" reference.note)
  have validFrom := (membersExact_iff _).mp (plain "valid_from" reference.validFrom)
  have validTo := (membersExact_iff _).mp (plain "valid_to" reference.validTo)
  unfold TypedReference.dump Value.Exact
  rw [membersExact_iff]
  intro item member
  simp only [mem_append, mem_cons, not_mem_nil, or_false] at member
  rcases member with (((((rfl | rfl) | here) | rfl) | here) | here) | here
  · trivial
  · trivial
  · exact confidence item here
  · exact observations
  · exact validFrom item here
  · exact validTo item here
  · exact note item here

theorem lists_dumps {reference : TypedReference} :
    lists (dumps known) reference = true ↔ reference ∈ known ∧ reference.timed = true := by
  have printed : ∀ other : TypedReference, Json.print compact 0 (other.dump nullable) = Json.print compact 0 (reference.dump optional) ↔
      other = reference ∧ other.timed = true := by
    intro other
    rw [← dump_eq_optional]
    exact ⟨dumpsCompact_injective (dump_exact nullable_exact other) (dump_exact optional_exact reference), congrArg _⟩
  unfold lists dumps
  rw [any_map, any_eq_true]
  simp only [Function.comp_apply, beq_iff_eq, printed]
  constructor
  · rintro ⟨other, member, rfl, timed⟩
    exact ⟨member, timed⟩
  · rintro ⟨member, timed⟩
    exact ⟨reference, member, rfl, timed⟩

/-! Attached references. -/

def attach (known : List TypedReference) (reference : TypedReference) : List TypedReference :=
  if reference ∈ known ∧ reference.timed = true then known else known ++ [reference]

theorem keepFirst_id {reference : TypedReference} :
    keepFirst id known reference = if reference ∈ known then known else known ++ [reference] := by
  unfold keepFirst
  by_cases old : reference ∈ known
  · rw [if_pos old, if_pos (by simpa using old)]
  · rw [if_neg old, if_neg (by simpa using old)]

theorem withReference_dumps {members : Type} {document : EntityFrontmatter members} (reference : TypedReference)
    (typed : document.references = dumps known) : withReference document reference = { document with references := dumps (attach known reference) } := by
  unfold withReference attach
  rw [typed]
  by_cases listed : reference ∈ known ∧ reference.timed = true
  · rw [if_pos (lists_dumps.mpr listed), if_pos listed, ← typed]
  · rw [if_neg fun found => listed (lists_dumps.mp found), if_neg listed]
    unfold dumps
    rw [map_append, map_singleton]

theorem foldl_withReference {members : Type} (references : List TypedReference) {document : EntityFrontmatter members}
    (typed : document.references = dumps known) :
    references.foldl withReference document = { document with references := dumps (references.foldl attach known) } := by
  induction references generalizing document known with
  | nil => rw [foldl_nil, foldl_nil, ← typed]
  | cons reference rest ih =>
    rw [foldl_cons, foldl_cons, withReference_dumps reference typed]
    exact ih rfl

theorem length_foldl_attach (references : List TypedReference) {more : List TypedReference} (same : ∀ reference, reference ∈ more ↔ reference ∈ known) :
    (references.foldl (keepFirst id) known).length + more.length ≤ (references.foldl attach more).length + known.length := by
  induction references generalizing more known with
  | nil => exact (Nat.add_comm known.length more.length).le
  | cons reference rest ih =>
    have appended : ∀ other, other ∈ more ++ [reference] ↔ other ∈ known ++ [reference] := by
      intro other
      rw [mem_append, mem_append, same other]
    rw [foldl_cons, foldl_cons, keepFirst_id]
    by_cases old : reference ∈ known
    · rw [if_pos old]
      by_cases timed : reference.timed = true
      · have kept : attach more reference = more := if_pos ⟨(same reference).mpr old, timed⟩
        rw [kept]
        exact ih same
      · have added : attach more reference = more ++ [reference] := if_neg fun both => timed both.2
        have still : ∀ other, other ∈ more ++ [reference] ↔ other ∈ known := by
          intro other
          rw [appended, mem_append, mem_singleton]
          exact ⟨fun member => member.elim id fun here => here ▸ old, .inl⟩
        have grown := ih still
        rw [length_append, length_singleton] at grown
        rw [added]
        omega
    · have added : attach more reference = more ++ [reference] := if_neg fun both => old ((same reference).mp both.1)
      have grown := ih appended
      rw [if_neg old, added]
      rw [length_append, length_append, length_singleton] at grown
      omega

/-- Each distinct reference is attached once where those that come again have both of their times. -/
theorem foldl_attach_eq (references known : List TypedReference) :
    references.foldl attach known = references.foldl (keepFirst id) known ↔
      ∀ reference ∈ references, reference ∈ known ∨ List.Duplicate reference references → reference.timed = true := by
  induction references generalizing known with
  | nil => simp
  | cons reference rest ih =>
    rw [foldl_cons, foldl_cons, keepFirst_id]
    by_cases old : reference ∈ known
    · rw [if_pos old]
      by_cases timed : reference.timed = true
      · have kept : attach known reference = known := if_pos ⟨old, timed⟩
        rw [kept, ih]
        constructor
        · intro later other member again
          rcases mem_cons.mp member with rfl | inside
          · exact timed
          · rcases again with there | twice
            · exact later other inside (.inl there)
            · rcases duplicate_cons_iff.mp twice with ⟨rfl, _⟩ | within
              · exact timed
              · exact later other inside (.inr within)
        · intro every other inside again
          exact every other (mem_cons_of_mem reference inside) (again.imp_right fun twice => twice.duplicate_cons reference)
      · have added : attach known reference = known ++ [reference] := if_neg fun both => timed both.2
        constructor
        · intro same
          have still : ∀ other, other ∈ known ++ [reference] ↔ other ∈ known := by
            intro other
            rw [mem_append, mem_singleton]
            exact ⟨fun member => member.elim id fun here => here ▸ old, .inl⟩
          have grown := length_foldl_attach rest still
          rw [added] at same
          rw [same, length_append, length_singleton] at grown
          omega
        · intro every
          exact absurd (every reference mem_cons_self (.inl old)) timed
    · have added : attach known reference = known ++ [reference] := if_neg fun both => old both.1
      rw [if_neg old, added, ih]
      constructor
      · intro later other member again
        have repeated : other ∈ rest ∧ (other ∈ known ++ [reference] ∨ List.Duplicate other rest) := by
          rcases again with there | twice
          · rcases mem_cons.mp member with rfl | inside
            · exact absurd there old
            · exact ⟨inside, .inl (mem_append_left _ there)⟩
          · rcases duplicate_cons_iff.mp twice with ⟨rfl, inside⟩ | within
            · exact ⟨inside, .inl (mem_append_right _ mem_cons_self)⟩
            · exact ⟨within.mem, .inr within⟩
        exact later other repeated.1 repeated.2
      · intro every other inside again
        apply every other (mem_cons_of_mem reference inside)
        rcases again with there | within
        · rcases mem_append.mp there with before | here
          · exact .inl before
          · rw [mem_singleton.mp here] at inside ⊢
            exact .inr (duplicate_cons_self_iff.mpr inside)
        · exact .inr (within.duplicate_cons reference)

/-! Runs. -/

section
variable {site : Site} {members : Type} {formats : Formats members}

structure Resolves (site : Site) (formats : Formats members) (declared : List Declared) (staged : List (String × String))
    (proposed : ProposedRelation) (entry : String × TypedReference) : Prop where
  source : ∃ path, (resolveEntity site formats declared proposed.source path).Returns entry.1
  target : ∃ path, (resolveTarget site formats declared proposed.target path).Returns entry.2.target
  observations : ∃ path, (observationUris site formats staged path proposed.sourceObservations).Returns entry.2.sourceObservations
  relation : entry.2.relation = proposed.relation
  confidence : entry.2.confidence = proposed.confidence
  validFrom : entry.2.validFrom = proposed.validFrom
  validTo : entry.2.validTo = proposed.validTo
  note : entry.2.note = proposed.note

/-- The relations of a document, of those that are attached to all of them. -/
def referencesOf (uri : String) (resolved : List (String × TypedReference)) : List TypedReference :=
  (resolved.filter fun entry => entry.1 == uri).map Prod.snd

/-- A document before its relations are attached: it is staged, or else it is read from the store. -/
def Before (site : Site) (formats : Formats members) (states : DocumentStates members) (uri : String) (state : DocumentState members) : Prop :=
  (uri, state) ∈ states ∨ states.get uri = none ∧ (loadExistingRelationSource site formats uri).Returns state

theorem returns_attachRelation {declared : List Declared} {staged : List (String × String)} {index : Nat} {relation : ProposedRelation}
    {states after : DocumentStates members} (returns : (attachRelation site formats declared staged index relation states).Returns after) :
    ∃ uri reference state, Resolves site formats declared staged relation (uri, reference) ∧ Before site formats states uri state ∧
      after = states.put uri { state with document := withReference state.document reference } := by
  obtain ⟨uri, named, returns⟩ := Client.Returns.of_bind returns
  obtain ⟨target, aimed, returns⟩ := Client.Returns.of_bind returns
  obtain ⟨sources, observed, returns⟩ := Client.Returns.of_bind returns
  obtain ⟨_, _, returns⟩ := Client.Returns.of_bind returns
  obtain ⟨_, _, returns⟩ := Client.Returns.of_bind returns
  obtain ⟨state, source, returns⟩ := Client.Returns.of_bind returns
  obtain ⟨document, appended, returns⟩ := Client.Returns.of_bind returns
  have done := Client.Returns.of_ofExcept appended
  unfold appendReference at done
  split at done
  · cases done
    refine ⟨uri, _, state, ⟨⟨_, named⟩, ⟨_, aimed⟩, ⟨_, observed⟩, rfl, rfl, rfl, rfl, rfl⟩, ?_, Client.Returns.of_ret returns⟩
    unfold relationSource at source
    split at source
    · next found =>
      rw [Client.Returns.of_ret source]
      exact .inl (Directory.mem_of_get found)
    · next missing => exact .inr ⟨missing, source⟩
  · cases done

theorem returns_attachRelations {declared : List Declared} {staged : List (String × String)} (relations : List ProposedRelation) {index : Nat}
    {states after : DocumentStates members} (returns : (attachRelations site formats declared staged index relations states).Returns after) :
    ∃ resolved : List (String × TypedReference), List.Forall₂ (Resolves site formats declared staged) relations resolved ∧
      ∀ uri state, (uri, state) ∈ after → ∃ before, Before site formats states uri before ∧
        state = { before with document := (referencesOf uri resolved).foldl withReference before.document } := by
  induction relations generalizing index states with
  | nil =>
    rw [Client.Returns.of_ret returns]
    exact ⟨[], .nil, fun uri state member => ⟨state, .inl member, rfl⟩⟩
  | cons relation rest ih =>
    obtain ⟨attached, first, later⟩ := Client.Returns.of_bind returns
    obtain ⟨uri, reference, source, resolves, origin, rfl⟩ := returns_attachRelation first
    obtain ⟨resolved, related, every⟩ := ih later
    refine ⟨(uri, reference) :: resolved, .cons resolves related, fun other state member => ?_⟩
    obtain ⟨before, known, shape⟩ := every other state member
    by_cases same : uri = other
    · subst same
      have own : before = { source with document := withReference source.document reference } := by
        rcases known with listed | ⟨missing, _⟩
        · rcases mem_cons.mp listed with here | there
          · exact (Prod.mk.inj here).2
          · exact absurd rfl (bne_iff_ne.mp (mem_filter.mp there).2)
        · rw [Directory.get_put_self] at missing
          cases missing
      refine ⟨source, origin, ?_⟩
      unfold referencesOf at shape ⊢
      rw [filter_cons_of_pos (by simp), map_cons, foldl_cons, shape, own]
    · refine ⟨before, ?_, ?_⟩
      · rcases known with listed | ⟨missing, loaded⟩
        · rcases mem_cons.mp listed with here | there
          · exact absurd (Prod.mk.inj here).1.symm same
          · exact .inl (mem_filter.mp there).1
        · rw [Directory.get_put_of_ne fun equal => same equal.symm] at missing
          exact .inr ⟨missing, loaded⟩
      · unfold referencesOf at shape ⊢
        rw [filter_cons_of_neg (by simpa using same)]
        exact shape

def Typed (document : EntityFrontmatter members) : Prop := ∃ known, document.references = dumps known

def Formats.ReadsTyped (formats : Formats members) : Prop :=
  ∀ content document body, formats.readEntity content = some (document, body) ∨ formats.readTask content = some (document, body) → Typed document

theorem returns_loadDocument (reads : formats.ReadsTyped) {isTask : Bool} {sourcePath : String} {state : DocumentState members}
    (returns : (loadDocument site formats isTask sourcePath).Returns state) : Typed state.document := by
  obtain ⟨content, _, returns⟩ := Client.Returns.of_bind returns
  split at returns
  · exact absurd returns Client.Returns.not_raise
  · next bytes _ =>
    split at returns
    · exact absurd returns Client.Returns.not_raise
    · next document body read =>
      obtain ⟨hashed, _, returns⟩ := Client.Returns.of_bind returns
      split at returns
      · exact absurd returns Client.Returns.not_raise
      · rw [Client.Returns.of_ret returns]
        cases isTask with
        | false => exact reads bytes document body (.inl read)
        | true => exact reads bytes document body (.inr read)

theorem returns_loadExistingRelationSource (reads : formats.ReadsTyped) {uri : String} {state : DocumentState members}
    (returns : (loadExistingRelationSource site formats uri).Returns state) : Typed state.document := by
  obtain ⟨record, _, returns⟩ := Client.Returns.of_bind returns
  split at returns
  · exact returns_loadDocument reads returns
  · exact returns_loadDocument reads returns
  · exact absurd returns Client.Returns.not_raise

end

/-- The references of a staged document are those it had and each distinct one of its relations once, where every relation that was
there before, or that the payload lists twice, has both of its times. -/
theorem staged_references (site : Site) {members : Type} (formats : Formats members) (reads : formats.ReadsTyped)
    (prepared : PreparedPayload members) (typed : ∀ entry ∈ prepared.states, Typed entry.2.document) (result : EvidenceStagingResult members)
    (returns : (stageObservations site formats prepared).Returns result) :
    ∃ resolved, List.Forall₂ (Resolves site formats (prepared.declared site) prepared.observations) prepared.relations resolved ∧
      ∀ state ∈ result.documents, ∃ uri before known, Before site formats prepared.states uri before ∧
        before.document.references = dumps known ∧
        state = { before with document := { before.document with references := state.document.references } } ∧
        (state.document.references = dumps ((referencesOf uri resolved).foldl (keepFirst id) known) ↔
          ∀ reference ∈ referencesOf uri resolved, reference ∈ known ∨ List.Duplicate reference (referencesOf uri resolved) →
            reference.timed = true) := by
  obtain ⟨states, attached, returns⟩ := Client.Returns.of_bind returns
  obtain ⟨base, _, returns⟩ := Client.Returns.of_bind returns
  rw [Client.Returns.of_ret returns]
  obtain ⟨resolved, related, every⟩ := returns_attachRelations prepared.relations attached
  refine ⟨resolved, related, fun state member => ?_⟩
  obtain ⟨uri, there⟩ := mem_orderedStates member
  obtain ⟨before, origin, shape⟩ := every uri state there
  obtain ⟨known, references⟩ : Typed before.document := by
    rcases origin with listed | ⟨_, loaded⟩
    · exact typed (uri, before) listed
    · exact returns_loadExistingRelationSource reads loaded
  rw [foldl_withReference _ references] at shape
  refine ⟨uri, before, known, origin, references, ?_, ?_⟩
  · rw [shape]
  · rw [shape, ← foldl_attach_eq]
    exact dumps_injective.eq_iff

/-! A project to which one relation is attached, and the same one twice. -/

theorem sampleFormats_typed : sampleFormats.ReadsTyped := by
  intro content document body read
  rcases read with entity | task
  · unfold sampleFormats at entity
    dsimp only at entity
    split at entity
    · next title rest _ =>
      obtain ⟨rfl, _⟩ := Prod.mk.inj (Option.some.inj entity)
      refine ⟨List.replicate (rest.takeWhile (· == '+')).length sampleReference, ?_⟩
      unfold project dumps
      rw [map_replicate]
    · cases entity
  · cases task

def twicePayload : PreparedPayload Unit := { samplePayload with relations := samplePayload.relations ++ samplePayload.relations }

theorem twicePayload_typed : ∀ entry ∈ twicePayload.states, Typed entry.2.document := by
  intro entry member
  rw [mem_singleton.mp (show entry ∈ [_] from member)]
  exact ⟨[], rfl⟩

def sampleStaging (payload : PreparedPayload Unit) : Except EvidenceError (EvidenceStagingResult Unit) :=
  ((stageObservations evidenceSite sampleFormats payload).alone evidenceWorld).1

theorem staged_references_sample : ∃ result, sampleStaging twicePayload = .ok result ∧
    ∃ resolved, List.Forall₂ (Resolves evidenceSite sampleFormats (twicePayload.declared evidenceSite) twicePayload.observations)
      twicePayload.relations resolved ∧ result.documents ≠ [] := by
  have staged : (sampleStaging twicePayload).toOption.any (fun result => !result.documents.isEmpty) = true := by decide +kernel
  cases done : sampleStaging twicePayload with
  | error error =>
    rw [done] at staged
    cases staged
  | ok result =>
    obtain ⟨resolved, related, _⟩ := staged_references evidenceSite sampleFormats sampleFormats_typed twicePayload twicePayload_typed result
      (Client.Returns.of_alone done)
    rw [done] at staged
    exact ⟨result, rfl, resolved, related, by simpa [Except.toOption] using staged⟩

/-- A relation without times that a payload lists twice is attached twice. -/
theorem relation_attached_twice : ∃ result, (stageObservations evidenceSite sampleFormats twicePayload).Returns result ∧
    ∃ before, Before evidenceSite sampleFormats twicePayload.states projectUri before ∧ before.document.references = dumps [] ∧
      ∃ state ∈ result.documents, state.document.uri = projectUri ∧
        state.document.references ≠ dumps ([sampleReference, sampleReference].foldl (keepFirst id) []) := by
  have loaded : (loadExistingRelationSource evidenceSite sampleFormats projectUri).Returns
      ⟨false, projectPath, project "A" 0, "", some (hashBytes evidenceSite firstContent)⟩ := by
    refine @Client.Returns.of_alone _ _ _ _ _ evidenceWorld _ ?_
    rfl
  have staged : (sampleStaging twicePayload).toOption.any (fun result => result.documents.any fun state =>
      state.document.uri == projectUri && state.document.references.length == 2) = true := by decide +kernel
  cases done : sampleStaging twicePayload with
  | error error =>
    rw [done] at staged
    cases staged
  | ok result =>
    rw [done] at staged
    obtain ⟨state, member, found⟩ := List.any_eq_true.mp (show result.documents.any _ = true from staged)
    obtain ⟨own, two⟩ := Bool.and_eq_true_iff.mp found
    refine ⟨result, Client.Returns.of_alone done, _, .inr ⟨rfl, loaded⟩, rfl, state, member, beq_iff_eq.mp own, fun same => ?_⟩
    have one : (dumps ([sampleReference, sampleReference].foldl (keepFirst id) [])).length = 1 := by decide +kernel
    rw [same, one] at two
    cases two

end Workctx.Evidence
