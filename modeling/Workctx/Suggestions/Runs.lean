import Workctx.Suggestions.Lifecycle

/-! Suggestions in any interleaving of their calls: each call keeps the promise of the lifecycle, if
every transition takes the hash it expects from a record that is still open. -/

namespace Workctx.Suggestions
open Workctx.Concurrent Workctx.Text Workctx.Domain Workctx.Staging Workctx.Engine Workctx.Services List

inductive Call (site : Site) where
  | create (payload : SuggestionPayload site.library.platform) (approved : Bool) (draws : SuggestionDraws)
  | adopt (suggestion : String) (approved : Bool) (draws : SuggestionDraws)
  | reject (suggestion : String) (approved : Bool) (draws : SuggestionDraws)

def Call.client {site : Site} : Call site → SuggestionClient (SuggestionMutationResult site.library)
  | .create payload approved draws => Suggestions.create site payload draws approved
  | .adopt suggestion approved draws => Suggestions.adopt site suggestion approved draws
  | .reject suggestion approved draws => Suggestions.reject site suggestion approved draws

section
variable (site : Site)

/-- All the calls of a run, about to start in a workspace. -/
def suggestionPool (calls : Nat → Call site) (world : SuggestionWorld) :
    Pool Nat SuggestionWorld Note SuggestionError (SuggestionMutationResult site.library) :=
  ⟨fun number => (calls number).client, world⟩

/-- The bytes from which a transition takes the hash it expects are those of an open record. -/
def HashesOpen (note : Note) (world : SuggestionWorld) : Prop :=
  ∀ suggestionId content, note = .expected suggestionId →
    world.files.get (suggestionPath suggestionId) = some content → IsOpen site suggestionId content

/-- The actions of the runs in question: the files keep to the known contents, and every transition
takes its hash from an open record. -/
def Careful (known : Set Bytes) (note : Note) (before after : SuggestionWorld) : Prop :=
  Inside known before ∧ Inside known after ∧ HashesOpen site note before

/-- What a record that is written is read again with. -/
structure Agrees (one two : SuggestionRecord site.library) : Prop where
  status : one.statusOf = two.statusOf
  proposal : one.extras.proposal = two.extras.proposal
  supersedes : one.extras.supersedes = two.extras.supersedes
  supersededBy : one.extras.supersededBy = two.extras.supersededBy

/-- What is relied on of the digest, of case folding, and of the format of the documents. -/
structure Laws (known : Set Bytes) : Prop where
  free : Set.InjOn (hashBytes site) known
  folds : ∀ one two, site.library.platform.casefold (one ++ two) =
    site.library.platform.casefold one ++ site.library.platform.casefold two
  readsBack : ∀ (record validated : SuggestionRecord site.library) body, record.modelValidate = .ok validated →
    recordPayload site validated body ∈ known →
    ∃ document, documentAt site validated.id (recordPayload site validated body) = .ok document ∧
      Agrees site document.record validated

end

section
variable {site : Site} {known : Set Bytes} {start before after : SuggestionWorld}

/-- The client keeps the promise, and has the result it promises. -/
abbrev Behaves (site : Site) (known : Set Bytes) {α : Type} (client : SuggestionClient α) (start : SuggestionWorld)
    (post : Except SuggestionError α → SuggestionWorld → Prop) : Prop :=
  client.Keeps (Careful site known) (Lawful site) (Lawful site) post start

abbrev Anyway {α : Type} : Except SuggestionError α → SuggestionWorld → Prop := fun _ _ => True

theorem raise_anyway {α : Type} (error : SuggestionError) : Behaves site known (.raise error : SuggestionClient α) start Anyway :=
  fun _ _ => trivial

/-! Reading. -/

/-- The document was read from the file in an earlier state. -/
def Seen (site : Site) (known : Set Bytes) (document : SuggestionDocument site.library) (last : SuggestionWorld) : Prop :=
  ∃ content ∈ known, ∃ state, Lawful site state last ∧
    state.files.get (suggestionPath document.record.id) = some content ∧
    documentAt site document.record.id content = .ok document

/-- The identity of what is read is the one that is asked for. -/
def Requested (site : Site) (known : Set Bytes) (value : String)
    (result : Except SuggestionError (SuggestionDocument site.library)) (last : SuggestionWorld) : Prop :=
  ∀ document, result = .ok document → Seen site known document last ∧ identifier site value = .ok document.record.id

theorem readContent_behaves (suggestionId : String) :
    Behaves site known (readContent site suggestionId) start fun result last =>
      ∀ document, result = .ok document → Seen site known document last ∧ document.record.id = suggestionId := by
  apply Client.Keeps.observe Lawful.refl
  intro state step meets
  split
  · intro last later document same
    cases same
  · next content found =>
    cases outcome : documentAt site suggestionId content with
    | error error =>
      intro last later document same
      cases same
    | ok document =>
      intro last later other same
      cases same
      have identity := (documentAt_ok outcome).1
      refine ⟨⟨content, meets.1 _ _ found, state, later, ?_, ?_⟩, identity⟩
      · rw [identity]
        exact found
      · rw [identity]
        exact outcome

theorem readRequired_behaves (value : String) :
    Behaves site known (readRequired site value) start (Requested site known value) := by
  apply Client.Keeps.ofExcept
  · intro suggestionId selected
    apply Client.Keeps.observe Lawful.refl
    intro state step _
    apply Client.Keeps.ensure
    · intro _
      apply Client.Keeps.weaken (readContent_behaves suggestionId)
      intro result last read document same
      obtain ⟨seen, identity⟩ := read document same
      rw [identity]
      exact ⟨seen, selected⟩
    · intro _ last later document same
      cases same
  · intro error _ last later document same
    cases same

theorem readOptional_behaves (value : String) : Behaves site known (readOptional site value) start Anyway := by
  apply Client.Keeps.ofExcept
  · intro suggestionId _
    apply Client.Keeps.observe Lawful.refl
    intro state step _
    split
    · apply Client.Keeps.bind Lawful.refl (readContent_behaves suggestionId)
      · exact fun _ _ _ _ _ => trivial
      · exact fun _ _ _ => trivial
    · exact fun _ _ => trivial
  · exact fun error _ => raise_anyway error

theorem contentHash_behaves {document : SuggestionDocument site.library} (seen : Seen site known document start) :
    Behaves site known (contentHash site document.record.id) start fun result _ => ∀ hash, result = .ok hash →
      ∃ content ∈ known, documentAt site document.record.id content = .ok document ∧ hash = hashBytes site content := by
  apply Client.Keeps.observe Lawful.refl
  intro state step meets
  split
  · next bytes found =>
    intro last _ hash same
    cases same
    obtain ⟨content, inside, earlier, since, here, read⟩ := seen
    rcases (since.trans step).kept _ content here with same | ⟨other, replaced, _, closed, _, _, again, shut, _⟩
    · rw [found] at same
      cases same
      exact ⟨bytes, inside, read, rfl⟩
    · obtain ⟨current, opened, isOpen⟩ := meets.2.2 _ bytes rfl found
      rw [found] at replaced
      cases replaced
      rw [opened] at again
      cases again
      exact absurd isOpen shut
  · intro last _ hash same
    cases same

/-! Committing. -/

variable {proposal : Proposal} {record : SuggestionRecord site.library} {status : SuggestionStatus} {suggestionId : String}

theorem transactionApply_behaves {approved : Bool}
    (lawful : ∀ before after : SuggestionWorld, Inside known before → Inside known after →
      Committed site proposal before after → Lawful site before after) :
    Behaves site known (transactionApply site proposal approved) start Anyway := by
  apply Client.Keeps.transact Lawful.refl
  · intro state result after step done meets
    rcases commit_ok (mapError_ok.mp done) with ⟨rfl, committed⟩ | ⟨⟨failure, rfl⟩, rolledBack⟩
    · exact ⟨lawful state after meets.1 meets.2.1 committed, fun _ _ => trivial⟩
    · exact ⟨Lawful.rolledBack rolledBack, fun _ _ => trivial⟩
  · exact fun state error _ _ => raise_anyway error

theorem submit_behaves {kind : MutationKind} {supersededId : Option String} {draws : SuggestionDraws}
    {change : LifecycleChange}
    (lawful : ∀ (base : String) (before after : SuggestionWorld), Inside known before → Inside known after →
      Committed site (lifecycleProposal site draws.token change base) before after → Lawful site before after) :
    Behaves site known (submit site kind supersededId draws change) start Anyway := by
  apply Client.Keeps.observe Lawful.refl
  intro state step _
  apply Client.Keeps.ensure
  · intro _
    apply Client.Keeps.bind Lawful.refl (transactionApply_behaves (lawful _))
    · intro receipt later _
      apply Client.Keeps.bind Lawful.refl (readRequired_behaves change.suggestionId)
      · exact fun _ _ _ _ _ => trivial
      · exact fun _ _ _ => trivial
    · exact fun _ _ _ => trivial
  · exact fun _ => raise_anyway _

theorem embedded_outside (laws : Laws site known) {proposal : TransactionProposal site.library.platform}
    (inScope : validateDataFixScope site proposal = .ok ()) :
    ∀ operation ∈ proposal.operations.map (compileOperation site), ∀ suggestionId,
      suggestionPath suggestionId ∉ operation.paths := by
  intro operation member suggestionId touched
  obtain ⟨source, known, rfl⟩ := mem_map.mp member
  have paths : (compileOperation site source).paths = source.paths := by
    cases source <;> rfl
  rw [paths] at touched
  unfold validateDataFixScope at inScope
  split at inScope
  · cases inScope
  · next outside =>
    apply outside
    rw [any_eq_true]
    refine ⟨source, known, ?_⟩
    rw [any_eq_true]
    refine ⟨suggestionPath suggestionId, touched, ?_⟩
    unfold suggestionPath
    rw [String.append_assoc, laws.folds, String.toList_append]
    exact isPrefixOf_iff_prefix.mpr (prefix_append _ _)

theorem updatedRecord_ok {updated : SuggestionRecord site.library}
    {updatedAt : AwareDatetime} {supersededBy : Option String}
    (made : updatedRecord site record status updatedAt supersededBy = .ok updated) :
    (∃ source : SuggestionRecord site.library, source.modelValidate = .ok updated) ∧ updated.id = record.id ∧
      updated.statusOf = some status ∧ updated.extras.proposal = record.extras.proposal ∧
      updated.extras.supersedes = record.extras.supersedes ∧ updated.extras.supersededBy = supersededBy := by
  have accepted := mapError_ok.mp made
  obtain ⟨_, ⟨sourceRefs, _, rfl⟩, _⟩ := SuggestionRecord.modelValidate_ok.mp accepted
  exact ⟨⟨_, accepted⟩, rfl, SuggestionStatus.parse_value status, rfl, rfl, rfl⟩

theorem closing_of_updated (laws : Laws site known) {current : SuggestionDocument site.library}
    {updated : SuggestionRecord site.library} {updatedAt : AwareDatetime}
    {supersededBy : Option String} {content : Bytes}
    (read : documentAt site current.record.id content = .ok current) (isOpen : current.record.statusOf = some .isOpen)
    (shut : status ≠ .isOpen) (made : updatedRecord site current.record status updatedAt supersededBy = .ok updated)
    (inside : recordPayload site updated current.body ∈ known) :
    ∃ closed, Closing site current.record.id content (recordPayload site updated current.body) current closed ∧
      closed.record.statusOf = some status ∧ closed.record.extras.supersededBy = supersededBy := by
  obtain ⟨⟨source, accepted⟩, identity, statusOf, proposal, supersedes, superseded⟩ := updatedRecord_ok made
  obtain ⟨closed, again, agrees⟩ := laws.readsBack source updated current.body accepted inside
  rw [identity] at again
  have now : closed.record.statusOf = some status := agrees.status.trans statusOf
  refine ⟨closed, ⟨read, isOpen, again, ?_, agrees.proposal.trans proposal, agrees.supersedes.trans supersedes⟩, now,
    agrees.supersededBy.trans superseded⟩
  rw [now]
  intro same
  exact shut (Option.some.inj same)

theorem written_known {operations : List FileOperation} {expectedHash : String}
    {bytes : Bytes} (committed : Committed site proposal before after)
    (list : proposal.operations = operations ++ [updateOf suggestionId bytes expectedHash]) (inside : Inside known after) :
    bytes ∈ known := by
  have operated := committed.operated
  rw [list, foldlM_append] at operated
  obtain ⟨middle, _, last⟩ := bind_ok.mp operated
  rw [foldlM_cons] at last
  obtain ⟨_, done, same⟩ := bind_ok.mp last
  cases same
  obtain ⟨_, files⟩ := operate_update.mp done
  apply inside (suggestionPath suggestionId)
  rw [files]
  exact Directory.get_put_self _ _ _

theorem pair_known {newId expectedHash : String} {newBytes bytes : Bytes}
    (committed : Committed site proposal before after)
    (pair : proposal.operations = [.create (suggestionPath newId) newBytes, updateOf suggestionId bytes expectedHash])
    (apart : suggestionId ≠ newId) (inside : Inside known after) : newBytes ∈ known ∧ bytes ∈ known := by
  have operated := committed.operated
  rw [pair, foldlM_cons] at operated
  obtain ⟨middle, created, last⟩ := bind_ok.mp operated
  rw [foldlM_cons] at last
  obtain ⟨_, done, same⟩ := bind_ok.mp last
  cases same
  obtain ⟨_, rfl⟩ := operate_create.mp created
  obtain ⟨_, files⟩ := operate_update.mp done
  constructor
  · apply inside (suggestionPath newId)
    rw [files, Directory.get_put_of_ne fun same => apart (suggestionPath_injective same).symm]
    exact Directory.get_put_self _ _ _
  · apply inside (suggestionPath suggestionId)
    rw [files]
    exact Directory.get_put_self _ _ _

/-! The calls. -/

theorem transitionFrom_behaves (laws : Laws site known) {current : SuggestionDocument site.library}
    (seen : Seen site known current start) (isOpen : current.record.statusOf = some .isOpen)
    (kind : status = .adopted ∨ status = .rejected) (draws : SuggestionDraws) :
    Behaves site known (transitionFrom site current status draws) start Anyway := by
  apply Client.Keeps.ofExcept
  · intro updated made
    apply Client.Keeps.bind Lawful.refl (contentHash_behaves seen)
    · intro expectedHash state hashed
      obtain ⟨content, contained, read, rfl⟩ := hashed expectedHash rfl
      apply Client.Keeps.ofExcept
      · intro _ inScope
        apply submit_behaves
        intro base before after inside insideAfter committed
        have bytes := written_known committed rfl insideAfter
        have shut : status ≠ .isOpen := by
          rcases kind with rfl | rfl <;> decide
        obtain ⟨closed, closing, statusOf, _⟩ := closing_of_updated laws read isOpen shut made bytes
        apply Lawful.transitioned committed rfl _ _ closing
        · rcases kind with rfl | rfl
          · left
            refine ⟨statusOf, ?_⟩
            unfold embeddedOperations
            rw [closing.proposal, if_pos rfl]
          · exact .inr ⟨statusOf, rfl⟩
        · intro operation member
          cases embedded : (if status = .adopted then current.record.extras.proposal else none) with
          | none =>
            rw [embedded] at member
            cases member
          | some proposal =>
            rw [embedded] at member
            exact embedded_outside laws (checkSome_ok.mp inScope proposal embedded) operation member
        · intro old present equal
          exact laws.free (inside _ _ present) contained equal
      · exact fun error _ => raise_anyway error
    · exact fun _ _ _ => trivial
  · exact fun error _ => raise_anyway error

theorem transition_behaves (laws : Laws site known) (suggestion : String)
    (kind : status = .adopted ∨ status = .rejected) (approved : Bool) (draws : SuggestionDraws) :
    Behaves site known (transition site suggestion status approved draws) start Anyway := by
  apply Client.Keeps.ensure
  · intro _
    apply Client.Keeps.bind Lawful.refl (readRequired_behaves suggestion)
    · intro current state read
      apply Client.Keeps.ensure
      · intro isOpen
        exact transitionFrom_behaves laws (read current rfl).1 (beq_iff_eq.mp isOpen) kind draws
      · exact fun _ => raise_anyway _
    · exact fun _ _ _ => trivial
  · exact fun _ => raise_anyway _

theorem identifier_self {selected : String} (valid : isSuggestionId suggestionId = true)
    (chosen : identifier site suggestionId = .ok selected) : selected = suggestionId := by
  have start : "SUG-".toList.isPrefixOf suggestionId.toList = true := by
    unfold isSuggestionId matchesDatedSequence at valid
    exact (Bool.and_eq_true_iff.mp valid).1
  obtain ⟨rest, text⟩ := isPrefixOf_iff_prefix.mp start
  have foreign : "workctx://".toList.isPrefixOf suggestionId.toList = false := by
    rw [← text]
    rfl
  obtain ⟨value, first, last⟩ := bind_ok.mp chosen
  unfold namedIdentifier at first
  rw [foreign] at first
  cases first
  rw [if_pos valid] at last
  cases last
  rfl

theorem newRecord_ok {payload : SuggestionPayload site.library.platform}
    {createdAt : AwareDatetime}
    (made : newRecord site payload suggestionId createdAt = .ok record) :
    (∃ source : SuggestionRecord site.library, source.modelValidate = .ok record) ∧ record.id = suggestionId ∧
      record.statusOf = some .isOpen ∧ record.extras.supersedes = payload.supersedes := by
  have accepted := mapError_ok.mp made
  obtain ⟨_, ⟨sourceRefs, _, rfl⟩, _⟩ := SuggestionRecord.modelValidate_ok.mp accepted
  exact ⟨⟨_, accepted⟩, rfl, SuggestionStatus.parse_value .isOpen, rfl⟩

theorem newRecord_read (laws : Laws site known) {payload : SuggestionPayload site.library.platform}
    {createdAt : AwareDatetime} {body : String}
    (made : newRecord site payload suggestionId createdAt = .ok record) (inside : recordPayload site record body ∈ known) :
    ∃ document, documentAt site record.id (recordPayload site record body) = .ok document ∧
      document.record.statusOf = some .isOpen ∧ document.record.extras.supersedes = payload.supersedes := by
  obtain ⟨⟨source, accepted⟩, _, isOpen, supersedes⟩ := newRecord_ok made
  obtain ⟨document, read, agrees⟩ := laws.readsBack source record body accepted inside
  exact ⟨document, read, agrees.status.trans isOpen, agrees.supersedes.trans supersedes⟩

section
variable {payload : SuggestionPayload site.library.platform} {draws : SuggestionDraws}

theorem supersede_behaves (laws : Laws site known) {suggestionId : String} {predecessor : SuggestionDocument site.library}
    (seen : Seen site known predecessor start) (link : payload.supersedes = some predecessor.record.id) :
    Behaves site known (supersede site payload draws suggestionId predecessor) start Anyway := by
  apply Client.Keeps.ensure
  · intro opened
    have isOpen : predecessor.record.statusOf = some .isOpen := beq_iff_eq.mp opened
    apply Client.Keeps.ensure
    · intro _
      apply Client.Keeps.ofExcept
      · intro record made
        apply Client.Keeps.bind Lawful.refl (contentHash_behaves seen)
        · intro oldHash state hashed
          obtain ⟨content, contained, read, rfl⟩ := hashed oldHash rfl
          apply Client.Keeps.ofExcept
          · intro superseded replaced
            apply submit_behaves
            intro base before after inside insideAfter committed
            obtain ⟨⟨source, accepted⟩, identity, _, supersedes⟩ := newRecord_ok made
            have apart : predecessor.record.id ≠ record.id := by
              intro same
              apply supersedes_of_validated accepted
              rw [supersedes, link, same]
            have operations : (lifecycleProposal site draws.token (supersedingChange site payload record predecessor superseded
                (hashBytes site content)) base).operations =
                [.create (suggestionPath record.id) (recordPayload site record payload.body),
                  updateOf predecessor.record.id (recordPayload site superseded predecessor.body) (hashBytes site content)] := rfl
            obtain ⟨newKnown, oldKnown⟩ := pair_known committed operations apart insideAfter
            obtain ⟨document, again, open_, links⟩ := newRecord_read laws made newKnown
            obtain ⟨closed, closing, status, successor_⟩ := closing_of_updated laws read isOpen (by decide) replaced oldKnown
            apply Lawful.superseded committed operations _ again open_ (links.trans link) closing status
            · rw [successor_, identity]
            · intro old present equal
              exact laws.free (inside _ _ present) contained equal
          · exact fun error _ => raise_anyway error
        · exact fun _ _ _ => trivial
      · exact fun error _ => raise_anyway error
    · exact fun _ => raise_anyway _
  · exact fun _ => raise_anyway _

theorem createAs_behaves (laws : Laws site known) (suggestionId : String)
    (valid : payload.supersedes.all isSuggestionId = true) :
    Behaves site known (createAs site payload draws suggestionId) start Anyway := by
  apply Client.Keeps.bind Lawful.refl (readOptional_behaves suggestionId)
  · intro existing state _
    apply Client.Keeps.ensure
    · intro _
      cases linked : payload.supersedes with
      | some old =>
        rw [linked, Option.all_some] at valid
        apply Client.Keeps.bind Lawful.refl (readRequired_behaves old)
        · intro predecessor later read
          obtain ⟨seen, chosen⟩ := read predecessor rfl
          have identity := identifier_self valid chosen
          rw [← identity] at linked
          exact supersede_behaves laws seen linked
        · exact fun _ _ _ => trivial
      | none =>
        apply Client.Keeps.ofExcept
        · intro record made
          apply submit_behaves
          intro base before after inside insideAfter committed
          obtain ⟨_, files⟩ := operate_create.mp (committed.single rfl)
          have written : recordPayload site record payload.body ∈ known := by
            apply insideAfter (suggestionPath record.id)
            rw [files]
            exact Directory.get_put_self _ _ _
          obtain ⟨document, read, isOpen, links⟩ := newRecord_read laws made written
          exact Lawful.created committed rfl read isOpen (links.trans linked)
        · exact fun error _ => raise_anyway error
    · exact fun _ => raise_anyway _
  · exact fun _ _ _ => trivial

theorem chooseId_behaves : Behaves site known (chooseId site payload draws) start Anyway := by
  unfold chooseId
  split
  · exact fun _ _ => trivial
  · apply Client.Keeps.observe Lawful.refl
    intro state step _
    split
    · exact fun _ _ => trivial
    · exact fun _ _ => trivial

theorem create_behaves (laws : Laws site known) (approved : Bool) :
    Behaves site known (create site payload draws approved) start Anyway := by
  apply Client.Keeps.ofExcept
  · intro validated accepted
    have valid : validated.supersedes.all isSuggestionId = true := by
      have checked := mapError_ok.mp accepted
      unfold SuggestionPayload.modelValidate at checked
      iterate 4 obtain ⟨_, checked⟩ := constrain_bind_ok.mp checked
      obtain ⟨linked, checked⟩ := constrain_bind_ok.mp checked
      obtain ⟨_, checked⟩ := constrain_bind_ok.mp checked
      iterate 7 obtain ⟨_, _, checked⟩ := bind_ok.mp checked
      obtain ⟨_, _, same⟩ := bind_ok.mp checked
      cases same
      exact linked
    apply Client.Keeps.ensure
    · intro _
      apply Client.Keeps.ofExcept
      · intro _ _
        apply Client.Keeps.bind Lawful.refl chooseId_behaves
        · exact fun suggestionId _ _ => createAs_behaves laws suggestionId valid
        · exact fun _ _ _ => trivial
      · exact fun error _ => raise_anyway error
    · exact fun _ => raise_anyway _
  · exact fun error _ => raise_anyway error

end

/-- Every call of the service keeps the promise of the lifecycle. -/
theorem client_behaves (laws : Laws site known) (call : Call site) : Behaves site known call.client start Anyway := by
  cases call with
  | create payload approved draws => exact create_behaves laws approved
  | adopt suggestion approved draws => exact transition_behaves laws suggestion (.inl rfl) approved draws
  | reject suggestion approved draws => exact transition_behaves laws suggestion (.inr rfl) approved draws

theorem lawful_compatible (site : Site) : Pool.Compatible (fun _ : Nat => Lawful site) (fun _ => Lawful site) where
  refl := fun _ => Lawful.refl
  trans := fun _ _ _ _ => Lawful.trans
  others := fun _ _ _ _ _ => id

/-- In every interleaving of calls in which every transition takes the hash it expects from an open
record: a suggestion leaves the open state once, and stays as it was closed; what is changed beside
the suggestions are the embedded operations of one that is adopted in the same event, which it is
once; and the links of the suggestions stay inverse to each other. -/
theorem suggestion_lifecycle (site : Site) (known : Set Bytes) (laws : Laws site known) (calls : Nat → Call site)
    (world : SuggestionWorld) (linked : Inverse (predecessor site world.files) (successor site world.files))
    (before after : List Nat) (careful : (suggestionPool site calls world).Meets (Careful site known) (before ++ after)) :
    let earlier := ((suggestionPool site calls world).run before).state
    let later := ((suggestionPool site calls world).run (before ++ after)).state
    Lawful site earlier later ∧
      (∀ suggestionId, (adoptionsOf site suggestionId later).length ≤ (adoptionsOf site suggestionId world).length + 1) ∧
      Inverse (predecessor site later.files) (successor site later.files) := by
  intro earlier later
  have start : (suggestionPool site calls world).Keeps (Careful site known) (fun _ => Lawful site) (fun _ => Lawful site)
      (fun _ => Anyway) := fun number => client_behaves laws (calls number)
  have whole : Lawful site world later :=
    start.relates (lawful_compatible site) Lawful.refl Lawful.trans (fun _ _ _ => id) careful
  obtain ⟨early, late⟩ := careful.append
  have keeps := start.run (lawful_compatible site) early
  refine ⟨?_, ?_, whole.inverse linked⟩
  · have between := keeps.relates (lawful_compatible site) Lawful.refl Lawful.trans (fun _ _ _ => id) late
    rw [← Pool.run_append] at between
    exact between
  · intro suggestionId
    rcases whole.once suggestionId with ⟨same, _⟩ | ⟨count, _⟩
    · rw [same]
      exact Nat.le_succ _
    · exact le_of_eq count

end

/-! A workspace with one suggestion. -/

def sampleId : String := "SUG-20260101-note-01"

def samplePath : String := suggestionPath sampleId

def sampleRecord (status : SuggestionStatus) : SuggestionRecord demoLibrary where
  id := sampleId
  entityType := "investigation"
  title := "Note"
  uri := "workctx://demo/investigation/SUG-20260101-note-01"
  aliases := []
  status := some status.value
  confidence := some "high"
  tags := ["suggestion", "engine_proposal"]
  topics := []
  references := [referenceTo "evidenced_by" "workctx://demo/evidence/EVD-1"]
  createdAt := ⟨0, 0⟩
  updatedAt := ⟨0, 0⟩
  extras :=
    { type := .engineProposal
      rationale := "Note"
      signal := "Seen twice"
      sourceRefs := ["workctx://demo/evidence/EVD-1"]
      proposal := none
      actor := .system "workctx"
      supersedes := none
      supersededBy := none }

def statusMark (status : SuggestionStatus) : Bytes := encodeUtf8 (status.value ++ "\n").toList

/-- The record is the one of the sample, in some state. -/
def isSample (frontmatter : EntityFrontmatter (Extras demoPlatform)) : Bool :=
  frontmatter.id == sampleId &&
    (suggestionFields frontmatter.extras).any fun fields =>
      fields.proposal.isNone && fields.supersedes.isNone && fields.supersededBy.isNone

/-- The demo context: its documents are the sample, written as its status and its body. -/
def suggestionSite : Site where
  library := demoLibrary
  contextId := "demo"
  render := fun frontmatter body =>
    if isSample frontmatter then
      match frontmatter.status.bind SuggestionStatus.parse with
      | some status => statusMark status ++ encodeUtf8 body.toList
      | none => []
    else []
  parse := fun content =>
    ([.isOpen, .adopted, .rejected, .superseded].find? fun status => (statusMark status).isPrefixOf content).map fun status =>
      (narrow (sampleRecord status) (.suggestion (sampleRecord status).extras), asciiText (content.drop (statusMark status).length))
  compile := fun payload => encodeUtf8 payload.body.toList
  utcStamp := fun _ => "20260101T000000Z"
  revision := fun events => toString events.length
  resolvesReference := fun _ _ => true
  verdict := fun _ _ _ => .accepted
  localReview := true
  possibleSecret := fun _ => false

def openSample : Bytes := statusMark .isOpen ++ encodeUtf8 "Body.".toList

def adoptedSample : Bytes := statusMark .adopted ++ encodeUtf8 "Body.".toList

def rejectedSample : Bytes := statusMark .rejected ++ encodeUtf8 "Body.".toList

/-- The suggestion is rejected by one client and adopted by another one. -/
def sampleCalls (number : Nat) : Call suggestionSite :=
  if number = 0 then .reject sampleId true ⟨true, ⟨0, 0⟩, "00000000"⟩
  else .adopt sampleId true ⟨true, ⟨0, 0⟩, "00000001"⟩

def sampleWorld : SuggestionWorld := ⟨[(samplePath, openSample)], [], ()⟩

def sampleRun (schedule : List Nat) : SuggestionWorld := ((suggestionPool suggestionSite sampleCalls sampleWorld).run schedule).state

theorem suggestionSite_parse (status : SuggestionStatus) (rest : Bytes) :
    ∃ body, suggestionSite.parse (statusMark status ++ rest) =
      some (narrow (sampleRecord status) (.suggestion (sampleRecord status).extras), body) := by
  cases status <;> exact ⟨_, rfl⟩

theorem sampleRecord_accepted {status : SuggestionStatus} (valid : status ≠ .superseded) :
    (SuggestionRecord.modelValidate (sampleRecord status)).isOk = true := by
  cases status with
  | isOpen => decide +kernel
  | adopted => decide +kernel
  | rejected => decide +kernel
  | superseded => exact absurd rfl valid

theorem sample_read {status : SuggestionStatus} (valid : status ≠ .superseded) (rest : Bytes) :
    ∃ document, documentAt suggestionSite sampleId (statusMark status ++ rest) = .ok document ∧
      document.record.statusOf = some status ∧ document.record.extras.proposal = none ∧
      document.record.extras.supersedes = none ∧ document.record.extras.supersededBy = none := by
  obtain ⟨body, parses⟩ := suggestionSite_parse status rest
  have accepted := sampleRecord_accepted valid
  cases outcome : SuggestionRecord.modelValidate (sampleRecord status) with
  | error message =>
    rw [outcome] at accepted
    cases accepted
  | ok record =>
    obtain ⟨_, ⟨sourceRefs, _, rfl⟩, _⟩ := SuggestionRecord.modelValidate_ok.mp outcome
    refine ⟨⟨{ sampleRecord status with extras := { (sampleRecord status).extras with sourceRefs := sourceRefs } }, body⟩,
      ?_, SuggestionStatus.parse_value status, rfl, rfl, rfl⟩
    unfold documentAt
    rw [parses]
    have read : readSuggestion suggestionSite.library ⟨suggestionPath sampleId,
        narrow (sampleRecord status) (.suggestion (sampleRecord status).extras), body⟩ = _ := outcome
    dsimp only
    rw [read]
    rfl

theorem statusMark_head (status : SuggestionStatus) (rest : Bytes) :
    (statusMark status ++ rest).head? = (statusMark status).head? := by
  cases status <;> rfl

theorem statusMark_apart {one two : SuggestionStatus} {left right : Bytes}
    (same : statusMark one ++ left = statusMark two ++ right) : one = two := by
  have first := congrArg List.head? same
  rw [statusMark_head, statusMark_head] at first
  cases one <;> cases two <;> first | rfl | exact absurd first (by decide)

theorem suggestionSite_laws : Laws suggestionSite { content | content ∈ [openSample, adoptedSample] } where
  free := by
    have apart : hashBytes suggestionSite openSample ≠ hashBytes suggestionSite adoptedSample := by decide +kernel
    intro one oneKnown two twoKnown same
    rcases mem_pair.mp oneKnown with rfl | rfl <;> rcases mem_pair.mp twoKnown with rfl | rfl
    · rfl
    · exact absurd same apart
    · exact absurd same.symm apart
    · rfl
  folds := fun _ _ => rfl
  readsBack := by
    intro record validated body accepted written
    have rendered : recordPayload suggestionSite validated body = if isSample (generic suggestionSite validated) then
        (match validated.statusOf with
          | some status => statusMark status ++ encodeUtf8 body.toList
          | none => []) else [] := rfl
    have nonempty : [] ∉ [openSample, adoptedSample] := by decide +kernel
    rw [rendered] at written ⊢
    cases sample : isSample (generic suggestionSite validated) with
    | false =>
      rw [sample] at written
      exact absurd written nonempty
    | true =>
      rw [sample, if_pos rfl] at written
      rw [if_pos rfl]
      cases state : validated.statusOf with
      | none =>
        rw [state] at written
        exact absurd written nonempty
      | some status =>
        rw [state] at written
        have valid : status ≠ .superseded := by
          rcases mem_pair.mp written with same | same
          · rw [statusMark_apart same]
            decide
          · rw [statusMark_apart same]
            decide
        obtain ⟨document, read, status', proposal, supersedes, supersededBy⟩ := sample_read valid (encodeUtf8 body.toList)
        obtain ⟨identity, members⟩ := Bool.and_eq_true_iff.mp sample
        have same : validated.id = sampleId := beq_iff_eq.mp identity
        have members : (validated.extras.proposal.isNone && validated.extras.supersedes.isNone &&
            validated.extras.supersededBy.isNone) = true := members
        rw [Bool.and_eq_true, Bool.and_eq_true, Option.isNone_iff_eq_none, Option.isNone_iff_eq_none,
          Option.isNone_iff_eq_none] at members
        obtain ⟨⟨noProposal, noPredecessor⟩, noSuccessor⟩ := members
        rw [same]
        exact ⟨document, read, status'.trans state.symm, proposal.trans noProposal.symm,
          supersedes.trans noPredecessor.symm, supersededBy.trans noSuccessor.symm⟩

/-- The contents are the given ones, and a transition takes its hash from an open sample. -/
def carefulTest (contents : List Bytes) (note : Note) (before after : SuggestionWorld) : Bool :=
  before.files.all (fun entry => contents.contains entry.2) && after.files.all (fun entry => contents.contains entry.2) &&
    match note with
    | .expected suggestionId => suggestionId == sampleId &&
        (before.files.get (suggestionPath suggestionId)).all fun content => (statusMark .isOpen).isPrefixOf content
    | .plain => true

theorem careful_of_test {contents : List Bytes} (note : Note) (before after : SuggestionWorld)
    (passed : carefulTest contents note before after = true) :
    Careful suggestionSite { content | content ∈ contents } note before after := by
  unfold carefulTest at passed
  rw [Bool.and_eq_true, Bool.and_eq_true] at passed
  refine ⟨inside_of_all passed.1.1, inside_of_all passed.1.2, ?_⟩
  intro suggestionId content expected found
  have opened := passed.2
  rw [expected] at opened
  obtain ⟨identity, marked⟩ := Bool.and_eq_true_iff.mp opened
  have same : suggestionId = sampleId := beq_iff_eq.mp identity
  rw [found, Option.all_some] at marked
  obtain ⟨rest, text⟩ := isPrefixOf_iff_prefix.mp marked
  obtain ⟨document, read, status, _⟩ := sample_read (by decide : SuggestionStatus.isOpen ≠ .superseded) rest
  rw [← text, same]
  exact ⟨document, read, status⟩

theorem sampleWorld_linked :
    Inverse (predecessor suggestionSite sampleWorld.files) (successor suggestionSite sampleWorld.files) := by
  obtain ⟨document, read, _, _, supersedes, supersededBy⟩ :=
    sample_read (by decide : SuggestionStatus.isOpen ≠ .superseded) (encodeUtf8 "Body.".toList)
  have alone : ∀ suggestionId, predecessor suggestionSite sampleWorld.files suggestionId = none ∧
      successor suggestionSite sampleWorld.files suggestionId = none := by
    intro suggestionId
    unfold predecessor successor
    by_cases same : suggestionId = sampleId
    · have found : documentOf suggestionSite sampleWorld.files suggestionId = some document := by
        rw [same]
        have here : sampleWorld.files.get samplePath = some openSample := Directory.get_put_self [] samplePath openSample
        exact documentOf_of here read
      rw [found]
      exact ⟨supersedes, supersededBy⟩
    · have apart : suggestionPath suggestionId ≠ samplePath := fun equal => same (suggestionPath_injective equal)
      have absent : sampleWorld.files.get (suggestionPath suggestionId) = none := by
        have below : (Directory.put [] samplePath openSample).get (suggestionPath suggestionId) = Directory.get [] _ :=
          Directory.get_put_of_ne apart
        exact below
      rw [documentOf_absent absent]
      exact ⟨rfl, rfl⟩
  intro old new
  rw [(alone old).2, (alone new).1]
  exact iff_of_false nofun nofun

theorem suggestion_lifecycle_sample :
    Lawful suggestionSite (sampleRun []) (sampleRun (List.replicate 7 1)) ∧
      (∀ suggestionId, (adoptionsOf suggestionSite suggestionId (sampleRun (List.replicate 7 1))).length ≤
        (adoptionsOf suggestionSite suggestionId sampleWorld).length + 1) ∧
      Inverse (predecessor suggestionSite (sampleRun (List.replicate 7 1)).files)
        (successor suggestionSite (sampleRun (List.replicate 7 1)).files) := by
  apply suggestion_lifecycle suggestionSite _ suggestionSite_laws sampleCalls sampleWorld sampleWorld_linked []
  apply Pool.Meets.of_admits careful_of_test
  decide +kernel

/-- A rejection that read the suggestion while it was open, and its hash after it was adopted, takes
the adoption back. -/
theorem stale_rejection : (sampleRun ([0, 0] ++ List.replicate 7 1)).files.get samplePath = some adoptedSample ∧
    (sampleRun ([0, 0] ++ List.replicate 7 1 ++ [0, 0, 0])).files.get samplePath = some rejectedSample ∧
    StatusAt suggestionSite .adopted (sampleRun ([0, 0] ++ List.replicate 7 1)).files sampleId ∧
    StatusAt suggestionSite .rejected (sampleRun ([0, 0] ++ List.replicate 7 1 ++ [0, 0, 0])).files sampleId := by
  have states : (sampleRun ([0, 0] ++ List.replicate 7 1)).files.get samplePath = some adoptedSample ∧
      (sampleRun ([0, 0] ++ List.replicate 7 1 ++ [0, 0, 0])).files.get samplePath = some rejectedSample := by
    decide +kernel
  obtain ⟨adopted, rejected⟩ := states
  obtain ⟨before, readBefore, statusBefore, _⟩ := sample_read (by decide : SuggestionStatus.adopted ≠ .superseded)
    (encodeUtf8 "Body.".toList)
  obtain ⟨after, readAfter, statusAfter, _⟩ := sample_read (by decide : SuggestionStatus.rejected ≠ .superseded)
    (encodeUtf8 "Body.".toList)
  exact ⟨adopted, rejected, ⟨before, documentOf_of adopted readBefore, statusBefore⟩,
    ⟨after, documentOf_of rejected readAfter, statusAfter⟩⟩

end Workctx.Suggestions
