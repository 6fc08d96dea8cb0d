import Workctx.Drafting.Delivery

/-! What a call of the outbox does to the workspace, whatever the other calls do between its actions. -/

namespace Workctx.Drafting
open Workctx.Concurrent Workctx.Text Workctx.Domain Workctx.Staging Workctx.Engine Workctx.Services

inductive Call where
  | save (payload : DraftPayload) (approved : Bool) (draws : SaveDraws)
  | send (draftId channel target : String) (approved : Bool) (fingerprint : String) (draws : SendDraws)

inductive Reply where
  | saved (result : DraftSaveResult)
  | sent (result : SendResult)

def Call.client (site : Site) (number : Nat) : Call → OutboxClient Reply
  | .save payload approved draws => (saveDraft site payload approved draws).bind fun result => .ret (.saved result)
  | .send draftId channel target approved fingerprint draws =>
    (Drafting.send site number draftId channel target draws approved fingerprint).bind fun result => .ret (.sent result)

/-- All the calls of a run, about to start in a workspace. -/
def outbox (site : Site) (calls : Nat → Call) (world : OutboxWorld) : Pool Nat OutboxWorld Note DraftError Reply :=
  ⟨fun number => (calls number).client site number, world⟩

section
variable (site : Site)

def IsSent (content : Bytes) : Prop :=
  ∃ parsed fields, site.parse content = some parsed ∧ fieldsOf parsed.1.extras = some fields ∧ fields.deliveryState = .sent

/-- Every sent document of the first state is in the second one, byte for byte. -/
def SentKept (before after : OutboxWorld) : Prop :=
  ∀ path content, before.files.get path = some content → IsSent site content → after.files.get path = some content

/-- The bytes from which a save takes the hash it expects are not those of a sent draft. -/
def HashesUnsent (note : Note) (world : OutboxWorld) : Prop :=
  ∀ path content, note = .expected path → world.files.get path = some content → ¬IsSent site content

/-- The actions of the runs in question: the files keep to the known contents, and no save takes its
hash from a sent draft. -/
def Careful (known : Set Bytes) (note : Note) (before after : OutboxWorld) : Prop :=
  Inside known before ∧ Inside known after ∧ HashesUnsent site note before

def postsOf (number : Nat) (world : OutboxWorld) : List Post := world.remote.filter fun post => post.call == number

/-- What a call relies on: sent documents, its own requests and the events of the ledger stay. -/
structure Others (number : Nat) (before after : OutboxWorld) : Prop where
  sent : SentKept site before after
  posts : postsOf number after = postsOf number before
  events : ∀ event ∈ before.events, event ∈ after.events

def Records (event : Event) (post : Post) (comment : RemoteComment) : Prop :=
  event.result = .committed ∧ event.proposal.actor = sendActor ∧
    ∃ (draftId hash : String) (frontmatter : EntityFrontmatter (Extras site.library.platform)) (fields : DraftFields)
      (delivery : DraftDelivery),
      event.proposal.operations = [.update (draftPath draftId) (site.render frontmatter post.body) hash] ∧
      fieldsOf frontmatter.extras = some fields ∧ fields.deliveryState = .sent ∧ fields.delivery = some delivery ∧
      delivery.target = post.target ∧ delivery.remoteCommentId = comment.commentId ∧
      delivery.remoteCommentUrl = comment.url

/-- Every comment that was made by a finished call is recorded when the call returns, and reported
when it raises an exception. -/
def Reported {α : Type} (number : Nat) (result : Except DraftError α) (world : OutboxWorld) : Prop :=
  ∀ post ∈ postsOf number world, ∀ comment, post.comment = some comment →
    (∀ value, result = .ok value → ∃ event ∈ world.events, Records site event post comment) ∧
      ∀ error, result = .error error → error = .sendAuditCommit comment.commentId comment.url

structure SnapshotOf (allowed : Note → OutboxWorld → OutboxWorld → Prop) (draftId channel target : String)
    (prepared : PreparedSend site) (content : Bytes) : Prop where
  identified : draftIdentifier site draftId = .ok prepared.draft.id
  hash : prepared.contentHash = hashBytes site content
  unsent : ¬IsSent site content
  fingerprint : prepared.fingerprint = sendFingerprint site prepared.contentHash channel target
  target : prepared.target = target
  channel : channel = "github"
  drawn : ∃ state, allowed (.snapshot prepared.draft) state state ∧
    state.files.get (draftPath prepared.draft.id) = some content

structure Discipline (known : Set Bytes) (number : Nat) (call : Call)
    (allowed : Note → OutboxWorld → OutboxWorld → Prop) (guar : OutboxWorld → OutboxWorld → Prop) : Prop where
  free : Set.InjOn (hashBytes site) known
  careful : ∀ {note before after}, allowed note before after → Careful site known note before after
  same : ∀ state, guar state state
  rolledBack : ∀ {proposal before after}, RolledBack proposal before after → guar before after
  saved : ∀ {proposal} {before after : OutboxWorld}, Committed site proposal before after →
    proposal.actor ≠ sendActor → SentKept site before after → guar before after
  posted : ∀ {draftId channel target fingerprint draws prepared content} (before : OutboxWorld) comment,
    call = .send draftId channel target true fingerprint draws → content ∈ known →
    SnapshotOf site allowed draftId channel target prepared content → fingerprint = prepared.fingerprint →
    guar before { before with remote := before.remote ++ [⟨number, prepared.target, prepared.draft.body, comment⟩] }
  delivered : ∀ {prepared : PreparedSend site} {draws delivery frontmatter base content} {before after : OutboxWorld},
    ¬IsSent site content → before.files.get (draftPath prepared.draft.id) = some content →
    deliveredFrontmatter site prepared delivery = .ok frontmatter →
    Committed site (deliveryProposal site draws prepared delivery (site.render frontmatter prepared.draft.body) base)
      before after → guar before after

end

/-! Sent documents. -/

section
variable {site : Site} {state after : OutboxWorld}

theorem SentKept.refl (state : OutboxWorld) : SentKept site state state := fun _ _ found _ => found

theorem SentKept.trans {one two three : OutboxWorld} (first : SentKept site one two) (second : SentKept site two three) :
    SentKept site one three := fun path content found sent => second path content (first path content found sent) sent

theorem SentKept.of_files {before after : OutboxWorld} (same : after.files = before.files) : SentKept site before after := by
  intro path content found _
  rw [same]
  exact found

theorem SentKept.put {path : String} {old content : Bytes} (found : state.files.get path = some old)
    (unsent : ¬IsSent site old) (files : after.files = state.files.put path content) : SentKept site state after := by
  intro other bytes here sent
  rw [files]
  by_cases same : other = path
  · subst same
    rw [found] at here
    cases here
    exact absurd sent unsent
  · rw [Directory.get_put_of_ne same]
    exact here

theorem Others.refl (number : Nat) (state : OutboxWorld) : Others site number state state :=
  ⟨SentKept.refl state, rfl, fun _ => id⟩

theorem Others.trans {number : Nat} {one two three : OutboxWorld} (first : Others site number one two)
    (second : Others site number two three) : Others site number one three :=
  ⟨first.sent.trans second.sent, second.posts.trans first.posts, fun _ member => second.events _ (first.events _ member)⟩

theorem postsOf_append (number : Nat) (state : OutboxWorld) (post : Post) :
    postsOf number { state with remote := state.remote ++ [post] } =
      postsOf number state ++ if post.call = number then [post] else [] := by
  unfold postsOf
  rw [List.filter_append]
  by_cases same : post.call = number
  · rw [if_pos same, List.filter_singleton, beq_iff_eq.mpr same]
    rfl
  · rw [if_neg same, List.filter_singleton, beq_false_of_ne same]
    rfl

theorem recordAt_some {draftId : String} {content : Bytes} {record : DraftRecord}
    (read : recordAt site draftId content = some record) : record.id = draftId ∧
      ∃ parsed fields, site.parse content = some parsed ∧ parsed.1.extras = .draft fields ∧
        record.deliveryState = fields.deliveryState ∧ record.delivery = fields.delivery ∧ record.body = parsed.2 := by
  obtain ⟨document, here, later⟩ := Option.bind_eq_some_iff.mp read
  obtain ⟨parsed, parses, rfl⟩ := Option.map_eq_some_iff.mp here
  obtain ⟨found, accepted, last⟩ := Option.bind_eq_some_iff.mp later
  split at last
  · next same =>
    cases last
    have accepted : readDraft site.library ⟨draftPath draftId, parsed.1, parsed.2⟩ = .ok record := by
      cases outcome : readDraft site.library ⟨draftPath draftId, parsed.1, parsed.2⟩ with
      | ok value =>
        rw [outcome] at accepted
        rw [Option.some.inj accepted]
      | error message =>
        rw [outcome] at accepted
        cases accepted
    obtain ⟨fields, kind, state, delivery, body⟩ := readDraft_ok accepted
    exact ⟨same, parsed, fields, parses, kind, state, delivery, body⟩
  · cases last

theorem recordAt_sent {draftId : String} {content : Bytes} {record : DraftRecord}
    (read : recordAt site draftId content = some record) (sent : IsSent site content) : record.deliveryState = .sent := by
  obtain ⟨_, parsed, fields, parses, kind, state, _⟩ := recordAt_some read
  obtain ⟨other, members, same, found, delivered⟩ := sent
  rw [parses] at same
  cases same
  rw [kind] at found
  cases found
  rw [state]
  exact delivered

end

/-! The actions the two services share. -/

section
variable {site : Site} {known : Set Bytes} {number : Nat} {call : Call}
  {allowed : Note → OutboxWorld → OutboxWorld → Prop} {guar : OutboxWorld → OutboxWorld → Prop} {start : OutboxWorld}

/-- The client keeps its guarantee, and has the result it promises. -/
abbrev Behaves (site : Site) (number : Nat) (allowed : Note → OutboxWorld → OutboxWorld → Prop)
    (guar : OutboxWorld → OutboxWorld → Prop) {α : Type} (client : OutboxClient α) (start : OutboxWorld)
    (post : Except DraftError α → OutboxWorld → Prop) : Prop :=
  client.Keeps allowed (Others site number) guar post start

def ReadFrom (site : Site) (number : Nat) (draftId : String) (start : OutboxWorld) (result : Except DraftError DraftRecord)
    (last : OutboxWorld) : Prop :=
  Others site number start last ∧ ∀ record, result = .ok record → ∃ state content, Others site number start state ∧
    state.files.get (draftPath draftId) = some content ∧ recordAt site draftId content = some record

section
variable (discipline : Discipline site known number call allowed guar)
include discipline

theorem readContent_behaves (draftId : String) :
    Behaves site number allowed guar (readContent site draftId) start (ReadFrom site number draftId start) := by
  apply Client.Keeps.observe discipline.same
  intro state step _
  split
  · next record found =>
    obtain ⟨content, here, read⟩ := Option.bind_eq_some_iff.mp found
    intro last later
    refine ⟨step.trans later, ?_⟩
    intro other same
    cases same
    exact ⟨state, content, step, here, read⟩
  · intro last later
    refine ⟨step.trans later, ?_⟩
    intro other same
    cases same

theorem readDraftRequired_behaves (draftId : String) :
    Behaves site number allowed guar (readDraftRequired site draftId) start (ReadFrom site number draftId start) := by
  apply Client.Keeps.observe discipline.same
  intro state step _
  apply Client.Keeps.ensure
  · intro _
    apply Client.Keeps.weaken (readContent_behaves discipline draftId)
    intro result last read
    refine ⟨step.trans read.1, ?_⟩
    intro record same
    obtain ⟨further, content, reached, found⟩ := read.2 record same
    exact ⟨further, content, step.trans reached, found⟩
  · intro _ last later
    refine ⟨step.trans later, ?_⟩
    intro record same
    cases same

theorem readDraftOptional_behaves (draftId : String) :
    Behaves site number allowed guar (readDraftOptional site draftId) start fun _ last => Others site number start last := by
  apply Client.Keeps.observe discipline.same
  intro state step _
  split
  · apply Client.Keeps.bind (Others.refl number) (readContent_behaves discipline draftId)
    · intro record later read last further
      exact (step.trans read.1).trans further
    · intro error last read
      exact step.trans read.1
  · intro last later
    exact step.trans later

end

/-- The hash is that of a known content the file had in a state between the first one and the last
one; a save has seen that it was not sent. -/
def HashFrom (site : Site) (known : Set Bytes) (number : Nat) (allowed : Note → OutboxWorld → OutboxWorld → Prop)
    (note : Note) (draftId : String) (start : OutboxWorld) (result : Except DraftError String) (last : OutboxWorld) : Prop :=
  Others site number start last ∧ ∀ hash, result = .ok hash → ∃ state content, Others site number state last ∧
    state.files.get (draftPath draftId) = some content ∧ content ∈ known ∧ hash = hashBytes site content ∧
    allowed note state state

theorem draftContentHash_behaves (discipline : Discipline site known number call allowed guar) (note : Note)
    (error : DraftError) (draftId : String) :
    Behaves site number allowed guar (draftContentHash site note error draftId) start
      (HashFrom site known number allowed note draftId start) := by
  apply Client.Keeps.observe discipline.same
  intro state step meets
  split
  · next content found =>
    intro last later
    refine ⟨step.trans later, ?_⟩
    intro hash same
    cases same
    exact ⟨state, content, later, found, (discipline.careful meets).1 _ _ found, rfl, meets⟩
  · intro last later
    refine ⟨step.trans later, ?_⟩
    intro hash same
    cases same

/-- Behind a transaction the call has made the same requests, and the event it returns is in the ledger. -/
def Appended (number : Nat) (proposal : Proposal) (start : OutboxWorld) (result : Except DraftError Event)
    (last : OutboxWorld) : Prop :=
  postsOf number last = postsOf number start ∧
    ∀ event, result = .ok event → event = ⟨proposal, .committed⟩ ∧ event ∈ last.events

theorem transactionApply_behaves (discipline : Discipline site known number call allowed guar) {proposal : Proposal}
    {approved : Bool} (safe : ∀ before after : OutboxWorld, Inside known before → Committed site proposal before after →
      guar before after) :
    Behaves site number allowed guar (transactionApply site proposal approved) start (Appended number proposal start) := by
  apply Client.Keeps.transact discipline.same
  · intro state result after step done meets
    rcases commit_ok (mapError_ok.mp done) with ⟨rfl, committed⟩ | ⟨⟨failure, rfl⟩, rolledBack⟩
    · refine ⟨safe state after (discipline.careful meets).1 committed, ?_⟩
      intro last later
      refine ⟨?_, ?_⟩
      · rw [later.posts, ← step.posts, postsOf, committed.remote]
        rfl
      · intro event same
        cases same
        refine ⟨rfl, later.events _ ?_⟩
        rw [committed.events]
        exact List.mem_append_right _ (List.mem_singleton_self _)
    · refine ⟨discipline.rolledBack rolledBack, ?_⟩
      intro last later
      refine ⟨?_, ?_⟩
      · rw [later.posts, ← step.posts, postsOf, rolledBack.remote]
        rfl
      · intro event same
        cases same
  · intro state error step _ last later
    refine ⟨later.posts.trans step.posts, ?_⟩
    intro event same
    cases same

/-! Saving. -/

def Quiet {α : Type} (number : Nat) (start : OutboxWorld) (_ : Except DraftError α) (last : OutboxWorld) : Prop :=
  postsOf number last = postsOf number start

section
variable {payload : DraftPayload} {approved : Bool} {draws : SaveDraws} {draftId : String}

theorem raise_quiet {α : Type} {error : DraftError} :
    Behaves site number allowed guar (.raise error : OutboxClient α) start (Quiet number start) :=
  fun _ step => step.posts

theorem Quiet.from {α : Type} {client : OutboxClient α} {state : OutboxWorld}
    (earlier : postsOf number state = postsOf number start)
    (later : Behaves site number allowed guar client state (Quiet number state)) :
    Behaves site number allowed guar client state (Quiet number start) :=
  Client.Keeps.weaken later fun _ _ quiet => quiet.trans earlier

section
variable (discipline : Discipline site known number call allowed guar)
include discipline

theorem submitSave_behaves {kind : SaveOperation}
    {operation : FileOperation} {condition : TransactionCondition}
    (safe : ∀ (before after : OutboxWorld) (base : String), Inside known before →
      Committed site (saveProposal site payload draws draftId base operation condition) before after →
      SentKept site before after) :
    Behaves site number allowed guar (submitSave site payload approved draws draftId kind operation condition) start
      (Quiet number start) := by
  apply Client.Keeps.observe discipline.same
  intro state step _
  apply Quiet.from step.posts
  apply Client.Keeps.ensure
  · intro _
    apply Client.Keeps.bind (Others.refl number)
    · apply transactionApply_behaves discipline
      intro before after inside committed
      apply discipline.saved committed
      · intro same
        cases same
      · exact safe before after _ inside committed
    · intro receipt later appended
      apply Quiet.from appended.1
      apply Client.Keeps.bind (Others.refl number) (readDraftRequired_behaves discipline draftId)
      · intro saved further read last step
        exact step.posts.trans read.1.posts
      · intro error last read
        exact read.1.posts
    · intro error last appended
      exact appended.1
  · exact fun _ => raise_quiet

theorem writeDraft_behaves (existing : Option DraftRecord)
    (content : Bytes) :
    Behaves site number allowed guar (writeDraft site payload approved draws draftId existing content) start
      (Quiet number start) := by
  cases existing with
  | none =>
    apply submitSave_behaves discipline
    intro before after base _ committed path bytes found _
    obtain ⟨absent, files⟩ := operate_create.mp (committed.single rfl)
    rw [files, Directory.get_put_of_ne]
    · exact found
    · intro same
      rw [same, absent] at found
      cases found
  | some record =>
    apply Client.Keeps.bind (Others.refl number) (draftContentHash_behaves discipline _ _ draftId)
    · intro hash later hashed
      apply Quiet.from hashed.1.posts
      obtain ⟨state, bytes, _, read, inside, same, meets⟩ := hashed.2 hash rfl
      have unsent := (discipline.careful meets).2.2 _ _ rfl read
      apply submitSave_behaves discipline
      intro before after base known committed
      obtain ⟨⟨old, found, equal⟩, files⟩ := operate_update.mp (committed.single rfl)
      have equal := discipline.free (known _ _ found) inside (equal.trans same)
      rw [equal] at found
      exact SentKept.put found unsent files
    · intro error last hashed
      exact hashed.1.posts

theorem saveAs_behaves :
    Behaves site number allowed guar (saveAs site payload approved draws draftId) start (Quiet number start) := by
  apply Client.Keeps.bind (Others.refl number) (readDraftOptional_behaves discipline draftId)
  · intro existing state read
    apply Quiet.from read.posts
    apply Client.Keeps.ensure
    · intro _
      apply Client.Keeps.ofExcept
      · intro frontmatter _
        exact writeDraft_behaves discipline existing _
      · exact fun _ _ => raise_quiet
    · exact fun _ => raise_quiet
  · intro error last read
    exact read.posts

theorem chooseDraftId_behaves :
    Behaves site number allowed guar (chooseDraftId site payload draws) start (Quiet number start) := by
  unfold chooseDraftId
  split
  · exact fun _ step => step.posts
  · apply Client.Keeps.observe discipline.same
    intro state step _
    split <;> exact fun _ later => later.posts.trans step.posts

theorem saveDraft_behaves :
    Behaves site number allowed guar (saveDraft site payload approved draws) start (Quiet number start) := by
  apply Client.Keeps.ofExcept
  · intro validated _
    apply Client.Keeps.ensure
    · intro _
      apply Client.Keeps.ofExcept
      · intro _ _
        apply Client.Keeps.ofExcept
        · intro _ _
          apply Client.Keeps.ensure
          · intro _
            apply Client.Keeps.ensure
            · intro _
              apply Client.Keeps.bind (Others.refl number) (chooseDraftId_behaves discipline)
              · intro draftId state quiet
                exact Quiet.from quiet (saveAs_behaves discipline)
              · exact fun _ _ => id
            · exact fun _ => raise_quiet
          · exact fun _ => raise_quiet
        · exact fun _ _ => raise_quiet
      · exact fun _ _ => raise_quiet
    · exact fun _ => raise_quiet
  · exact fun _ _ => raise_quiet

end

end

/-! Sending. -/

section
variable {draftId channel target : String} {draws : SendDraws} {prepared : PreparedSend site}

theorem readEntity_behaves (discipline : Discipline site known number call allowed guar) :
    Behaves site number allowed guar (readEntity site draftId) start fun _ last => Others site number start last := by
  apply Client.Keeps.observe discipline.same
  intro state step _
  split <;> exact fun _ later => step.trans later

structure Stable (site : Site) (known : Set Bytes) (allowed : Note → OutboxWorld → OutboxWorld → Prop)
    (draftId : String) (draft : DraftRecord) (hash : String) (content : Bytes) : Prop where
  identified : draft.id = draftId
  known : content ∈ known
  hash : hash = hashBytes site content
  unsent : draft.deliveryState = .unsent → ¬IsSent site content
  drawn : ∃ state, allowed (.snapshot draft) state state ∧ state.files.get (draftPath draft.id) = some content

theorem stableDraft_behaves (discipline : Discipline site known number call allowed guar) (attempts : Nat) :
    Behaves site number allowed guar (stableDraft site draftId attempts) start fun result last =>
      Quiet number start result last ∧
        ∀ stable, result = .ok stable → ∃ content, Stable site known allowed draftId stable.1 stable.2.2 content := by
  induction attempts generalizing start with
  | zero =>
    intro last step
    refine ⟨step.posts, ?_⟩
    intro stable same
    cases same
  | succ attempts ih =>
    apply Client.Keeps.bind (Others.refl number) (draftContentHash_behaves discipline _ _ draftId)
    · intro hashBefore first hashed
      obtain ⟨early, content, seen, here, inside, before, _⟩ := hashed.2 hashBefore rfl
      apply Client.Keeps.bind (Others.refl number) (readDraftRequired_behaves discipline draftId)
      · intro draft second read
        obtain ⟨reading, bytes, reached, there, record⟩ := read.2 draft rfl
        have unsent : draft.deliveryState = .unsent → ¬IsSent site content := by
          intro state sent
          have same := (seen.sent.trans reached.sent) _ _ here sent
          rw [there] at same
          cases same
          rw [recordAt_sent record sent] at state
          cases state
        apply Client.Keeps.bind (Others.refl number) (readEntity_behaves discipline)
        · intro document third entity
          apply Client.Keeps.bind (Others.refl number) (draftContentHash_behaves discipline _ _ draftId)
          · intro hashAfter fourth again
            have posts : postsOf number fourth = postsOf number start :=
              again.1.posts.trans (entity.posts.trans (read.1.posts.trans hashed.1.posts))
            split
            · next same =>
              intro last step
              refine ⟨step.posts.trans posts, ?_⟩
              intro stable equal
              cases equal
              obtain ⟨state, other, _, later, otherKnown, otherHash, drawn⟩ := again.2 hashAfter rfl
              have equal := discipline.free inside otherKnown (before.symm.trans (same.1.trans otherHash))
              rw [← equal] at later
              refine ⟨content, (recordAt_some record).1, inside, same.1.symm.trans before, unsent, state, drawn, ?_⟩
              rw [(recordAt_some record).1]
              exact later
            · apply Client.Keeps.weaken ih
              intro result last later
              exact ⟨later.1.trans posts, later.2⟩
          · intro error last again
            refine ⟨again.1.posts.trans (entity.posts.trans (read.1.posts.trans hashed.1.posts)), ?_⟩
            intro stable same
            cases same
        · intro error last entity
          refine ⟨entity.posts.trans (read.1.posts.trans hashed.1.posts), ?_⟩
          intro stable same
          cases same
      · intro error last read
        refine ⟨read.1.posts.trans hashed.1.posts, ?_⟩
        intro stable same
        cases same
    · intro error last hashed
      refine ⟨hashed.1.posts, ?_⟩
      intro stable same
      cases same

theorem previewOf_ok {remote : RemoteName} {draft : DraftRecord} {frontmatter : EntityFrontmatter (Extras site.library.platform)}
    {contentHash : String} (done : previewOf site channel target remote draft frontmatter contentHash = .ok prepared) :
    draft.deliveryState = .unsent ∧ draft.delivery = none ∧
      prepared = ⟨draft, frontmatter, contentHash, target, remote, sendFingerprint site contentHash channel target⟩ := by
  unfold previewOf at done
  split at done
  · cases done
  · next unsent =>
    rw [not_or, not_not, not_not] at unsent
    split at done
    · cases done
      exact ⟨unsent.1, unsent.2, rfl⟩
    · cases done

theorem requireChannel_ok (done : requireChannel channel = .ok ()) : channel = "github" := by
  unfold requireChannel at done
  split at done
  · next same => exact same
  · cases done

/-- What `_prepare` gives. -/
def Prepared (site : Site) (known : Set Bytes) (number : Nat) (allowed : Note → OutboxWorld → OutboxWorld → Prop)
    (draftId channel target : String) (start : OutboxWorld) (result : Except DraftError (PreparedSend site)) (last : OutboxWorld) :
    Prop :=
  Quiet number start result last ∧ ∀ prepared, result = .ok prepared →
    ∃ content ∈ known, SnapshotOf site allowed draftId channel target prepared content

theorem prepareSend_behaves (discipline : Discipline site known number call allowed guar) :
    Behaves site number allowed guar (prepareSend site draftId channel target) start
      (Prepared site known number allowed draftId channel target start) := by
  have failing : ∀ (error : DraftError) {world : OutboxWorld}, postsOf number world = postsOf number start →
      Behaves site number allowed guar (.raise error : OutboxClient (PreparedSend site)) world
        (Prepared site known number allowed draftId channel target start) := by
    intro error world quiet last step
    refine ⟨step.posts.trans quiet, ?_⟩
    intro prepared same
    cases same
  apply Client.Keeps.ofExcept
  · intro _ github
    apply Client.Keeps.ofExcept
    · intro remote _
      apply Client.Keeps.ofExcept
      · intro selected chosen
        apply Client.Keeps.bind (Others.refl number) (readDraftRequired_behaves discipline selected)
        · intro found state read
          obtain ⟨_, _, _, _, record⟩ := read.2 found rfl
          apply Client.Keeps.bind (Others.refl number) (stableDraft_behaves discipline 2)
          · intro stable later pinned
            have quiet := pinned.1.trans read.1.posts
            cases outcome : previewOf site channel target remote stable.1 stable.2.1 stable.2.2 with
            | ok prepared =>
              intro last step
              refine ⟨step.posts.trans quiet, ?_⟩
              intro other same
              cases same
              obtain ⟨unsent, _, rfl⟩ := previewOf_ok outcome
              obtain ⟨content, stays⟩ := pinned.2 stable rfl
              have same := stays.identified.trans (recordAt_some record).1
              exact ⟨content, stays.known, chosen.trans (congrArg Except.ok same.symm), stays.hash, stays.unsent unsent, rfl,
                rfl, requireChannel_ok github, stays.drawn⟩
            | error error => exact failing error quiet
          · intro error last pinned
            refine ⟨pinned.1.trans read.1.posts, ?_⟩
            intro prepared same
            cases same
        · intro error last read
          refine ⟨read.1.posts, ?_⟩
          intro prepared same
          cases same
      · exact fun error _ => failing error rfl
    · exact fun error _ => failing error rfl
  · exact fun error _ => failing error rfl

def Recorded {α : Type} (site : Site) (number : Nat) (post : Post) (comment : RemoteComment) (start : OutboxWorld)
    (result : Except DraftError α) (last : OutboxWorld) : Prop :=
  Quiet number start result last ∧ ∀ value, result = .ok value → ∃ event ∈ last.events, Records site event post comment

theorem deliveredFrontmatter_ok {delivery : DraftDelivery} {frontmatter : EntityFrontmatter (Extras site.library.platform)}
    (done : deliveredFrontmatter site prepared delivery = .ok frontmatter) : ∃ before refined,
      refineDraft site.library before = .ok refined ∧ frontmatter = generic site refined ∧
        refined.extras.deliveryState = .sent ∧ refined.extras.delivery = some delivery := by
  unfold deliveredFrontmatter at done
  split at done
  · cases done
  · split at done
    · next refined shaped =>
      cases done
      obtain ⟨_, ⟨_, _, same⟩, _⟩ := refineDraft_ok.mp shaped
      refine ⟨_, refined, shaped, rfl, ?_⟩
      rw [same]
      exact ⟨rfl, rfl⟩
    · cases done

theorem raise_recorded {post : Post} {comment : RemoteComment} {error : DraftError} {state : OutboxWorld}
    (quiet : postsOf number state = postsOf number start) :
    Behaves site number allowed guar (.raise error : OutboxClient SendResult) state (Recorded site number post comment start) := by
  intro last step
  refine ⟨step.posts.trans quiet, ?_⟩
  intro _ same
  cases same

section
variable (discipline : Discipline site known number call allowed guar)
include discipline

theorem submitDelivery_behaves {content : Bytes}
    (inside : content ∈ known) (snapshot : SnapshotOf site allowed draftId channel target prepared content)
    {delivery : DraftDelivery} {frontmatter : EntityFrontmatter (Extras site.library.platform)}
    (made : deliveredFrontmatter site prepared delivery = .ok frontmatter) {post : Post} {comment : RemoteComment}
    (body : post.body = prepared.draft.body) (sameTarget : delivery.target = post.target)
    (sameComment : delivery.remoteCommentId = comment.commentId ∧ delivery.remoteCommentUrl = comment.url) :
    Behaves site number allowed guar
      (submitDelivery site draws prepared delivery (site.render frontmatter prepared.draft.body)) start
      (Recorded site number post comment start) := by
  apply Client.Keeps.observe discipline.same
  intro state step _
  apply Client.Keeps.ensure
  · intro _
    apply Client.Keeps.bind (Others.refl number)
    · apply transactionApply_behaves discipline
      intro before after contained committed
      obtain ⟨⟨old, found, equal⟩, _⟩ := operate_update.mp (committed.single rfl)
      have equal := discipline.free (contained _ _ found) inside (equal.trans snapshot.hash)
      rw [equal] at found
      exact discipline.delivered snapshot.unsent found made committed
    · intro receipt later appended
      have quiet := appended.1.trans step.posts
      obtain ⟨rfl, member⟩ := appended.2 receipt rfl
      apply Client.Keeps.bind (Others.refl number) (readDraftRequired_behaves discipline prepared.draft.id)
      · intro draft further read
        apply Client.Keeps.ensure
        · intro _ last step
          refine ⟨step.posts.trans (read.1.posts.trans quiet), ?_⟩
          intro _ _
          obtain ⟨_, refined, _, rfl, sent, delivered⟩ := deliveredFrontmatter_ok made
          refine ⟨_, step.events _ (read.1.events _ member), rfl, rfl, prepared.draft.id, prepared.contentHash,
            generic site refined, refined.extras, delivery, ?_, rfl, sent, delivered, sameTarget, sameComment⟩
          rw [body]
          rfl
        · intro _ last step
          refine ⟨step.posts.trans (read.1.posts.trans quiet), ?_⟩
          intro _ same
          cases same
      · intro error last read
        refine ⟨read.1.posts.trans quiet, ?_⟩
        intro _ same
        cases same
    · intro error last appended
      refine ⟨appended.1.trans step.posts, ?_⟩
      intro _ same
      cases same
  · exact fun _ => raise_recorded step.posts

theorem tryRecord_behaves {content : Bytes}
    (inside : content ∈ known) (snapshot : SnapshotOf site allowed draftId channel target prepared content) {post : Post}
    {comment : RemoteComment} (body : post.body = prepared.draft.body) (sameTarget : prepared.target = post.target) :
    Behaves site number allowed guar (tryRecord site draws prepared comment) start
      (Recorded site number post comment start) := by
  apply Client.Keeps.ofExcept
  · intro _ _
    apply Client.Keeps.ofExcept
    · intro frontmatter made
      exact submitDelivery_behaves discipline inside snapshot made body sameTarget ⟨rfl, rfl⟩
    · exact fun error _ => raise_recorded rfl
  · exact fun error _ => raise_recorded rfl

theorem recordDelivery_behaves {content : Bytes}
    (inside : content ∈ known) (snapshot : SnapshotOf site allowed draftId channel target prepared content) {post : Post}
    {comment : RemoteComment} (body : post.body = prepared.draft.body) (sameTarget : prepared.target = post.target)
    (accepted : post.comment = some comment) (only : postsOf number start = [post]) :
    Behaves site number allowed guar (recordDelivery site draws prepared comment) start
      (Reported site number) := by
  have about : ∀ {world : OutboxWorld}, postsOf number world = postsOf number start → ∀ other ∈ postsOf number world,
      ∀ found, other.comment = some found → other = post ∧ found = comment := by
    intro world quiet other member found same
    rw [quiet, only] at member
    have equal := List.mem_singleton.mp member
    rw [equal, accepted] at same
    exact ⟨equal, (Option.some.inj same).symm⟩
  apply Client.Keeps.handle (Others.refl number) (tryRecord_behaves discipline inside snapshot body sameTarget)
  · intro result last recorded other member found same
    obtain ⟨rfl, rfl⟩ := about recorded.1 other member found same
    constructor
    · exact fun _ _ => recorded.2 result rfl
    · intro error same
      cases same
  · intro error state recorded last step other member found same
    obtain ⟨rfl, rfl⟩ := about (step.posts.trans recorded.1) other member found same
    constructor
    · intro _ same
      cases same
    · intro error same
      cases same
      rfl

end

theorem reported_of_none {α : Type} {world : OutboxWorld} (none_ : postsOf number world = []) (result : Except DraftError α) :
    Reported site number result world := by
  intro post member
  rw [none_] at member
  cases member

theorem sendPrepared_behaves (discipline : Discipline site known number call allowed guar) {content : Bytes}
    {fingerprint : String} (called : call = .send draftId channel target true fingerprint draws)
    (inside : content ∈ known) (snapshot : SnapshotOf site allowed draftId channel target prepared content)
    (none_ : postsOf number start = []) :
    Behaves site number allowed guar (sendPrepared site number draws prepared fingerprint) start
      (Reported site number) := by
  have failing : ∀ error : DraftError, Behaves site number allowed guar (.raise error : OutboxClient SendResult) start
      (Reported site number) := fun error last step => reported_of_none (step.posts.trans none_) _
  apply Client.Keeps.ensure
  · intro approved
    apply Client.Keeps.ensure
    · intro _
      unfold deliver
      cases draws.authenticated with
      | false => exact failing _
      | true =>
        intro state step _
        have posted := discipline.posted state (deliveryOutcome site.library prepared.remote draws.answer).toOption called
          inside snapshot (beq_iff_eq.mp approved)
        refine ⟨posted, ?_⟩
        have only : postsOf number { state with remote := state.remote ++ [⟨number, prepared.target, prepared.draft.body,
            (deliveryOutcome site.library prepared.remote draws.answer).toOption⟩] } =
            [⟨number, prepared.target, prepared.draft.body,
              (deliveryOutcome site.library prepared.remote draws.answer).toOption⟩] := by
          have before : postsOf number state = [] := step.posts.trans none_
          rw [postsOf_append, before, if_pos rfl]
          rfl
        cases outcome : deliveryOutcome site.library prepared.remote draws.answer with
        | ok comment =>
          rw [outcome] at only
          exact recordDelivery_behaves discipline inside snapshot rfl rfl rfl only
        | error error =>
          rw [outcome] at only
          intro last later post member comment same
          rw [later.posts, only] at member
          rw [List.mem_singleton.mp member] at same
          cases same
    · exact fun _ => failing _
  · exact fun _ => failing _

theorem send_behaves (discipline : Discipline site known number call allowed guar) {approved : Bool} {fingerprint : String}
    (called : call = .send draftId channel target approved fingerprint draws) (none_ : postsOf number start = []) :
    Behaves site number allowed guar (send site number draftId channel target draws approved fingerprint) start
      (Reported site number) := by
  apply Client.Keeps.ensure
  · intro same
    rw [same] at called
    apply Client.Keeps.bind (Others.refl number) (prepareSend_behaves discipline)
    · intro prepared state made
      obtain ⟨content, inside, snapshot⟩ := made.2 prepared rfl
      exact sendPrepared_behaves discipline called inside snapshot (made.1.trans none_)
    · intro error last made
      exact reported_of_none (made.1.trans none_) _
  · intro _ last step
    exact reported_of_none (step.posts.trans none_) _

end

theorem client_behaves (discipline : Discipline site known number call allowed guar) (none_ : postsOf number start = []) :
    Behaves site number allowed guar (call.client site number) start (Reported site number) := by
  cases called : call with
  | save payload approved draws =>
    apply Client.Keeps.bind (Others.refl number) (saveDraft_behaves discipline)
    · intro result state quiet last step
      exact reported_of_none (step.posts.trans (quiet.trans none_)) _
    · intro error last quiet
      exact reported_of_none (quiet.trans none_) _
  | send draftId channel target approved fingerprint draws =>
    apply Client.Keeps.bind (Others.refl number) (send_behaves discipline called none_)
    · intro result state reported last step post member comment same
      rw [step.posts] at member
      constructor
      · intro _ _
        obtain ⟨event, found, records⟩ := (reported post member comment same).1 result rfl
        exact ⟨event, step.events event found, records⟩
      · intro error same
        cases same
    · intro error last reported post member comment same
      constructor
      · intro _ same
        cases same
      · intro other equal
        cases equal
        exact (reported post member comment same).2 error rfl

end

/-! What a call leaves to the others. -/

/-- The steps of a call keep the sent documents, the requests of the others and the events. -/
structure Fair (site : Site) (number : Nat) (before after : OutboxWorld) : Prop where
  sent : SentKept site before after
  posts : ∀ other, other ≠ number → postsOf other after = postsOf other before
  events : ∀ event ∈ before.events, event ∈ after.events

section
variable {site : Site} {number : Nat} {before after : OutboxWorld}

theorem Fair.refl (state : OutboxWorld) : Fair site number state state := ⟨SentKept.refl state, fun _ _ => rfl, fun _ => id⟩

theorem Fair.others (fair : Fair site number before after) {other : Nat} (apart : other ≠ number) :
    Others site other before after := ⟨fair.sent, fair.posts other apart, fair.events⟩

theorem Fair.rolledBack {proposal : Proposal} (rolledBack : RolledBack proposal before after) : Fair site number before after where
  sent := SentKept.of_files rolledBack.files
  posts := by
    intro other _
    unfold postsOf
    rw [rolledBack.remote]
  events := by
    intro event member
    rw [rolledBack.events]
    exact List.mem_append_left _ member

theorem Fair.committed {proposal : Proposal} (committed : Committed site proposal before after)
    (kept : SentKept site before after) : Fair site number before after where
  sent := kept
  posts := by
    intro other _
    unfold postsOf
    rw [committed.remote]
  events := by
    intro event member
    rw [committed.events]
    exact List.mem_append_left _ member

theorem Fair.posted (state : OutboxWorld) {post : Post} (own : post.call = number) :
    Fair site number state { state with remote := state.remote ++ [post] } where
  sent := SentKept.of_files rfl
  posts := by
    intro other apart
    rw [postsOf_append, if_neg fun same => apart (same.symm.trans own), List.append_nil]
  events := fun _ => id

theorem delivered_kept {prepared : PreparedSend site} {draws : SendDraws} {delivery : DraftDelivery} {base : String}
    {content bytes : Bytes} (unsent : ¬IsSent site content)
    (found : before.files.get (draftPath prepared.draft.id) = some content)
    (committed : Committed site (deliveryProposal site draws prepared delivery bytes base) before after) :
    after.files = before.files.put (draftPath prepared.draft.id) bytes ∧ SentKept site before after := by
  obtain ⟨_, files⟩ := operate_update.mp (committed.single rfl)
  exact ⟨files, SentKept.put found unsent files⟩

end
end Workctx.Drafting
