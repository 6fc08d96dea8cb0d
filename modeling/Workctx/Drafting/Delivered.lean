import Workctx.Drafting.Sent

/-! What a delivery amounts to in any interleaving: the body that is posted, the event that records it,
and the report of a comment that was not recorded. -/

namespace Workctx.Drafting
open Workctx.Concurrent Workctx.Text Workctx.Domain Workctx.Staging Workctx.Engine Workctx.Services List

section
variable (site : Site)

/-- The record of a snapshot is what its last hashed bytes are read as. -/
def Faithful (note : Note) (world : OutboxWorld) : Prop :=
  ∀ record content, note = .snapshot record → world.files.get (draftPath record.id) = some content →
    recordAt site record.id content = some record

/-- The careful actions in which every snapshot hashes the bytes it was read from. -/
def Attentive (known : Set Bytes) (note : Note) (before after : OutboxWorld) : Prop :=
  Careful site known note before after ∧ Faithful site note before

/-- What was posted is the body of the draft with the bytes that the approved fingerprint pins. -/
def PinnedPost (known : Set Bytes) (calls : Nat → Call) (post : Post) : Prop :=
  ∃ draftId target fingerprint draws content record,
    calls post.call = .send draftId "github" target true fingerprint draws ∧
    draftIdentifier site draftId = .ok record.id ∧ content ∈ known ∧ recordAt site record.id content = some record ∧
    fingerprint = sendFingerprint site (hashBytes site content) "github" target ∧ post.target = target ∧
    post.body = record.body

def isDeliveryOf (path : String) (event : Event) : Bool :=
  event.result == .committed && event.proposal.actor == sendActor &&
    event.proposal.operations.any fun operation => operation.paths.contains path

def deliveriesOf (path : String) (world : OutboxWorld) : List Event := world.events.filter (isDeliveryOf path)

def SentAt (path : String) (world : OutboxWorld) : Prop := ∃ content, world.files.get path = some content ∧ IsSent site content

/-- The deliveries of a path stay, or one was added to a draft that was not sent and is now. -/
def AtMostOnce (path : String) (before after : OutboxWorld) : Prop :=
  deliveriesOf path after = deliveriesOf path before ∨
    ((deliveriesOf path after).length = (deliveriesOf path before).length + 1 ∧ ¬SentAt site path before ∧
      SentAt site path after)

/-- A draft that is written is read again with the state it was written with. -/
def ReadsBack : Prop := ∀ before refined body, refineDraft site.library before = .ok refined →
  ∃ parsed fields, site.parse (site.render (generic site refined) body) = some parsed ∧
    fieldsOf parsed.1.extras = some fields ∧ fields.deliveryState = refined.extras.deliveryState

/-- What the steps of a run do to the requests and the deliveries. -/
structure Delivers (known : Set Bytes) (calls : Nat → Call) (before after : OutboxWorld) : Prop where
  sent : SentKept site before after
  pinned : ∀ post ∈ after.remote, post ∈ before.remote ∨ PinnedPost site known calls post
  once : ∀ path, AtMostOnce site path before after

structure FairDelivers (known : Set Bytes) (calls : Nat → Call) (number : Nat) (before after : OutboxWorld) : Prop where
  fair : Fair site number before after
  delivers : Delivers site known calls before after

end

section
variable {site : Site} {known : Set Bytes} {calls : Nat → Call} {before after : OutboxWorld} {path : String}

theorem SentKept.at {one two : OutboxWorld} (kept : SentKept site one two) (sent : SentAt site path one) :
    SentAt site path two := by
  obtain ⟨content, found, delivered⟩ := sent
  exact ⟨content, kept path content found delivered, delivered⟩

theorem AtMostOnce.trans {one two three : OutboxWorld} (later : SentKept site two three)
    (earlier : SentKept site one two) (first : AtMostOnce site path one two) (second : AtMostOnce site path two three) :
    AtMostOnce site path one three := by
  rcases first with same | ⟨count, unsent, sent⟩
  · rcases second with equal | ⟨count, unsent, sent⟩
    · exact .inl (equal.trans same)
    · rw [same] at count
      exact .inr ⟨count, fun claimed => unsent (earlier.at claimed), sent⟩
  · rcases second with equal | ⟨_, fresh, _⟩
    · rw [← equal] at count
      exact .inr ⟨count, unsent, later.at sent⟩
    · exact absurd sent fresh

theorem Delivers.refl (state : OutboxWorld) : Delivers site known calls state state :=
  ⟨SentKept.refl state, fun _ member => .inl member, fun _ => .inl rfl⟩

theorem Delivers.trans {one two three : OutboxWorld} (first : Delivers site known calls one two)
    (second : Delivers site known calls two three) : Delivers site known calls one three where
  sent := first.sent.trans second.sent
  pinned := by
    intro post member
    rcases second.pinned post member with earlier | pinned
    · exact first.pinned post earlier
    · exact .inr pinned
  once := fun path => (first.once path).trans second.sent first.sent (second.once path)

theorem Delivers.quiet (kept : SentKept site before after) (remote : after.remote = before.remote) {event : Event}
    (events : after.events = before.events ++ [event]) (other : ∀ path, isDeliveryOf path event = false) :
    Delivers site known calls before after where
  sent := kept
  pinned := by
    intro post member
    rw [remote] at member
    exact .inl member
  once := by
    intro path
    left
    unfold deliveriesOf
    rw [events, filter_append, filter_singleton, other path]
    exact append_nil _

theorem attentive_discipline (free : Set.InjOn (hashBytes site) known) (reads : ReadsBack site) (number : Nat) :
    Discipline site known number (calls number) (Attentive site known) (FairDelivers site known calls number) where
  free := free
  careful := fun attentive => attentive.1
  same := fun state => ⟨Fair.refl state, Delivers.refl state⟩
  rolledBack := by
    intro proposal before after rolledBack
    refine ⟨Fair.rolledBack rolledBack, Delivers.quiet (SentKept.of_files rolledBack.files) rolledBack.remote
      rolledBack.events ?_⟩
    intro path
    rfl
  saved := by
    intro proposal before after committed other kept
    refine ⟨Fair.committed committed kept, Delivers.quiet kept committed.remote committed.events ?_⟩
    intro path
    unfold isDeliveryOf
    rw [beq_false_of_ne other, Bool.and_false, Bool.false_and]
  posted := by
    intro draftId channel target fingerprint draws prepared content before comment called inside snapshot approved
    refine ⟨Fair.posted before rfl, SentKept.of_files rfl, ?_, fun _ => .inl rfl⟩
    intro post member
    rcases mem_append.mp member with old | new
    · exact .inl old
    · right
      rw [mem_singleton.mp new]
      obtain ⟨state, drawn, found⟩ := snapshot.drawn
      have read := drawn.2 _ content rfl found
      rw [snapshot.channel] at called
      refine ⟨draftId, target, fingerprint, draws, content, prepared.draft, called, snapshot.identified, inside, read, ?_,
        snapshot.target, rfl⟩
      rw [approved, snapshot.fingerprint, snapshot.hash, snapshot.channel]
  delivered := by
    intro prepared draws delivery frontmatter base content before after unsent found made committed
    obtain ⟨files, kept⟩ := delivered_kept unsent found committed
    refine ⟨Fair.committed committed kept, kept, ?_, ?_⟩
    · intro post member
      rw [committed.remote] at member
      exact .inl member
    · intro path
      unfold AtMostOnce deliveriesOf
      rw [committed.events, filter_append, filter_singleton]
      by_cases same : path = draftPath prepared.draft.id
      · right
        have delivers : isDeliveryOf path ⟨deliveryProposal site draws prepared delivery
            (site.render frontmatter prepared.draft.body) base, .committed⟩ = true := by
          rw [same]
          simp [isDeliveryOf, deliveryProposal, FileOperation.paths]
        rw [delivers]
        refine ⟨length_append, ?_, ?_⟩
        · rintro ⟨other, here, sent⟩
          rw [same, found] at here
          cases here
          exact unsent sent
        · obtain ⟨_, refined, shaped, equal, sent, _⟩ := deliveredFrontmatter_ok made
          obtain ⟨parsed, fields, parses, read, state⟩ := reads _ refined prepared.draft.body shaped
          rw [← equal] at parses
          refine ⟨site.render frontmatter prepared.draft.body, ?_, parsed, fields, parses, read, state.trans sent⟩
          rw [files, same]
          exact Directory.get_put_self _ _ _
      · left
        have other : isDeliveryOf path ⟨deliveryProposal site draws prepared delivery
            (site.render frontmatter prepared.draft.body) base, .committed⟩ = false := by
          simp [isDeliveryOf, deliveryProposal, FileOperation.paths, same]
        rw [other]
        exact append_nil _

theorem fairDelivers_compatible (site : Site) (known : Set Bytes) (calls : Nat → Call) :
    Pool.Compatible (Others site) (FairDelivers site known calls) where
  refl := Others.refl
  trans := fun _ _ _ _ => Others.trans
  others := fun _ _ apart _ _ step => step.fair.others apart

end

/-! Two clients that send the same note. -/

def noteSends (number : Nat) : Call :=
  .send "DRAFT-20260101-note-01" "github" "octo/notes#1" true
    (sendFingerprint outboxSite (hashBytes outboxSite unsentNote) "github" "octo/notes#1")
    ⟨true, .response 201 (.parsed (.object [("id", .int 7),
      ("html_url", .string "https://github.com/octo/notes/issues/1#issuecomment-7")])), ⟨0, 0⟩, toString number⟩

def sendsRun (schedule : List Nat) : Pool Nat OutboxWorld Note DraftError Reply :=
  (outbox outboxSite noteSends ⟨[(notePath, unsentNote)], [], []⟩).run schedule

theorem outboxSite_reads : ReadsBack outboxSite := by
  intro before refined body _
  have shape : outboxSite.render (generic outboxSite refined) body =
      noteMark refined.extras.deliveryState ++ encodeUtf8 body.toList := rfl
  rw [shape]
  cases refined.extras.deliveryState with
  | unsent => exact ⟨_, _, rfl, rfl, rfl⟩
  | sent => exact ⟨_, _, rfl, rfl, rfl⟩

/-- The careful actions in which a snapshot hashes what it was read from. -/
def attentiveTest (contents : List Bytes) (note : Note) (before after : OutboxWorld) : Bool :=
  carefulTest contents note before after &&
    match note with
    | .snapshot record =>
      (before.files.get (draftPath record.id)).all fun content => recordAt outboxSite record.id content == some record
    | _ => true

theorem attentive_of_test {contents : List Bytes} (note : Note) (before after : OutboxWorld)
    (passed : attentiveTest contents note before after = true) :
    Attentive outboxSite { content | content ∈ contents } note before after := by
  obtain ⟨careful, faithful⟩ := Bool.and_eq_true_iff.mp passed
  refine ⟨careful_of_test note before after careful, ?_⟩
  intro record content same found
  rw [same] at faithful
  dsimp only at faithful
  rw [found, Option.all_some] at faithful
  exact beq_iff_eq.mp faithful

def notePost : Post := ⟨0, "octo/notes#1", "Ready.", some ⟨"7", "https://github.com/octo/notes/issues/1#issuecomment-7"⟩⟩

end Workctx.Drafting
