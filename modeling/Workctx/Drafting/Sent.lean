import Workctx.Drafting.Calls

/-! Saving and sending in any interleaving: a draft that was sent keeps its bytes, unless a save takes
the hash it expects from the sent draft itself. -/

namespace Workctx.Drafting
open Workctx.Concurrent Workctx.Text Workctx.Domain Workctx.Staging Workctx.Engine Workctx.Services

section
variable {site : Site} {known : Set Bytes}

theorem careful_discipline (free : Set.InjOn (hashBytes site) known) (number : Nat) (call : Call) :
    Discipline site known number call (Careful site known) (Fair site number) where
  free := free
  careful := id
  same := Fair.refl
  rolledBack := Fair.rolledBack
  saved := fun committed _ kept => Fair.committed committed kept
  posted := fun before _ _ _ _ _ => Fair.posted before rfl
  delivered := fun unsent found _ committed => Fair.committed committed (delivered_kept unsent found committed).2

theorem fair_compatible (site : Site) : Pool.Compatible (Others site) (Fair site) where
  refl := Others.refl
  trans := fun _ _ _ _ => Others.trans
  others := fun _ _ apart _ _ fair => fair.others apart

/-- In every interleaving of calls in which no save takes the hash it expects from a sent draft, a
draft that is sent keeps its bytes, and with them its state, its delivery and its body. -/
theorem sent_draft_stays (site : Site) (known : Set Bytes) (free : Set.InjOn (hashBytes site) known)
    (calls : Nat → Call) (files : Files) (events : List Event) (before after : List Nat)
    (careful : (outbox site calls ⟨files, events, []⟩).Meets (Careful site known) (before ++ after)) :
    SentKept site ((outbox site calls ⟨files, events, []⟩).run before).state
      ((outbox site calls ⟨files, events, []⟩).run (before ++ after)).state := by
  have start : (outbox site calls ⟨files, events, []⟩).Keeps (Careful site known) (Others site) (Fair site)
      (fun number => Reported site number) := fun number =>
    client_behaves (careful_discipline free number (calls number)) rfl
  obtain ⟨early, late⟩ := careful.append
  have keeps := start.run (fair_compatible site) early
  rw [Pool.run_append]
  exact keeps.relates (fair_compatible site) SentKept.refl SentKept.trans (fun _ _ _ => Fair.sent) late

end

/-! A workspace with one draft. -/

def noteDelivery : DraftDelivery where
  target := "octo/notes#1"
  remoteCommentId := "7"
  remoteCommentUrl := "https://github.com/octo/notes/issues/1#issuecomment-7"
  sentAt := ⟨0, 0⟩

def notePayload (body : String) : DraftPayload where
  draftId := some "DRAFT-20260101-note-01"
  title := "Note"
  recipientUri := "workctx://demo/person/PER-ann"
  purpose := "Report"
  format := .chat
  body := body
  taskUri := none
  sourceRefs := []
  authorId := "ana"
  agent := "pen"
  model := "one"

def noteFields (state : DeliveryState) : DraftFields where
  deliveryState := state
  delivery := if state = .sent then some noteDelivery else none
  recipientUri := "workctx://demo/person/PER-ann"
  purpose := "Report"
  draftFormat := .chat
  taskUri := none
  sourceRefs := []

def noteMark : DeliveryState → Bytes
  | .unsent => encodeUtf8 "unsent\n".toList
  | .sent => encodeUtf8 "sent\n".toList

/-- The demo context: its documents are notes, written as their state and their body. -/
def outboxSite : Site where
  library := demoLibrary
  contextId := "demo"
  render := fun frontmatter body =>
    match fieldsOf frontmatter.extras with
    | some fields => noteMark fields.deliveryState ++ encodeUtf8 body.toList
    | none => []
  parse := fun content =>
    ([.unsent, .sent].find? fun state => (noteMark state).isPrefixOf content).map fun state =>
      ({ id := "DRAFT-20260101-note-01"
         entityType := "draft"
         title := "Note"
         uri := "workctx://demo/draft/DRAFT-20260101-note-01"
         aliases := []
         status := some "draft"
         confidence := some "high"
         tags := ["outbox", if state = .sent then "sent" else "unsent"]
         topics := []
         references := [referenceTo "mentions" "workctx://demo/person/PER-ann"]
         createdAt := ⟨0, 0⟩
         updatedAt := ⟨0, 0⟩
         extras := .draft (noteFields state) }, asciiText (content.drop (noteMark state).length))
  compile := fun payload => encodeUtf8 payload.body.toList
  utcStamp := fun _ => "20260101T000000Z"
  revision := fun events => toString events.length
  resolvesReference := fun _ _ => true
  verdict := fun _ _ _ => .accepted
  localReview := true
  possibleSecret := fun _ => false

def notePath : String := draftPath "DRAFT-20260101-note-01"

def unsentNote : Bytes := noteMark .unsent ++ encodeUtf8 "Ready.".toList

def sentNote : Bytes := noteMark .sent ++ encodeUtf8 "Ready.".toList

def noteWorld : OutboxWorld := ⟨[(notePath, unsentNote)], [], []⟩

/-- The note is revised by one client and sent by another one. -/
def noteCalls (number : Nat) : Call :=
  if number = 0 then .save (notePayload "Later.") true ⟨true, true, ⟨0, 0⟩, "00000000"⟩
  else .send "DRAFT-20260101-note-01" "github" "octo/notes#1" true
    (sendFingerprint outboxSite (hashBytes outboxSite unsentNote) "github" "octo/notes#1")
    ⟨true, .response 201 (.parsed (.object [("id", .int 7),
      ("html_url", .string "https://github.com/octo/notes/issues/1#issuecomment-7")])), ⟨0, 0⟩, toString number⟩

def sentBetween : List Nat := [0, 0] ++ List.replicate 12 1

def noteRun (schedule : List Nat) : OutboxWorld := ((outbox outboxSite noteCalls noteWorld).run schedule).state

theorem sentNote_sent : IsSent outboxSite sentNote := by
  have parses : (outboxSite.parse sentNote).isSome = true := by decide +kernel
  obtain ⟨parsed, found⟩ := Option.isSome_iff_exists.mp parses
  have fields : ((outboxSite.parse sentNote).bind fun parsed => fieldsOf parsed.1.extras) = some (noteFields .sent) := by
    decide +kernel
  rw [found] at fields
  exact ⟨parsed, noteFields .sent, found, fields, rfl⟩

/-- The contents of the note are the given ones, and no save takes its hash from a sent note. -/
def carefulTest (contents : List Bytes) (note : Note) (before after : OutboxWorld) : Bool :=
  before.files.all (fun entry => contents.contains entry.2) && after.files.all (fun entry => contents.contains entry.2) &&
    match note with
    | .expected path => (before.files.get path).all fun content => !(noteMark .sent).isPrefixOf content
    | _ => true

theorem noteMark_of_isSent {content : Bytes} (sent : IsSent outboxSite content) :
    (noteMark .sent).isPrefixOf content = true := by
  obtain ⟨parsed, fields, parses, kind, state⟩ := sent
  obtain ⟨mark, found, rfl⟩ := Option.map_eq_some_iff.mp parses
  cases kind
  have same : mark = .sent := state
  have marked := List.find?_some found
  rw [same] at marked
  exact marked

theorem careful_of_test {contents : List Bytes} (note : Note) (before after : OutboxWorld)
    (passed : carefulTest contents note before after = true) :
    Careful outboxSite { content | content ∈ contents } note before after := by
  unfold carefulTest at passed
  rw [Bool.and_eq_true, Bool.and_eq_true] at passed
  refine ⟨inside_of_all passed.1.1, inside_of_all passed.1.2, ?_⟩
  intro path content expected found sent
  have unsent := passed.2
  rw [expected] at unsent
  dsimp only at unsent
  rw [found, Option.all_some, noteMark_of_isSent sent] at unsent
  cases unsent

theorem noteHashes_free : Set.InjOn (hashBytes outboxSite) { content | content ∈ [unsentNote, sentNote] } := by
  have apart : hashBytes outboxSite unsentNote ≠ hashBytes outboxSite sentNote := by decide +kernel
  intro one oneKnown two twoKnown same
  rcases List.mem_pair.mp oneKnown with rfl | rfl <;> rcases List.mem_pair.mp twoKnown with rfl | rfl
  · rfl
  · exact absurd same apart
  · exact absurd same.symm apart
  · rfl

theorem sent_draft_stays_sample :
    SentKept outboxSite (noteRun (List.replicate 12 1)) (noteRun (List.replicate 12 1 ++ [0, 0])) := by
  apply sent_draft_stays outboxSite _ noteHashes_free noteCalls [(notePath, unsentNote)] []
  apply Pool.Meets.of_admits careful_of_test
  decide +kernel

/-- A save that read the draft before it was sent, and its hash behind that, returns it to unsent
state with another body. -/
theorem stale_save_unsends : (noteRun sentBetween).files.get notePath = some sentNote ∧ IsSent outboxSite sentNote ∧
    (noteRun (sentBetween ++ [0, 0, 0])).files.get notePath = some (noteMark .unsent ++ encodeUtf8 "Later.".toList) ∧
    ¬SentKept outboxSite (noteRun sentBetween) (noteRun (sentBetween ++ [0, 0, 0])) := by
  have states : (noteRun sentBetween).files.get notePath = some sentNote ∧
      (noteRun (sentBetween ++ [0, 0, 0])).files.get notePath =
        some (noteMark .unsent ++ encodeUtf8 "Later.".toList) := by decide +kernel
  obtain ⟨sent, unsent⟩ := states
  refine ⟨sent, sentNote_sent, unsent, ?_⟩
  intro kept
  have still := kept _ _ sent sentNote_sent
  rw [unsent] at still
  exact absurd (Option.some.inj still) (by decide)

end Workctx.Drafting
