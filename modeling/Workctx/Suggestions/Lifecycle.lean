import Workctx.Suggestions.Service

/-! What the lifecycle of the suggestions promises of the workspace, and what keeps the promise: a new
record, a record that supersedes another one, and a record that is adopted or rejected. -/

namespace Workctx.Suggestions
open Workctx.Concurrent Workctx.Text Workctx.Domain Workctx.Staging Workctx.Engine Workctx.Services List

/-! Links. -/

section
variable {ι : Type} [DecidableEq ι] {earlier later : ι → Option ι} {old new : ι}

/-- The links of either kind are the links of the other kind, read backwards. -/
def Inverse (earlier later : ι → Option ι) : Prop := ∀ old new, later old = some new ↔ earlier new = some old

/-- A new pair of links, from an end without a successor to one that is not linked at all. -/
theorem Inverse.superseded (inverse : Inverse earlier later) (last : later old = none) (fresh : earlier new = none) :
    Inverse (Function.update earlier new (some old)) (Function.update later old (some new)) := by
  intro one two
  by_cases source : one = old
  · rw [source, Function.update_self]
    by_cases target : two = new
    · rw [target, Function.update_self]
      exact ⟨fun _ => rfl, fun _ => rfl⟩
    · rw [Function.update_of_ne target]
      constructor
      · intro same
        exact absurd (Option.some.inj same).symm target
      · intro linked
        rw [(inverse old two).mpr linked] at last
        cases last
  · rw [Function.update_of_ne source]
    by_cases target : two = new
    · rw [target, Function.update_self]
      constructor
      · intro linked
        rw [(inverse one new).mp linked] at fresh
        cases fresh
      · intro same
        exact absurd (Option.some.inj same).symm source
    · rw [Function.update_of_ne target]
      exact inverse one two

end

section
variable (site : Site)

/-! The promise. -/

def documentOf (files : Files) (suggestionId : String) : Option (SuggestionDocument site.library) :=
  (files.get (suggestionPath suggestionId)).bind fun content => (documentAt site suggestionId content).toOption

def successor (files : Files) (suggestionId : String) : Option String :=
  (documentOf site files suggestionId).bind fun document => document.record.extras.supersededBy

def predecessor (files : Files) (suggestionId : String) : Option String :=
  (documentOf site files suggestionId).bind fun document => document.record.extras.supersedes

def StatusAt (status : SuggestionStatus) (files : Files) (suggestionId : String) : Prop :=
  ∃ document, documentOf site files suggestionId = some document ∧ document.record.statusOf = some status

def IsOpen (suggestionId : String) (content : Bytes) : Prop :=
  ∃ document, documentAt site suggestionId content = .ok document ∧ document.record.statusOf = some .isOpen

/-- The bytes replace an open record by one that is not open, with its proposal and its predecessor. -/
def Closes (suggestionId : String) (content bytes : Bytes) : Prop :=
  ∃ current closed, documentAt site suggestionId content = .ok current ∧ current.record.statusOf = some .isOpen ∧
    documentAt site suggestionId bytes = .ok closed ∧ closed.record.statusOf ≠ some .isOpen ∧
    closed.record.extras.proposal = current.record.extras.proposal ∧
    closed.record.extras.supersedes = current.record.extras.supersedes

/-- A suggestion's bytes stay, until the one change that closes it. -/
def RecordsKept (before after : Files) : Prop :=
  ∀ suggestionId content, before.get (suggestionPath suggestionId) = some content →
    after.get (suggestionPath suggestionId) = some content ∨
      ∃ bytes, after.get (suggestionPath suggestionId) = some bytes ∧ Closes site suggestionId content bytes

/-- The event commits the embedded operations of the suggestion and then its adopted record. -/
def isAdoptionOf (suggestionId : String) (event : Event) : Bool :=
  event.result == .committed &&
    match event.proposal.operations.getLast? with
    | some (.update path content _) =>
      path == suggestionPath suggestionId &&
        match documentAt site suggestionId content with
        | .ok document => document.record.statusOf == some .adopted &&
            event.proposal.operations.dropLast == embeddedOperations site document.record
        | .error _ => false
    | _ => false

def adoptionsOf (suggestionId : String) (world : SuggestionWorld) : List Event :=
  world.events.filter (isAdoptionOf site suggestionId)

def OnRecords (event : Event) : Prop :=
  ∀ operation ∈ event.proposal.operations, ∀ path ∈ operation.paths, ∃ suggestionId, path = suggestionPath suggestionId

/-- The events of the adoption stay, or there is one more and the suggestion has become adopted. -/
def AdoptedOnce (suggestionId : String) (before after : SuggestionWorld) : Prop :=
  (adoptionsOf site suggestionId after = adoptionsOf site suggestionId before ∧
      (StatusAt site .adopted before.files suggestionId ↔ StatusAt site .adopted after.files suggestionId)) ∨
    (adoptionsOf site suggestionId after).length = (adoptionsOf site suggestionId before).length + 1 ∧
      ¬StatusAt site .adopted before.files suggestionId ∧ StatusAt site .adopted after.files suggestionId

/-- The promise between two states of a run. -/
structure Lawful (before after : SuggestionWorld) : Prop where
  kept : RecordsKept site before.files after.files
  inverse : Inverse (predecessor site before.files) (successor site before.files) →
    Inverse (predecessor site after.files) (successor site after.files)
  events : ∃ added, after.events = before.events ++ added ∧ ∀ event ∈ added, event.result = .committed →
    OnRecords event ∨ ∃ suggestionId, isAdoptionOf site suggestionId event = true
  once : ∀ suggestionId, AdoptedOnce site suggestionId before after

end

section
variable {site : Site} {before after : SuggestionWorld} {suggestionId : String} {content bytes : Bytes}
  {document : SuggestionDocument site.library}

theorem suggestionPath_injective : Function.Injective suggestionPath := by
  intro one two same
  unfold suggestionPath at same
  exact (String.append_right_inj _).mp ((String.append_left_inj _).mp same)

theorem documentOf_of (found : before.files.get (suggestionPath suggestionId) = some content)
    (read : documentAt site suggestionId content = .ok document) :
    documentOf site before.files suggestionId = some document := by
  unfold documentOf
  rw [found, Option.bind_some, read]
  rfl

theorem documentOf_absent (absent : before.files.get (suggestionPath suggestionId) = none) :
    documentOf site before.files suggestionId = none := by
  unfold documentOf
  rw [absent]
  rfl

theorem documentOf_some (found : documentOf site before.files suggestionId = some document) :
    ∃ content, before.files.get (suggestionPath suggestionId) = some content ∧
      documentAt site suggestionId content = .ok document := by
  obtain ⟨content, here, read⟩ := Option.bind_eq_some_iff.mp found
  refine ⟨content, here, ?_⟩
  cases outcome : documentAt site suggestionId content with
  | ok value =>
    rw [outcome] at read
    rw [Option.some.inj read]
  | error error =>
    rw [outcome] at read
    cases read

theorem documentOf_congr (same : after.files.get (suggestionPath suggestionId) = before.files.get (suggestionPath suggestionId)) :
    documentOf site after.files suggestionId = documentOf site before.files suggestionId := by
  unfold documentOf
  rw [same]

theorem documentAt_ok (read : documentAt site suggestionId content = .ok document) :
    document.record.id = suggestionId ∧ ∃ record : SuggestionRecord site.library, record.modelValidate = .ok document.record := by
  unfold documentAt at read
  split at read
  · cases read
  · split at read
    · cases read
    · next record accepted =>
      split at read
      · next same =>
        cases read
        refine ⟨same, ?_⟩
        unfold readSuggestion at accepted
        split at accepted
        · exact ⟨_, accepted⟩
        · cases accepted
      · cases read

variable {record validated : SuggestionRecord site.library} {proposal : Proposal}

section
variable (accepted : record.modelValidate = .ok validated)
include accepted

theorem supersession_of_validated : validated.requireSupersession = .ok () := by
  obtain ⟨_, ⟨sourceRefs, _, rfl⟩, contract⟩ := SuggestionRecord.modelValidate_ok.mp accepted
  unfold SuggestionRecord.validateSuggestionContract at contract
  obtain ⟨_, _, contract⟩ := bind_ok.mp contract
  obtain ⟨_, _, contract⟩ := bind_ok.mp contract
  obtain ⟨_, _, contract⟩ := bind_ok.mp contract
  obtain ⟨_, _, contract⟩ := bind_ok.mp contract
  exact contract

theorem supersededBy_of_validated (status : validated.statusOf ≠ some .superseded) :
    validated.extras.supersededBy = none := by
  have rules := supersession_of_validated accepted
  unfold SuggestionRecord.requireSupersession at rules
  obtain ⟨_, _, rules⟩ := bind_ok.mp rules
  obtain ⟨links, _⟩ := check_bind_ok.mp rules
  have other : (validated.statusOf == some .superseded) = false := beq_false_of_ne status
  rw [other, Bool.false_or, Option.isNone_iff_eq_none] at links
  exact links

theorem supersedes_of_validated : validated.extras.supersedes ≠ some validated.id := by
  have rules := supersession_of_validated accepted
  unfold SuggestionRecord.requireSupersession at rules
  obtain ⟨_, _, rules⟩ := bind_ok.mp rules
  obtain ⟨_, _, rules⟩ := bind_ok.mp rules
  have foreign := check_ok.mp rules
  rw [Bool.and_eq_true] at foreign
  exact bne_iff_ne.mp foreign.1

end

theorem RecordsKept.refl (files : Files) : RecordsKept site files files := fun _ _ found => .inl found

theorem RecordsKept.trans {one two three : Files} (first : RecordsKept site one two) (second : RecordsKept site two three) :
    RecordsKept site one three := by
  intro suggestionId content found
  rcases first suggestionId content found with same | ⟨bytes, here, closes⟩
  · exact second suggestionId content same
  · rcases second suggestionId bytes here with same | ⟨_, _, reopened⟩
    · exact .inr ⟨bytes, same, closes⟩
    · obtain ⟨_, closed, _, _, read, shut, _⟩ := closes
      obtain ⟨current, _, again, isOpen, _⟩ := reopened
      rw [read] at again
      cases again
      exact absurd isOpen shut

theorem RecordsKept.adopted (kept : RecordsKept site before.files after.files)
    (adopted : StatusAt site .adopted before.files suggestionId) : StatusAt site .adopted after.files suggestionId := by
  obtain ⟨document, found, status⟩ := adopted
  obtain ⟨content, here, read⟩ := documentOf_some found
  rcases kept suggestionId content here with same | ⟨_, _, current, _, again, isOpen, _⟩
  · exact ⟨document, documentOf_of same read, status⟩
  · rw [read] at again
    cases again
    rw [status] at isOpen
    cases isOpen

theorem AdoptedOnce.trans {one two three : SuggestionWorld} (earlier : RecordsKept site one.files two.files)
    (later : RecordsKept site two.files three.files) (first : AdoptedOnce site suggestionId one two)
    (second : AdoptedOnce site suggestionId two three) : AdoptedOnce site suggestionId one three := by
  rcases first with ⟨same, status⟩ | ⟨count, fresh, adopted⟩
  · rcases second with ⟨equal, still⟩ | ⟨count, fresh, adopted⟩
    · exact .inl ⟨equal.trans same, status.trans still⟩
    · rw [same] at count
      exact .inr ⟨count, fun known => fresh (earlier.adopted known), adopted⟩
  · rcases second with ⟨equal, _⟩ | ⟨_, again, _⟩
    · rw [← equal] at count
      exact .inr ⟨count, fresh, later.adopted adopted⟩
    · exact absurd adopted again

theorem Lawful.refl (state : SuggestionWorld) : Lawful site state state where
  kept := RecordsKept.refl state.files
  inverse := id
  events := ⟨[], (append_nil _).symm, fun _ member => by cases member⟩
  once := fun _ => .inl ⟨rfl, Iff.rfl⟩

theorem Lawful.trans {one two three : SuggestionWorld} (first : Lawful site one two) (second : Lawful site two three) :
    Lawful site one three where
  kept := first.kept.trans second.kept
  inverse := fun inverse => second.inverse (first.inverse inverse)
  events := by
    obtain ⟨added, early, ours⟩ := first.events
    obtain ⟨more, late, theirs⟩ := second.events
    refine ⟨added ++ more, ?_, ?_⟩
    · rw [late, early, append_assoc]
    · intro event member
      rcases mem_append.mp member with here | there
      · exact ours event here
      · exact theirs event there
  once := fun suggestionId => (first.once suggestionId).trans first.kept second.kept (second.once suggestionId)

/-! The changes. -/

theorem adoptionsOf_append {event : Event} (events : after.events = before.events ++ [event]) (suggestionId : String) :
    adoptionsOf site suggestionId after =
      adoptionsOf site suggestionId before ++ if isAdoptionOf site suggestionId event then [event] else [] := by
  unfold adoptionsOf
  rw [events, filter_append, filter_singleton, Bool.cond_eq_ite]

theorem Lawful.rolledBack (rolledBack : RolledBack proposal before after) : Lawful site before after where
  kept := by
    rw [rolledBack.files]
    exact RecordsKept.refl _
  inverse := by
    rw [rolledBack.files]
    exact id
  events := by
    refine ⟨[⟨proposal, .rolledBack⟩], rolledBack.events, ?_⟩
    intro event member committed
    rw [mem_singleton.mp member] at committed
    cases committed
  once := by
    intro suggestionId
    left
    rw [adoptionsOf_append rolledBack.events, rolledBack.files]
    exact ⟨append_nil _, Iff.rfl⟩

variable {expectedHash : String} {status : SuggestionStatus} {current closed : SuggestionDocument site.library}

theorem isAdoptionOf_update {event : Event} {operations : List FileOperation} {other : String}
    (last : event.proposal.operations = operations ++ [updateOf other bytes expectedHash])
    (read : documentAt site other bytes = .ok document) :
    isAdoptionOf site suggestionId event = true ↔ suggestionId = other ∧ event.result = .committed ∧
      document.record.statusOf = some .adopted ∧ operations = embeddedOperations site document.record := by
  unfold isAdoptionOf
  rw [last, getLast?_concat, dropLast_concat]
  unfold updateOf
  dsimp only
  by_cases same : suggestionId = other
  · subst same
    rw [read]
    simp
  · have apart : (suggestionPath other == suggestionPath suggestionId) = false := by
      apply beq_false_of_ne
      intro equal
      exact same (suggestionPath_injective equal).symm
    rw [apart]
    simp [same]

theorem isAdoptionOf_create {event : Event} {path : String} (single : event.proposal.operations = [.create path bytes]) :
    isAdoptionOf site suggestionId event = false := by
  unfold isAdoptionOf
  rw [single]
  simp

theorem StatusAt.congr
    (same : after.files.get (suggestionPath suggestionId) = before.files.get (suggestionPath suggestionId)) :
    StatusAt site status before.files suggestionId ↔ StatusAt site status after.files suggestionId := by
  unfold StatusAt
  rw [documentOf_congr same]

theorem not_statusAt (found : documentOf site before.files suggestionId = some document)
    (other : document.record.statusOf ≠ some status) : ¬StatusAt site status before.files suggestionId := by
  rintro ⟨again, here, same⟩
  rw [found] at here
  cases here
  exact other same

theorem not_statusAt_absent (missing : documentOf site before.files suggestionId = none) :
    ¬StatusAt site status before.files suggestionId := by
  rintro ⟨_, here, _⟩
  rw [missing] at here
  cases here

theorem not_adopted (found : documentOf site before.files suggestionId = some document)
    (isOpen : document.record.statusOf = some .isOpen) : ¬StatusAt site .adopted before.files suggestionId := by
  apply not_statusAt found
  rw [isOpen]
  decide

theorem Lawful.created (committed : Committed site proposal before after)
    (single : proposal.operations = [.create (suggestionPath suggestionId) bytes])
    (read : documentAt site suggestionId bytes = .ok document) (isOpen : document.record.statusOf = some .isOpen)
    (first : document.record.extras.supersedes = none) : Lawful site before after := by
  obtain ⟨absent, files⟩ := operate_create.mp (committed.single single)
  have here : after.files.get (suggestionPath suggestionId) = some bytes := by
    rw [files]
    exact Directory.get_put_self _ _ _
  have elsewhere : ∀ other, other ≠ suggestionId →
      after.files.get (suggestionPath other) = before.files.get (suggestionPath other) := by
    intro other apart
    rw [files]
    exact Directory.get_put_of_ne fun same => apart (suggestionPath_injective same)
  have found := documentOf_of here read
  have missing : documentOf site before.files suggestionId = none := documentOf_absent absent
  obtain ⟨_, record, validated⟩ := documentAt_ok read
  have unlinked : document.record.extras.supersededBy = none := by
    apply supersededBy_of_validated validated
    rw [isOpen]
    decide
  have earlier : predecessor site after.files = predecessor site before.files := by
    funext other
    unfold predecessor
    by_cases same : other = suggestionId
    · rw [same, found, missing]
      exact first
    · rw [documentOf_congr (elsewhere other same)]
  have later : successor site after.files = successor site before.files := by
    funext other
    unfold successor
    by_cases same : other = suggestionId
    · rw [same, found, missing]
      exact unlinked
    · rw [documentOf_congr (elsewhere other same)]
  refine ⟨?_, ?_, ?_, ?_⟩
  · intro other content known
    left
    rw [elsewhere other, known]
    intro same
    rw [same, absent] at known
    cases known
  · rw [earlier, later]
    exact id
  · refine ⟨_, committed.events, ?_⟩
    intro event member _
    left
    rw [mem_singleton.mp member]
    intro operation belongs path touched
    rw [single] at belongs
    rw [mem_singleton.mp belongs] at touched
    exact ⟨suggestionId, mem_singleton.mp touched⟩
  · intro other
    left
    rw [adoptionsOf_append committed.events, isAdoptionOf_create single]
    refine ⟨append_nil _, ?_⟩
    by_cases same : other = suggestionId
    · rw [same]
      exact iff_of_false (not_statusAt_absent missing) (not_adopted found isOpen)
    · exact StatusAt.congr (elsewhere other same)

/-- An open record and the one that replaces it, read from their bytes. -/
structure Closing (site : Site) (suggestionId : String) (content bytes : Bytes)
    (current closed : SuggestionDocument site.library) : Prop where
  read : documentAt site suggestionId content = .ok current
  isOpen : current.record.statusOf = some .isOpen
  again : documentAt site suggestionId bytes = .ok closed
  shut : closed.record.statusOf ≠ some .isOpen
  proposal : closed.record.extras.proposal = current.record.extras.proposal
  supersedes : closed.record.extras.supersedes = current.record.extras.supersedes

theorem Closing.closes
    (closing : Closing site suggestionId content bytes current closed) : Closes site suggestionId content bytes :=
  ⟨current, closed, closing.read, closing.isOpen, closing.again, closing.shut, closing.proposal, closing.supersedes⟩

theorem Closing.last
    (closing : Closing site suggestionId content bytes current closed) : current.record.extras.supersededBy = none := by
  obtain ⟨_, record, validated⟩ := documentAt_ok closing.read
  apply supersededBy_of_validated validated
  rw [closing.isOpen]
  decide

theorem Lawful.transitioned {operations : List FileOperation} (committed : Committed site proposal before after)
    (list : proposal.operations = operations ++ [updateOf suggestionId bytes expectedHash])
    (outside : ∀ operation ∈ operations, ∀ other, suggestionPath other ∉ operation.paths)
    (pinned : ∀ old, before.files.get (suggestionPath suggestionId) = some old → hashBytes site old = expectedHash →
      old = content)
    (closing : Closing site suggestionId content bytes current closed)
    (status : closed.record.statusOf = some .adopted ∧ operations = embeddedOperations site closed.record ∨
      closed.record.statusOf = some .rejected ∧ operations = []) : Lawful site before after := by
  have operated := committed.operated
  rw [list, foldlM_append] at operated
  obtain ⟨middle, extra, last⟩ := bind_ok.mp operated
  rw [foldlM_cons] at last
  obtain ⟨_, done, same⟩ := bind_ok.mp last
  cases same
  have untouched : ∀ other, middle.get (suggestionPath other) = before.files.get (suggestionPath other) := by
    intro other
    apply operations_elsewhere extra
    intro operation member
    exact outside operation member other
  obtain ⟨⟨old, known, equal⟩, files⟩ := operate_update.mp done
  rw [untouched] at known
  have equal := pinned old known equal
  rw [equal] at known
  have here : after.files.get (suggestionPath suggestionId) = some bytes := by
    rw [files]
    exact Directory.get_put_self _ _ _
  have elsewhere : ∀ other, other ≠ suggestionId →
      after.files.get (suggestionPath other) = before.files.get (suggestionPath other) := by
    intro other apart
    rw [files, ← untouched other]
    exact Directory.get_put_of_ne fun same => apart (suggestionPath_injective same)
  have was := documentOf_of known closing.read
  have found := documentOf_of here closing.again
  have unlinked : closed.record.extras.supersededBy = none := by
    obtain ⟨_, record, validated⟩ := documentAt_ok closing.again
    apply supersededBy_of_validated validated
    rcases status with ⟨adopted, _⟩ | ⟨rejected, _⟩
    · rw [adopted]
      decide
    · rw [rejected]
      decide
  have earlier : predecessor site after.files = predecessor site before.files := by
    funext other
    unfold predecessor
    by_cases same : other = suggestionId
    · rw [same, found, was]
      exact closing.supersedes
    · rw [documentOf_congr (elsewhere other same)]
  have later : successor site after.files = successor site before.files := by
    funext other
    unfold successor
    by_cases same : other = suggestionId
    · rw [same, found, was]
      exact unlinked.trans closing.last.symm
    · rw [documentOf_congr (elsewhere other same)]
  have adoption : ∀ other, isAdoptionOf site other ⟨proposal, .committed⟩ = true ↔
      other = suggestionId ∧ closed.record.statusOf = some .adopted := by
    intro other
    have updates : isAdoptionOf site other ⟨proposal, .committed⟩ = true ↔ _ := isAdoptionOf_update list closing.again
    rw [updates]
    constructor
    · intro adopts
      exact ⟨adopts.1, adopts.2.2.1⟩
    · intro adopts
      rcases status with ⟨adopted, embedded⟩ | ⟨rejected, _⟩
      · exact ⟨adopts.1, rfl, adopted, embedded⟩
      · rw [rejected] at adopts
        cases adopts.2
  refine ⟨?_, ?_, ?_, ?_⟩
  · intro other content' present
    by_cases same : other = suggestionId
    · rw [same, known] at present
      cases present
      right
      rw [same]
      exact ⟨bytes, here, closing.closes⟩
    · left
      rw [elsewhere other same, present]
  · rw [earlier, later]
    exact id
  · refine ⟨_, committed.events, ?_⟩
    intro event member _
    rw [mem_singleton.mp member]
    rcases status with ⟨adopted, _⟩ | ⟨_, none_⟩
    · exact .inr ⟨suggestionId, (adoption suggestionId).mpr ⟨rfl, adopted⟩⟩
    · left
      intro operation belongs path touched
      rw [list, none_, nil_append] at belongs
      rw [mem_singleton.mp belongs] at touched
      exact ⟨suggestionId, mem_singleton.mp touched⟩
  · intro other
    unfold AdoptedOnce
    rw [adoptionsOf_append committed.events]
    by_cases same : other = suggestionId
    · rw [same]
      have fresh := not_adopted was closing.isOpen
      rcases status with ⟨adopted, _⟩ | ⟨rejected, _⟩
      · right
        rw [if_pos ((adoption suggestionId).mpr ⟨rfl, adopted⟩)]
        exact ⟨length_append, fresh, closed, found, adopted⟩
      · left
        have other : closed.record.statusOf ≠ some .adopted := by
          rw [rejected]
          decide
        rw [if_neg fun adopts => other ((adoption suggestionId).mp adopts).2]
        refine ⟨append_nil _, ?_⟩
        exact iff_of_false fresh (not_statusAt found other)
    · left
      rw [if_neg fun adopts => same ((adoption other).mp adopts).1]
      exact ⟨append_nil _, StatusAt.congr (elsewhere other same)⟩

theorem Lawful.superseded {newId : String} {newBytes : Bytes} (committed : Committed site proposal before after)
    (pair : proposal.operations = [.create (suggestionPath newId) newBytes, updateOf suggestionId bytes expectedHash])
    (pinned : ∀ old, before.files.get (suggestionPath suggestionId) = some old → hashBytes site old = expectedHash →
      old = content)
    (read : documentAt site newId newBytes = .ok document) (isOpen : document.record.statusOf = some .isOpen)
    (link : document.record.extras.supersedes = some suggestionId)
    (closing : Closing site suggestionId content bytes current closed)
    (status : closed.record.statusOf = some .superseded) (successor_ : closed.record.extras.supersededBy = some newId) :
    Lawful site before after := by
  have operated := committed.operated
  rw [pair, foldlM_cons] at operated
  obtain ⟨middle, created, last⟩ := bind_ok.mp operated
  rw [foldlM_cons] at last
  obtain ⟨_, done, same⟩ := bind_ok.mp last
  cases same
  obtain ⟨absent, rfl⟩ := operate_create.mp created
  obtain ⟨⟨old, known, equal⟩, files⟩ := operate_update.mp done
  have apart : suggestionId ≠ newId := by
    intro same
    obtain ⟨identity, record, validated⟩ := documentAt_ok read
    apply supersedes_of_validated validated
    rw [link, same, identity]
  have paths : suggestionPath suggestionId ≠ suggestionPath newId := fun same => apart (suggestionPath_injective same)
  rw [Directory.get_put_of_ne paths] at known
  have equal := pinned old known equal
  rw [equal] at known
  have here : after.files.get (suggestionPath suggestionId) = some bytes := by
    rw [files]
    exact Directory.get_put_self _ _ _
  have there : after.files.get (suggestionPath newId) = some newBytes := by
    rw [files, Directory.get_put_of_ne paths.symm]
    exact Directory.get_put_self _ _ _
  have elsewhere : ∀ other, other ≠ suggestionId → other ≠ newId →
      after.files.get (suggestionPath other) = before.files.get (suggestionPath other) := by
    intro other notOld notNew
    rw [files, Directory.get_put_of_ne fun same => notOld (suggestionPath_injective same),
      Directory.get_put_of_ne fun same => notNew (suggestionPath_injective same)]
  have was := documentOf_of known closing.read
  have found := documentOf_of here closing.again
  have new := documentOf_of there read
  have missing : documentOf site before.files newId = none := documentOf_absent absent
  have unlinked : document.record.extras.supersededBy = none := by
    obtain ⟨_, record, validated⟩ := documentAt_ok read
    apply supersededBy_of_validated validated
    rw [isOpen]
    decide
  have earlier : predecessor site after.files = Function.update (predecessor site before.files) newId (some suggestionId) := by
    funext other
    by_cases same : other = newId
    · rw [same, Function.update_self, predecessor, new]
      exact link
    · rw [Function.update_of_ne same]
      unfold predecessor
      by_cases replaced : other = suggestionId
      · rw [replaced, found, was]
        exact closing.supersedes
      · rw [documentOf_congr (elsewhere other replaced same)]
  have later : successor site after.files = Function.update (successor site before.files) suggestionId (some newId) := by
    funext other
    by_cases same : other = suggestionId
    · rw [same, Function.update_self, successor, found]
      exact successor_
    · rw [Function.update_of_ne same]
      unfold successor
      by_cases added : other = newId
      · rw [added, new, missing]
        exact unlinked
      · rw [documentOf_congr (elsewhere other same added)]
  have adoption : ∀ other, ¬isAdoptionOf site other ⟨proposal, .committed⟩ = true := by
    intro other
    have list : proposal.operations =
        [FileOperation.create (suggestionPath newId) newBytes] ++ [updateOf suggestionId bytes expectedHash] := pair
    have updates : isAdoptionOf site other ⟨proposal, .committed⟩ = true ↔ _ := isAdoptionOf_update list closing.again
    rw [updates, status]
    rintro ⟨_, _, same, _⟩
    cases same
  refine ⟨?_, ?_, ?_, ?_⟩
  · intro other content' present
    by_cases same : other = suggestionId
    · rw [same, known] at present
      cases present
      right
      rw [same]
      exact ⟨bytes, here, closing.closes⟩
    · left
      have old : other ≠ newId := by
        intro same
        rw [same, absent] at present
        cases present
      rw [elsewhere other same old, present]
  · rw [earlier, later]
    intro inverse
    apply inverse.superseded
    · rw [successor, was]
      exact closing.last
    · rw [predecessor, missing]
      rfl
  · refine ⟨_, committed.events, ?_⟩
    intro event member _
    left
    rw [mem_singleton.mp member]
    intro operation belongs path touched
    rw [pair] at belongs
    rcases mem_pair.mp belongs with rfl | rfl
    · exact ⟨newId, mem_singleton.mp touched⟩
    · exact ⟨suggestionId, mem_singleton.mp touched⟩
  · intro other
    left
    rw [adoptionsOf_append committed.events, if_neg (adoption other)]
    refine ⟨append_nil _, ?_⟩
    by_cases same : other = suggestionId
    · rw [same]
      have closed_ : closed.record.statusOf ≠ some .adopted := by
        rw [status]
        decide
      exact iff_of_false (not_adopted was closing.isOpen) (not_statusAt found closed_)
    · by_cases added : other = newId
      · rw [added]
        exact iff_of_false (not_statusAt_absent missing) (not_adopted new isOpen)
      · exact StatusAt.congr (elsewhere other same added)

end
end Workctx.Suggestions
