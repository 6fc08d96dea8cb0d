import Workctx.Concurrent.Alone
import Workctx.Ingestion.Calls

/-! Registrations under two verdicts: apart from their transactions they take the same actions, and
all of them only append to the ledger. -/

namespace Workctx.Ingestion
open Workctx.Concurrent Workctx.Text Workctx.Domain Workctx.Staging Workctx.Engine Workctx.Services

def Appends (before after : IngestionWorld) : Prop := before.events <+: after.events

theorem appends_refl (world : IngestionWorld) : Appends world world := List.prefix_rfl

abbrev Alike (same : Note → IngestionWorld → Prop) (parts : IngestionWorld → IngestionWorld → Prop) {α : Type}
    (one two : IngestionClient α) : Prop := Client.Mirrors same parts Appends one two

def withVerdict (site : Site) (verdict : Proposal → Files → Files → Verdict) : Site := { site with verdict := verdict }

/-- Two verdicts for which only transactions may differ. -/
structure Twins (site : Site) (one two : Proposal → Files → Files → Verdict) (same : Note → IngestionWorld → Prop)
    (parts : IngestionWorld → IngestionWorld → Prop) : Prop where
  plain : ∀ world, same .plain world
  moves : ∀ artifactId spec world, same (.moves artifactId spec) world
  applies : ∀ created proposal, Alike same parts
    (Client.transact (.applies created proposal) (attempt (withVerdict site one) proposal))
    (Client.transact (.applies created proposal) (attempt (withVerdict site two) proposal))

section
variable {site : Site}

theorem attempt_appends {proposal : Proposal} (before : IngestionWorld) (outcome : Option (Except Failure Event)) (after : IngestionWorld)
    (done : attempt site proposal before = .ok (outcome, after)) : Appends before after := by
  rcases attempt_ok done with ⟨_, rfl⟩ | ⟨_, _, events⟩ | ⟨_, committed⟩
  · exact List.prefix_rfl
  · exact events
  · rw [Appends, committed.events]
    exact List.prefix_append _ _

theorem moveFile_appends {spec : MoveSpec} (before : IngestionWorld) (value : Unit) (after : IngestionWorld)
    (done : moveFile site spec before = .ok (value, after)) : Appends before after := by
  unfold moveFile at done
  split at done
  · cases done
    exact List.prefix_rfl
  · split at done
    · cases done
    · cases done
      exact List.prefix_rfl
  · cases done

theorem startMove_appends {receipt reference transactionId : String} {specs : List MoveSpec} (before : IngestionWorld)
    (value : MoveStart) (after : IngestionWorld) (done : startMove site receipt reference transactionId specs before = .ok (value, after)) :
    Appends before after := by
  rw [Appends, (startMove_ok done).2]

theorem finalizeMove_appends {receipt reference : String} (before : IngestionWorld) (value : Unit) (after : IngestionWorld)
    (done : finalizeMove receipt reference before = .ok (value, after)) : Appends before after := by
  unfold finalizeMove at done
  split at done
  · cases done
    exact List.prefix_rfl
  · cases done

end

section
variable {site : Site} {one two : Proposal → Files → Files → Verdict} {same : Note → IngestionWorld → Prop}
  {parts : IngestionWorld → IngestionWorld → Prop} {format : ManifestFormat} (twins : Twins site one two same parts)

include twins

theorem look_alike {α : Type} {view : IngestionWorld → α} : Alike same parts (Client.observe .plain view) (Client.observe .plain view) :=
  Client.mirrors_observe appends_refl twins.plain

variable {path : String} {manifest : ArtifactManifest}

theorem hashPreservedFile_alike :
    Alike same parts (hashPreservedFile (withVerdict site one) path) (hashPreservedFile (withVerdict site two) path) := by
  apply Client.mirrors_bind (look_alike twins)
  intro content
  cases content with
  | none => exact .raise _
  | some content => exact .ret _

theorem readManifests_alike (paths : List String) : Alike same parts (readManifests format paths) (readManifests format paths) := by
  induction paths with
  | nil => exact .ret _
  | cons path rest ih =>
    apply Client.mirrors_bind (look_alike twins)
    intro content
    split
    · exact .raise _
    · apply Client.mirrors_bind ih
      exact fun _ => .ret _

theorem records_alike : Alike same parts (records format) (records format) := by
  apply Client.mirrors_bind (look_alike twins)
  intro paths
  apply Client.mirrors_bind (readManifests_alike twins _)
  intro found
  apply Client.mirrors_bind Client.mirrors_ensure
  exact fun _ => .ret _

theorem recordById_alike {artifactId : String} : Alike same parts (recordById format artifactId) (recordById format artifactId) := by
  apply Client.mirrors_bind (records_alike twins)
  intro existing
  split
  · exact .ret _
  · exact .raise _

theorem applyAttempts_alike {created : Option ArtifactManifest} {operation : FileOperation}
    {action : String} {draws : Nat → AwareDatetime × String} (attempts : Nat) :
    Alike same parts (applyAttempts (withVerdict site one) created manifest operation action draws attempts)
      (applyAttempts (withVerdict site two) created manifest operation action draws attempts) := by
  induction attempts with
  | zero => exact .raise _
  | succ attempts ih =>
    apply Client.mirrors_bind (look_alike twins)
    intro base
    apply Client.mirrors_bind Client.mirrors_ensure
    intro _
    apply Client.mirrors_bind (twins.applies _ _)
    intro outcome
    split
    · exact ih
    · exact .ret _
    · exact .raise _

theorem createManifest_alike {draws : Nat → AwareDatetime × String} :
    Alike same parts (createManifest (withVerdict site one) format manifest draws)
      (createManifest (withVerdict site two) format manifest draws) := applyAttempts_alike twins _

theorem updateManifest_alike {action : String} {draws : Nat → AwareDatetime × String} :
    Alike same parts (updateManifest (withVerdict site one) format path manifest action draws)
      (updateManifest (withVerdict site two) format path manifest action draws) := by
  apply Client.mirrors_bind (hashPreservedFile_alike twins)
  exact fun _ => applyAttempts_alike twins _

theorem moveFiles_alike {artifactId : String} (specs : List MoveSpec) :
    Alike same parts (moveFiles (withVerdict site one) artifactId specs) (moveFiles (withVerdict site two) artifactId specs) := by
  induction specs with
  | nil => exact .ret _
  | cons spec rest ih =>
    apply Client.mirrors_bind (Client.mirrors_act appends_refl moveFile_appends (twins.moves artifactId spec))
    exact fun _ => ih

theorem moveManifest_alike {action receipt : String} {metadata : ManifestMetadata} :
    Alike same parts (moveManifest (withVerdict site one) action manifest metadata receipt)
      (moveManifest (withVerdict site two) action manifest metadata receipt) := by
  unfold moveManifest
  split
  · exact .raise _
  · next specs _ =>
    have finished : ∀ outcome : Bool × Bool, Alike same parts (do
        moveFiles (withVerdict site one) manifest.id specs
        Client.transact .plain (finalizeMove receipt (artifactReference manifest))
        .ret outcome) (do
        moveFiles (withVerdict site two) manifest.id specs
        Client.transact .plain (finalizeMove receipt (artifactReference manifest))
        .ret outcome) := by
      intro outcome
      apply Client.mirrors_bind ((moveFiles_alike twins) specs)
      intro _
      apply Client.mirrors_bind (Client.mirrors_act appends_refl finalizeMove_appends twins.plain)
      exact fun _ => .ret _
    apply Client.mirrors_bind (Client.mirrors_act appends_refl startMove_appends twins.plain)
    intro start
    cases start with
    | applied => exact .ret _
    | started => exact finished _
    | resumed => exact finished _

theorem persistQuarantineReceipt_alike {receipt : String} {metadata : ManifestMetadata}
    {draws : Nat → AwareDatetime × String} :
    Alike same parts (persistQuarantineReceipt (withVerdict site one) format path manifest metadata receipt draws)
      (persistQuarantineReceipt (withVerdict site two) format path manifest metadata receipt draws) := by
  apply Client.mirrors_bind (updateManifest_alike twins)
  exact fun _ => .ret _

variable {draws : IngestionDraws} {request : RegisterRequest}

theorem resumeOrReturn_alike {record : ArtifactRecord} :
    Alike same parts (resumeOrReturn (withVerdict site one) format record draws)
      (resumeOrReturn (withVerdict site two) format record draws) := by
  unfold resumeOrReturn
  split
  · split
    · apply Client.mirrors_bind (moveManifest_alike twins)
      exact fun _ => .ret _
    · apply Client.mirrors_bind (look_alike twins)
      intro clean
      apply Client.mirrors_bind Client.mirrors_ensure
      intro _
      apply Client.mirrors_bind (updateManifest_alike twins)
      intro authorization
      apply Client.mirrors_bind (persistQuarantineReceipt_alike twins)
      intro stored
      apply Client.mirrors_bind (moveManifest_alike twins)
      exact fun _ => .ret _
  · exact .ret _

theorem replayMoved_alike (candidates : List (ArtifactRecord × ManifestMetadata)) :
    Alike same parts (replayMoved request candidates) (replayMoved request candidates) := by
  induction candidates with
  | nil => exact .ret _
  | cons candidate rest ih =>
    obtain ⟨record, metadata⟩ := candidate
    unfold replayMoved
    split
    · apply Client.mirrors_bind (look_alike twins)
      intro preserved
      apply Client.mirrors_bind (look_alike twins)
      intro clean
      split
      · exact .ret _
      · exact ih
    · exact ih

theorem requireSidecars_alike {message : String} (sidecars : List SidecarMetadata) :
    Alike same parts (requireSidecars (withVerdict site one) message sidecars)
      (requireSidecars (withVerdict site two) message sidecars) := by
  induction sidecars with
  | nil => exact .ret _
  | cons sidecar rest ih =>
    apply Client.mirrors_bind (hashPreservedFile_alike twins)
    intro current
    apply Client.mirrors_bind Client.mirrors_ensure
    exact fun _ => ih

theorem replayLive_alike {currentHash : String} (candidates : List (ArtifactRecord × ManifestMetadata)) :
    Alike same parts (replayLive (withVerdict site one) request currentHash candidates)
      (replayLive (withVerdict site two) request currentHash candidates) := by
  induction candidates with
  | nil => exact .ret _
  | cons candidate rest ih =>
    obtain ⟨record, metadata⟩ := candidate
    unfold replayLive
    split
    · apply Client.mirrors_bind (look_alike twins)
      intro preserved
      split
      · apply Client.mirrors_bind Client.mirrors_ensure
        intro _
        apply Client.mirrors_bind (requireSidecars_alike twins _)
        exact fun _ => .ret _
      · exact ih
    · exact ih

theorem replayCandidate_alike {existing : List ArtifactRecord} {sourceExists : Bool} :
    Alike same parts (replayCandidate (withVerdict site one) existing request sourceExists)
      (replayCandidate (withVerdict site two) existing request sourceExists) := by
  unfold replayCandidate
  dsimp only
  split
  · exact .ret _
  · split
    · apply Client.mirrors_bind (hashPreservedFile_alike twins)
      exact fun _ => replayLive_alike twins _
    · exact replayMoved_alike twins _

theorem scanPath_alike {declared : Option String} :
    Alike same parts (scanPath (withVerdict site one) path declared draws) (scanPath (withVerdict site two) path declared draws) := by
  apply Client.mirrors_bind (look_alike twins)
  intro content
  cases content with
  | none => exact .raise _
  | some content => exact .ret _

theorem scanSidecars_alike (paths : List String) :
    Alike same parts (scanSidecars (withVerdict site one) draws paths) (scanSidecars (withVerdict site two) draws paths) := by
  induction paths with
  | nil => exact .ret _
  | cons path rest ih =>
    apply Client.mirrors_bind (scanPath_alike twins)
    intro first
    apply Client.mirrors_bind ih
    exact fun _ => .ret _

theorem registerNew_alike {existing : List ArtifactRecord} :
    Alike same parts (registerNew (withVerdict site one) format existing request draws)
      (registerNew (withVerdict site two) format existing request draws) := by
  apply Client.mirrors_bind (scanPath_alike twins)
  intro primary
  apply Client.mirrors_bind (scanSidecars_alike twins _)
  intro sidecars
  apply Client.mirrors_bind Client.mirrors_ofExcept
  intro status
  apply Client.mirrors_bind Client.mirrors_ofExcept
  intro artifactId
  apply Client.mirrors_bind (createManifest_alike twins)
  intro receipt
  have quarantined : ∀ manifest, Alike same parts (quarantine (withVerdict site one) format manifest receipt draws)
      (quarantine (withVerdict site two) format manifest receipt draws) := by
    intro manifest
    unfold quarantine
    split
    · apply Client.mirrors_bind (persistQuarantineReceipt_alike twins)
      intro stored
      apply Client.mirrors_bind (moveManifest_alike twins)
      exact fun _ => .ret _
    · exact .ret _
  apply Client.mirrors_bind (quarantined _)
  exact fun _ => .ret _

theorem register_alike :
    Alike same parts (register (withVerdict site one) format request draws) (register (withVerdict site two) format request draws) := by
  apply Client.mirrors_bind Client.mirrors_ensure
  intro _
  apply Client.mirrors_bind (records_alike twins)
  intro existing
  apply Client.mirrors_bind (look_alike twins)
  intro sourceExists
  apply Client.mirrors_bind (replayCandidate_alike twins)
  intro replay
  cases replay with
  | some record => exact resumeOrReturn_alike twins
  | none =>
    apply Client.mirrors_bind Client.mirrors_ensure
    exact fun _ => (registerNew_alike twins)

theorem registerItem_alike :
    Alike same parts (registerItem (withVerdict site one) format request draws)
      (registerItem (withVerdict site two) format request draws) := by
  unfold registerItem
  apply Client.mirrors_handle
  · apply Client.mirrors_bind (register_alike twins)
    exact fun _ => .ret _
  · intro error
    split
    · apply Client.mirrors_handle
      · apply Client.mirrors_bind (recordById_alike twins)
        exact fun _ => .ret _
      · exact fun _ => .ret _
    · exact .ret _

theorem registerBatchRequests_alike (requests : List (RegisterRequest × IngestionDraws)) :
    Alike same parts (registerBatchRequests (withVerdict site one) format requests)
      (registerBatchRequests (withVerdict site two) format requests) := by
  induction requests with
  | nil => exact .ret _
  | cons item rest ih =>
    apply Client.mirrors_bind (registerItem_alike twins)
    intro outcome
    split
    · exact .ret _
    · apply Client.mirrors_bind ih
      exact fun _ => .ret _

end
end Workctx.Ingestion
