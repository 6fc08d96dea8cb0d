import Workctx.Durable.Keeps
import Workctx.Staging.Forms

/-! What the recovery of an intent touches: no canonical file but those the intent names. -/

namespace Workctx.Staging
open Workctx.Durable Workctx.Text Workctx.Domain

def Within (paths : List String) : File → Prop
  | .canonical path => path ∈ paths
  | _ => True

def Outside (start : Disk) (paths : List String) (disk : Disk) : Prop := ∀ path, path ∉ paths → disk.canonical path = start.canonical path

section
variable {workspace : Workspace} {start : Disk} {paths : List String} {file source target : File} {lock directory token : String}
  {expectedNonce : Option String} {index : Nat}

theorem Outside.set {disk : Disk} {content : Option Bytes} (within : Within paths file) (outside : Outside start paths disk) :
    Outside start paths (disk.set file content) := by
  intro path other
  rw [← outside path other]
  unfold Disk.canonical Disk.set
  apply Function.update_of_ne
  rintro rfl
  exact other within

variable {inv : Disk → Prop} {revalidate cached : Bool} {transactionId : String}

theorem verifyLock_keeps : Keeps inv (verifyLock lock expectedNonce) := .check

theorem activateResolutionCache_keeps : Keeps inv (activateResolutionCache lock expectedNonce) := .ensure

theorem writeFsynced_keeps {payload : Bytes} {exclusive : Bool} (within : Within paths file) :
    Keeps (Outside start paths) (writeFsynced file payload exclusive) := by
  have written : Keeps (Outside start paths) (.perform (writeStep file payload) : Action Unit) := by
    refine .perform (fun _ outside => outside.set within) fun disk how outside => ?_
    cases how with
    | written length => exact outside.set within
    | kept keep => exact outside
  cases exclusive with
  | true => exact .bind .check fun _ => written
  | false => exact written

theorem replaceFile_keeps (from_ : Within paths source) (into : Within paths target) :
    Keeps (Outside start paths) (replaceFile source target) := by
  refine .bind .check fun _ => .perform (fun disk outside => ?_) fun _ _ outside => outside
  exact (outside.set into).set from_

theorem systemReplaceWithRetry_keeps {beforeAttempt : Action Unit} (guarded : Keeps (Outside start paths) beforeAttempt)
    (from_ : Within paths source) (into : Within paths target) :
    Keeps (Outside start paths) (systemReplaceWithRetry workspace source target beforeAttempt) := .retry guarded (replaceFile_keeps from_ into)

theorem revalidatePaths_keeps : Keeps inv (revalidatePaths workspace revalidate source target) := by
  unfold revalidatePaths
  split
  · exact .check
  · exact .ret

theorem replaceWithRetry_keeps {expectedSource : String} {expectedTarget : Option String}
    (from_ : Within paths source) (into : Within paths target) :
    Keeps (Outside start paths) (replaceWithRetry workspace source target lock expectedNonce expectedSource expectedTarget revalidate) := by
  refine systemReplaceWithRetry_keeps ?_ from_ into
  exact .bind revalidatePaths_keeps fun _ => .bind .check fun _ => .bind revalidatePaths_keeps fun _ => verifyLock_keeps

theorem unlinkMissingOk_keeps (within : Within paths file) : Keeps (Outside start paths) (unlinkMissingOk file) :=
  .handle (.perform (fun _ outside => outside.set within) fun _ _ outside => outside) fun _ => .check

theorem revalidateTarget_keeps : Keeps inv (revalidateTarget workspace revalidate target) := by
  unfold revalidateTarget
  split
  · exact .check
  · exact .ret

theorem unlinkWithRetry_keeps {expected : String} (within : Within paths target) :
    Keeps (Outside start paths) (unlinkWithRetry workspace target expected lock expectedNonce revalidate) := by
  refine .retry .ret ?_
  refine .bind revalidateTarget_keeps fun _ => .bind .check fun current => .bind revalidateTarget_keeps fun _ =>
    .bind verifyLock_keeps fun _ => ?_
  cases current with
  | none => exact .ret
  | some hash => exact .bind .ensure fun _ => unlinkMissingOk_keeps within

theorem requireNoConflict_keeps {validated : ValidatedIntent} : Keeps inv (requireNoConflict workspace validated) :=
  .forEach fun _ _ => .bind .check fun _ => .ensure

/-! Forward. -/

/-! Backward. -/

theorem publishRebuiltPostimage_keeps {payload : Bytes} {expected : String} :
    Keeps (Outside start paths) (publishRebuiltPostimage workspace directory index token payload expected lock expectedNonce) := by
  have rebuild : Within paths (.asset directory (.rebuild index token)) := trivial
  have stage : Within paths (.asset directory (.stage index)) := trivial
  refine .bind (writeFsynced_keeps rebuild) fun _ => .cleanup ?_ (unlinkMissingOk_keeps rebuild)
  exact .bind .check fun _ => .bind .ensure fun _ => systemReplaceWithRetry_keeps (.bind .check fun _ => verifyLock_keeps) rebuild stage

theorem restoreBackup_keeps {path preimageHash : String} {expectedTarget : Option String} (member : path ∈ paths) :
    Keeps (Outside start paths) (restoreBackup workspace directory index path preimageHash expectedTarget lock expectedNonce revalidate) := by
  have kept : Within paths (.asset directory (.rollback index)) := trivial
  exact .bind .check fun _ => .bind .ensure fun _ => .bind (writeFsynced_keeps kept) fun _ => replaceWithRetry_keeps kept member

theorem preservePostimage_keeps {path contentHash : String} {stagedHash : Option String} :
    Keeps (Outside start paths) (preservePostimage workspace lock expectedNonce directory token index path contentHash stagedHash) := by
  unfold preservePostimage
  split
  · exact .ret
  · exact .bind .check fun _ => .bind .ensure fun _ => publishRebuiltPostimage_keeps

theorem rollbackOperation_keeps {operation : ValidatedOperation} (within : ∀ path ∈ operation.paths, path ∈ paths) :
    Keeps (Outside start paths) (rollbackOperation workspace lock expectedNonce directory token operation index) := by
  refine .bind .check fun snapshot => ?_
  have target := within operation.target List.mem_cons_self
  split
  · exact .ret
  · exact .raise
  · cases operation with
    | replace path contentHash preimageHash =>
      refine .bind preservePostimage_keeps fun _ => ?_
      cases preimageHash with
      | none => exact unlinkWithRetry_keeps target
      | some preimageHash => exact restoreBackup_keeps target
    | move source destination contentHash =>
      exact replaceWithRetry_keeps (within destination (List.mem_cons_of_mem _ List.mem_cons_self)) target
    | delete path preimageHash => exact restoreBackup_keeps target

theorem rollbackValidated_keeps {tokens : Nat → String} {validated : ValidatedIntent}
    (within : ∀ path ∈ validated.operations.flatMap ValidatedOperation.paths, path ∈ paths) :
    Keeps (Outside start paths) (rollbackValidated workspace lock expectedNonce tokens validated) := by
  refine .bind requireNoConflict_keeps fun _ => .bind verifyLock_keeps fun _ => .forEach fun entry member =>
    rollbackOperation_keeps fun path own => ?_
  exact within path (List.mem_flatMap.mpr ⟨entry.1, List.fst_mem_of_mem_zipIdx (List.mem_reverse.mp member), own⟩)

theorem loadRequested_finds {record : IntentRecord} : Finds inv
    (fun validated => IntentForm workspace.platform record validated.directory validated.operations)
    (loadRequested workspace cached record) := by
  refine .bind (.check fun disk loaded => form_of_loaded) fun loaded form => .bind .ensure fun _ same => .ret ?_
  rw [← beq_iff_eq.mp same]
  exact form

/-! Finalization. -/

theorem removeOwnedDirectory_keeps : Keeps (Outside start paths) (removeOwnedDirectory directory) := by
  refine .bind .observe fun present => ?_
  split
  · refine .perform (fun disk outside => outside) fun disk how outside => ?_
    cases how with
    | written length => exact outside
    | kept keep => exact outside
  · exact .ret

theorem removeIntentAndStaging_keeps {validated : ValidatedIntent} : Keeps (Outside start paths) (removeIntentAndStaging validated) := by
  have intent : Within paths .intent := trivial
  exact .bind (.perform (fun _ outside => outside.set intent) fun _ _ outside => outside) fun _ => removeOwnedDirectory_keeps

theorem loadOwned_keeps : Keeps inv (loadOwned workspace cached transactionId) :=
  .bind .check fun _ => .bind .ensure fun _ => .ret

theorem finalizeApplied_keeps {nonceFromIntent : Bool} :
    Keeps (Outside start paths) (finalizeApplied workspace cached lock transactionId nonceFromIntent) :=
  .bind loadOwned_keeps fun _ => .bind (.forEach fun _ _ => .check) fun _ => .bind verifyLock_keeps fun _ => removeIntentAndStaging_keeps

theorem finalizeRollbackAfterAudit_keeps :
    Keeps (Outside start paths) (finalizeRollbackAfterAudit workspace cached lock transactionId) :=
  .bind loadOwned_keeps fun _ => .bind (.forEach fun _ _ => .check) fun _ => .bind verifyLock_keeps fun _ => removeIntentAndStaging_keeps

end
end Workctx.Staging
