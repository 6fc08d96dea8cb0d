import Workctx.Staging.Publication

/-! The collisions of paths in the staging layer: the resolution of operations and the validation of an intent refuse the same
paths beside each other. -/

namespace Workctx.Staging
open Workctx.Durable Workctx.Text Workctx.Domain List

/-- No two of the paths are equal, or equivalent on a case-insensitive file system. -/
def Apart (platform : Platform) (paths : List String) : Prop :=
  paths.Pairwise fun one two => platform.pathKey one ≠ platform.pathKey two

instance (platform : Platform) (paths : List String) : Decidable (Apart platform paths) :=
  inferInstanceAs (Decidable (paths.Pairwise fun one two => platform.pathKey one ≠ platform.pathKey two))

theorem apart_iff {platform : Platform} {paths : List String} : Apart platform paths ↔ (paths.map platform.pathKey).Nodup :=
  pairwise_map.symm

/-- The failures that `_resolve_operations` and `_validated_intent_paths` raise for two paths with one key. -/
def Failure.isCollision : Failure → Bool
  | .staging message => "Duplicate staged ".toList.isPrefixOf message.toList
  | .invalidIntent message => message == "Intent contains duplicate operation paths"
  | _ => false

/-! Failures. -/

def Plain {α : Type} (step : Except Failure α) : Prop := ∀ failure, step = .error failure → failure.isCollision = false

theorem Plain.ok {α : Type} {value : α} : Plain (.ok value) := by
  intro failure same
  cases same

theorem Plain.demand {test : Bool} {failure : Failure} (other : failure.isCollision = false) : Plain (demand test failure) := by
  intro raised same
  cases test with
  | true => cases same
  | false =>
    cases same
    exact other

theorem Plain.bind {α β : Type} {first : Except Failure α} {next : α → Except Failure β} (plain : Plain first)
    (later : ∀ value, first = .ok value → Plain (next value)) : Plain (first >>= next) := by
  intro failure same
  cases first with
  | error other =>
    cases same
    exact plain _ rfl
  | ok value => exact later value rfl failure same

theorem Plain.peel {α β : Type} {first : Except Failure α} {next : α → Except Failure β} {failure : Failure} (plain : Plain first)
    (refused : (first >>= next) = .error failure) (collision : failure.isCollision = true) :
    ∃ value, first = .ok value ∧ next value = .error failure := by
  cases first with
  | error other =>
    cases refused
    rw [plain _ rfl] at collision
    cases collision
  | ok value => exact ⟨value, rfl, refused⟩

theorem message_plain {message : String} {letter : Char} {rest : List Char} (chars : message.toList = letter :: rest) (other : letter ≠ 'D') :
    (Failure.staging message).isCollision = false := by
  have front : "Duplicate staged ".toList = 'D' :: "uplicate staged ".toList := rfl
  rw [Failure.isCollision, chars, front, isPrefixOf_cons_cons, beq_false_of_ne other.symm, Bool.false_and]

section
variable {workspace : Workspace} {disk : Disk} {cached legacy : Bool} {keys later : List String} {raw path : String} {failure : Failure}

theorem resolveTarget_plain : Plain (resolveTarget workspace cached disk raw) := by
  intro failure refused
  unfold resolveTarget at refused
  split at refused
  · cases refused
    rfl
  · split at refused
    · cases refused
    · cases refused
      rfl

theorem rejectUnsafeFile_plain {allowMissing : Bool} : Plain (rejectUnsafeFile workspace disk path allowMissing) :=
  .bind (.demand rfl) fun _ _ => .demand rfl

theorem requirePlainParentChain_plain : Plain (requirePlainParentChain workspace disk path) := .demand rfl

theorem parentMissing_plain {test : Bool} : Plain (demand test (.staging ("Target parent directory does not exist: " ++ raw))) :=
  .demand (message_plain String.toList_append (by decide))

theorem destinationExists_plain {test : Bool} : Plain (demand test (.staging ("Move destination already exists: " ++ raw))) :=
  .demand (message_plain String.toList_append (by decide))

theorem claimPath_error (refused : claimPath workspace legacy keys path = .error failure) : workspace.platform.pathKey path ∈ keys := by
  unfold claimPath at refused
  cases known : keys.contains (workspace.platform.pathKey path) with
  | true => simpa using known
  | false =>
    rw [known] at refused
    cases refused

/-! Resolution. -/

theorem not_nodup_of_mem {key : String} {rest : List String} (known : key ∈ keys) : ¬(keys ++ key :: rest).Nodup := by
  intro distinct
  exact (nodup_append.mp distinct).2.2 key known key mem_cons_self rfl

theorem claim_last {α : Type} {next : List String → Except Failure α} (done : ∀ keys, Plain (next keys))
    (refused : (claimPath workspace legacy keys path >>= next) = .error failure) (collision : failure.isCollision = true) :
    workspace.platform.pathKey path ∈ keys := by
  cases claimed : claimPath workspace legacy keys path with
  | error other => exact claimPath_error claimed
  | ok later =>
    rw [claimed] at refused
    rw [done later failure refused] at collision
    cases collision

/-- An operation collides only with a path that was claimed before it, or with itself. -/
theorem resolveOperation_collision {operation : StagedOperation}
    (refused : resolveOperation workspace legacy disk keys operation = .error failure) (collision : failure.isCollision = true) :
    ∃ resolved, operation.lexical = some resolved ∧ ¬(keys ++ resolved.paths.map workspace.platform.pathKey).Nodup := by
  cases operation with
  | write raw content =>
    obtain ⟨target, found, refused⟩ := resolveTarget_plain.peel refused collision
    obtain ⟨_, _, refused⟩ := parentMissing_plain.peel refused collision
    obtain ⟨_, _, refused⟩ := rejectUnsafeFile_plain.peel refused collision
    have known := claim_last (fun _ => .ok) refused collision
    rw [resolveTarget_ok] at found
    exact ⟨.replace target content, by simp [StagedOperation.lexical, found.1], not_nodup_of_mem known⟩
  | move rawSource rawDestination =>
    obtain ⟨source, found, refused⟩ := resolveTarget_plain.peel refused collision
    obtain ⟨destination, found', refused⟩ := resolveTarget_plain.peel refused collision
    obtain ⟨_, _, refused⟩ := (Plain.demand (message_plain rfl (by decide))).peel refused collision
    obtain ⟨_, _, refused⟩ := rejectUnsafeFile_plain.peel refused collision
    obtain ⟨_, _, refused⟩ := rejectUnsafeFile_plain.peel refused collision
    obtain ⟨_, _, refused⟩ := requirePlainParentChain_plain.peel refused collision
    obtain ⟨_, _, refused⟩ := requirePlainParentChain_plain.peel refused collision
    obtain ⟨_, _, refused⟩ := destinationExists_plain.peel refused collision
    rw [resolveTarget_ok] at found found'
    refine ⟨.move source destination, by simp [StagedOperation.lexical, found.1, found'.1], ?_⟩
    cases claimed : claimPath workspace false keys source with
    | error other => exact not_nodup_of_mem (claimPath_error claimed)
    | ok between =>
      rw [claimed] at refused
      have known := claim_last (fun _ => .ok) refused collision
      rw [(claimPath_ok.mp claimed).2] at known
      show ¬(keys ++ workspace.platform.pathKey source :: [workspace.platform.pathKey destination]).Nodup
      rw [append_cons]
      exact not_nodup_of_mem known
  | delete raw =>
    obtain ⟨target, found, refused⟩ := resolveTarget_plain.peel refused collision
    obtain ⟨_, _, refused⟩ := parentMissing_plain.peel refused collision
    obtain ⟨_, _, refused⟩ := rejectUnsafeFile_plain.peel refused collision
    obtain ⟨_, _, refused⟩ := requirePlainParentChain_plain.peel refused collision
    have known := claim_last (fun _ => .ok) refused collision
    rw [resolveTarget_ok] at found
    exact ⟨.delete target, by simp [StagedOperation.lexical, found.1], not_nodup_of_mem known⟩

theorem resolveRemaining_plain {operations : List StagedOperation} {resolved : List ResolvedOperation}
    (lexical : operations.map StagedOperation.lexical = resolved.map some)
    (distinct : (keys ++ (resolved.flatMap ResolvedOperation.paths).map workspace.platform.pathKey).Nodup) :
    Plain (resolveRemaining workspace legacy disk keys operations) := by
  induction operations generalizing keys resolved with
  | nil => exact .ok
  | cons operation rest ih =>
    cases resolved with
    | nil => cases lexical
    | cons first others =>
      rw [map_cons, map_cons, List.cons.injEq] at lexical
      rw [flatMap_cons, map_append, ← append_assoc] at distinct
      refine .bind ?_ fun entry one => .bind ?_ fun _ _ => .ok
      · intro failure refused
        by_contra collision
        rw [Bool.not_eq_false] at collision
        obtain ⟨same, found, clash⟩ := resolveOperation_collision refused collision
        rw [lexical.1, Option.some.injEq] at found
        rw [← found] at clash
        exact clash (nodup_append.mp distinct).1
      · have resolution := resolveOperation_ok one
        have same : first = entry.1 := Option.some.inj (lexical.1.symm.trans resolution.lexical)
        apply ih lexical.2
        rw [resolution.claimed, ← same]
        exact distinct

/-- Resolution refuses two paths with one key, and does not report a collision where there is none. -/
theorem resolveOperations_apart {operations : List StagedOperation} {resolved : List ResolvedOperation}
    (lexical : operations.map StagedOperation.lexical = resolved.map some) :
    (Apart workspace.platform (resolved.flatMap ResolvedOperation.paths) → Plain (resolveOperations workspace disk operations)) ∧
      (∀ done, resolveOperations workspace disk operations = .ok done →
        Apart workspace.platform (resolved.flatMap ResolvedOperation.paths)) := by
  constructor
  · intro apart
    exact resolveRemaining_plain lexical (apart_iff.mp apart)
  · intro done ok
    have resolutions := resolveOperations_ok ok
    have same : resolved = done := map_injective_iff.mpr (fun _ _ => Option.some.inj) (lexical.symm.trans resolutions.lexical)
    rw [same]
    exact apart_iff.mpr resolutions.distinct

/-! Intents. -/

def IntentTarget.paths (item : IntentTarget) : List String := item.target :: item.destination.toList

def IntentRecord.paths (record : IntentRecord) : List String := record.targets.flatMap IntentTarget.paths

/-- The record that `prepare` publishes for resolved operations, with the hashes of their preimages. -/
def preparedRecord (workspace : Workspace) (transactionId nonce directory : String) (preimages : Nat → Option String)
    (operations : List ResolvedOperation) : IntentRecord :=
  ⟨transactionId, nonce, operations.mapIdx fun index operation => targetOf workspace directory index operation (preimages index)⟩

theorem preparedRecord_paths {transactionId nonce directory : String} {preimages : Nat → Option String} {operations : List ResolvedOperation} :
    (preparedRecord workspace transactionId nonce directory preimages operations).paths = operations.flatMap ResolvedOperation.paths := by
  have each : ∀ entry : ResolvedOperation × Nat,
      (targetOf workspace directory entry.2 entry.1 (preimages entry.2)).paths = entry.1.paths := by
    intro entry
    cases entry.1 <;> rfl
  show (operations.mapIdx fun index operation => targetOf workspace directory index operation (preimages index)).flatMap _ = _
  rw [mapIdx_eq_zipIdx_map, flatMap_map, funext each, ← flatMap_map (f := Prod.fst) (g := ResolvedOperation.paths),
    zipIdx_map_fst]

theorem ownedDirectory_plain {text message : String} {name : AssetName}
    (other : (Failure.invalidIntent message).isCollision = false) : Plain (ownedDirectory text name message) := by
  intro failure refused
  unfold ownedDirectory at refused
  split at refused
  · split at refused
    · cases refused
      rfl
    · split at refused
      · cases refused
      · cases refused
        exact other
  · cases refused
    exact other

theorem optionalDirectory_plain {text : Option String} {name : AssetName} {message : String}
    (other : (Failure.invalidIntent message).isCollision = false) : Plain (optionalDirectory text name message) := by
  cases text with
  | none => exact .ok
  | some text =>
    intro failure refused
    rw [optionalDirectory] at refused
    cases owned : ownedDirectory text name message with
    | ok directory =>
      rw [owned] at refused
      cases refused
    | error raised =>
      rw [owned] at refused
      cases refused
      exact ownedDirectory_plain other _ owned

theorem claimPaths_ok {paths : List String} (claimed : claimPaths workspace keys paths = .ok later) :
    later = keys ++ paths.map workspace.platform.pathKey ∧ (keys.Nodup → later.Nodup) := by
  induction paths generalizing keys with
  | nil =>
    cases claimed
    simp
  | cons path rest ih =>
    rw [claimPaths, demand_bind_ok, contains_eq_mem, Bool.not_eq_true', decide_eq_false_iff_not] at claimed
    obtain ⟨same, distinct⟩ := ih claimed.2
    rw [same, map_cons, ← append_cons] at *
    exact ⟨rfl, fun unique => distinct (nodup_claimed claimed.1 unique)⟩

variable {item : IntentTarget} {index : Nat} {directory : Option String}

/-- The end of a round: the paths are claimed, and an operation is read off the fields. -/
def claimTarget (workspace : Workspace) (keys : List String) (item : IntentTarget) (owned : String) :
    Except Failure (ValidatedOperation × String × List String) := do
  let keys ← claimPaths workspace keys (item.target :: item.destination.toList)
  match item.operation with
  | none => .error (.invalidIntent "The staged-write intent is malformed")
  | some operation => .ok (operation, owned, keys)

theorem claimTarget_plain {owned : String} (distinct : (keys ++ item.paths.map workspace.platform.pathKey).Nodup) :
    Plain (claimTarget workspace keys item owned) := by
  unfold claimTarget
  rw [show item.target :: item.destination.toList = item.paths from rfl, claimPaths_of distinct]
  cases item.operation with
  | none =>
    intro failure same
    cases same
    decide
  | some operation => exact .ok

theorem claimTarget_claims {operation : ValidatedOperation} {owned owned' : String}
    (ok : claimTarget workspace keys item owned' = .ok (operation, owned, later)) :
    later = keys ++ item.paths.map workspace.platform.pathKey ∧ (keys.Nodup → later.Nodup) := by
  unfold claimTarget at ok
  obtain ⟨claimed, paths, done⟩ := except_bind_ok.mp ok
  split at done
  · cases done
  · cases done
    exact claimPaths_ok paths

theorem validateTarget_plain (distinct : (keys ++ item.paths.map workspace.platform.pathKey).Nodup) :
    Plain (validateTarget workspace cached disk index item directory keys) := by
  unfold validateTarget
  refine .bind resolveTarget_plain fun targetPath _ => .bind (.demand (by decide)) fun _ _ =>
    .bind (optionalDirectory_plain (by decide)) fun stagedParent _ => .bind (optionalDirectory_plain (by decide)) fun backupParent _ => ?_
  split
  · intro failure same
    cases same
    decide
  · refine .bind (.demand (by decide)) fun _ _ => .bind (.demand (by decide)) fun _ _ => ?_
    dsimp only
    split
    · exact .bind .ok fun _ _ => claimTarget_plain distinct
    · exact .bind resolveTarget_plain fun _ _ => .bind (.demand (by decide)) fun _ _ => claimTarget_plain distinct

theorem validateTarget_claims {operation : ValidatedOperation} {owned : String}
    (ok : validateTarget workspace cached disk index item directory keys = .ok (operation, owned, later)) :
    later = keys ++ item.paths.map workspace.platform.pathKey ∧ (keys.Nodup → later.Nodup) := by
  unfold validateTarget at ok
  obtain ⟨_, _, ok⟩ := except_bind_ok.mp ok
  obtain ⟨_, _, ok⟩ := except_bind_ok.mp ok
  obtain ⟨_, _, ok⟩ := except_bind_ok.mp ok
  obtain ⟨_, _, ok⟩ := except_bind_ok.mp ok
  split at ok
  · cases ok
  · obtain ⟨_, _, ok⟩ := except_bind_ok.mp ok
    obtain ⟨_, _, ok⟩ := except_bind_ok.mp ok
    dsimp only at ok
    split at ok
    · obtain ⟨_, _, ok⟩ := except_bind_ok.mp ok
      exact claimTarget_claims ok
    · obtain ⟨_, _, ok⟩ := except_bind_ok.mp ok
      obtain ⟨_, _, ok⟩ := except_bind_ok.mp ok
      exact claimTarget_claims ok

theorem validateTargets_plain {targets : List IntentTarget}
    (distinct : (keys ++ (targets.flatMap IntentTarget.paths).map workspace.platform.pathKey).Nodup) :
    Plain (validateTargets workspace cached disk index directory keys targets) := by
  induction targets generalizing index directory keys with
  | nil => exact .ok
  | cons item rest ih =>
    rw [flatMap_cons, map_append, ← append_assoc] at distinct
    refine .bind (validateTarget_plain (nodup_append.mp distinct).1) fun entry one => .bind ?_ fun _ _ => .ok
    obtain ⟨operation, owned, later⟩ := entry
    apply ih
    rw [(validateTarget_claims one).1]
    exact distinct

theorem validateTargets_distinct {targets : List IntentTarget} {result : List ValidatedOperation × Option String} (unique : keys.Nodup)
    (ok : validateTargets workspace cached disk index directory keys targets = .ok result) :
    (keys ++ (targets.flatMap IntentTarget.paths).map workspace.platform.pathKey).Nodup := by
  induction targets generalizing index directory keys result with
  | nil => simpa using unique
  | cons item rest ih =>
    obtain ⟨⟨operation, owned, later⟩, one, ok⟩ := except_bind_ok.mp ok
    obtain ⟨others, more, _⟩ := except_bind_ok.mp ok
    obtain ⟨same, distinct⟩ := validateTarget_claims one
    have all := ih (distinct unique) more
    rw [flatMap_cons, map_append, ← append_assoc, ← same]
    exact all

/-- The validation of an intent refuses two paths with one key, and does not report a collision where there is none. -/
theorem validatedIntentPaths_apart {record : IntentRecord} :
    (Apart workspace.platform record.paths → Plain (validatedIntentPaths workspace cached disk record)) ∧
      (∀ validated, validatedIntentPaths workspace cached disk record = .ok validated → Apart workspace.platform record.paths) := by
  constructor
  · intro apart
    refine .bind (validateTargets_plain (apart_iff.mp apart)) fun entry _ => ?_
    obtain ⟨operations, directory⟩ := entry
    cases directory with
    | none =>
      intro failure same
      cases same
      decide
    | some directory => exact .ok
  · intro validated ok
    obtain ⟨result, targets, _⟩ := except_bind_ok.mp ok
    exact apart_iff.mpr (validateTargets_distinct nodup_nil targets)

end
end Workctx.Staging
