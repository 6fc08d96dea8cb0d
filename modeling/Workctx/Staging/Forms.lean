import Workctx.Staging.Collisions

/-! The form of the intent records: what `prepare` writes has it, and no other record is loaded, whatever the file holds. -/

namespace Workctx.Staging
open Workctx.Durable Workctx.Text Workctx.Domain List

def ValidatedOperation.hashes : ValidatedOperation → List String
  | .replace _ contentHash preimageHash => contentHash :: preimageHash.toList
  | .move _ _ contentHash => [contentHash]
  | .delete _ preimageHash => [preimageHash]

def ValidatedOperation.paths (operation : ValidatedOperation) : List String := operation.target :: operation.destination.toList

/-- The entry of an operation at its place in the record -/
def writtenTarget (directory : String) (index : Nat) : ValidatedOperation → IntentTarget
  | .replace target contentHash preimageHash =>
    ⟨target, some (assetPath directory (.stage index)), some contentHash,
      preimageHash.map fun _ => assetPath directory (.backup index), preimageHash, .replace, none⟩
  | .move source destination contentHash =>
    ⟨source, none, some contentHash, some (assetPath directory (.backup index)), some contentHash, .move, some destination⟩
  | .delete target preimageHash =>
    ⟨target, none, none, some (assetPath directory (.backup index)), some preimageHash, .delete, none⟩

def writtenTargets (directory : String) (index : Nat) : List ValidatedOperation → List IntentTarget
  | [] => []
  | operation :: rest => writtenTarget directory index operation :: writtenTargets directory (index + 1) rest

/-- A record of operations on canonical paths that are apart, whose assets lie in one transaction directory under their places. -/
structure IntentForm (platform : Platform) (record : IntentRecord) (directory : String) (operations : List ValidatedOperation) : Prop where
  identified : record.transactionId ≠ ""
  nonceValid : isNonce record.nonce = true
  nonempty : operations ≠ []
  directoryValid : isTransactionDirectory directory = true
  targets : record.targets = writtenTargets directory 0 operations
  hashed : ∀ operation ∈ operations, ∀ hash ∈ operation.hashes, isContentHash hash = true
  canonical : ∀ path ∈ operations.flatMap ValidatedOperation.paths, canonicalTarget path = some path
  apart : Apart platform (operations.flatMap ValidatedOperation.paths)

variable {platform : Platform} {record : IntentRecord} {directory : String} {operations : List ValidatedOperation}

theorem writtenTarget_paths (directory : String) (index : Nat) (operation : ValidatedOperation) :
    (writtenTarget directory index operation).paths = operation.paths := by
  cases operation <;> rfl

theorem writtenTargets_paths (directory : String) (index : Nat) (operations : List ValidatedOperation) :
    (writtenTargets directory index operations).flatMap IntentTarget.paths = operations.flatMap ValidatedOperation.paths := by
  induction operations generalizing index with
  | nil => rfl
  | cons operation rest ih => rw [writtenTargets, flatMap_cons, flatMap_cons, writtenTarget_paths, ih]

theorem IntentForm.paths (form : IntentForm platform record directory operations) :
    record.paths = operations.flatMap ValidatedOperation.paths := by
  unfold IntentRecord.paths
  rw [form.targets, writtenTargets_paths]

/-! A written record is read back. -/

variable {operation : ValidatedOperation} {index : Nat} {workspace : Workspace}

theorem writtenTarget_fieldsValid (directory : String) (index : Nat)
    (hashed : ∀ hash ∈ operation.hashes, isContentHash hash = true) (filled : ∀ path ∈ operation.paths, path ≠ "") :
    (writtenTarget directory index operation).fieldsValid = true := by
  have asset := fun name => assetPath_ne_empty directory name
  have target := filled operation.target mem_cons_self
  cases operation with
  | replace path contentHash preimageHash =>
    have content := hashed contentHash mem_cons_self
    cases preimageHash with
    | none => simp_all [writtenTarget, IntentTarget.fieldsValid, Staging.hashed, Staging.filled, ValidatedOperation.target]
    | some preimageHash =>
      have preimage := hashed preimageHash (mem_cons_of_mem _ mem_cons_self)
      simp_all [writtenTarget, IntentTarget.fieldsValid, Staging.hashed, Staging.filled, ValidatedOperation.target]
  | move source destination contentHash =>
    have content := hashed contentHash mem_cons_self
    have arrival := filled destination (mem_cons_of_mem _ mem_cons_self)
    simp_all [writtenTarget, IntentTarget.fieldsValid, Staging.hashed, Staging.filled, ValidatedOperation.target]
  | delete path preimageHash =>
    have preimage := hashed preimageHash mem_cons_self
    simp_all [writtenTarget, IntentTarget.fieldsValid, Staging.hashed, Staging.filled, ValidatedOperation.target]

variable {item : IntentTarget} {message : String} {cached : Bool} {disk : Disk} {keys : List String}

theorem mem_writtenTargets (member : item ∈ writtenTargets directory index operations) :
    ∃ place, ∃ operation ∈ operations, item = writtenTarget directory place operation := by
  induction operations generalizing index with
  | nil => cases member
  | cons operation rest ih =>
    rcases mem_cons.mp member with same | later
    · exact ⟨index, operation, mem_cons_self, same⟩
    · obtain ⟨place, other, inside, same⟩ := ih later
      exact ⟨place, other, mem_cons_of_mem _ inside, same⟩

theorem IntentForm.fieldsValid (form : IntentForm platform record directory operations) : record.fieldsValid = true := by
  have targets : ∀ item ∈ record.targets, item.fieldsValid = true := by
    intro item member
    rw [form.targets] at member
    obtain ⟨place, operation, inside, rfl⟩ := mem_writtenTargets member
    refine writtenTarget_fieldsValid _ _ (form.hashed operation inside) fun path own => ?_
    exact ne_empty_of_canonical (form.canonical path (mem_flatMap.mpr ⟨operation, inside, own⟩))
  have some : record.targets ≠ [] := by
    obtain ⟨first, others, whole⟩ := exists_cons_of_ne_nil form.nonempty
    rw [form.targets, whole]
    exact cons_ne_nil _ _
  simp only [IntentRecord.fieldsValid, Bool.and_eq_true, bne_iff_ne, ne_eq, Bool.not_eq_true', isEmpty_eq_false_iff,
    all_eq_true]
  exact ⟨⟨⟨form.identified, form.nonceValid⟩, some⟩, targets⟩

theorem IntentForm.decoded (form : IntentForm platform record directory operations) : decodeIntent (encodeIntent record) = some record :=
  decodeIntent_encodeIntent form.fieldsValid

/-! What `prepare` writes has the form. -/

theorem intentTarget_written (platform : Platform) (directory : String) (index : Nat) (planned : Planned) :
    planned.intentTarget platform directory index = writtenTarget directory index (planned.operation platform) := by
  cases planned with
  | replace target preimage postimage => cases preimage <;> rfl
  | move source destination content => rfl
  | delete target preimage => rfl

theorem intentTargets_written (platform : Platform) (directory : String) (index : Nat) (planned : List Planned) :
    intentTargets platform directory index planned = writtenTargets directory index (planned.map (Planned.operation platform)) := by
  induction planned generalizing index with
  | nil => rfl
  | cons first rest ih => rw [intentTargets, map_cons, writtenTargets, intentTarget_written, ih]

theorem operation_hashes (platform : Platform) (planned : Planned) :
    ∀ hash ∈ (planned.operation platform).hashes, ∃ content, platform.contentHash content = hash := by
  cases planned with
  | replace target preimage postimage =>
    cases preimage with
    | none => simp [Planned.operation, ValidatedOperation.hashes]
    | some preimage => simp [Planned.operation, ValidatedOperation.hashes]
  | move source destination content => simp [Planned.operation, ValidatedOperation.hashes]
  | delete target preimage => simp [Planned.operation, ValidatedOperation.hashes]

theorem operation_paths (platform : Platform) (planned : Planned) : (planned.operation platform).paths = planned.paths := by
  cases planned <;> rfl

theorem Plan.form (plan : Plan workspace) :
    IntentForm workspace.platform plan.record plan.directory (plan.operations.map (Planned.operation workspace.platform)) := by
  have paths : (plan.operations.map (Planned.operation workspace.platform)).flatMap ValidatedOperation.paths =
      plan.operations.flatMap Planned.paths := by
    rw [flatMap_map, funext (operation_paths workspace.platform)]
  refine ⟨plan.identified, plan.nonceValid, ?_, plan.directoryValid, intentTargets_written _ _ _ _, ?_, ?_, ?_⟩
  · rw [ne_eq, map_eq_nil_iff]
    exact plan.nonempty
  · intro operation member hash own
    obtain ⟨planned, _, rfl⟩ := mem_map.mp member
    obtain ⟨content, rfl⟩ := operation_hashes _ planned hash own
    exact workspace.platform.isContentHash_contentHash content
  · rw [paths]
    exact plan.canonical
  · rw [paths]
    exact apart_iff.mpr plan.distinct

/-! What is loaded has the form. -/

theorem joinPath_splitPath (path : String) : joinPath (splitPath path) = path := by
  unfold joinPath splitPath
  rw [intercalate_splitOn, String.ofList_toList]

theorem ownedDirectory_ok {text : String} {name : AssetName} (owned : ownedDirectory text name message = .ok directory) :
    text = assetPath directory name ∧ isTransactionDirectory directory = true := by
  unfold ownedDirectory at owned
  split at owned
  · next state staging transactions found leaf parts =>
    split at owned
    · cases owned
    · next layout =>
      rw [not_not] at layout
      split at owned
      · next valid =>
        rw [Bool.and_eq_true, beq_iff_eq] at valid
        cases owned
        refine ⟨?_, valid.1⟩
        rw [← joinPath_splitPath text, parts, assetPath, String.toList_ofList, ← layout, ← valid.2]
        rfl
      · cases owned
  · cases owned

theorem optionalDirectory_ok {text owner : Option String} {name : AssetName}
    (owned : optionalDirectory text name message = .ok owner) :
    (text = none ∧ owner = none) ∨
      ∃ directory, owner = some directory ∧ text = some (assetPath directory name) ∧ isTransactionDirectory directory = true := by
  cases text with
  | none =>
    cases owned
    exact .inl ⟨rfl, rfl⟩
  | some text =>
    rw [optionalDirectory] at owned
    cases found : ownedDirectory text name message with
    | error failure =>
      rw [found] at owned
      cases owned
    | ok directory =>
      rw [found] at owned
      cases owned
      obtain ⟨rfl, valid⟩ := ownedDirectory_ok found
      exact .inr ⟨directory, rfl, rfl, valid⟩

theorem canonical_of_resolved {raw path : String}
    (resolved : resolveTarget workspace cached disk raw = .ok path) (same : (raw == path) = true) : canonicalTarget raw = some raw := by
  unfold resolveTarget at resolved
  cases found : canonicalTarget raw with
  | none =>
    rw [found] at resolved
    cases resolved
  | some canonical =>
    rw [found] at resolved
    dsimp only at resolved
    split at resolved
    · rw [beq_iff_eq.mp same, ← Except.ok.inj resolved]
    · cases resolved

theorem claimTarget_operation {later : List String} {owned owned' : String} (ok : claimTarget workspace keys item owned' = .ok (operation, owned, later)) :
    item.operation = some operation ∧ owned' = owned := by
  unfold claimTarget at ok
  obtain ⟨claimed, _, done⟩ := except_bind_ok.mp ok
  split at done
  · cases done
  · next found =>
    cases done
    exact ⟨found, rfl⟩

/-- What one round of the validation has found. -/
structure Checked (item : IntentTarget) (index : Nat) (known : Option String) (operation : ValidatedOperation) (owned : String) : Prop where
  operation : item.operation = some operation
  target : canonicalTarget item.target = some item.target
  destination : ∀ path, item.destination = some path → canonicalTarget path = some path
  staged : item.staged = none ∨ item.staged = some (assetPath owned (.stage index))
  backup : item.backup = none ∨ item.backup = some (assetPath owned (.backup index))
  named : isTransactionDirectory owned = true
  known : known = none ∨ known = some owned

theorem assets_owned {stagedParent backupParent : Option String} {owned message' : String}
    (staged : optionalDirectory item.staged (.stage index) message = .ok stagedParent)
    (backup : optionalDirectory item.backup (.backup index) message' = .ok backupParent) (found : (stagedParent <|> backupParent) = some owned)
    (spanned : (stagedParent.isNone || backupParent.isNone || backupParent == stagedParent) = true) :
    (item.staged = none ∨ item.staged = some (assetPath owned (.stage index))) ∧
      (item.backup = none ∨ item.backup = some (assetPath owned (.backup index))) ∧ isTransactionDirectory owned = true := by
  rcases optionalDirectory_ok staged with ⟨noStage, rfl⟩ | ⟨directory, rfl, stage, valid⟩
  · rcases optionalDirectory_ok backup with ⟨_, rfl⟩ | ⟨directory, rfl, kept, valid⟩
    · cases found
    · cases found
      exact ⟨.inl noStage, .inr kept, valid⟩
  · cases found
    refine ⟨.inr stage, ?_, valid⟩
    rcases optionalDirectory_ok backup with ⟨noBackup, _⟩ | ⟨other, rfl, kept, _⟩
    · exact .inl noBackup
    · rw [Option.isNone_some, Option.isNone_some, Bool.false_or, Bool.false_or, beq_iff_eq, Option.some.injEq] at spanned
      rw [← spanned]
      exact .inr kept

theorem validateTarget_checked
    {known : Option String} {later : List String} {owned : String}
    (ok : validateTarget workspace cached disk index item known keys = .ok (operation, owned, later)) :
    Checked item index known operation owned := by
  unfold validateTarget at ok
  obtain ⟨path, resolved, ok⟩ := except_bind_ok.mp ok
  obtain ⟨_, canonical, ok⟩ := except_bind_ok.mp ok
  obtain ⟨stagedParent, staged, ok⟩ := except_bind_ok.mp ok
  obtain ⟨backupParent, backup, ok⟩ := except_bind_ok.mp ok
  have target := canonical_of_resolved resolved (demand_ok.mp canonical)
  split at ok
  · cases ok
  · next owner found =>
    obtain ⟨_, spanned, ok⟩ := except_bind_ok.mp ok
    obtain ⟨_, one, ok⟩ := except_bind_ok.mp ok
    obtain ⟨inside, kept, named⟩ := assets_owned staged backup found (demand_ok.mp spanned)
    have known' : known = none ∨ known = some owner := by
      simpa using demand_ok.mp one
    have last : claimTarget workspace keys item owner = .ok (operation, owned, later) →
        (∀ path, item.destination = some path → canonicalTarget path = some path) → Checked item index known operation owned := by
      intro claimed destination
      obtain ⟨read, rfl⟩ := claimTarget_operation claimed
      exact ⟨read, target, destination, inside, kept, named, known'⟩
    dsimp only at ok
    split at ok
    · next none =>
      obtain ⟨_, _, ok⟩ := except_bind_ok.mp ok
      refine last ok fun path same => ?_
      rw [none] at same
      cases same
    · next destination some =>
      obtain ⟨arrival, there, ok⟩ := except_bind_ok.mp ok
      obtain ⟨_, canonical', ok⟩ := except_bind_ok.mp ok
      refine last ok fun path same => ?_
      rw [some] at same
      cases same
      exact canonical_of_resolved there (demand_ok.mp canonical')

theorem present_of_paired {text other : Option String} {path hash : String} (paired : text.isNone = other.isNone) (present : other = some hash)
    (kept : text = none ∨ text = some path) : text = some path := by
  refine kept.resolve_left fun none => ?_
  rw [none, present] at paired
  cases paired

theorem Checked.written {item : IntentTarget} {index : Nat} {known : Option String} {operation : ValidatedOperation} {owned : String}
    (checked : Checked item index known operation owned) (valid : item.fieldsValid = true) :
    item = writtenTarget owned index operation ∧ (∀ path ∈ operation.paths, canonicalTarget path = some path) ∧
      ∀ hash ∈ operation.hashes, isContentHash hash = true := by
  obtain ⟨target, staged, contentHash, backup, preimageHash, kind, destination⟩ := item
  obtain ⟨read, canonical, arrival, stage, kept, _, _⟩ := checked
  simp only [IntentTarget.fieldsValid, Bool.and_eq_true, beq_iff_eq] at valid
  obtain ⟨⟨⟨⟨⟨⟨⟨_, content⟩, preimage⟩, _⟩, _⟩, _⟩, paired⟩, kinds⟩ := valid
  dsimp only at canonical arrival stage kept
  cases kind with
  | replace =>
    simp only [Bool.and_eq_true, Option.isNone_iff_eq_none] at kinds
    obtain ⟨⟨present, hash⟩, rfl⟩ := kinds
    obtain ⟨contentHash, rfl⟩ := Option.isSome_iff_exists.mp hash
    cases read
    have staged := stage.resolve_left (Option.isSome_iff_ne_none.mp present)
    subst staged
    cases preimageHash with
    | none =>
      rw [Option.isNone_none, Option.isNone_iff_eq_none] at paired
      subst paired
      refine ⟨rfl, fun path member => ?_, fun hash member => ?_⟩
      · rw [mem_singleton.mp member]
        exact canonical
      · rw [mem_singleton.mp member]
        exact content
    | some preimageHash =>
      have backup := present_of_paired paired rfl kept
      subst backup
      refine ⟨rfl, fun path member => ?_, fun hash member => ?_⟩
      · rw [mem_singleton.mp member]
        exact canonical
      · rcases mem_cons.mp member with rfl | later
        · exact content
        · rw [mem_singleton.mp later]
          exact preimage
  | move =>
    simp only [Bool.and_eq_true, Option.isNone_iff_eq_none, beq_iff_eq] at kinds
    obtain ⟨⟨⟨hash, rfl⟩, goes⟩, rfl⟩ := kinds
    obtain ⟨contentHash, rfl⟩ := Option.isSome_iff_exists.mp hash
    obtain ⟨destination, rfl⟩ := Option.isSome_iff_exists.mp goes
    cases read
    have backup := present_of_paired paired rfl kept
    subst backup
    refine ⟨rfl, fun path member => ?_, fun hash member => ?_⟩
    · rcases mem_cons.mp member with rfl | later
      · exact canonical
      · rw [mem_singleton.mp later]
        exact arrival destination rfl
    · rw [mem_singleton.mp member]
      exact preimage
  | delete =>
    simp only [Bool.and_eq_true, Option.isNone_iff_eq_none] at kinds
    obtain ⟨⟨⟨hash, rfl⟩, rfl⟩, rfl⟩ := kinds
    obtain ⟨preimageHash, rfl⟩ := Option.isSome_iff_exists.mp hash
    cases read
    have backup := present_of_paired paired rfl kept
    subst backup
    refine ⟨rfl, fun path member => ?_, fun hash member => ?_⟩
    · rw [mem_singleton.mp member]
      exact canonical
    · rw [mem_singleton.mp member]
      exact preimage

/-- What the rounds find together: every entry is written from its operation, in the one directory. -/
structure Rounds (targets : List IntentTarget) (index : Nat) (known : Option String) (operations : List ValidatedOperation) (last : Option String) :
    Prop where
  written : ∀ directory, last = some directory → targets = writtenTargets directory index operations
  named : ∀ directory, last = some directory → operations ≠ [] → isTransactionDirectory directory = true
  same : known = none ∨ known = last
  hashed : ∀ operation ∈ operations, ∀ hash ∈ operation.hashes, isContentHash hash = true
  canonical : ∀ path ∈ operations.flatMap ValidatedOperation.paths, canonicalTarget path = some path

theorem validateTargets_rounds {targets : List IntentTarget}
    {known last : Option String} (valid : ∀ item ∈ targets, item.fieldsValid = true)
    (ok : validateTargets workspace cached disk index known keys targets = .ok (operations, last)) :
    Rounds targets index known operations last := by
  induction targets generalizing index known keys operations with
  | nil =>
    cases ok
    exact ⟨fun _ _ => rfl, fun _ _ some => absurd rfl some, .inr rfl, forall_mem_nil _,
      forall_mem_nil _⟩
  | cons item rest ih =>
    obtain ⟨⟨operation, owned, later⟩, one, ok⟩ := except_bind_ok.mp ok
    obtain ⟨⟨others, directory⟩, more, same⟩ := except_bind_ok.mp ok
    cases same
    have checked := validateTarget_checked one
    obtain ⟨written, canonical, hashed⟩ := checked.written (valid item mem_cons_self)
    have rounds := ih (fun item member => valid item (mem_cons_of_mem _ member)) more
    have last : last = some owned := (rounds.same.resolve_left (Option.some_ne_none owned)).symm
    subst last
    refine ⟨?_, ?_, checked.known, ?_, ?_⟩
    · intro directory same
      cases same
      rw [writtenTargets, ← written, ← rounds.written owned rfl]
    · intro directory same _
      cases same
      exact checked.named
    · intro other member
      rcases mem_cons.mp member with rfl | inside
      · exact hashed
      · exact rounds.hashed other inside
    · intro path member
      rw [flatMap_cons, mem_append] at member
      exact member.elim (canonical path) (rounds.canonical path)

theorem form_of_validated {validated : ValidatedIntent}
    (valid : record.fieldsValid = true) (ok : validatedIntentPaths workspace cached disk record = .ok validated) :
    IntentForm workspace.platform record validated.directory validated.operations := by
  have apart := validatedIntentPaths_apart.2 validated ok
  simp only [IntentRecord.fieldsValid, Bool.and_eq_true, bne_iff_ne, ne_eq, Bool.not_eq_true', isEmpty_eq_false_iff,
    all_eq_true] at valid
  obtain ⟨⟨⟨identified, nonce⟩, some⟩, fields⟩ := valid
  unfold validatedIntentPaths at ok
  obtain ⟨⟨operations, last⟩, targets, ok⟩ := except_bind_ok.mp ok
  have rounds := validateTargets_rounds fields targets
  dsimp only at ok
  cases last with
  | none => cases ok
  | some directory =>
    cases ok
    have written := rounds.written directory rfl
    have filled : operations ≠ [] := by
      rintro rfl
      exact some written
    refine ⟨identified, nonce, filled, rounds.named directory rfl filled, written, rounds.hashed, rounds.canonical, ?_⟩
    unfold IntentRecord.paths at apart
    rw [written, writtenTargets_paths] at apart
    exact apart

theorem fieldsValid_of_fromDict {value : Json.Value} (read : IntentRecord.fromDict value = some record) : record.fieldsValid = true := by
  have checked : ∀ {item : IntentRecord}, ((require item.fieldsValid).bind fun _ => some item) = some record → record.fieldsValid = true := by
    intro item done
    obtain ⟨_, valid, same⟩ := Option.bind_eq_some_iff.mp done
    unfold require at valid
    split at valid
    · next holds =>
      cases same
      exact holds
    · cases valid
  unfold IntentRecord.fromDict at read
  obtain ⟨members, _, read⟩ := Option.bind_eq_some_iff.mp read
  obtain ⟨_, _, read⟩ := Option.bind_eq_some_iff.mp read
  obtain ⟨version, _, read⟩ := Option.bind_eq_some_iff.mp read
  obtain ⟨_, _, read⟩ := Option.bind_eq_some_iff.mp read
  obtain ⟨transactionId, _, read⟩ := Option.bind_eq_some_iff.mp read
  obtain ⟨nonce, _, read⟩ := Option.bind_eq_some_iff.mp read
  obtain ⟨field, _, read⟩ := Option.bind_eq_some_iff.mp read
  obtain ⟨items, _, read⟩ := Option.bind_eq_some_iff.mp read
  obtain ⟨targets, _, read⟩ := Option.bind_eq_some_iff.mp read
  exact checked read

theorem form_of_loaded {validated : ValidatedIntent}
    (loaded : loadIntent workspace cached disk = .ok (record, validated)) :
    IntentForm workspace.platform record validated.directory validated.operations := by
  unfold loadIntent at loaded
  cases file : disk.files .intent with
  | none =>
    rw [file] at loaded
    cases loaded
  | some bytes =>
    rw [file] at loaded
    dsimp only at loaded
    cases read : decodeIntent bytes with
    | none =>
      rw [read] at loaded
      cases loaded
    | some found =>
      rw [read] at loaded
      dsimp only at loaded
      cases valid : validatedIntentPaths workspace cached disk found with
      | error failure =>
        rw [valid] at loaded
        cases loaded
      | ok paths =>
        rw [valid] at loaded
        cases loaded
        unfold decodeIntent at read
        obtain ⟨value, _, read⟩ := Option.bind_eq_some_iff.mp read
        exact form_of_validated (fieldsValid_of_fromDict read) valid

end Workctx.Staging
