import Workctx.Engine.Appends
import Workctx.Secrets.Gate
import Workctx.Staging.Collisions

/-! The collisions of paths from the proposal to its intent: the model, the resolution and the intent go by one equivalence of
paths, and what the model has accepted collides nowhere. -/

namespace Workctx.Engine
open Workctx.Text Workctx.Concurrent Workctx.Domain Workctx.Staging Workctx.Owners Workctx.Secrets List

/-! The check of the model. -/

section
variable (platform : Platform)

def requireNewKeys (seen : List String) : List String → Except String (List String)
  | [] => .ok seen
  | path :: rest =>
    if seen.contains (platform.pathKey path) then .error "Operation paths must be unique after normalization"
    else requireNewKeys (seen ++ [platform.pathKey path]) rest

def requireOperationPathsDoNotCollide (seen : List String) : List TransactionOperation → Except String Unit
  | [] => .ok ()
  | operation :: rest =>
    match requireNewKeys platform seen operation.paths with
    | .error message => .error message
    | .ok seen => requireOperationPathsDoNotCollide seen rest

/-- What Unicode says of lower-case ASCII text: it is in its normal form, and case folding leaves it alone. -/
def KeepsPlain : Prop :=
  ∀ text : String, (text.toList.all fun c => c.toNat < 128 && !('A' ≤ c && c ≤ 'Z')) = true →
    platform.nfc text = text ∧ platform.casefold text = text

end

section
variable {platform : Platform}

theorem requireNewKeys_ok {seen later : List String} {paths : List String} (distinct : seen.Nodup) :
    requireNewKeys platform seen paths = .ok later ↔
      (seen ++ paths.map platform.pathKey).Nodup ∧ later = seen ++ paths.map platform.pathKey := by
  induction paths generalizing seen with
  | nil => simp [requireNewKeys, distinct, eq_comm]
  | cons path rest ih =>
    rw [requireNewKeys]
    by_cases known : platform.pathKey path ∈ seen
    · rw [if_pos (by simpa using known)]
      simp [not_nodup_of_mem known]
    · rw [if_neg (by simpa using known), ih (nodup_claimed known distinct), map_cons, ← append_cons]

variable {operations : List TransactionOperation} {path : String} {operation : TransactionOperation}

theorem requireOperationPaths_ok {seen : List String} (distinct : seen.Nodup) :
    requireOperationPathsDoNotCollide platform seen operations = .ok () ↔
      (seen ++ (operations.flatMap TransactionOperation.paths).map platform.pathKey).Nodup := by
  induction operations generalizing seen with
  | nil => simp [requireOperationPathsDoNotCollide, distinct]
  | cons operation rest ih =>
    rw [requireOperationPathsDoNotCollide, flatMap_cons, map_append, ← append_assoc]
    cases claimed : requireNewKeys platform seen operation.paths with
    | error message =>
      have clash : ¬(seen ++ operation.paths.map platform.pathKey).Nodup := by
        intro unique
        rw [(requireNewKeys_ok distinct).mpr ⟨unique, rfl⟩] at claimed
        cases claimed
      simp only [reduceCtorEq, false_iff]
      exact fun unique => clash (nodup_append.mp unique).1
    | ok later =>
      obtain ⟨unique, rfl⟩ := (requireNewKeys_ok distinct).mp claimed
      exact ih unique

theorem requireOperationPaths_apart :
    requireOperationPathsDoNotCollide platform [] operations = .ok () ↔
      Apart platform (operations.flatMap TransactionOperation.paths) :=
  (requireOperationPaths_ok nodup_nil).trans apart_iff.symm

/-! Context paths. -/

theorem mem_of_mem_splitOn {α : Type} [BEq α] [LawfulBEq α] {separator item : α} {items : List α} (member : item ∈ items)
    (other : item ≠ separator) : ∃ part ∈ items.splitOn separator, item ∈ part := by
  have joined := @intercalate_splitOn _ items _ _ separator
  rw [← joined] at member
  generalize items.splitOn separator = parts at member
  induction parts with
  | nil => simp at member
  | cons first rest ih =>
    cases rest with
    | nil => exact ⟨first, mem_cons_self, by simpa using member⟩
    | cons second others =>
      rw [intercalate_cons_cons, mem_append, mem_append, mem_singleton] at member
      rcases member with (here | same) | later
      · exact ⟨first, mem_cons_self, here⟩
      · exact absurd same other
      · obtain ⟨part, inside, own⟩ := ih later
        exact ⟨part, mem_cons_of_mem _ inside, own⟩

/-- What the path rules of the transaction documents say. -/
structure ContextPath (path : String) : Prop where
  nonempty : path ≠ ""
  noBackslash : '\\' ∉ path.toList
  printable : ∀ c ∈ path.toList, 32 ≤ c.toNat
  zone : (path.toList.splitOn '/').headD [] ∈ canonicalZones.map String.toList
  segments : ∀ part ∈ path.toList.splitOn '/', part ≠ [] ∧ part ≠ ['.'] ∧ part ≠ ['.', '.']
  noColon : ':' ∉ path.toList

theorem contextPath_of_valid (valid : validateContextPath platform path = true) :
    ContextPath path ∧ platform.nfc path = path ∧ platform.pathKey path ≠ platform.pathKey ledgerPath := by
  simp only [validateContextPath, Bool.and_eq_true, bne_iff_ne, Bool.not_eq_true', Bool.or_eq_false_iff, beq_iff_eq,
    any_eq_false, all_eq_true, contains_eq_mem, decide_eq_false_iff_not, decide_eq_true_eq] at valid
  obtain ⟨⟨⟨⟨⟨⟨nonempty, ledger⟩, noBackslash, printable⟩, normal⟩, zone⟩, segments⟩, portable⟩ := valid
  refine ⟨⟨nonempty, noBackslash, fun c inside => Nat.le_of_not_lt (printable c inside), zone, fun part inside => ?_, fun colon => ?_⟩,
    normal.symm, ledger⟩
  · have plain := segments part inside
    rw [Bool.or_eq_true, Bool.or_eq_true, beq_iff_eq, beq_iff_eq, beq_iff_eq] at plain
    tauto
  · obtain ⟨part, inside, own⟩ := mem_of_mem_splitOn colon (by decide : ':' ≠ '/')
    have clean := portable part inside
    simp [isPortableSegment, own] at clean

theorem portableRelativePath_of (context : ContextPath path) : portableRelativePath path = some path := by
  have same : path.toList.map portableChar = path.toList := by
    rw [map_congr_left (g := id), map_id]
    intro c inside
    have other : c ≠ '\\' := fun same => context.noBackslash (same ▸ inside)
    rw [portableChar, if_neg other, id]
  have noNull : Char.ofNat 0 ∉ path.toList := fun inside => absurd (context.printable _ inside) (by decide)
  have noDrive : (path.toList.drop 1).head? ≠ some ':' := by
    intro drive
    exact context.noColon (drop_subset _ _ (mem_of_head? drive))
  have plain : ((path.toList.splitOn '/').any fun part => part == [] || part == ['.'] || part == ['.', '.']) = false := by
    rw [any_eq_false]
    intro part inside
    have segment := context.segments part inside
    simp [segment.1, segment.2.1, segment.2.2]
  unfold portableRelativePath
  dsimp only
  rw [same, if_neg (by simp [context.nonempty, noNull]), if_neg noDrive, plain, if_neg Bool.false_ne_true, String.ofList_toList]

theorem allowedLocation_of (context : ContextPath path) : allowedLocation path = true := by
  have zones : canonicalZones = canonicalTargetPrefixes := rfl
  obtain ⟨zone, member, head⟩ := mem_map.mp context.zone
  obtain ⟨first, rest, parts⟩ := exists_cons_of_ne_nil (splitOn_ne_nil '/' path.toList)
  have joined := @intercalate_splitOn _ path.toList _ _ '/'
  rw [parts] at head joined
  have same : zone.toList = first := head
  unfold allowedLocation
  rw [Bool.or_eq_true, any_eq_true]
  refine .inr ⟨zone, zones ▸ member, ?_⟩
  cases rest with
  | nil =>
    have whole : path = zone := String.toList_inj.mp (by rw [← joined, same]; simp)
    simp [whole]
  | cons second others =>
    rw [intercalate_cons_cons] at joined
    rw [Bool.or_eq_true, isPrefixOf_iff_prefix, ← joined, same]
    exact .inr (prefix_append _ _)

theorem canonicalTarget_of_contextPath (context : ContextPath path) : canonicalTarget path = some path := by
  rw [canonicalTarget, portableRelativePath_of context, Option.filter_some, if_pos (allowedLocation_of context)]

/-! From operations to what is staged for them. -/

def Stages : TransactionOperation → StagedOperation → Prop
  | .create target _, .write path _ => path = target
  | .update target _ _, .write path _ => path = target
  | .move source destination _, .move from_ into => from_ = source ∧ into = destination
  | .deleteGenerated target _, .delete path => path = target
  | _, _ => False

theorem valid_paths (valid : operation.valid platform = true) :
    ∀ path ∈ operation.paths, validateContextPath platform path = true := by
  cases operation with
  | create target payload =>
    rw [TransactionOperation.valid] at valid
    simpa [TransactionOperation.paths] using valid
  | update target payload expectedHash =>
    rw [TransactionOperation.valid, Bool.and_eq_true] at valid
    simpa [TransactionOperation.paths] using valid.1
  | move source destination expectedHash =>
    rw [TransactionOperation.valid, Bool.and_eq_true, Bool.and_eq_true] at valid
    simpa [TransactionOperation.paths] using valid.1
  | deleteGenerated target expectedHash =>
    rw [TransactionOperation.valid, Bool.and_eq_true, validateGeneratedPath, Bool.and_eq_true] at valid
    simpa [TransactionOperation.paths] using valid.1.1

theorem lexical_of_stages {staged : StagedOperation} (valid : operation.valid platform = true)
    (stages : Stages operation staged) : ∃ resolved, staged.lexical = some resolved ∧ resolved.paths = operation.paths := by
  have canonical : ∀ path ∈ operation.paths, canonicalTarget path = some path := fun path member =>
    canonicalTarget_of_contextPath (contextPath_of_valid (valid_paths valid path member)).1
  cases operation with
  | create target payload =>
    cases staged with
    | write path content =>
      obtain rfl : path = target := stages
      exact ⟨.replace path content, by rw [StagedOperation.lexical, canonical path mem_cons_self]; rfl, rfl⟩
    | move source destination => exact stages.elim
    | delete path => exact stages.elim
  | update target payload expectedHash =>
    cases staged with
    | write path content =>
      obtain rfl : path = target := stages
      exact ⟨.replace path content, by rw [StagedOperation.lexical, canonical path mem_cons_self]; rfl, rfl⟩
    | move source destination => exact stages.elim
    | delete path => exact stages.elim
  | move source destination expectedHash =>
    cases staged with
    | write path content => exact stages.elim
    | move from_ into =>
      obtain ⟨rfl, rfl⟩ := stages
      refine ⟨.move from_ into, ?_, rfl⟩
      rw [StagedOperation.lexical, canonical from_ mem_cons_self, canonical into (by simp [TransactionOperation.paths])]
      rfl
    | delete path => exact stages.elim
  | deleteGenerated target expectedHash =>
    cases staged with
    | write path content => exact stages.elim
    | move source destination => exact stages.elim
    | delete path =>
      obtain rfl : path = target := stages
      exact ⟨.delete path, by rw [StagedOperation.lexical, canonical path mem_cons_self]; rfl, rfl⟩

theorem lexical_of_all {staged : List StagedOperation}
    (valid : operations.all (TransactionOperation.valid platform) = true) (stages : List.Forall₂ Stages operations staged) :
    ∃ resolved : List ResolvedOperation, staged.map StagedOperation.lexical = resolved.map some ∧
      resolved.flatMap ResolvedOperation.paths = operations.flatMap TransactionOperation.paths := by
  induction stages with
  | nil => exact ⟨[], rfl, rfl⟩
  | cons one _ ih =>
    rw [all_cons, Bool.and_eq_true] at valid
    obtain ⟨first, lexical, paths⟩ := lexical_of_stages valid.1 one
    obtain ⟨rest, others, further⟩ := ih valid.2
    refine ⟨first :: rest, ?_, ?_⟩
    · rw [map_cons, map_cons, lexical, others]
    · rw [flatMap_cons, flatMap_cons, paths, further]

theorem stages_of_staged {analyzer : Analyzer} {staged : StagedOperation}
    (made : analyzer.stagedOperation operation = some staged) : Stages operation staged := by
  cases operation with
  | create target payload =>
    obtain ⟨content, _, rfl⟩ := Option.map_eq_some_iff.mp made
    rfl
  | update target payload expectedHash =>
    obtain ⟨content, _, rfl⟩ := Option.map_eq_some_iff.mp made
    rfl
  | move source destination expectedHash =>
    cases made
    exact ⟨rfl, rfl⟩
  | deleteGenerated target expectedHash =>
    cases made
    rfl

theorem forall₂_of_mapM {α β : Type} {read : α → Option β} {holds : α → β → Prop} (each : ∀ item result, read item = some result → holds item result)
    {items : List α} {results : List β} (made : items.mapM read = some results) : List.Forall₂ holds items results := by
  induction items generalizing results with
  | nil =>
    cases made
    exact .nil
  | cons item rest ih =>
    rw [mapM_cons] at made
    obtain ⟨result, first, more⟩ := Option.bind_eq_some_iff.mp made
    obtain ⟨others, later, done⟩ := Option.bind_eq_some_iff.mp more
    cases done
    exact .cons (each item result first) (ih later)

/-! Accepted proposals. -/

variable {analyzer : Analyzer} {documents : List ParsedDocument} {files : Files} {proposal : TransactionProposal analyzer.compiler.platform}
  {createdAt time : String} {requested : List String} {compiled : CompiledProposal}

theorem operations_apart (proposal : TransactionProposal platform) :
    Apart platform (ledgerPath :: proposal.operations.flatMap TransactionOperation.paths) := by
  refine pairwise_cons.mpr ⟨fun path member => ?_, apart_iff.mpr proposal.distinctPaths⟩
  obtain ⟨operation, inside, own⟩ := mem_flatMap.mp member
  have valid := valid_paths (all_eq_true.mp proposal.addressed operation inside) path own
  exact (contextPath_of_valid valid).2.2.symm

theorem acknowledgments_apart (plain : KeepsPlain platform) (proposal : TransactionProposal platform)
    (free : ∀ path ∈ proposal.operations.flatMap TransactionOperation.paths, platform.casefold path ≠ platform.casefold acknowledgmentsPath) :
    Apart platform (ledgerPath :: (proposal.operations.flatMap TransactionOperation.paths ++ [acknowledgmentsPath])) := by
  obtain ⟨normal, folded⟩ := plain acknowledgmentsPath (by decide)
  obtain ⟨normal', folded'⟩ := plain ledgerPath (by decide)
  rw [← cons_append]
  refine pairwise_append.mpr ⟨operations_apart proposal, pairwise_singleton _ _, fun path member other same => ?_⟩
  rw [mem_singleton.mp same]
  rcases mem_cons.mp member with ledger | own
  · rw [ledger, Platform.pathKey, Platform.pathKey, normal, normal', folded, folded']
    decide
  · obtain ⟨operation, inside, listed⟩ := mem_flatMap.mp own
    have valid := valid_paths (all_eq_true.mp proposal.addressed operation inside) path listed
    rw [Platform.pathKey, Platform.pathKey, normal, (contextPath_of_valid valid).2.1]
    exact free path own

theorem accepted_apart (plain : KeepsPlain analyzer.compiler.platform)
    (valid : (analyzer.analyze documents files proposal createdAt time requested).valid = true)
    (result : (analyzer.analyze documents files proposal createdAt time requested).compiled = some compiled) :
    ∃ resolved : List ResolvedOperation, compiled.writes.map StagedOperation.lexical = resolved.map some ∧
      Apart analyzer.compiler.platform (ledgerPath :: resolved.flatMap ResolvedOperation.paths) := by
  obtain ⟨first, found, passed⟩ := analyze_passed valid
  obtain ⟨filePaths, _, _, writes⟩ := compile_made passed.compiles
  obtain ⟨resolved, lexical, paths⟩ := lexical_of_all proposal.addressed (forall₂_of_mapM (fun _ _ => stages_of_staged) writes)
  rw [passed.result, Option.some.injEq] at result
  obtain ⟨free, ⟨_, same⟩ | ⟨_, _, record, recorded⟩⟩ := compileSecretAcknowledgments_clean passed.accepted
  · refine ⟨resolved, ?_, ?_⟩
    · rw [← result, Analyzer.acknowledged, same]
      exact lexical
    · rw [paths]
      exact operations_apart proposal
  · obtain ⟨content, _, _, same⟩ := recorded.read
    refine ⟨resolved ++ [.replace acknowledgmentsPath (analyzer.scan.dumpSecretScanAcknowledgments record)], ?_, ?_⟩
    · rw [← result, Analyzer.acknowledged, same]
      have last : canonicalTarget acknowledgmentsPath = some acknowledgmentsPath := by decide
      show (first.writes ++ [StagedOperation.write acknowledgmentsPath _]).map StagedOperation.lexical = _
      rw [map_append, map_append, lexical, map_singleton, map_singleton, StagedOperation.lexical, last]
      rfl
    · rw [flatMap_append, paths]
      apply acknowledgments_apart plain proposal
      intro path member
      rw [← filePaths] at member
      obtain ⟨file, inside, rfl⟩ := mem_map.mp member
      exact free file inside

end

/-- The three layers refuse the same operations for their paths, those of an accepted proposal collide at none of them, and no
accepted intent has two paths that are one on a case-insensitive file system. -/
theorem collision_rules_agree (analyzer : Analyzer) (workspace : Workspace) (same : workspace.platform = analyzer.compiler.platform)
    (plain : KeepsPlain analyzer.compiler.platform) :
    (∀ operations : List TransactionOperation, operations.all (TransactionOperation.valid workspace.platform) = true →
      (requireOperationPathsDoNotCollide workspace.platform [] operations = .ok () ↔
        Apart workspace.platform (operations.flatMap TransactionOperation.paths)) ∧
      (∀ staged, List.Forall₂ Stages operations staged → ∀ disk,
        (requireOperationPathsDoNotCollide workspace.platform [] operations = .ok () → Plain (resolveOperations workspace disk staged)) ∧
        ∀ resolved, resolveOperations workspace disk staged = .ok resolved →
          requireOperationPathsDoNotCollide workspace.platform [] operations = .ok ()) ∧
      ∀ record : IntentRecord, record.paths = operations.flatMap TransactionOperation.paths → ∀ cached disk,
        (requireOperationPathsDoNotCollide workspace.platform [] operations = .ok () →
          Plain (validatedIntentPaths workspace cached disk record)) ∧
        ∀ validated, validatedIntentPaths workspace cached disk record = .ok validated →
          requireOperationPathsDoNotCollide workspace.platform [] operations = .ok ()) ∧
    (∀ documents files (proposal : TransactionProposal analyzer.compiler.platform) createdAt time requested compiled,
      (analyzer.analyze documents files proposal createdAt time requested).valid = true →
      (analyzer.analyze documents files proposal createdAt time requested).compiled = some compiled →
        (∀ disk, Plain (resolveOperations workspace disk compiled.writes)) ∧
        ∀ disk resolved, resolveOperations workspace disk compiled.writes = .ok resolved →
          Apart workspace.platform (ledgerPath :: resolved.flatMap ResolvedOperation.paths) ∧
          ∀ transactionId nonce directory preimages cached later,
            Plain (validatedIntentPaths workspace cached later (preparedRecord workspace transactionId nonce directory preimages resolved))) ∧
    ∀ (record : IntentRecord) cached disk validated, validatedIntentPaths workspace cached disk record = .ok validated →
      Apart workspace.platform record.paths := by
  refine ⟨fun operations valid => ⟨requireOperationPaths_apart, fun staged stages disk => ?_, fun record paths cached disk => ?_⟩, ?_,
    fun record cached disk => validatedIntentPaths_apart.2⟩
  · obtain ⟨resolved, lexical, paths⟩ := lexical_of_all valid stages
    rw [requireOperationPaths_apart, ← paths]
    exact resolveOperations_apart lexical
  · rw [requireOperationPaths_apart, ← paths]
    exact validatedIntentPaths_apart
  · intro documents files proposal createdAt time requested compiled valid result
    obtain ⟨resolved, lexical, apart⟩ := accepted_apart plain valid result
    rw [← same] at apart
    have own : Apart workspace.platform (resolved.flatMap ResolvedOperation.paths) := (List.pairwise_cons.mp apart).2
    refine ⟨fun disk => (resolveOperations_apart lexical).1 own, fun disk done ok => ?_⟩
    have equal : resolved = done :=
      List.map_injective_iff.mpr (fun _ _ => Option.some.inj) (lexical.symm.trans (resolveOperations_ok ok).lexical)
    rw [← equal]
    refine ⟨apart, fun transactionId nonce directory preimages cached later => validatedIntentPaths_apart.1 ?_⟩
    rw [preparedRecord_paths]
    exact own

theorem keepsPlain_sample : KeepsPlain sampleEngine.workspace.platform := fun _ _ => ⟨rfl, rfl⟩

/-- The write of a document and its acknowledgment resolve without a collision. -/
theorem collision_rules_agree_sample : ∃ compiled,
    (Secrets.Sample.analyzer.analyze [] Secrets.Sample.files Owners.Sample.proposal "" "2025-01-02T00:00:00Z" [Secrets.Sample.path]).compiled = some compiled ∧
      Plain (resolveOperations sampleEngine.workspace heldDisk compiled.writes) := by
  obtain ⟨compiled, found, passed⟩ := analyze_passed Secrets.Sample.valid
  have agree := collision_rules_agree Secrets.Sample.analyzer sampleEngine.workspace rfl keepsPlain_sample
  exact ⟨_, passed.result, (agree.2.1 _ _ _ _ _ _ _ Secrets.Sample.valid passed.result).1 heldDisk⟩

end Workctx.Engine
