import Workctx.Migration.Mapping

/-! The identifiers of the planned documents are distinct, but for those of standalone observations. -/

namespace Workctx.Migration
open Workctx.Concurrent Workctx.Domain Workctx.Topics List

/-! Taking identifiers. -/

/-- From one allocator to the other these identifiers were taken, each of them new. -/
structure Allocator.Grown (before : Allocator) (ids : List String) (after : Allocator) : Prop where
  nodup : ids.Nodup
  fresh : ∀ id ∈ ids, id ∉ before.used
  used : ∀ id ∈ ids, id ∈ after.used
  kept : before.used ⊆ after.used

namespace Allocator.Grown
variable {before between after : Allocator} {id : String} {ids others : List String}

theorem none (kept : before.used ⊆ after.used) : Grown before [] after :=
  ⟨nodup_nil, fun _ member => absurd member (by simp), fun _ member => absurd member (by simp), kept⟩

theorem refl : Grown before [] before := none fun _ member => member

theorem one (fresh : id ∉ before.used) (used : id ∈ after.used) (kept : before.used ⊆ after.used) : Grown before [id] after :=
  ⟨nodup_singleton id, by simpa using fresh, by simpa using used, kept⟩

theorem append (first : Grown before ids between) (second : Grown between others after) : Grown before (ids ++ others) after := by
  constructor
  · rw [nodup_append]
    refine ⟨first.nodup, second.nodup, ?_⟩
    intro one member other also same
    subst same
    exact second.fresh one also (first.used one member)
  · intro id member
    rcases mem_append.mp member with here | there
    · exact first.fresh id here
    · exact fun old => second.fresh id there (first.kept old)
  · intro id member
    rcases mem_append.mp member with here | there
    · exact second.kept (first.used id here)
    · exact second.used id there
  · exact fun id old => second.kept (first.kept old)

theorem cons (first : Grown before [id] between) (second : Grown between others after) : Grown before (id :: others) after :=
  first.append second

end Allocator.Grown

/-! The allocator. -/

namespace Allocator

theorem nextFree_fresh {used : List String} {candidate : Nat → String} {left sequence next : Nat}
    (found : nextFree used candidate left sequence = some next) : candidate next ∉ used := by
  induction left generalizing sequence with
  | zero => exact absurd found (by simp [nextFree])
  | succ left ih =>
    rw [nextFree] at found
    split at found
    · exact ih found
    · next free =>
      cases found
      simpa using free

variable {allocator reserved : Allocator} {time : MigrationTime} {oldId : Option String}

variable {id : String}

theorem sequenced_grown {key exhausted : String} {candidate : Nat → String} {limit : Nat}
    (allocated : allocator.sequenced key candidate limit exhausted = .ok (id, reserved)) : Grown allocator [id] reserved := by
  unfold sequenced at allocated
  dsimp only at allocated
  split at allocated
  · exact absurd allocated (by simp)
  · next next found =>
    cases allocated
    exact .one (nextFree_fresh found) mem_cons_self (subset_cons_self _ _)

theorem toString_injective {one two : Nat} (same : toString one = toString two) : one = two := by
  have digits : Nat.toDigits 10 one = Nat.toDigits 10 two := by
    simpa [Nat.toString_eq_repr, Nat.toList_repr] using congrArg String.toList same
  rw [← Nat.ofDigitChars_ten_toDigits (n := one), digits, Nat.ofDigitChars_ten_toDigits]

theorem slugCandidate_injective {base : String} {one two : Nat} (same : slugCandidate base one = slugCandidate base two) : one = two := by
  have longer : ∀ number : Nat, base ≠ base ++ "-" ++ toString number := by
    intro number equal
    have lengths := congrArg String.length equal
    simp only [String.length_append] at lengths
    have hyphen : "-".length = 1 := rfl
    omega
  unfold slugCandidate at same
  split at same
  · split at same
    · omega
    · exact absurd same (longer two)
  · split at same
    · exact absurd same.symm (longer one)
    · exact toString_injective (String.append_right_inj _ |>.mp same)

theorem slugSequence_passed (used : List String) (base : String) (left sequence : Nat) :
    slugCandidate base (slugSequence used base left sequence) ∉ used ∨
      slugSequence used base left sequence = sequence + left ∧ ∀ number, sequence ≤ number → number < sequence + left →
        slugCandidate base number ∈ used := by
  induction left generalizing sequence with
  | zero => exact .inr ⟨rfl, fun number _ _ => by omega⟩
  | succ left ih =>
    rw [slugSequence]
    split
    · next taken =>
      rcases ih (sequence + 1) with free | ⟨last, passed⟩
      · exact .inl free
      · refine .inr ⟨by omega, ?_⟩
        intro number least most
        by_cases first : number = sequence
        · subst first
          simpa using taken
        · exact passed number (by omega) (by omega)
    · next free => exact .inl (by simpa using free)

theorem slugSequence_fresh (used : List String) (base : String) :
    slugCandidate base (slugSequence used base used.length 1) ∉ used := by
  rcases slugSequence_passed used base used.length 1 with free | ⟨last, passed⟩
  · exact free
  · intro taken
    have distinct : ((List.range (used.length + 1)).map fun number => slugCandidate base (number + 1)).Nodup := by
      refine List.Nodup.map ?_ nodup_range
      intro one two same
      have equal := slugCandidate_injective same
      omega
    have inside : ((List.range (used.length + 1)).map fun number => slugCandidate base (number + 1)) ⊆ used := by
      intro id member
      obtain ⟨number, small, rfl⟩ := mem_map.mp member
      have bound := mem_range.mp small
      by_cases furthest : number = used.length
      · rw [last] at taken
        rwa [furthest, Nat.add_comm]
      · exact passed _ (by omega) (by omega)
    have count := distinct.length_le_of_subset inside
    rw [length_map, length_range] at count
    omega

theorem slugId_grown {tag slug : String} (made : allocator.slugId tag slug = (id, reserved)) :
    Grown allocator [id] reserved := by
  cases made
  exact .one (slugSequence_fresh _ _) mem_cons_self (subset_cons_self _ _)

theorem allocate_grown {entityType slug : String}
    (allocated : allocator.allocate time entityType slug = .ok (id, reserved)) :
    Grown allocator (if entityType = "observation" then [] else [id]) reserved := by
  unfold allocate at allocated
  split at allocated
  case h_3 =>
    obtain ⟨⟨evidenceId, between⟩, dated, done⟩ := bind_ok.mp allocated
    cases done
    rw [if_pos rfl]
    exact .none fun _ old => mem_cons_of_mem _ ((sequenced_grown dated).kept old)
  case h_9 other _ _ notObservation _ _ _ _ _ =>
    rw [if_neg notObservation]
    exact slugId_grown (Except.ok.inj allocated)
  case h_7 | h_8 =>
    rw [if_neg (by decide)]
    exact slugId_grown (Except.ok.inj allocated)
  all_goals
    rw [if_neg (by decide)]
    exact sequenced_grown allocated

theorem reserve_grown {accepts : String → Bool}
    (chosen : (oldId.filter fun id => !allocator.used.contains id && accepts id) = some id) : Grown allocator [id] (allocator.reserve id) := by
  have kept := (Option.filter_eq_some_iff.mp chosen).2
  rw [Bool.and_eq_true, Bool.not_eq_true'] at kept
  exact .one (by simpa using kept.1) mem_cons_self (subset_cons_self _ _)

theorem reserveOrAllocate_grown {unicode : UnicodeData}
    {entityType sourcePath : String}
    (allocated : allocator.reserveOrAllocate time unicode entityType oldId sourcePath = .ok (id, reserved)) :
    Grown allocator (if entityType = "observation" then [] else [id]) reserved := by
  unfold reserveOrAllocate at allocated
  split at allocated
  · next kept chosen =>
    cases allocated
    split
    · exact .none (reserve_grown chosen).kept
    · exact reserve_grown chosen
  · exact allocate_grown allocated

theorem allocateParentTask_grown
    (allocated : allocator.allocateParentTask time oldId = .ok (id, reserved)) : Grown allocator [id] reserved := by
  unfold allocateParentTask at allocated
  split at allocated
  · next kept chosen =>
    cases allocated
    exact reserve_grown chosen
  · exact sequenced_grown allocated

theorem allocateSubtask_grown {parentId : String}
    (allocated : allocator.allocateSubtask parentId oldId = .ok (id, reserved)) : Grown allocator [id] reserved := by
  unfold allocateSubtask at allocated
  split at allocated
  · next kept chosen =>
    cases allocated
    exact reserve_grown chosen
  · exact sequenced_grown allocated

end Allocator

/-! The planned documents. -/

def entityIds (documents : List PlannedDocument) : List String :=
  documents.flatMap fun planned => if planned.source.entityType = "observation" then [] else [planned.targetId]

def PlannedDocument.Addressed (contextId : String) (planned : PlannedDocument) : Prop :=
  planned.targetUri = uriText ⟨contextId, planned.source.entityType, planned.targetId⟩

theorem plannedDocument_made {contextId targetId : String} {document : LegacyDocument} {planned : PlannedDocument}
    (made : plannedDocument contextId document targetId = .ok planned) :
    planned.source = document ∧ planned.targetId = targetId ∧ planned.Addressed contextId := by
  unfold plannedDocument at made
  split at made
  · exact absurd made (by simp)
  · split at made
    · exact absurd made (by simp)
    · rw [← Except.ok.inj made]
      exact ⟨rfl, rfl, rfl⟩

section
variable {unicode : UnicodeData} {time : MigrationTime} {contextId : String}

variable {allocator : Allocator} {rootIds : Directory String String}

variable {later : Allocator} {planned : List PlannedDocument} {tasks : List LegacyDocument} {documents : List PlannedDocument}

theorem planDocuments_made {documents : List LegacyDocument}
    (made : planDocuments unicode time contextId documents allocator = .ok (planned, later)) :
    allocator.Grown (entityIds planned) later ∧ planned.map PlannedDocument.source = documents ∧
      ∀ document ∈ planned, document.Addressed contextId := by
  induction documents generalizing allocator planned later with
  | nil =>
    cases made
    exact ⟨.refl, rfl, fun _ member => absurd member (by simp)⟩
  | cons document rest ih =>
    rw [planDocuments] at made
    obtain ⟨⟨targetId, reserved⟩, allocated, planning⟩ := bind_ok.mp made
    obtain ⟨one, first, remaining⟩ := bind_ok.mp planning
    obtain ⟨⟨more, last⟩, others, done⟩ := bind_ok.mp remaining
    cases done
    obtain ⟨grown, sources, addressed⟩ := ih others
    obtain ⟨source, target, uri⟩ := plannedDocument_made first
    refine ⟨?_, ?_, ?_⟩
    · have own := Allocator.reserveOrAllocate_grown allocated
      rw [← source, ← target] at own
      exact own.append grown
    · rw [map_cons, source, sources]
    · exact forall_mem_cons.mpr ⟨uri, addressed⟩

/-! Tasks. -/

theorem allocateRoots_made {paths : List String} (made : allocateRoots time tasks paths allocator = .ok (rootIds, later)) :
    allocator.Grown (rootIds.map Prod.snd) later := by
  induction paths generalizing allocator later rootIds with
  | nil =>
    cases made
    exact .refl
  | cons path rest ih =>
    rw [allocateRoots] at made
    obtain ⟨source, _, allocating⟩ := bind_ok.mp made
    obtain ⟨⟨id, reserved⟩, allocated, remaining⟩ := bind_ok.mp allocating
    obtain ⟨⟨ids, last⟩, others, done⟩ := bind_ok.mp remaining
    cases done
    exact (Allocator.allocateParentTask_grown allocated).cons (ih others)

def OwnTaskId (rootIds : Directory String String) (used : List String) (planned : PlannedDocument) : Prop :=
  rootIds.get planned.source.relativePath = some planned.targetId ∨ planned.targetId ∉ used

theorem path_of_rootId {one two id : String} (distinct : (rootIds.map Prod.snd).Nodup)
    (first : rootIds.get one = some id) (second : rootIds.get two = some id) : one = two := by
  have same := inj_on_of_nodup_map distinct (Directory.mem_of_get first) (Directory.mem_of_get second) rfl
  exact (Prod.mk.inj same).1

theorem mem_rootIds {path id : String} (found : rootIds.get path = some id) :
    id ∈ rootIds.map Prod.snd :=
  mem_map.mpr ⟨_, Directory.mem_of_get found, rfl⟩

theorem planTaskDocuments_made {roots : LegacyDocument → String}
    (made : planTaskDocuments contextId roots rootIds tasks allocator = .ok (planned, later))
    (taken : ∀ id ∈ rootIds.map Prod.snd, id ∈ allocator.used) (distinct : (rootIds.map Prod.snd).Nodup)
    (apart : (tasks.map LegacyDocument.relativePath).Nodup) :
    (planned.map PlannedDocument.targetId).Nodup ∧ planned.map PlannedDocument.source = tasks ∧
      (∀ document ∈ planned, OwnTaskId rootIds allocator.used document) ∧ ∀ document ∈ planned, document.Addressed contextId := by
  induction tasks generalizing allocator planned later with
  | nil =>
    cases made
    exact ⟨nodup_nil, rfl, by simp, by simp⟩
  | cons task rest ih =>
    rw [planTaskDocuments] at made
    rw [map_cons, nodup_cons] at apart
    obtain ⟨rootId, lookup, choosing⟩ := bind_ok.mp made
    obtain ⟨⟨targetId, reserved⟩, chosen, planning⟩ := bind_ok.mp choosing
    obtain ⟨base, first, remaining⟩ := bind_ok.mp planning
    obtain ⟨⟨more, last⟩, others, done⟩ := bind_ok.mp remaining
    cases done
    obtain ⟨source, target, uri⟩ := plannedDocument_made first
    have found : rootIds.get (roots task) = some rootId := by
      cases got : rootIds.get (roots task) with
      | none => simp [got] at lookup
      | some id =>
        rw [got] at lookup
        exact congrArg some (Except.ok.inj lookup)
    have own : rootIds.get task.relativePath = some targetId ∧ reserved = allocator ∨ allocator.Grown [targetId] reserved := by
      unfold taskTarget at chosen
      split at chosen
      · next root =>
        cases chosen
        exact .inl ⟨by rw [root, found], rfl⟩
      · exact .inr (Allocator.allocateSubtask_grown chosen)
    have kept : allocator.used ⊆ reserved.used := by
      rcases own with ⟨_, same⟩ | grown
      · rw [same]
        exact fun _ old => old
      · exact grown.kept
    obtain ⟨nodup, sources, theirs, addressed⟩ := ih others (fun id member => kept (taken id member)) apart.2
    refine ⟨?_, ?_, ?_, ?_⟩
    · rw [map_cons, nodup_cons]
      refine ⟨?_, nodup⟩
      intro twice
      obtain ⟨other, member, same⟩ := mem_map.mp twice
      have path : other.source.relativePath ≠ task.relativePath := by
        intro equal
        refine apart.1 ?_
        rw [← equal, ← sources, map_map]
        exact mem_map.mpr ⟨other, member, rfl⟩
      dsimp only at same
      rw [target] at same
      rcases theirs other member with root | new
      · rw [same] at root
        rcases own with ⟨here, _⟩ | grown
        · exact path (path_of_rootId distinct root here)
        · exact grown.fresh targetId mem_cons_self (taken _ (mem_rootIds root))
      · rw [same] at new
        rcases own with ⟨here, _⟩ | grown
        · exact new (kept (taken _ (mem_rootIds here)))
        · exact new (grown.used targetId mem_cons_self)
    · rw [map_cons, sources]
      exact congrArg (· :: rest) source
    · refine forall_mem_cons.mpr ⟨?_, ?_⟩
      · rcases own with ⟨here, _⟩ | grown
        · refine .inl ?_
          dsimp only
          rw [source, target, here]
        · refine .inr ?_
          dsimp only
          rw [target]
          exact grown.fresh targetId mem_cons_self
      · intro other member
        exact (theirs other member).imp_right fun new old => new (kept old)
    · exact forall_mem_cons.mpr ⟨uri, addressed⟩

theorem planTasks_made
    (made : planTasks unicode time contextId tasks allocator = .ok (planned, later))
    (apart : (tasks.map LegacyDocument.relativePath).Nodup) :
    (planned.map PlannedDocument.targetId).Nodup ∧ (planned.map PlannedDocument.source).Perm tasks ∧
      (∀ document ∈ planned, document.targetId ∉ allocator.used) ∧ ∀ document ∈ planned, document.Addressed contextId := by
  unfold planTasks at made
  dsimp only at made
  obtain ⟨⟨rootIds, reserved⟩, rooted, rest⟩ := bind_ok.mp made
  have roots := allocateRoots_made rooted
  have permuted := mergeSort_perm tasks fun one two =>
    decide (unicode.casefold one.relativePath ≤ unicode.casefold two.relativePath)
  obtain ⟨nodup, sources, own, addressed⟩ := planTaskDocuments_made rest roots.used roots.nodup
    ((permuted.map LegacyDocument.relativePath).nodup_iff.mpr apart)
  refine ⟨nodup, ?_, ?_, addressed⟩
  · rw [sources]
    exact permuted
  · intro document member old
    rcases own document member with root | new
    · exact roots.fresh _ (mem_rootIds root) old
    · exact new (roots.kept old)

/-! The preview. -/

theorem planProvenance_made
    (made : planProvenance unicode time documents allocator = .ok (planned, later)) :
    planned.map (fun document => (document.source, document.targetId, document.targetUri)) =
        documents.map (fun document => (document.source, document.targetId, document.targetUri)) ∧
      ∀ document ∈ planned, needsProvenance document.source = true → document.provenanceEvidenceId.isSome = true := by
  induction documents generalizing allocator later planned with
  | nil =>
    cases made
    exact ⟨rfl, by simp⟩
  | cons document rest ih =>
    rw [planProvenance] at made
    split at made
    · obtain ⟨⟨evidenceId, reserved⟩, _, more⟩ := bind_ok.mp made
      obtain ⟨⟨others, last⟩, below, done⟩ := bind_ok.mp more
      cases done
      obtain ⟨same, provided⟩ := ih below
      refine ⟨by rw [map_cons, map_cons, same], ?_⟩
      exact forall_mem_cons.mpr ⟨fun _ => rfl, provided⟩
    · next unneeded =>
      obtain ⟨⟨others, last⟩, below, done⟩ := bind_ok.mp made
      cases done
      obtain ⟨same, provided⟩ := ih below
      refine ⟨by rw [map_cons, map_cons, same], ?_⟩
      exact forall_mem_cons.mpr ⟨fun needed => absurd needed unneeded, provided⟩

/-- Documents that differ in their provenance alone have URIs that are as different. -/
theorem apart_congr {others : List PlannedDocument}
    (same : documents.map (fun document => (document.source, document.targetId, document.targetUri)) =
      others.map fun document => (document.source, document.targetId, document.targetUri))
    (apart : others.Pairwise fun one two =>
      one.source.entityType ≠ "observation" → two.source.entityType ≠ "observation" → one.targetUri ≠ two.targetUri) :
    documents.Pairwise fun one two =>
      one.source.entityType ≠ "observation" → two.source.entityType ≠ "observation" → one.targetUri ≠ two.targetUri := by
  let Differ : LegacyDocument × String × String → LegacyDocument × String × String → Prop := fun one two =>
    one.1.entityType ≠ "observation" → two.1.entityType ≠ "observation" → one.2.2 ≠ two.2.2
  have mapped : (others.map fun document => (document.source, document.targetId, document.targetUri)).Pairwise Differ :=
    pairwise_map.mpr apart
  rw [← same] at mapped
  exact pairwise_map.mp mapped

structure MigrationPlan.Proper (plan : MigrationPlan) : Prop where
  /-- The documents that are no standalone observations have different URIs. -/
  apart : plan.documents.Pairwise fun one two =>
    one.source.entityType ≠ "observation" → two.source.entityType ≠ "observation" → one.targetUri ≠ two.targetUri
  provided : ∀ planned ∈ plan.documents, needsProvenance planned.source = true → planned.provenanceEvidenceId.isSome = true

theorem entityIds_sublist (documents : List PlannedDocument) :
    (entityIds documents).Sublist (documents.map PlannedDocument.targetId) := by
  induction documents with
  | nil => exact List.Sublist.slnil
  | cons document rest ih =>
    unfold entityIds at *
    rw [flatMap_cons, map_cons]
    split
    · exact ih.cons _
    · exact ih.cons_cons _

theorem apart_of_entityIds (distinct : (entityIds documents).Nodup)
    (addressed : ∀ document ∈ documents, document.Addressed contextId) :
    documents.Pairwise fun one two =>
      one.source.entityType ≠ "observation" → two.source.entityType ≠ "observation" → one.targetUri ≠ two.targetUri := by
  refine (nodup_flatMap.mp distinct).2.imp_of_mem ?_
  intro one two member also disjoint first second same
  rw [addressed one member, addressed two also] at same
  have ids : one.targetId = two.targetId := uriText_entityId same
  dsimp only [Function.onFun] at disjoint
  rw [if_neg first, if_neg second, ids] at disjoint
  exact disjoint mem_cons_self mem_cons_self

theorem buildMappingPreview_proper {analysis : InventoryAnalysis} {plan : MigrationPlan}
    (made : buildMappingPreview unicode analysis contextId time = .ok plan) : plan.Proper := by
  unfold buildMappingPreview at made
  dsimp only at made
  obtain ⟨⟨planned, allocator⟩, first, more⟩ := bind_ok.mp made
  obtain ⟨⟨tasks, reserved⟩, second, further⟩ := bind_ok.mp more
  obtain ⟨⟨documents, last⟩, third, done⟩ := bind_ok.mp further
  cases done
  obtain ⟨grown, _, addressed⟩ := planDocuments_made first
  have paths : ((analysis.safeDocuments.filter fun document => document.entityType == "task").map LegacyDocument.relativePath).Nodup :=
    analysis.apart.sublist ((filter_sublist.trans filter_sublist).map _)
  obtain ⟨nodup, sources, fresh, uris⟩ := planTasks_made second paths
  obtain ⟨same, provided⟩ := planProvenance_made third
  have distinct : (entityIds (planned ++ tasks)).Nodup := by
    unfold entityIds
    rw [flatMap_append, nodup_append]
    refine ⟨grown.nodup, nodup.sublist (entityIds_sublist tasks), ?_⟩
    intro one member other also equal
    obtain ⟨task, inside, rfl⟩ := mem_map.mp ((entityIds_sublist tasks).subset also)
    exact fresh task inside (equal ▸ grown.used one member)
  have apart := apart_of_entityIds distinct (forall_mem_append.mpr ⟨addressed, uris⟩)
  have permuted := mergeSort_perm (planned ++ tasks) fun one two =>
    decide (unicode.casefold one.source.relativePath ≤ unicode.casefold two.source.relativePath)
  have sorted := (permuted.pairwise_iff fun differ first second equal => differ second first equal.symm).mpr apart
  refine ⟨?_, provided⟩
  exact apart_congr same sorted

end
end Workctx.Migration
