import Mathlib.Data.List.Pairwise
import Workctx.Ledger.Verify
import Workctx.Migration.Identities
import Workctx.Migration.Normalize

/-! When the claims that are generated from mutable fields contradict each other, or the claims of the legacy context. -/

namespace Workctx.Migration
open Workctx.Concurrent Workctx.Domain Workctx.Topics Workctx.Validation List

/-! The claims of a migration. -/

def CreateOperation.claimed {document : Type} (operation : CreateOperation document) : Option (Claim × Option String) :=
  match operation.payload with
  | .claim claim _ field => some (claim, field)
  | _ => none

/-- The fields that claims are generated from: those with a value whose line is known. -/
def claimedFields (source : LegacyDocument) : List String :=
  if source.entityType = "claim" ∨ source.entityType = "observation" then []
  else mutableFieldOrder.filter fun field => (source.frontmatter.get field).isSome && (source.frontmatterSpans.get field).isSome

def Twinned (source : LegacyDocument) : Prop :=
  ∃ one ∈ claimedFields source, ∃ two ∈ claimedFields source, one ≠ two ∧ predicateOf one = predicateOf two

section
variable (standard : Standard) (plan : MigrationPlan) (time : MigrationTime)

/-- A legacy claim says now what this field of a document says. -/
structure Rival (planned : PlannedDocument) (field : String) (rival : PlannedDocument) : Prop where
  claim : rival.source.entityType = "claim"
  current : claimStatusOf standard (rival.source.frontmatter.get "status") = .current
  subject : mapReference standard plan ((rival.source.frontmatter.get "subject").getD .null) rival.source = .ok planned.targetUri
  predicate : ((rival.source.frontmatter.get "predicate").bind Yaml.text).map (fun text => String.ofList (strip text.toList)) =
    some (predicateOf field)
  /-- It starts before it ends, and ends after the document was updated. -/
  meets : ∃ timestamps validFrom validTo, timestampsOf standard time planned.source = .ok timestamps ∧
    optionalTimestamp standard (rival.source.frontmatter.get "valid_from") = .ok validFrom ∧
    optionalTimestamp standard (rival.source.frontmatter.get "valid_to") = .ok validTo ∧
    (∀ start ∈ validFrom, ∀ finish ∈ validTo, start < finish) ∧ ∀ finish ∈ validTo, timestamps.updatedAt < finish

def Rivalled (planned : PlannedDocument) : Prop :=
  ∃ field ∈ claimedFields planned.source, ∃ rival ∈ plan.documents, Rival standard plan time planned field rival

/-! What is generated. -/

structure MadeOf (planned : PlannedDocument) (claim : Claim) (field : String) : Prop where
  subject : claim.subject = planned.targetUri
  predicate : claim.predicate = predicateOf field
  status : claim.status = .current
  validFrom : ∃ timestamps, timestampsOf standard time planned.source = .ok timestamps ∧
    claim.validFrom = some (inUtcTime timestamps.updatedAt)
  validTo : claim.validTo = none

structure Restated (planned : PlannedDocument) (claim : Claim) : Prop where
  subject : mapReference standard plan ((planned.source.frontmatter.get "subject").getD .null) planned.source = .ok claim.subject
  predicate : ((planned.source.frontmatter.get "predicate").bind Yaml.text).map (fun text => String.ofList (strip text.toList)) =
    some claim.predicate
  status : claim.status = claimStatusOf standard (planned.source.frontmatter.get "status")
  interval : ∃ validFrom validTo, optionalTimestamp standard (planned.source.frontmatter.get "valid_from") = .ok validFrom ∧
    optionalTimestamp standard (planned.source.frontmatter.get "valid_to") = .ok validTo ∧
    claim.validFrom = validFrom.map inUtcTime ∧ claim.validTo = validTo.map inUtcTime

def ClaimsOf (planned : PlannedDocument) (claims : List (Claim × Option String)) : Prop :=
  (planned.source.entityType = "claim" ∧ ∃ claim, claims = [(claim, none)] ∧ Restated standard plan planned claim) ∨
    planned.source.entityType ≠ "claim" ∧
      List.Forall₂ (fun entry field => entry.2 = some field ∧ MadeOf standard time planned entry.1 field) claims (claimedFields planned.source)

end

/-! Lists side by side. -/

theorem exists_of_forall₂ {α β : Type} {related : α → β → Prop} {items : List α} {others : List β}
    (beside : List.Forall₂ related items others) {item : α} (member : item ∈ items) : ∃ other ∈ others, related item other := by
  induction beside with
  | nil => exact absurd member (by simp)
  | cons first _ ih =>
    rcases mem_cons.mp member with rfl | later
    · exact ⟨_, mem_cons_self, first⟩
    · obtain ⟨other, inside, found⟩ := ih later
      exact ⟨other, mem_cons_of_mem _ inside, found⟩

theorem pairwise_of_forall₂ {α β : Type} {related : α → β → Prop} {apart : β → β → Prop} {differ : α → α → Prop}
    {items : List α} {others : List β} (beside : List.Forall₂ related items others) (pairwise : others.Pairwise apart)
    (each : ∀ one two first second, related one first → related two second → apart first second → differ one two) :
    items.Pairwise differ := by
  induction beside with
  | nil => exact .nil
  | cons first rest ih =>
    rw [pairwise_cons] at pairwise ⊢
    refine ⟨?_, ih pairwise.2⟩
    intro item member
    obtain ⟨other, inside, found⟩ := exists_of_forall₂ rest member
    exact each _ _ _ _ first found (pairwise.1 other inside)

/-! Fields and their observations. -/

theorem fieldOf_statementOf (field : String) : fieldOf (statementOf field) = field := by
  have front : statementPrefix.isPrefixOf (statementPrefix ++ field.toList ++ statementSuffix) = true := by
    rw [List.isPrefixOf_iff_prefix, append_assoc]
    exact prefix_append _ _
  have back : statementSuffix.isSuffixOf (field.toList ++ statementSuffix) = true := by
    rw [isSuffixOf_iff_suffix]
    exact suffix_append _ _
  unfold fieldOf statementOf
  dsimp only
  rw [String.toList_ofList, if_pos front, append_assoc, drop_left, if_pos back, length_append,
    Nat.add_sub_cancel, take_left, String.ofList_toList]

variable {standard : Standard} {plan : MigrationPlan} {time : MigrationTime} {document : Type}

variable {source : LegacyDocument} {fields : List String} {observations : List MigratedObservation} {timestamps : Timestamps}
  {allocator : ClaimAllocator} {operations : List (CreateOperation document)} {generated : Claim}

theorem observeFields_made {evidenceId reference : String} {observedAt : Int} {count : Nat}
    (made : observeFields source evidenceId reference observedAt count fields = .ok observations) :
    observations.map (fun observation => fieldOf observation.statement) =
      fields.filter fun field => (source.frontmatterSpans.get field).isSome := by
  induction fields generalizing count observations with
  | nil =>
    cases made
    rfl
  | cons field rest ih =>
    rw [observeFields] at made
    cases spanned : source.frontmatterSpans.get field with
    | none =>
      rw [spanned] at made
      rw [filter_cons_of_neg (by simp [spanned])]
      exact ih made
    | some span =>
      rw [spanned] at made
      dsimp only at made
      split at made
      · exact absurd made (by simp)
      · obtain ⟨others, below, done⟩ := bind_ok.mp made
        cases done
        rw [filter_cons_of_pos (by simp [spanned]), map_cons, ih below, fieldOf_statementOf]

theorem mutableValues_made {values : List (String × String × Json.Value)}
    (made : mutableValues standard plan source fields = .ok values) :
    values.map (fun value => (value.1, value.2.1)) =
      (fields.filter fun field => (source.frontmatter.get field).isSome).map fun field => (field, predicateOf field) := by
  induction fields generalizing values with
  | nil =>
    cases made
    rfl
  | cons field rest ih =>
    rw [mutableValues] at made
    cases authored : source.frontmatter.get field with
    | none =>
      rw [authored] at made
      rw [filter_cons_of_neg (by simp [authored])]
      exact ih made
    | some value =>
      rw [authored] at made
      obtain ⟨converted, _, more⟩ := bind_ok.mp made
      obtain ⟨others, below, done⟩ := bind_ok.mp more
      cases done
      rw [filter_cons_of_pos (by simp [authored]), map_cons, map_cons, ih below]

variable {claim : Claim} {planned : PlannedDocument} {documents : Documents document}

theorem validated_made {valid : Claim}
    (made : validated source (claim.modelValidate standard.library) = .ok valid) :
    ∃ canonical, valid = { claim with sourceObservations := canonical } := by
  unfold validated at made
  cases accepted : claim.modelValidate standard.library with
  | error message => simp [accepted, Except.mapError] at made
  | ok same =>
    rw [accepted] at made
    cases made
    exact Claim.modelValidate_made _ accepted

theorem generateMutableClaims_made
    {values : List (String × String × Json.Value)} {later : ClaimAllocator}
    (dated : timestampsOf standard time planned.source = .ok timestamps)
    (predicates : ∀ value ∈ values, value.2.1 = predicateOf value.1)
    (made : generateMutableClaims standard plan time planned observations timestamps.updatedAt values allocator = .ok (operations, later)) :
    List.Forall₂ (fun entry field => entry.2 = some field ∧ MadeOf standard time planned entry.1 field)
      (operations.filterMap CreateOperation.claimed)
      ((values.map Prod.fst).filter fun field => (observations.map fun observation => fieldOf observation.statement).contains field) := by
  induction values generalizing allocator operations later with
  | nil =>
    cases made
    exact .nil
  | cons value rest ih =>
    obtain ⟨field, predicate, object⟩ := value
    rw [forall_mem_cons] at predicates
    rw [generateMutableClaims] at made
    cases found : observations.reverse.find? fun observation => fieldOf observation.statement == field with
    | none =>
      rw [found] at made
      have absent : (observations.map fun observation => fieldOf observation.statement).contains field = false := by
        rw [find?_eq_none] at found
        simp only [mem_reverse, beq_iff_eq] at found
        simpa using found
      rw [map_cons, filter_cons_of_neg (by simpa using absent)]
      exact ih predicates.2 made
    | some observation =>
      rw [found] at made
      obtain ⟨⟨id, reserved⟩, _, claiming⟩ := bind_ok.mp made
      obtain ⟨claim, valid, more⟩ := bind_ok.mp claiming
      obtain ⟨⟨others, last⟩, below, done⟩ := bind_ok.mp more
      cases done
      have present : (observations.map fun observation => fieldOf observation.statement).contains field = true := by
        rw [contains_iff_mem, mem_map]
        exact ⟨observation, mem_reverse.mp (mem_of_find?_eq_some found), by simpa using find?_some found⟩
      rw [map_cons, filter_cons_of_pos present]
      obtain ⟨canonical, rfl⟩ := validated_made valid
      refine .cons ⟨rfl, ⟨rfl, predicates.1, rfl, ⟨timestamps, dated, rfl⟩, rfl⟩⟩ (ih predicates.2 below)

theorem normalizeLegacyClaim_made {operation : CreateOperation document}
    (made : normalizeLegacyClaim standard plan documents planned observations timestamps = .ok operation) :
    ∃ claim, operation.claimed = some (claim, none) ∧ Restated standard plan planned claim := by
  unfold normalizeLegacyClaim at made
  dsimp only at made
  split at made
  · exact absurd made (by simp)
  · obtain ⟨subject, mapped, made⟩ := bind_ok.mp made
    split at made
    · exact absurd made (by simp)
    · split at made
      · exact absurd made (by simp)
      · next predicate named =>
        obtain ⟨object, _, made⟩ := bind_ok.mp made
        obtain ⟨validFrom, start, made⟩ := bind_ok.mp made
        obtain ⟨validTo, finish, made⟩ := bind_ok.mp made
        obtain ⟨claim, valid, made⟩ := bind_ok.mp made
        obtain ⟨body, _, made⟩ := bind_ok.mp made
        cases made
        obtain ⟨canonical, rfl⟩ := validated_made valid
        exact ⟨_, rfl, mapped, (Option.filter_eq_some_iff.mp named).1, rfl, validFrom, validTo, start, finish, rfl, rfl⟩

/-! Documents. -/

theorem provenanceObservations_made {observedAt : Int} {evidence : Option (CreateOperation document)}
    (made : provenanceObservations plan planned fields observedAt = .ok (observations, evidence)) :
    evidence.toList.filterMap CreateOperation.claimed = [] ∧
      (planned.source.entityType = "evidence" ∨ planned.provenanceEvidenceId.isSome = true →
        observations.map (fun observation => fieldOf observation.statement) =
          fields.filter fun field => (planned.source.frontmatterSpans.get field).isSome) ∧
      (¬(planned.source.entityType = "evidence" ∨ planned.provenanceEvidenceId.isSome = true) → observations = []) := by
  unfold provenanceObservations at made
  split at made
  · next absent =>
    cases made
    refine ⟨rfl, ?_, fun _ => rfl⟩
    intro provided
    split at absent
    · exact absurd absent (by simp)
    · next other =>
      rcases provided with own | given
      · exact absurd own (by simpa using other)
      · rw [absent] at given
        exact absurd given (by simp)
  · next evidenceId chosen =>
    obtain ⟨artifact, _, observing⟩ := bind_ok.mp made
    obtain ⟨found, observed, done⟩ := bind_ok.mp observing
    have same := observeFields_made observed
    have provided : planned.source.entityType = "evidence" ∨ planned.provenanceEvidenceId.isSome = true := by
      split at chosen
      · next own => exact .inl (by simpa using own)
      · exact .inr (by rw [chosen]; rfl)
    split at done
    · cases done
      exact ⟨rfl, fun _ => same, fun none => absurd provided none⟩
    · cases done
      exact ⟨rfl, fun _ => same, fun none => absurd provided none⟩

theorem observedFields_of_not_needsProvenance (own : source.entityType ≠ "evidence")
    (notObservation : source.entityType ≠ "observation") (notClaim : source.entityType ≠ "claim")
    (unneeded : needsProvenance source = false) : observedFields source = [] := by
  unfold observedFields
  rw [if_neg (by simpa using notClaim), filter_eq_nil_iff]
  intro field member
  have mutableField : field ∈ mutableKeys := by
    have inside : mutableFieldOrder ⊆ mutableKeys := by decide
    exact inside member
  unfold needsProvenance at unneeded
  simp only [contains_cons, contains_nil, Bool.or_false, Bool.and_eq_false_iff, Bool.not_eq_false', Bool.or_eq_true,
    beq_iff_eq, Bool.or_eq_false_iff, any_eq_false] at unneeded
  rcases unneeded with named | ⟨_, none⟩
  · rcases named with evidence | observation
    · exact absurd evidence own
    · exact absurd observation notObservation
  · exact none field mutableField

theorem normalizeDocument_made {later : ClaimAllocator}
    (provided : needsProvenance planned.source = true → planned.provenanceEvidenceId.isSome = true)
    (made : normalizeDocument standard plan documents time planned allocator = .ok (operations, later)) :
    ClaimsOf standard plan time planned (operations.filterMap CreateOperation.claimed) := by
  unfold normalizeDocument at made
  split at made
  · next observation =>
    obtain ⟨content, _, done⟩ := bind_ok.mp made
    cases done
    rw [beq_iff_eq] at observation
    refine .inr ⟨by rw [observation]; decide, ?_⟩
    unfold claimedFields
    rw [if_pos (.inr observation)]
    exact .nil
  · next notObservation =>
    rw [beq_iff_eq] at notObservation
    obtain ⟨timestamps, dated, made⟩ := bind_ok.mp made
    obtain ⟨⟨observations, evidence⟩, observed, made⟩ := bind_ok.mp made
    obtain ⟨silent, recorded, unrecorded⟩ := provenanceObservations_made observed
    dsimp only at made
    split at made
    · next isClaim =>
      obtain ⟨operation, claimed, done⟩ := bind_ok.mp made
      cases done
      obtain ⟨claim, named, restated⟩ := normalizeLegacyClaim_made claimed
      refine .inl ⟨by simpa using isClaim, claim, ?_, restated⟩
      rw [filterMap_append, silent, filterMap_cons_some named]
      rfl
    · next notClaim =>
      rw [beq_iff_eq] at notClaim
      obtain ⟨content, _, made⟩ := bind_ok.mp made
      obtain ⟨values, valued, made⟩ := bind_ok.mp made
      obtain ⟨⟨claims, last⟩, generated, done⟩ := bind_ok.mp made
      cases done
      have pairs := mutableValues_made valued
      have names : values.map Prod.fst = observedFields planned.source := by
        have firsts := congrArg (List.map Prod.fst) pairs
        rw [map_map, map_map] at firsts
        unfold observedFields
        rw [if_neg (by simpa using notClaim)]
        simpa [Function.comp_def] using firsts
      have predicates : ∀ value ∈ values, value.2.1 = predicateOf value.1 := by
        intro value member
        have inside : (value.1, value.2.1) ∈ values.map fun value => (value.1, value.2.1) := mem_map.mpr ⟨value, member, rfl⟩
        rw [pairs] at inside
        obtain ⟨field, _, same⟩ := mem_map.mp inside
        obtain ⟨first, second⟩ := Prod.mk.inj same
        rw [← first, ← second]
      have claimed := generateMutableClaims_made dated predicates generated
      refine .inr ⟨notClaim, ?_⟩
      rw [filterMap_append, silent, nil_append, filterMap_cons_none rfl]
      rw [names] at claimed
      have fields : (observedFields planned.source).filter (fun field =>
          (observations.map fun observation => fieldOf observation.statement).contains field) = claimedFields planned.source := by
        by_cases has : planned.source.entityType = "evidence" ∨ planned.provenanceEvidenceId.isSome = true
        · rw [recorded has]
          unfold observedFields claimedFields
          rw [if_neg (by simpa using notClaim), if_neg (by simp [notClaim, notObservation]), filter_filter]
          refine filter_congr fun field inside => ?_
          by_cases present : (planned.source.frontmatter.get field).isSome = true
          · by_cases spanned : (planned.source.frontmatterSpans.get field).isSome = true
            · simp [present, spanned, inside]
            · simp [present, spanned]
          · simp [present]
        · rw [unrecorded has]
          rw [not_or] at has
          have empty := observedFields_of_not_needsProvenance has.1 notObservation notClaim
            (Bool.not_eq_true _ ▸ fun needed => has.2 (provided needed))
          unfold claimedFields
          rw [if_neg (by simp [notClaim, notObservation]), empty]
          unfold observedFields at empty
          rw [if_neg (by simpa using notClaim), filter_eq_nil_iff] at empty
          symm
          rw [filter_nil, filter_eq_nil_iff]
          intro field member
          rw [Bool.and_eq_true, not_and_or]
          exact .inl (empty field member)
      rwa [fields] at claimed

theorem normalizeDocuments_made {planned : List PlannedDocument}
    (provided : ∀ one ∈ planned, needsProvenance one.source = true → one.provenanceEvidenceId.isSome = true)
    (made : normalizeDocuments standard plan documents time planned allocator = .ok operations) :
    ∃ parts, List.Forall₂ (ClaimsOf standard plan time) planned parts ∧ operations.filterMap CreateOperation.claimed = parts.flatten := by
  induction planned generalizing allocator operations with
  | nil =>
    cases made
    exact ⟨[], .nil, rfl⟩
  | cons one rest ih =>
    rw [forall_mem_cons] at provided
    rw [normalizeDocuments] at made
    obtain ⟨⟨own, later⟩, first, more⟩ := bind_ok.mp made
    obtain ⟨others, below, done⟩ := bind_ok.mp more
    cases done
    obtain ⟨parts, each, same⟩ := ih provided.2 below
    refine ⟨_ :: parts, .cons (normalizeDocument_made provided.1 first) each, ?_⟩
    rw [filterMap_append, same, flatten_cons]

theorem normalizeMigration_made
    (provided : ∀ planned ∈ plan.documents, needsProvenance planned.source = true → planned.provenanceEvidenceId.isSome = true)
    (made : normalizeMigration standard plan documents time = .ok operations) :
    ∃ sorted parts, List.Perm sorted plan.documents ∧ List.Forall₂ (ClaimsOf standard plan time) sorted parts ∧
      (operations.filterMap CreateOperation.claimed).Perm parts.flatten := by
  unfold normalizeMigration at made
  dsimp only at made
  obtain ⟨normalized, each, done⟩ := bind_ok.mp made
  have permuted := mergeSort_perm plan.documents (comesBefore standard)
  obtain ⟨parts, claims, same⟩ := normalizeDocuments_made (fun planned member => provided planned (permuted.mem_iff.mp member)) each
  split at done
  · cases done
    refine ⟨_, parts, permuted, claims, ?_⟩
    rw [← same]
    exact (mergeSort_perm _ _).filterMap _
  · exact absurd done (by simp)

/-! Times. -/

theorem parseTimestamp_inCalendar {value : Yaml} {instant : Int} (parsed : parseTimestamp standard value = .ok (some instant)) :
    earliest ≤ instant ∧ instant < latest := by
  have converted : ∀ {datetime : Datetime} {moment : Int}, inUtc datetime = .ok moment → earliest ≤ moment ∧ moment < latest := by
    intro datetime moment done
    unfold inUtc at done
    split at done
    · next ranged =>
      have same := Except.ok.inj done
      unfold inRange at ranged
      rw [Bool.and_eq_true, decide_eq_true_iff, decide_eq_true_iff] at ranged
      unfold earliest latest at *
      omega
    · exact absurd done (by simp)
  have single : ∀ {datetime : Datetime}, (do
      let moment ← inUtc datetime
      .ok (some moment)) = (.ok (some instant) : Except NormalizeError (Option Int)) → earliest ≤ instant ∧ instant < latest := by
    intro datetime done
    obtain ⟨moment, first, same⟩ := bind_ok.mp done
    obtain rfl := Option.some.inj (Except.ok.inj same)
    exact converted first
  unfold parseTimestamp at parsed
  split at parsed
  · exact single parsed
  · exact single parsed
  · dsimp only at parsed
    split at parsed
    · exact absurd parsed (by simp)
    · split at parsed
      · exact absurd parsed (by simp)
      · exact single parsed
  · exact absurd parsed (by simp)

theorem optionalTimestamp_inCalendar {value : Option Yaml} {instant : Int}
    (parsed : optionalTimestamp standard value = .ok (some instant)) : earliest ≤ instant ∧ instant < latest := by
  unfold optionalTimestamp at parsed
  split at parsed
  · exact absurd parsed (by simp)
  · exact absurd parsed (by simp)
  · exact absurd parsed (by simp)
  · exact parseTimestamp_inCalendar parsed

theorem timestampsOf_inCalendar
    (made : timestampsOf standard time source = .ok timestamps) : earliest ≤ timestamps.updatedAt ∧ timestamps.updatedAt < latest := by
  have chosen : ∀ {value : Yaml} {parsed : Option Int} {default : Int}, parseTimestamp standard value = .ok parsed →
      earliest ≤ default ∧ default < latest → earliest ≤ parsed.getD default ∧ parsed.getD default < latest := by
    intro value parsed default done inside
    cases parsed with
    | none => exact inside
    | some instant => exact parseTimestamp_inCalendar done
  unfold timestampsOf at made
  obtain ⟨created, first, more⟩ := bind_ok.mp made
  obtain ⟨updated, second, done⟩ := bind_ok.mp more
  cases done
  exact chosen second (chosen first time.inCalendar)

/-! Overlaps. -/

theorem MadeOf.times {field : String} (made : MadeOf standard time planned generated field) :
    ∃ timestamps, timestampsOf standard time planned.source = .ok timestamps ∧ claimStart generated = timestamps.updatedAt ∧
      claimEnd generated = latest ∧ invalidInterval generated = false := by
  obtain ⟨timestamps, dated, start⟩ := made.validFrom
  refine ⟨timestamps, dated, ?_, ?_, ?_⟩
  · unfold claimStart
    rw [start]
    rfl
  · unfold claimEnd
    rw [made.validTo]
    rfl
  · unfold invalidInterval
    rw [start, made.validTo]

theorem interval_of_instants {validFrom validTo : Option Int} (start : claim.validFrom = validFrom.map inUtcTime)
    (finish : claim.validTo = validTo.map inUtcTime) :
    claimStart claim = validFrom.getD earliest ∧ claimEnd claim = validTo.getD latest ∧
      (invalidInterval claim = false ↔ ∀ start ∈ validFrom, ∀ finish ∈ validTo, start < finish) := by
  unfold claimStart claimEnd invalidInterval
  rw [start, finish]
  refine ⟨?_, ?_, ?_⟩
  · cases validFrom <;> rfl
  · cases validTo <;> rfl
  · cases validFrom with
    | none => simp
    | some first =>
      cases validTo with
      | none => simp
      | some last => simp [inUtcTime]

theorem rival_of_overlap {rival : PlannedDocument} {field : String}
    (isClaim : rival.source.entityType = "claim") (made : MadeOf standard time planned generated field)
    (restated : Restated standard plan rival claim) (overlap : Overlap generated claim) : Rival standard plan time planned field rival := by
  obtain ⟨validFrom, validTo, start, finish, claimFrom, claimTo⟩ := restated.interval
  obtain ⟨timestamps, dated, starts, _, _⟩ := made.times
  obtain ⟨_, ends, proper⟩ := interval_of_instants claimFrom claimTo
  refine ⟨isClaim, ?_, ?_, ?_, timestamps, validFrom, validTo, dated, start, finish, proper.mp overlap.twoInterval, ?_⟩
  · rw [← restated.status, overlap.twoCurrent]
  · rw [restated.subject, ← overlap.subject, made.subject]
  · rw [restated.predicate, ← overlap.predicate, made.predicate]
  · intro last given
    have before := overlap.meets.1
    rw [starts, ends, given] at before
    exact before

theorem overlap_of_rival {rival : PlannedDocument} {field : String}
    (made : MadeOf standard time planned generated field) (restated : Restated standard plan rival claim)
    (against : Rival standard plan time planned field rival) : Overlap generated claim := by
  obtain ⟨validFrom, validTo, start, finish, claimFrom, claimTo⟩ := restated.interval
  obtain ⟨timestamps, dated, starts, lasts, whole⟩ := made.times
  obtain ⟨begins, ends, proper⟩ := interval_of_instants claimFrom claimTo
  obtain ⟨theirs, otherFrom, otherTo, also, otherStart, otherFinish, valid, later⟩ := against.meets
  obtain rfl := Except.ok.inj (dated.symm.trans also)
  obtain rfl := Except.ok.inj (start.symm.trans otherStart)
  obtain rfl := Except.ok.inj (finish.symm.trans otherFinish)
  refine ⟨made.status, ?_, ?_, ?_, whole, proper.mpr valid, ?_, ?_⟩
  · rw [restated.status, against.current]
  · rw [made.subject]
    exact Except.ok.inj (against.subject.symm.trans restated.subject)
  · rw [made.predicate]
    exact Option.some.inj (against.predicate.symm.trans restated.predicate)
  · rw [starts, ends]
    cases validTo with
    | none => exact (timestampsOf_inCalendar dated).2
    | some last => exact later last rfl
  · rw [begins, lasts]
    cases validFrom with
    | none =>
      rw [Option.getD_none]
      decide
    | some first => exact (optionalTimestamp_inCalendar start).2

/-! Agreement. -/

/-- Claims of which at least one is generated do not contradict each other. -/
def Agree (one two : Claim × Option String) : Prop :=
  (one.2.isSome = true → two.2.isSome = true → one.1.status = .current → two.1.status = .current →
    ¬(one.1.subject = two.1.subject ∧ one.1.predicate = two.1.predicate)) ∧
  (one.2.isSome = true ∨ two.2.isSome = true → ¬Overlap one.1 two.1)

theorem Agree.symm {one two : Claim × Option String} (agree : Agree one two) : Agree two one :=
  ⟨fun second first current also same => agree.1 first second also current ⟨same.1.symm, same.2.symm⟩,
    fun either overlap => agree.2 either.symm overlap.symm⟩

instance : Std.Symm Agree := ⟨fun _ _ => Agree.symm⟩

theorem agree_within {claims : List (Claim × Option String)}
    (made : List.Forall₂ (fun entry field => entry.2 = some field ∧ MadeOf standard time planned entry.1 field) claims fields)
    (apart : fields.Pairwise fun one two => predicateOf one ≠ predicateOf two) : claims.Pairwise Agree := by
  refine pairwise_of_forall₂ made apart ?_
  intro one two field other first second differ
  have predicates : one.1.predicate ≠ two.1.predicate := by
    rw [first.2.predicate, second.2.predicate]
    exact differ
  exact ⟨fun _ _ _ _ same => predicates same.2, fun _ overlap => predicates overlap.predicate⟩

theorem agree_across {one two : PlannedDocument} {claims others : List (Claim × Option String)}
    (first : ClaimsOf standard plan time one claims) (second : ClaimsOf standard plan time two others)
    (apart : one.source.entityType ≠ "observation" → two.source.entityType ≠ "observation" → one.targetUri ≠ two.targetUri)
    (free : ¬Rivalled standard plan time one) (also : ¬Rivalled standard plan time two) (inside : one ∈ plan.documents)
    (within : two ∈ plan.documents) : ∀ entry ∈ claims, ∀ other ∈ others, Agree entry other := by
  have rivals : ∀ {planned rival : PlannedDocument} (entry other : Claim × Option String) {field : String},
      ¬Rivalled standard plan time planned → rival ∈ plan.documents → rival.source.entityType = "claim" →
      field ∈ claimedFields planned.source → MadeOf standard time planned entry.1 field → Restated standard plan rival other.1 →
      ¬Overlap entry.1 other.1 := by
    intro planned rival entry other field alone member isClaim claimed made restated overlap
    exact alone ⟨field, claimed, rival, member, rival_of_overlap isClaim made restated overlap⟩
  have entity : ∀ {source : LegacyDocument} {field : String}, field ∈ claimedFields source → source.entityType ≠ "observation" := by
    intro source field member observation
    unfold claimedFields at member
    rw [if_pos (.inr observation)] at member
    exact absurd member (by simp)
  intro entry member other member'
  rcases first with ⟨isClaim, claim, rfl, restated⟩ | ⟨_, made⟩ <;> rcases second with ⟨isClaim', claim', rfl, restated'⟩ | ⟨_, made'⟩
  · obtain rfl := mem_singleton.mp member
    obtain rfl := mem_singleton.mp member'
    exact ⟨fun generated => absurd generated (by simp), fun either => absurd either (by simp)⟩
  · obtain rfl := mem_singleton.mp member
    obtain ⟨field, claimed, _, named⟩ := exists_of_forall₂ made' member'
    exact ⟨fun generated => absurd generated (by simp), fun _ overlap =>
      rivals other (claim, none) also inside isClaim claimed named restated overlap.symm⟩
  · obtain rfl := mem_singleton.mp member'
    obtain ⟨field, claimed, _, named⟩ := exists_of_forall₂ made member
    exact ⟨fun _ generated => absurd generated (by simp), fun _ overlap =>
      rivals entry (claim', none) free within isClaim' claimed named restated' overlap⟩
  · obtain ⟨field, claimed, _, named⟩ := exists_of_forall₂ made member
    obtain ⟨field', claimed', _, named'⟩ := exists_of_forall₂ made' member'
    have subjects : entry.1.subject ≠ other.1.subject := by
      rw [named.subject, named'.subject]
      exact apart (entity claimed) (entity claimed')
    exact ⟨fun _ _ _ _ same => subjects same.1, fun _ overlap => subjects overlap.subject⟩

theorem predicates_apart (single : ¬Twinned source) :
    (claimedFields source).Pairwise fun one two => predicateOf one ≠ predicateOf two := by
  have distinct : (claimedFields source).Nodup := by
    unfold claimedFields
    split
    · exact nodup_nil
    · exact List.Nodup.filter _ (by decide)
  exact distinct.imp_of_mem fun first second differ same => single ⟨_, first, _, second, differ, same⟩

theorem mem_claims {sorted : List PlannedDocument} {parts : List (List (Claim × Option String))}
    (each : List.Forall₂ (ClaimsOf standard plan time) sorted parts) (member : planned ∈ sorted) :
    (planned.source.entityType = "claim" → ∃ claim, (claim, none) ∈ parts.flatten ∧ Restated standard plan planned claim) ∧
      ∀ field ∈ claimedFields planned.source, ∃ claim, (claim, some field) ∈ parts.flatten ∧ MadeOf standard time planned claim field := by
  obtain ⟨claims, inside, own⟩ := exists_of_forall₂ each member
  rcases own with ⟨isClaim, claim, rfl, restated⟩ | ⟨notClaim, made⟩
  · refine ⟨fun _ => ⟨claim, mem_flatten.mpr ⟨_, inside, mem_singleton_self _⟩, restated⟩, ?_⟩
    intro field claimed
    unfold claimedFields at claimed
    rw [if_pos (.inl isClaim)] at claimed
    exact absurd claimed (by simp)
  · refine ⟨fun isClaim => absurd isClaim notClaim, ?_⟩
    intro field claimed
    obtain ⟨⟨claim, name⟩, entry, rfl, generated⟩ := exists_of_forall₂ made.flip claimed
    exact ⟨claim, mem_flatten.mpr ⟨_, inside, entry⟩, generated⟩

theorem contradiction_of_twinned (proper : plan.Proper) (made : normalizeMigration standard plan documents time = .ok operations)
    (member : planned ∈ plan.documents) (twinned : Twinned planned.source) :
    ∃ one ∈ operations.filterMap CreateOperation.claimed, ∃ two ∈ operations.filterMap CreateOperation.claimed, one ≠ two ∧
      one.2.isSome = true ∧ two.2.isSome = true ∧ one.1.status = .current ∧ two.1.status = .current ∧
      one.1.subject = two.1.subject ∧ one.1.predicate = two.1.predicate := by
  obtain ⟨sorted, parts, permuted, each, claims⟩ := normalizeMigration_made proper.provided made
  obtain ⟨field, first, other, second, differ, same⟩ := twinned
  have generated := (mem_claims each (permuted.mem_iff.mpr member)).2
  obtain ⟨one, here, named⟩ := generated field first
  obtain ⟨two, there, named'⟩ := generated other second
  refine ⟨_, claims.mem_iff.mpr here, _, claims.mem_iff.mpr there, ?_, rfl, rfl, named.status, named'.status, ?_, ?_⟩
  · intro equal
    exact differ (Option.some.inj (Prod.mk.inj equal).2)
  · rw [named.subject, named'.subject]
  · rw [named.predicate, named'.predicate, same]

def lowerText (text : String) : String := String.ofList (text.toList.map Char.toLower)

theorem lowerText_slug (text : String) (slug : ∀ c ∈ text.toList, isSlugChar c = true) : lowerText text = text := by
  have same : text.toList.map Char.toLower = text.toList.map id := by
    refine map_congr_left fun c member => ?_
    have range := isSlugChar_range (slug c member)
    unfold Char.toLower
    rw [dif_neg, id]
    intro ⟨low, high⟩
    have least : 65 ≤ c.toNat := UInt32.le_iff_toNat_le.mp low
    have most : c.toNat ≤ 90 := UInt32.le_iff_toNat_le.mp high
    omega
  unfold lowerText
  rw [same, map_id, String.ofList_toList]

theorem plain_slug (text : String) (_ : ∀ c ∈ text.toList, isSlugChar c = true) : id text = text := rfl

def sampleFolding : UnicodeData where
  casefold := lowerText
  nfkd := id
  nonspacingMark := fun _ => false
  casefold_slug := lowerText_slug
  nfkd_slug := plain_slug
  mark_slug := fun _ _ => rfl

/-- The hash characters of an identifier are escaped in its URI. -/
def sampleUnquote : List Char → List Char
  | '%' :: '2' :: '3' :: rest => '#' :: sampleUnquote rest
  | c :: rest => c :: sampleUnquote rest
  | [] => []

def sampleUri (text : String) : Option WorkctxUri :=
  match text.toList.splitOn '/' with
  | [scheme, [], contextId, entityType, entityId] =>
    if scheme = "workctx:".toList then
      some ⟨String.ofList contextId, String.ofList entityType, String.ofList (sampleUnquote entityId)⟩
    else none
  | _ => none

def sampleStandard : Standard where
  library :=
    { unicode := sampleFolding
      platform := Ledger.samplePlatform
      parseUri := sampleUri
      formatUri := uriText
      utcDay := fun _ => "20260101" }
  fromIsoFormat := fun _ => none
  dateFromIsoFormat := fun _ => none
  utcText := fun _ => "2026-01-01T00:00:00Z"
  dateText := fun _ => "2026-01-01"
  urlPath := some

def sampleTime : MigrationTime := ⟨1767225600000000, 2026, "20260101", by decide⟩

def sampleSource : LegacyDocument where
  relativePath := "systems/billing.md"
  reportPath := "systems/billing.md"
  frontmatter := [("type", .string "system"), ("deadline", .string "2026-03-01"), ("due", .string "2026-04-01")]
  body := ""
  entityType := "system"
  oldId := none
  frontmatterSpans := [("type", (2, 2)), ("deadline", (3, 3)), ("due", (4, 4))]
  containsSecret := false
  unsafeContent := false

def sampleAnalysis : InventoryAnalysis where
  files := [⟨"systems/billing.md", "sha256:5f", true, some "system", false, false⟩]
  documents := [sampleSource]
  apart := by decide

def sampleDocuments : Documents Unit := ⟨fun _ _ _ => .ok (), fun _ _ _ => .ok (), fun _ => .ok (), fun body _ => .ok body⟩

instance (source : LegacyDocument) : Decidable (Twinned source) :=
  inferInstanceAs (Decidable (∃ one ∈ claimedFields source, ∃ two ∈ claimedFields source, one ≠ two ∧ predicateOf one = predicateOf two))

theorem sample_runs : ((buildMappingPreview sampleStandard.library.unicode sampleAnalysis "demo" sampleTime).toOption.any fun plan =>
    (normalizeMigration sampleStandard plan sampleDocuments sampleTime).toOption.isSome &&
      decide (∃ planned ∈ plan.documents, Twinned planned.source)) = true := by decide +kernel

theorem sample_made : ∃ plan, ∃ planned ∈ plan.documents, ∃ operations,
    buildMappingPreview sampleStandard.library.unicode sampleAnalysis "demo" sampleTime = .ok plan ∧
      normalizeMigration sampleStandard plan sampleDocuments sampleTime = .ok operations ∧ Twinned planned.source := by
  have runs := sample_runs
  cases mapped : buildMappingPreview sampleStandard.library.unicode sampleAnalysis "demo" sampleTime with
  | error _ => simp [mapped, Except.toOption] at runs
  | ok plan =>
    simp only [mapped, Except.toOption, Option.any_some, Bool.and_eq_true, decide_eq_true_eq] at runs
    obtain ⟨planned, member, twinned⟩ := runs.2
    cases normalized : normalizeMigration sampleStandard plan sampleDocuments sampleTime with
    | error _ => simp [normalized] at runs
    | ok operations => exact ⟨plan, planned, member, operations, rfl, normalized, twinned⟩

end Workctx.Migration
