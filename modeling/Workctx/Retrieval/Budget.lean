import Workctx.Retrieval.Items
import Workctx.Search.Trim

/-! The budget of a context pack: entries are ranked, and removed until the rest fits. -/

namespace Workctx.Retrieval
open Workctx.Domain Workctx.Search

inductive PackSectionName where
  | focalEntity
  | claimsAndStatusHistory
  | directRelationships
  | sourceObservations
  | relatedTasksAndDependencies
  | peopleAndInteractions
  | decisionsRisksAndQuestions
  | contradictoryOrSupersedingEvidence
  | architectureEntities
deriving DecidableEq

def PackSectionName.value : PackSectionName → String
  | .focalEntity => "focal_entity"
  | .claimsAndStatusHistory => "claims_and_status_history"
  | .directRelationships => "direct_relationships"
  | .sourceObservations => "source_observations"
  | .relatedTasksAndDependencies => "related_tasks_and_dependencies"
  | .peopleAndInteractions => "people_and_interactions"
  | .decisionsRisksAndQuestions => "decisions_risks_and_questions"
  | .contradictoryOrSupersedingEvidence => "contradictory_or_superseding_evidence"
  | .architectureEntities => "architecture_entities"

/-- `PackSectionName`, in the order of its members. -/
def sectionNames : List PackSectionName :=
  [.focalEntity, .claimsAndStatusHistory, .directRelationships, .sourceObservations, .relatedTasksAndDependencies,
    .peopleAndInteractions, .decisionsRisksAndQuestions, .contradictoryOrSupersedingEvidence, .architectureEntities]

/-! Ranking. -/

/-- The key that `_make_entry` gives an item of a section. -/
def entryKey (name : PackSectionName) (id : String) : String := name.value ++ "\x1f" ++ id

/-- `_Entry`; no entry is of the focal section, which has an item of its own. -/
structure Entry where
  name : PackSectionName
  item : PackItem
  ranking : RankingCandidate
  dropTier : Nat
  keyed : ranking.key = entryKey name item.id
  outside : name ≠ .focalEntity

structure RankedEntry where
  name : PackSectionName
  item : PackItem
  score : Nat
  rankOrder : Nat
  dropTier : Nat

/-- What identifies an entry among the costs and the omitted items. -/
def RankedEntry.label (entry : RankedEntry) : PackSectionName × String := (entry.name, entry.item.id)

def Entry.label (entry : Entry) : PackSectionName × String := (entry.name, entry.item.id)

/-- `score_by_key[key]` -/
def scoreOf (ranked : List RankedCandidate) (key : String) : Option (RankedCandidate × Nat) :=
  ranked.zipIdx.find? fun scored => decide (scored.1.candidate.key = key)

def rankedEntry (entry : Entry) (scored : RankedCandidate × Nat) : RankedEntry :=
  ⟨entry.name, { entry.item with rank := some (rankMetadata scored.1) }, scored.1.totalScore, scored.2, entry.dropTier⟩

def deduped (entries : List Entry) : List Entry := firstBy (fun entry => entry.ranking.key) entries

def rankAndGroup (alphabet : Alphabet) (query : Option String) (entries : List Entry) :
    Except RankingError (PackSectionName → List RankedEntry) := do
  let ranked ← rank alphabet query none ((deduped entries).map Entry.ranking)
  let scored := (deduped entries).filterMap fun entry => (scoreOf ranked entry.ranking.key).map (rankedEntry entry)
  .ok fun name => sortedBy RankedEntry.rankOrder (scored.filter fun entry => decide (entry.name = name))

/-! The report. -/

structure OmittedItem where
  name : PackSectionName
  itemId : String
  units : Int
  reason : String

def OmittedItem.label (omitted : OmittedItem) : PackSectionName × String := (omitted.name, omitted.itemId)

/-- `BudgetAndTruncation`, whose unit is always the same. -/
structure BudgetAndTruncation where
  requestedUnits : Int
  usedUnits : Int
  minimumUnits : Int
  truncated : Bool
  withinBudget : Bool
  overBudgetBy : Int
  omittedCount : Int
  omittedItems : List OmittedItem

/-- The fields of an `OmittedItem` -/
def OmittedItem.validate (omitted : OmittedItem) : Except String Unit := do
  constrain (omitted.itemId != "") "item_id"
  constrain (decide (0 ≤ omitted.units)) "units"
  constrain (omitted.reason != "") "reason"

/-- The fields of a `BudgetAndTruncation`, and `validate_consistency` -/
def BudgetAndTruncation.validate (budget : BudgetAndTruncation) : Except String Unit := do
  constrain (decide (0 ≤ budget.requestedUnits)) "requested_units"
  constrain (decide (0 ≤ budget.usedUnits)) "used_units"
  constrain (decide (0 ≤ budget.minimumUnits)) "minimum_units"
  constrain (decide (0 ≤ budget.overBudgetBy)) "over_budget_by"
  constrain (decide (0 ≤ budget.omittedCount)) "omitted_count"
  checkEach OmittedItem.validate budget.omittedItems
  check (decide (budget.minimumUnits ≤ budget.usedUnits)) "minimum_units cannot exceed used_units"
  check (budget.withinBudget == decide (budget.usedUnits ≤ budget.requestedUnits))
    "within_budget must reflect used_units and requested_units"
  check (decide (budget.overBudgetBy = max 0 (budget.usedUnits - budget.requestedUnits)))
    "over_budget_by must equal used_units minus requested_units"
  check (decide (budget.omittedCount = budget.omittedItems.length)) "omitted_count must equal the number of omitted_items"
  check (budget.truncated == decide (0 < budget.omittedCount)) "truncated must reflect whether any items were omitted"

structure PackSection where
  items : List PackItem
  omittedCount : Nat

structure ContextPackSections where
  sections : PackSectionName → PackSection
  budgetAndTruncation : BudgetAndTruncation

/-- `validate_section_counts` -/
def ContextPackSections.validate (pack : ContextPackSections) : Except String Unit := do
  check (decide ((pack.sections .focalEntity).items.length = 1)) "focal_entity must contain exactly one item"
  checkEach (fun name => check
    (decide ((pack.sections name).omittedCount = pack.budgetAndTruncation.omittedItems.countP fun omitted => decide (omitted.name = name)))
    (name.value ++ ".omitted_count must match omitted_items metadata")) sectionNames
  check (decide (((sectionNames.map fun name => (pack.sections name).omittedCount).sum : Int) = pack.budgetAndTruncation.omittedCount))
    "Section omitted counts must equal the total omitted_count"

/-! Removal. -/

/-- `costs[key] = units` -/
def setCost (costs : List ((PackSectionName × String) × Nat)) (entry : RankedEntry) : List ((PackSectionName × String) × Nat) :=
  let cost := (entry.label, estimatePackItemUnits entry.item)
  if costs.any fun other => decide (other.1 = entry.label) then
    costs.map fun other => if other.1 = entry.label then cost else other
  else costs ++ [cost]

/-- `costs[key]` -/
def costOf (costs : List ((PackSectionName × String) × Nat)) (entry : RankedEntry) : Nat :=
  ((costs.find? fun cost => decide (cost.1 = entry.label)).map Prod.snd).getD 0

/-- The state of the loop over the removal order. -/
structure Trimming where
  retained : PackSectionName → List RankedEntry
  usedUnits : Int
  omitted : List OmittedItem
  omittedBySection : PackSectionName → Nat

def dropEntry (cost : RankedEntry → Nat) (state : Trimming) (entry : RankedEntry) : Trimming where
  retained := Function.update state.retained entry.name
    ((state.retained entry.name).eraseP fun other => decide (other.rankOrder = entry.rankOrder))
  usedUnits := state.usedUnits - cost entry
  omitted := state.omitted ++ [⟨entry.name, entry.item.id, cost entry, "budget_priority"⟩]
  omittedBySection := Function.update state.omittedBySection entry.name (state.omittedBySection entry.name + 1)

def dropEntries (cost : RankedEntry → Nat) (requestedUnits : Int) : Trimming → List RankedEntry → Trimming
  | state, [] => state
  | state, entry :: rest =>
    if state.usedUnits ≤ requestedUnits then state else dropEntries cost requestedUnits (dropEntry cost state entry) rest

def allEntries (entries : PackSectionName → List RankedEntry) : List RankedEntry := sectionNames.flatMap entries

def removalKey (entry : RankedEntry) : Nat ×ₗ Int ×ₗ String :=
  toLex (entry.dropTier, toLex (-(entry.rankOrder : Int), entry.item.id))

def removalOrder (entries : PackSectionName → List RankedEntry) : List RankedEntry := sortedBy removalKey (allEntries entries)

def compactFocal (fullFocal minimalFocal : PackItem) (requestedUnits : Int) (state : Trimming) : PackItem × Trimming :=
  if requestedUnits < state.usedUnits && !fullFocal.same minimalFocal then
    let savedUnits : Int := estimatePackItemUnits fullFocal - estimatePackItemUnits minimalFocal
    (minimalFocal, { state with
      usedUnits := state.usedUnits - savedUnits
      omitted := state.omitted ++ [⟨.focalEntity, fullFocal.id, savedUnits, "focal_details_compacted"⟩]
      omittedBySection := Function.update state.omittedBySection .focalEntity (state.omittedBySection .focalEntity + 1) })
  else (fullFocal, state)

def reportOf (requestedUnits minimumUnits : Int) (state : Trimming) : BudgetAndTruncation where
  requestedUnits := requestedUnits
  usedUnits := state.usedUnits
  minimumUnits := minimumUnits
  truncated := !state.omitted.isEmpty
  withinBudget := decide (state.usedUnits ≤ requestedUnits)
  overBudgetBy := max 0 (state.usedUnits - requestedUnits)
  omittedCount := state.omitted.length
  omittedItems := state.omitted

def packOf (focal : PackItem) (state : Trimming) (budget : BudgetAndTruncation) : ContextPackSections where
  sections name :=
    if name = .focalEntity then ⟨[focal], state.omittedBySection .focalEntity⟩
    else ⟨(state.retained name).map RankedEntry.item, state.omittedBySection name⟩
  budgetAndTruncation := budget

def applyBudget (entries : PackSectionName → List RankedEntry) (fullFocal minimalFocal : PackItem) (requestedUnits : Int) :
    Except String ContextPackSections := do
  let costs := (allEntries entries).foldl setCost []
  let focalCost : Int := estimatePackItemUnits fullFocal
  let start : Trimming := ⟨entries, focalCost + (costs.map Prod.snd).sum, [], fun _ => 0⟩
  let trimmed := dropEntries (costOf costs) requestedUnits start (removalOrder entries)
  let compacted := compactFocal fullFocal minimalFocal requestedUnits trimmed
  let budget := reportOf requestedUnits (estimatePackItemUnits minimalFocal) compacted.2
  budget.validate
  let pack := packOf compacted.1 compacted.2 budget
  pack.validate
  .ok pack

end Workctx.Retrieval
