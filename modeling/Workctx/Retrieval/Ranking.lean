import Workctx.Retrieval.Vocabulary
import Workctx.Search.Sorted
import Workctx.Validation.ClaimRules
import Mathlib.Data.Prod.Lex
import Mathlib.Algebra.Ring.Nat
import Mathlib.Data.List.Lex
import Mathlib.Data.String.Basic

/-! The ranking of retrieval candidates by the sum of weighted factors. -/

namespace Workctx.Retrieval
open Workctx.Domain Workctx.Search Workctx.Validation

/-- `unicodedata`, and the methods of strings and characters that rest on it. -/
structure Alphabet where
  nfc : String → String
  nfd : String → String
  casefold : String → String
  /-- A category that starts with `M` -/
  isMark : Char → Bool
  isAlnum : Char → Bool

inductive RankingError where
  | value (message : String)
  | overflow
deriving DecidableEq

/-! Scores. -/

def relationSemanticScore : RelationType → Nat
  | .evidencedBy => 100
  | .supports => 100
  | .contradicts => 100
  | .supersedes => 100
  | .derivedFrom => 95
  | .blocks => 95
  | .dependsOn => 95
  | .waitingOn => 95
  | .ownedBy => 90
  | .requestedBy => 85
  | .parentOf => 85
  | .implements => 80
  | .affects => 80
  | .authenticatesVia => 80
  | .operatedBy => 80
  | .produces => 75
  | .calls => 70
  | .publishesTo => 70
  | .consumesFrom => 70
  | .storesIn => 70
  | .mentions => 40
  | .relatedTo => 20

/-- `RECENCY_BUCKETS`: ages in days, with their scores. -/
def recencyBuckets : List (Int × Nat) := [(7, 100), (30, 80), (90, 60), (180, 40), (365, 20)]

def microsecondsPerDay : Int := 86400000000

def claimStateScore : ClaimStatus → Nat
  | .current => 100
  | .uncertain => 60
  | .superseded => 25
  | .retracted => 0

def nonClaimStateScore : Nat := 50

def confidenceScore : Confidence → Nat
  | .high => 100
  | .medium => 60
  | .low => 25

def directnessStep : Nat := 20

def taskPriorityImportanceScore : TaskPriority → Nat
  | .p0 => 100
  | .p1 => 80
  | .p2 => 60
  | .p3 => 40
  | .p4 => 20

def entityTypeImportanceScore : EntityType → Nat
  | .incident => 100
  | .risk => 90
  | .decision => 85
  | .question => 80
  | .project => 75
  | .task => 70
  | .investigation => 70
  | .system => 65
  | .service => 65
  | .flow => 65
  | .integration => 65
  | .person => 60
  | .team => 60
  | .evidence => 55
  | .claim => 55
  | .observation => 55
  | .module => 45
  | .artifact => 35
  | .draft => 20

def observationKindSourceQualityScore : ObservationKind → Nat
  | .fact => 100
  | .decision => 95
  | .commitment => 90
  | .task => 85
  | .blocker => 85
  | .dependency => 85
  | .risk => 75
  | .question => 65
  | .inference => 55
  | .assumption => 25

def locatorPrecisionScore : LocatorType → Nat
  | .wholeArtifact => 20
  | _ => 100

/-! Candidates. -/

/-- `RankingCandidate`, of whose locator the type alone is read. -/
structure RankingCandidate where
  key : String
  relation : Option RelationType
  timestamp : Option AwareDatetime
  claimStatus : Option ClaimStatus
  confidence : Option Confidence
  depth : Nat
  searchText : String
  entityType : Option EntityType
  taskPriority : Option TaskPriority
  observationKind : Option ObservationKind
  sourceLocator : Option LocatorType
  named : key ≠ ""
deriving DecidableEq

structure RankingFactors where
  relationSemantics : Nat
  recency : Nat
  claimState : Nat
  confidence : Nat
  directness : Nat
  queryMatch : Nat
  entityImportance : Nat
  sourceQuality : Nat
deriving DecidableEq

def RankingFactors.asTuple (factors : RankingFactors) : List Nat :=
  [factors.relationSemantics, factors.recency, factors.claimState, factors.confidence, factors.directness, factors.queryMatch,
    factors.entityImportance, factors.sourceQuality]

def rankingFactorWeights : List Nat := [20, 15, 15, 10, 15, 10, 5, 10]

structure RankedCandidate where
  candidate : RankingCandidate
  factors : RankingFactors
  totalScore : Nat
  referenceTime : Int
deriving DecidableEq

/-! Factors. -/

/-- `astimezone(UTC)` -/
def AwareDatetime.utc (time : AwareDatetime) : Except RankingError Int :=
  if earliest ≤ time.instant ∧ time.instant ≤ latest then .ok time.instant else .error .overflow

/-- A reference time that a caller supplies; one without an offset has no instant. -/
inductive ReferenceTime where
  | naive
  | aware (time : AwareDatetime)

def resolveReferenceTime (candidates : List RankingCandidate) : Option ReferenceTime → Except RankingError Int
  | some .naive => .error (.value "Ranking reference time must be timezone-aware")
  | some (.aware time) => AwareDatetime.utc time
  | none => do
    let times ← (candidates.filterMap RankingCandidate.timestamp).mapM AwareDatetime.utc
    .ok (times.max?.getD 0)

def recencyScore (timestamp : Option AwareDatetime) (referenceTime : Int) : Except RankingError Nat :=
  match timestamp with
  | none => .ok 0
  | some timestamp => do
    let instant ← AwareDatetime.utc timestamp
    let age := max (referenceTime - instant) 0
    .ok (((recencyBuckets.find? fun bucket => decide (age ≤ bucket.1 * microsecondsPerDay)).map Prod.snd).getD 0)

section
variable (alphabet : Alphabet)

/-- The loop of `_literal_tokens`, with the characters of the current token. -/
def splitTokens : List Char → List Char → List String
  | current, [] => if current.isEmpty then [] else [String.ofList current]
  | current, character :: rest =>
    if alphabet.isMark character then splitTokens current rest
    else if alphabet.isAlnum character then splitTokens (current ++ [character]) rest
    else (if current.isEmpty then [] else [String.ofList current]) ++ splitTokens [] rest

def literalTokens (value : String) : List String :=
  splitTokens alphabet [] (alphabet.nfd (alphabet.casefold (alphabet.nfc value))).toList

def literalQueryMatch (query : Option String) (searchText : String) : Nat :=
  let queryTokens := literalTokens alphabet (query.getD "")
  if queryTokens.isEmpty then 0
  else
    let candidateTokens := literalTokens alphabet searchText
    let matched := queryTokens.dedup.countP fun token => candidateTokens.contains token
    100 * matched / queryTokens.dedup.length

def entityImportance (candidate : RankingCandidate) : Nat :=
  match candidate.taskPriority with
  | some priority => taskPriorityImportanceScore priority
  | none => (candidate.entityType.map entityTypeImportanceScore).getD 0

def sourceQuality (candidate : RankingCandidate) : Nat :=
  let availableScores := (candidate.observationKind.map observationKindSourceQualityScore).toList ++
    (candidate.sourceLocator.map locatorPrecisionScore).toList
  if availableScores.isEmpty then 0 else availableScores.sum / availableScores.length

def rankingFactors (query : Option String) (candidate : RankingCandidate) (recency : Nat) : RankingFactors where
  relationSemantics := (candidate.relation.map relationSemanticScore).getD 0
  recency := recency
  claimState := (candidate.claimStatus.map claimStateScore).getD nonClaimStateScore
  confidence := (candidate.confidence.map confidenceScore).getD 0
  directness := 100 - candidate.depth * directnessStep
  queryMatch := literalQueryMatch alphabet query candidate.searchText
  entityImportance := entityImportance candidate
  sourceQuality := sourceQuality candidate

/-- `score_candidate`, which checks the factors and the total that it has computed. -/
def scoreCandidate (query : Option String) (referenceTime : Int) (candidate : RankingCandidate) : Except RankingError RankedCandidate := do
  let recency ← recencyScore candidate.timestamp referenceTime
  let factors := rankingFactors alphabet query candidate recency
  if factors.asTuple.any fun value => decide (100 < value) then .error (.value "Ranking factor values must be between 0 and 100")
  else
    let totalScore := (List.zipWith (· * ·) factors.asTuple rankingFactorWeights).sum
    if 10000 < totalScore then .error (.value "Ranking total must be between 0 and 10000")
    else .ok ⟨candidate, factors, totalScore, referenceTime⟩

/-! The order. -/

def sortKey (item : RankedCandidate) : List Int ×ₗ String :=
  toLex ((-(item.totalScore : Int)) :: item.factors.asTuple.map fun value => -(value : Int), item.candidate.key)

def rank (query : Option String) (referenceTime : Option ReferenceTime) (candidates : List RankingCandidate) :
    Except RankingError (List RankedCandidate) :=
  if ¬(candidates.map RankingCandidate.key).Nodup then .error (.value "Ranking candidate keys must be unique")
  else do
    let resolved ← resolveReferenceTime candidates referenceTime
    let scored ← candidates.mapM (scoreCandidate alphabet query resolved)
    .ok (sortedBy sortKey scored)

end
end Workctx.Retrieval
