import Workctx.References.Models
import Workctx.Retrieval.Vocabulary
import Workctx.Search.Sorted
import Mathlib.Data.Prod.Lex
import Mathlib.Data.List.Lex
import Mathlib.Data.String.Basic

/-! The traversal of the typed relations of a projection, level by level. -/

namespace Workctx.Projection
open Workctx.References Workctx.Retrieval Workctx.Search
open Workctx.Domain (AwareDatetime)

/-! Edges. -/

/-- `EdgeRecord`, whose source is stored by its text. -/
structure EdgeRecord where
  sourceUri : WorkctxUri
  source : Text
  relation : RelationType
  target : Text
  confidence : Option Confidence
  sourceObservations : List String
  validFrom : Option AwareDatetime
  validTo : Option AwareDatetime
  note : Option String
  sourcePath : String
  ordinal : Nat
  topics : List String
  printed : sourceUri.str = .ok source

def confidenceValue : Confidence → String
  | .low => "low"
  | .medium => "medium"
  | .high => "high"

structure EdgeKey where
  source : Text
  relation : String
  target : Text
  confidence : Option String
  validFrom : Option AwareDatetime
  validTo : Option AwareDatetime
  note : Option String
  sourcePath : String
  ordinal : Nat
  sourceObservations : List String
deriving DecidableEq

/-- `_edge_key`; the ISO text of a time stands for the time. -/
def edgeKey (edge : EdgeRecord) : EdgeKey where
  source := edge.source
  relation := edge.relation.value
  target := edge.target
  confidence := edge.confidence.map confidenceValue
  validFrom := edge.validFrom
  validTo := edge.validTo
  note := edge.note
  sourcePath := edge.sourcePath
  ordinal := edge.ordinal
  sourceObservations := edge.sourceObservations

/-! Readers. -/

/-- The errors of the retrieval: those of values, and of references to other contexts. -/
inductive RetrievalError where
  | value (error : ReferenceError)
  /-- `ContextBoundaryError` of the projection -/
  | isolation (message : String)
  /-- `ContextBoundaryError` of the retrieval -/
  | boundary (message : String)
deriving DecidableEq

abbrev Relations := Option (List RelationType)

def Relations.allow (relations : Relations) (relation : RelationType) : Bool :=
  match relations with
  | none => true
  | some wanted => wanted.contains relation

/-- What the traversal asks of a `ProjectionReader`, over the records of its documents. -/
structure ProjectionReader (δ : Type) where
  contextId : Text
  getDocumentByUri : WorkctxUri → Except RetrievalError (Option δ)
  outboundEdges : WorkctxUri → Relations → Except RetrievalError (List EdgeRecord)
  inboundEdges : Text → Relations → Except RetrievalError (List EdgeRecord)

def atBoundary {α : Type} : Except RetrievalError α → Except RetrievalError α
  | .error (.isolation _) => .error (.boundary "Reference belongs to another context")
  | outcome => outcome

/-! Resolution. -/

inductive ResolvableReference where
  | text (value : Text)
  | reference (parsed : DurableReference)

inductive ResolutionStatus where
  | resolved
  | notFound
deriving DecidableEq

structure ResolutionResult (δ : Type) where
  status : ResolutionStatus
  descriptor : DurableReference
  record : Option δ

variable {δ : Type}

def ofValue {α : Type} (outcome : Except ReferenceError α) : Except RetrievalError α := outcome.mapError .value

def ResolutionResult.reference (resolution : ResolutionResult δ) : Except RetrievalError Text := ofValue resolution.descriptor.str

def parseReference (tables : Tables) : ResolvableReference → Except ReferenceError DurableReference
  | .text value => parseDurableReference tables value
  | .reference parsed => .ok parsed

def resolve (tables : Tables) (reader : ProjectionReader δ) (reference : ResolvableReference) : Except RetrievalError (ResolutionResult δ) := do
  let parsed ← ofValue (parseReference tables reference)
  match parsed with
  | .workctx uri => do
    ofValue (checkEntityType uri.entityType)
    if uri.contextId ≠ reader.contextId then .error (.boundary "Reference belongs to another context")
    else do
      let record ← atBoundary (reader.getDocumentByUri uri)
      .ok ⟨if record.isSome then .resolved else .notFound, parsed, record⟩
  | .artifact _ => .ok ⟨.resolved, parsed, none⟩
  | .repo _ => .ok ⟨.resolved, parsed, none⟩
  | .external _ => .error (.value (.value "Retrieval supports only workctx://, artifact://, and repo:// references"))

/-! Candidates. -/

inductive TraversalDirection where
  | outbound
  | inbound
  | both
deriving DecidableEq

inductive EdgeDirection where
  | outbound
  | inbound
deriving DecidableEq

def directionOrder : EdgeDirection → Nat
  | .outbound => 0
  | .inbound => 1

structure Candidate where
  direction : EdgeDirection
  edge : EdgeRecord
  neighbor : Text

/-- The code points of a text, in whose order strings are sorted. -/
def codes (text : Text) : List Nat := text.map fun point =>
  match point with
  | .scalar c => c.toNat
  | .surrogate unit => 0xD800 + unit.val

def candidateKey (candidate : Candidate) : Nat ×ₗ String ×ₗ List Nat ×ₗ List Nat ×ₗ Nat ×ₗ List Nat :=
  toLex (directionOrder candidate.direction, toLex (candidate.edge.relation.value, toLex (codes candidate.edge.source,
    toLex (codes candidate.edge.target, toLex (candidate.edge.ordinal, codes candidate.neighbor)))))

def outboundCandidate (edge : EdgeRecord) : Candidate := ⟨.outbound, edge, edge.target⟩

def inboundCandidate (edge : EdgeRecord) : Candidate := ⟨.inbound, edge, edge.source⟩

def outboundOf (reader : ProjectionReader δ) (direction : TraversalDirection) (relations : Relations) :
    DurableReference → Except RetrievalError (List EdgeRecord)
  | .workctx uri => if direction ≠ .inbound then atBoundary (reader.outboundEdges uri relations) else .ok []
  | _ => .ok []

def inboundOf (reader : ProjectionReader δ) (direction : TraversalDirection) (relations : Relations) (current : Text) :
    Except RetrievalError (List EdgeRecord) :=
  if direction ≠ .outbound then atBoundary (reader.inboundEdges current relations) else .ok []

def candidates (tables : Tables) (reader : ProjectionReader δ) (current : Text) (direction : TraversalDirection) (relations : Relations) :
    Except RetrievalError (List Candidate) := do
  let parsed ← ofValue (parseDurableReference tables current)
  let outbound ← outboundOf reader direction relations parsed
  let inbound ← inboundOf reader direction relations current
  .ok (sortedBy candidateKey (outbound.map outboundCandidate ++ inbound.map inboundCandidate))

/-! Traversal. -/

structure RelatedNode (δ : Type) where
  depth : Nat
  resolution : ResolutionResult δ

structure TraversedEdge where
  depth : Nat
  direction : EdgeDirection
  edge : EdgeRecord

structure RelatedResult (δ : Type) where
  focal : ResolutionResult δ
  maxDepth : Nat
  direction : TraversalDirection
  relations : Relations
  nodes : List (RelatedNode δ)
  edges : List TraversedEdge

structure Traversal (δ : Type) where
  visitedReferences : List Text
  visitedEdges : List EdgeKey
  traversedEdges : List TraversedEdge
  nodes : List (RelatedNode δ)
  nextFrontier : List Text

def Traversal.traverse (state : Traversal δ) (depth : Nat) (candidate : Candidate) : Traversal δ :=
  if edgeKey candidate.edge ∈ state.visitedEdges then state
  else { state with
    visitedEdges := edgeKey candidate.edge :: state.visitedEdges
    traversedEdges := state.traversedEdges ++ [⟨depth, candidate.direction, candidate.edge⟩] }

def visit (tables : Tables) (reader : ProjectionReader δ) (depth : Nat) (state : Traversal δ) (candidate : Candidate) :
    Except RetrievalError (Traversal δ) :=
  let state := state.traverse depth candidate
  if candidate.neighbor ∈ state.visitedReferences then .ok state
  else
    let state := { state with visitedReferences := candidate.neighbor :: state.visitedReferences }
    match resolve tables reader (.text candidate.neighbor) with
    | .error (.value _) => .ok state
    | .error error => .error error
    | .ok resolution => do
      let reference ← resolution.reference
      .ok { state with nodes := state.nodes ++ [⟨depth, resolution⟩], nextFrontier := state.nextFrontier ++ [reference] }

def expand (tables : Tables) (reader : ProjectionReader δ) (direction : TraversalDirection) (relations : Relations) (depth : Nat)
    (state : Traversal δ) (current : Text) : Except RetrievalError (Traversal δ) := do
  let found ← candidates tables reader current direction relations
  found.foldlM (visit tables reader depth) state

def levels (tables : Tables) (reader : ProjectionReader δ) (direction : TraversalDirection) (relations : Relations) :
    Nat → Nat → List Text → Traversal δ → Except RetrievalError (Traversal δ)
  | 0, _, _, state => .ok state
  | left + 1, currentDepth, frontier, state => do
    let after ← (sortedBy codes frontier).foldlM (expand tables reader direction relations (currentDepth + 1))
      { state with nextFrontier := [] }
    let next := sortedBy codes after.nextFrontier.dedup
    if next = [] then .ok after else levels tables reader direction relations left (currentDepth + 1) next after

def related (tables : Tables) (reader : ProjectionReader δ) (reference : ResolvableReference) (direction : TraversalDirection) (depth : Nat)
    (relations : Relations) : Except RetrievalError (RelatedResult δ) := do
  let focal ← resolve tables reader reference
  if depth = 0 ∨ relations = some [] then .ok ⟨focal, depth, direction, relations, [], []⟩
  else do
    let start ← focal.reference
    let traversal ← levels tables reader direction relations depth 0 [start] ⟨[start], [], [], [], []⟩
    .ok ⟨focal, depth, direction, relations, traversal.nodes, traversal.traversedEdges⟩

end Workctx.Projection
