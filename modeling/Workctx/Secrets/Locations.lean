import Workctx.Engine.Proposal
import Workctx.Migration.Identities

/-! The places of a proposal that look like secrets: the serialized proposal, the scan of its
values, and the payloads that the scan passes over. -/

namespace Workctx.Secrets
open Workctx.Text Workctx.Json Workctx.Domain Workctx.Engine List

/-! The serialized proposal, `model_dump(mode="json")`. -/

def kindText : PayloadKind → String
  | .entity => "entity"
  | .task => "task"
  | .claim => "claim"
  | .observation => "observation"
  | .artifactManifest => "artifact_manifest"

def payloadData (payload : DocumentPayload) : Value :=
  .object ([("kind", .string (kindText payload.kind)), ("document", payload.document)] ++
    if payload.kind = .artifactManifest then [] else [("body", .string payload.body)])

def operationData : TransactionOperation → Value
  | .create target payload => .object [("op", .string "create"), ("target", .string target), ("payload", payloadData payload)]
  | .update target payload expectedHash =>
    .object [("op", .string "update"), ("target", .string target), ("payload", payloadData payload),
      ("expected_hash", .string expectedHash)]
  | .move source destination expectedHash =>
    .object [("op", .string "move"), ("source", .string source), ("destination", .string destination),
      ("expected_hash", .string expectedHash)]
  | .deleteGenerated target expectedHash =>
    .object [("op", .string "delete_generated"), ("target", .string target), ("expected_hash", .string expectedHash)]

def conditionData : TransactionCondition → Value
  | .pathExists path => .object [("kind", .string "path_exists"), ("path", .string path)]
  | .pathAbsent path => .object [("kind", .string "path_absent"), ("path", .string path)]
  | .pathHash path contentHash =>
    .object [("kind", .string "path_hash"), ("path", .string path), ("content_hash", .string contentHash)]
  | .referenceExists reference => .object [("kind", .string "reference_exists"), ("reference", .string reference)]

def proposalData {platform : Platform} (createdAt : String) (proposal : TransactionProposal platform) : Value :=
  .object [("schema_version", .int 1), ("id", .string proposal.id), ("context_id", .string proposal.contextId),
    ("base_revision", .string proposal.baseRevision), ("actor", proposal.actor.data), ("created_at", .string createdAt),
    ("source_refs", .array (proposal.sourceRefs.map .string)), ("operations", .array (proposal.operations.map operationData)),
    ("preconditions", .array (proposal.preconditions.map conditionData)),
    ("postconditions", .array (proposal.postconditions.map conditionData)), ("expected_views", .array [.string "sqlite"]),
    ("approval", .string (if proposal.approvalRequired then "required" else "not_required"))]

/-! The scan. -/

def secretKeys : List String :=
  ["access_token", "api_key", "authorization", "client_secret", "password", "private_key", "secret", "secret_access_key", "token"]

def nonemptySecretValue : Value → Bool
  | .null => false
  | .string text => text != ""
  | .bool value => value
  | _ => true

/-- What the scan tells secrets by: the patterns of a text, and the case folding of a key. -/
structure Scanner where
  secretLooking : String → Bool
  casefold : String → String

namespace Scanner
variable (scanner : Scanner)

def isSecret (key : String) (child : Value) : Bool := secretKeys.contains (scanner.casefold key) && nonemptySecretValue child

mutual
def secretLocations (path : String) : Value → List String
  | .object members => memberLocations path members
  | .array items => itemLocations path 0 items
  | .string text => if scanner.secretLooking text then [path] else []
  | _ => []

def memberLocations (path : String) : List (String × Value) → List String
  | [] => []
  | (key, child) :: rest =>
    (if scanner.isSecret key child then [path ++ "." ++ key] else secretLocations (path ++ "." ++ key) child) ++
      memberLocations path rest

def itemLocations (path : String) (index : Nat) : List Value → List String
  | [] => []
  | child :: rest =>
    secretLocations (path ++ "[" ++ toString index ++ "]") child ++ itemLocations path (index + 1) rest
end

end Scanner

def startsWith (front location : String) : Bool := front.toList.isPrefixOf location.toList

def under (place location : String) : Bool :=
  location == place || startsWith (place ++ ".") location || startsWith (place ++ "[") location

def payloadPlace (index : Nat) : String := "$.operations[" ++ toString index ++ "].payload"

def payloadOf : TransactionOperation → Option (String × DocumentPayload)
  | .create target payload => some (target, payload)
  | .update target payload _ => some (target, payload)
  | _ => none

def ignoredPrefixes (acknowledged : List String) (operations : List TransactionOperation) : List String :=
  (operations.zipIdx.filter fun entry => (payloadOf entry.1).any fun staged => acknowledged.contains staged.1).map fun entry =>
    payloadPlace entry.2

def secretDiagnostic (location : String) : TransactionDiagnostic :=
  ⟨"TXN-POSSIBLE-SECRET", .error, "The proposal contains a secret-looking value.", some location,
    some "Remove the value and use an approved secret reference."⟩

def secretDiagnostics (scanner : Scanner) {platform : Platform} (createdAt : String) (proposal : TransactionProposal platform)
    (acknowledged : List String) : List TransactionDiagnostic :=
  ((scanner.secretLocations "$" (proposalData createdAt proposal)).filter fun location =>
    !(ignoredPrefixes acknowledged proposal.operations).any fun place => under place location).map secretDiagnostic

/-! Places. -/

theorem startsWith_iff {front location : String} : startsWith front location = true ↔ front.toList <+: location.toList :=
  isPrefixOf_iff_prefix

theorem startsWith_append (front back : String) : startsWith front (front ++ back) = true := by
  rw [startsWith_iff, String.toList_append]
  exact prefix_append _ _

theorem startsWith_trans {one two three : String} (first : startsWith one two = true) (second : startsWith two three = true) :
    startsWith one three = true := by
  rw [startsWith_iff] at *
  exact first.trans second

theorem under_self (place : String) : under place place = true := by
  simp [under]

theorem under_front {place location : String} (below : under place location = true) : startsWith place location = true := by
  unfold under at below
  rw [Bool.or_eq_true, Bool.or_eq_true, beq_iff_eq] at below
  rcases below with (same | member) | item
  · rw [same, startsWith_iff]
  · exact startsWith_trans (startsWith_append _ _) member
  · exact startsWith_trans (startsWith_append _ _) item

theorem under_member {path key location : String} (below : under (path ++ "." ++ key) location = true) : under path location = true := by
  have front := startsWith_trans (startsWith_append (path ++ ".") key) (under_front below)
  simp [under, front]

theorem under_item {path location : String} {index : Nat} (below : under (path ++ "[" ++ toString index ++ "]") location = true) :
    under path location = true := by
  have front : startsWith (path ++ "[") location = true := by
    apply startsWith_trans _ (under_front below)
    rw [String.append_assoc]
    exact startsWith_append _ _
  simp [under, front]

namespace Scanner
variable {scanner : Scanner}

mutual
theorem secretLocations_under (path : String) : ∀ (value : Value), ∀ location ∈ scanner.secretLocations path value, under path location = true
  | .object members => by
    rw [secretLocations]
    exact memberLocations_under path members
  | .array items => by
    rw [secretLocations]
    exact itemLocations_under path 0 items
  | .string text => by
    intro location member
    rw [secretLocations] at member
    split at member
    · rw [mem_singleton.mp member]
      exact under_self path
    · cases member
  | .null => by simp [secretLocations]
  | .bool value => by simp [secretLocations]
  | .int value => by simp [secretLocations]
  | .float lexeme => by simp [secretLocations]

theorem memberLocations_under (path : String) : ∀ (members : List (String × Value)),
    ∀ location ∈ scanner.memberLocations path members, under path location = true
  | [] => by simp [memberLocations]
  | (key, child) :: rest => by
    intro location member
    rw [memberLocations, mem_append] at member
    rcases member with here | later
    · split at here
      · rw [mem_singleton.mp here]
        exact under_member (under_self _)
      · exact under_member (secretLocations_under _ child location here)
    · exact memberLocations_under path rest location later

theorem itemLocations_under (path : String) (index : Nat) : ∀ (items : List Value),
    ∀ location ∈ scanner.itemLocations path index items, under path location = true
  | [] => by simp [itemLocations]
  | child :: rest => by
    intro location member
    rw [itemLocations, mem_append] at member
    rcases member with here | later
    · exact under_item (secretLocations_under _ child location here)
    · exact itemLocations_under path (index + 1) rest location later
end

/-- What the scan finds in a member, it finds in the object, unless it stops at the member's key. -/
theorem mem_memberLocations {path key : String} {child : Value} {members : List (String × Value)} (member : (key, child) ∈ members) :
    path ++ "." ++ key ∈ scanner.memberLocations path members ∨
      ∀ location ∈ scanner.secretLocations (path ++ "." ++ key) child, location ∈ scanner.memberLocations path members := by
  induction members with
  | nil => cases member
  | cons first rest ih =>
    obtain ⟨other, value⟩ := first
    rcases mem_cons.mp member with same | later
    · cases same
      rw [memberLocations]
      split
      · exact .inl mem_cons_self
      · exact .inr fun location found => mem_append_left _ found
    · rw [memberLocations]
      rcases ih later with here | found
      · exact .inl (mem_append_right _ here)
      · exact .inr fun location inside => mem_append_right _ (found location inside)

theorem mem_itemLocations {path location : String} {index : Nat} {items : List Value} {place : Nat} {child : Value}
    (member : items[place]? = some child)
    (found : location ∈ scanner.secretLocations (path ++ "[" ++ toString (index + place) ++ "]") child) :
    location ∈ scanner.itemLocations path index items := by
  induction items generalizing index place with
  | nil => cases member
  | cons first rest ih =>
    rw [itemLocations]
    cases place with
    | zero =>
      rw [getElem?_cons_zero, Option.some.injEq] at member
      rw [member]
      exact mem_append_left _ found
    | succ place =>
      rw [getElem?_cons_succ] at member
      rw [← Nat.add_assoc, Nat.add_right_comm] at found
      exact mem_append_right _ (ih member found)

end Scanner

/-! The payloads. -/

theorem toList_payloadPlace (index : Nat) :
    (payloadPlace index).toList = "$.operations[".toList ++ ((toString index).toList ++ "].payload".toList) := by
  rw [payloadPlace, String.toList_append, String.toList_append, append_assoc]

theorem bracket_not_mem_toString (number : Nat) : ']' ∉ (toString number).toList := by
  intro member
  rw [Nat.toString_eq_repr, Nat.toList_repr] at member
  have digit := Nat.isDigit_of_mem_toDigits (by decide) (by decide) member
  exact absurd digit (by decide)

theorem payloadPlace_unique {one two : Nat} {location : String} (first : startsWith (payloadPlace one) location = true)
    (second : startsWith (payloadPlace two) location = true) : one = two := by
  have number : ∀ {index : Nat}, startsWith (payloadPlace index) location = true →
      (location.toList.drop 13).takeWhile (· ≠ ']') = (toString index).toList := by
    intro index front
    obtain ⟨rest, same⟩ := startsWith_iff.mp front
    have head : "$.operations[".toList.length = 13 := by decide
    rw [← same, toList_payloadPlace, append_assoc, ← head, drop_left, append_assoc, takeWhile_append_of_pos]
    · show (toString index).toList ++ List.takeWhile _ (']' :: _) = _
      simp
    · intro c inside
      rw [decide_eq_true_eq]
      intro bracket
      exact bracket_not_mem_toString index (bracket ▸ inside)
  have same := (number first).symm.trans (number second)
  exact Migration.Allocator.toString_injective (String.toList_inj.mp same)

section
variable {scanner : Scanner} {platform : Platform} {createdAt : String} {proposal : TransactionProposal platform}
  {acknowledged : List String} {index : Nat} {operation : TransactionOperation} {target : String} {payload : DocumentPayload}

theorem payload_member (staged : payloadOf operation = some (target, payload)) :
    ∃ members, operationData operation = .object members ∧ ("payload", payloadData payload) ∈ members := by
  cases operation with
  | create path document =>
    cases staged
    exact ⟨_, rfl, by simp⟩
  | update path document expectedHash =>
    cases staged
    exact ⟨_, rfl, by simp⟩
  | move source destination expectedHash => cases staged
  | deleteGenerated path expectedHash => cases staged

/-- The scan of a proposal finds what there is in a payload, or stops on the way to the payload. -/
theorem payload_found (placed : proposal.operations[index]? = some operation) (staged : payloadOf operation = some (target, payload))
    {location : String} (inside : location ∈ scanner.secretLocations (payloadPlace index) (payloadData payload)) :
    ∃ found ∈ scanner.secretLocations "$" (proposalData createdAt proposal),
      startsWith found (payloadPlace index) = true ∨ startsWith (payloadPlace index) found = true := by
  obtain ⟨members, object, listed⟩ := payload_member staged
  have item : "$" ++ "." ++ "operations" ++ "[" ++ toString (0 + index) ++ "]" = "$.operations[" ++ toString index ++ "]" := by
    rw [Nat.zero_add]
    rfl
  have place : "$.operations[" ++ toString index ++ "]" ++ "." ++ "payload" = payloadPlace index := by
    rw [payloadPlace, String.append_assoc, String.append_assoc, String.append_assoc, String.append_assoc]
    rfl
  have within : ∀ found ∈ scanner.secretLocations ("$.operations[" ++ toString index ++ "]") (operationData operation),
      found ∈ scanner.secretLocations ("$" ++ "." ++ "operations") (.array (proposal.operations.map operationData)) := by
    intro found member
    rw [Scanner.secretLocations]
    apply Scanner.mem_itemLocations
    · rw [getElem?_map, placed, Option.map_some]
    · rw [item]
      exact member
  obtain ⟨members, same, top⟩ : ∃ members, proposalData createdAt proposal = .object members ∧
      ("operations", Value.array (proposal.operations.map operationData)) ∈ members := ⟨_, rfl, by simp⟩
  rw [same, Scanner.secretLocations]
  rcases Scanner.mem_memberLocations top with stopped | deeper
  · have front : startsWith ("$" ++ "." ++ "operations") (payloadPlace index) = true := by
      rw [startsWith_iff, toList_payloadPlace]
      exact (by decide : ("$" ++ "." ++ "operations").toList <+: "$.operations[".toList).trans (prefix_append _ _)
    exact ⟨_, stopped, .inl front⟩
  · rw [object, Scanner.secretLocations] at within
    rcases Scanner.mem_memberLocations listed with stopped | found
    · rw [place] at stopped
      exact ⟨_, deeper _ (within _ stopped), .inl (startsWith_iff.mpr prefix_rfl)⟩
    · rw [place] at found
      exact ⟨location, deeper _ (within _ (found location inside)), .inr (under_front (Scanner.secretLocations_under _ _ _ inside))⟩

theorem mem_ignoredPrefixes {place : String} (member : place ∈ ignoredPrefixes acknowledged proposal.operations) :
    ∃ (index : Nat) (operation : TransactionOperation) (target : String) (payload : DocumentPayload),
      proposal.operations[index]? = some operation ∧ payloadOf operation = some (target, payload) ∧ target ∈ acknowledged ∧
        place = payloadPlace index := by
  obtain ⟨entry, inside, same⟩ := mem_map.mp member
  obtain ⟨listed, allowed⟩ := mem_filter.mp inside
  obtain ⟨⟨target, payload⟩, staged, contained⟩ := (Option.any_eq_true _ _).mp allowed
  exact ⟨entry.2, entry.1, target, payload, mem_zipIdx_iff_getElem?.mp listed, staged, by simpa using contained, same.symm⟩

theorem acknowledged_of_clean (clean : secretDiagnostics scanner createdAt proposal acknowledged = [])
    (placed : proposal.operations[index]? = some operation) (staged : payloadOf operation = some (target, payload))
    {location : String} (inside : location ∈ scanner.secretLocations (payloadPlace index) (payloadData payload)) :
    target ∈ acknowledged := by
  obtain ⟨found, member, near⟩ := @payload_found scanner platform createdAt proposal _ _ _ _ placed staged _ inside
  rw [secretDiagnostics, map_eq_nil_iff, filter_eq_nil_iff] at clean
  have ignored := clean found member
  rw [Bool.not_eq_true', Bool.not_eq_false, any_eq_true] at ignored
  obtain ⟨place, listed, below⟩ := ignored
  obtain ⟨other, operation', target', payload', placed', staged', held, rfl⟩ := mem_ignoredPrefixes listed
  have same : other = index := by
    rcases near with short | long
    · exact payloadPlace_unique (startsWith_trans (under_front below) short) (startsWith_iff.mpr prefix_rfl)
    · exact payloadPlace_unique (under_front below) long
  subst same
  rw [placed, Option.some.injEq] at placed'
  rw [← placed', staged, Option.some.injEq, Prod.mk.injEq] at staged'
  rw [staged'.1]
  exact held

theorem location_of_clean (clean : secretDiagnostics scanner createdAt proposal acknowledged = []) {location : String}
    (found : location ∈ scanner.secretLocations "$" (proposalData createdAt proposal)) :
    ∃ (index : Nat) (operation : TransactionOperation) (target : String) (payload : DocumentPayload),
      proposal.operations[index]? = some operation ∧ payloadOf operation = some (target, payload) ∧ target ∈ acknowledged ∧
        under (payloadPlace index) location = true := by
  rw [secretDiagnostics, map_eq_nil_iff, filter_eq_nil_iff] at clean
  have ignored := clean location found
  rw [Bool.not_eq_true', Bool.not_eq_false, any_eq_true] at ignored
  obtain ⟨place, listed, below⟩ := ignored
  obtain ⟨index, operation, target, payload, placed, staged, held, rfl⟩ := mem_ignoredPrefixes listed
  exact ⟨index, operation, target, payload, placed, staged, held, below⟩

theorem secretDiagnostics_errors : ∀ diagnostic ∈ secretDiagnostics scanner createdAt proposal acknowledged, isError diagnostic = true := by
  intro diagnostic member
  obtain ⟨location, _, rfl⟩ := mem_map.mp member
  rfl

end
end Workctx.Secrets
