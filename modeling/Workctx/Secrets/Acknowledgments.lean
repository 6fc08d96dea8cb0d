import Mathlib.Data.Prod.Lex
import Mathlib.Data.String.Basic
import Workctx.Owners.Compile
import Workctx.Search.Sorted
import Workctx.Secrets.Locations

/-! Acknowledged secrets: the record of the acknowledgments, and the entries that a transaction adds to it. -/

namespace Workctx.Secrets
open Workctx.Text Workctx.Concurrent Workctx.Domain Workctx.Staging Workctx.Engine Workctx.Owners List

/-- `SECRET_SCAN_ACKNOWLEDGMENTS_PATH` -/
def acknowledgmentsPath : String := "99_meta/secret-scan-acknowledgments.yaml"

/-! The record. -/

section
variable (platform : Platform)

def validateContextRelativePath (value : String) : Bool :=
  let parts := value.toList.splitOn '/'
  value == platform.nfc value && !(value.toList.contains '\\' || value.toList.any fun c => c.toNat < 32) &&
    value.toList.head? != some '/' && !(parts.any fun part => part == [] || part == ['.'] || part == ['.', '.']) &&
    parts.all isPortableSegment && platform.casefold value != platform.casefold acknowledgmentsPath

def validAcknowledgment (path contentHash acknowledgedAt : String) (note : Option String) : Bool :=
  decide (1 ≤ path.length) && decide (path.length ≤ 1000) && validateContextRelativePath platform path &&
    isContentHash contentHash && platform.canonicalTimestamp acknowledgedAt == some acknowledgedAt &&
    note.all fun text => decide (text.length ≤ 500)

structure SecretScanAcknowledgment where
  path : String
  contentHash : String
  acknowledgedAt : String
  note : Option String
  valid : validAcknowledgment platform path contentHash acknowledgedAt note = true

/-- An entry from its fields; none where one of them is refused. -/
def SecretScanAcknowledgment.of (path contentHash acknowledgedAt : String) (note : Option String) :
    Option (SecretScanAcknowledgment platform) :=
  if valid : validAcknowledgment platform path contentHash acknowledgedAt note = true then
    some ⟨path, contentHash, acknowledgedAt, note, valid⟩
  else none

def SecretScanAcknowledgment.key {platform : Platform} (entry : SecretScanAcknowledgment platform) : String :=
  platform.casefold entry.path

structure SecretScanAcknowledgments where
  acknowledgments : List (SecretScanAcknowledgment platform)
  nonempty : acknowledgments ≠ []
  distinct : (acknowledgments.map SecretScanAcknowledgment.key).Nodup

def SecretScanAcknowledgments.of (entries : List (SecretScanAcknowledgment platform)) : Option (SecretScanAcknowledgments platform) :=
  if nonempty : entries ≠ [] then
    if distinct : (entries.map SecretScanAcknowledgment.key).Nodup then some ⟨entries, nonempty, distinct⟩ else none
  else none

/-- `_PossibleSecretFinding` -/
structure Finding where
  line : Nat
  kind : String
deriving DecidableEq

/-- What secrets are told by in a value and in a text, and the codec of the record. -/
structure SecretScan where
  secretLooking : String → Bool
  /-- `_possible_secret_findings` -/
  findings : String → List Finding
  loadSecretScanAcknowledgments : String → Option (SecretScanAcknowledgments platform)
  dumpSecretScanAcknowledgments : SecretScanAcknowledgments platform → Bytes

end

/-! Requests. -/

/-- `_invalid_secret_acknowledgment_diagnostic` -/
def invalidSecretAcknowledgment (path message : String) : TransactionDiagnostic :=
  ⟨"CTX-SECRET-ACKNOWLEDGMENT-INVALID", .error, message, some path,
    some ("Use a written context-relative path whose staged content reports " ++
      "CTX-POSSIBLE-SECRET, or repair the canonical acknowledgment file to match its schema.")⟩

namespace SecretScan
variable {platform : Platform} (scan : SecretScan platform)

def scanner : Scanner := ⟨scan.secretLooking, platform.casefold⟩

def containsPossibleSecret (text : String) : Bool := !(scan.findings text).isEmpty

/-- The bytes that a request acknowledges, or why there are none. -/
def examine (final : FinalFiles) (candidate : String) : Except String Bytes :=
  match (Directory.get final candidate).join with
  | none => .error "An acknowledgment path is not a written transaction postimage."
  | some content =>
    match decodeUtf8 content with
    | none => .error "An acknowledgment path does not contain UTF-8 text."
    | some text =>
      if scan.containsPossibleSecret (String.ofList text) then .ok content
      else .error "A written acknowledgment path has no possible-secret finding."

/-- The requests that are refused and those that are not, behind the keys that were seen. -/
def eligible (final : FinalFiles) : Nat → List String → List String → List TransactionDiagnostic × List (String × Bytes)
  | _, _, [] => ([], [])
  | index, seen, candidate :: rest =>
    let place := "acknowledge_possible_secret[" ++ toString index ++ "]"
    if seen.contains (platform.casefold candidate) then
      let (diagnostics, others) := eligible final (index + 1) seen rest
      (invalidSecretAcknowledgment place "Each requested acknowledgment path must be unique." :: diagnostics, others)
    else
      let (diagnostics, others) := eligible final (index + 1) (platform.casefold candidate :: seen) rest
      match scan.examine final candidate with
      | .error message => (invalidSecretAcknowledgment place message :: diagnostics, others)
      | .ok content => (diagnostics, (candidate, content) :: others)

/-- The entries of the record as it is; none where it cannot be read as one. -/
def existing : Option Bytes → Option (List (SecretScanAcknowledgment platform))
  | none => some []
  | some content =>
    (decodeUtf8 content).bind fun text => (scan.loadSecretScanAcknowledgments (String.ofList text)).map (·.acknowledgments)

end SecretScan

section
variable {platform : Platform}

def acknowledge (time : String) (entries : Directory String (SecretScanAcknowledgment platform)) (path : String) (content : Bytes) :
    Option (Directory String (SecretScanAcknowledgment platform)) :=
  let previous := entries.get (platform.casefold path)
  (SecretScanAcknowledgment.of platform path (platform.contentHash content) time (previous.bind (·.note))).map fun entry =>
    entries.put (platform.casefold path) entry

def acknowledgeAll (time : String) (entries : Directory String (SecretScanAcknowledgment platform)) :
    List (String × Bytes) → Option (Directory String (SecretScanAcknowledgment platform))
  | [] => some entries
  | (path, content) :: rest => (acknowledge time entries path content).bind fun entries => acknowledgeAll time entries rest

def keyed (entries : List (SecretScanAcknowledgment platform)) : Directory String (SecretScanAcknowledgment platform) :=
  entries.map fun entry => (entry.key, entry)

/-- The record with the new entries, in the order of the paths. -/
def extended (time : String) (existing : List (SecretScanAcknowledgment platform)) (accepted : List (String × Bytes)) :
    Option (SecretScanAcknowledgments platform) :=
  (acknowledgeAll time (keyed existing) accepted).bind fun entries =>
    SecretScanAcknowledgments.of platform
      (Search.sortedBy (fun entry : SecretScanAcknowledgment platform => toLex (entry.key, entry.path)) (entries.map Prod.snd))

def withRecord (compiled : CompiledProposal) (current : Option Bytes) (content : Bytes) (accepted : List String) : CompiledProposal :=
  let postimageHash := platform.contentHash content
  { writes := compiled.writes ++ [.write acknowledgmentsPath content]
    effects := compiled.effects ++
      [⟨compiled.effects.length, if current.isSome then .update else .create, acknowledgmentsPath, none,
        current.map platform.contentHash, some postimageHash, false⟩]
    auditOperations := compiled.auditOperations ++
      [match current with
        | none => .create acknowledgmentsPath postimageHash
        | some content => .update acknowledgmentsPath (platform.contentHash content) postimageHash]
    finalFiles := compiled.finalFiles ++ [(acknowledgmentsPath, some content)]
    acknowledgedPaths := Search.sortedBy (fun path => toLex (platform.casefold path, path)) accepted }

/-- `_compile_secret_acknowledgments`, with the file of the record as it was read. -/
def compileSecretAcknowledgments (scan : SecretScan platform) (time : String) (current : Option (Option Bytes))
    (compiled : CompiledProposal) (requested : List String) : CompiledProposal × List TransactionDiagnostic :=
  if compiled.finalFiles.any fun file => platform.casefold file.1 == platform.casefold acknowledgmentsPath then
    (compiled, [invalidSecretAcknowledgment acknowledgmentsPath "The proposal cannot write or move the acknowledgment file directly."])
  else if requested.isEmpty then (compiled, [])
  else
    match scan.eligible compiled.finalFiles 0 [] requested with
    | (diagnostic :: others, _) => (compiled, diagnostic :: others)
    | ([], accepted) =>
      match current with
      | none => (compiled, [invalidSecretAcknowledgment acknowledgmentsPath
          "The canonical secret-scan acknowledgment path is not a readable regular file."])
      | some current =>
        match scan.existing current with
        | none => (compiled, [invalidSecretAcknowledgment acknowledgmentsPath
            "The canonical secret-scan acknowledgment file is invalid."])
        | some existing =>
          match extended time existing accepted with
          | none => (compiled, [invalidSecretAcknowledgment "acknowledge_possible_secret"
              "A requested acknowledgment path is invalid."])
          | some record =>
            (@withRecord platform compiled current (scan.dumpSecretScanAcknowledgments record) (accepted.map Prod.fst), [])

end

/-! What an entry of a request is. -/

section
variable {platform : Platform} {scan : SecretScan platform} {final : FinalFiles} {time : String}

theorem examine_ok {candidate : String} {content : Bytes} (ok : scan.examine final candidate = .ok content) :
    Directory.get final candidate = some (some content) := by
  unfold SecretScan.examine at ok
  split at ok
  · cases ok
  · next found same =>
    split at ok
    · cases ok
    · split at ok
      · rw [← Except.ok.inj ok]
        exact Option.join_eq_some_iff.mp same
      · cases ok

variable {accepted : List (String × Bytes)} {entry : SecretScanAcknowledgment platform}
  {existing : List (SecretScanAcknowledgment platform)}

/-- Without a refusal, every requested path is accepted with the bytes the proposal leaves there, and no two have one key. -/
theorem eligible_clean {requested seen : List String} {index : Nat}
    (clean : scan.eligible final index seen requested = ([], accepted)) :
    accepted.map Prod.fst = requested ∧ (requested.map platform.casefold).Nodup ∧
      (∀ path ∈ requested, platform.casefold path ∉ seen) ∧
      ∀ entry ∈ accepted, Directory.get final entry.1 = some (some entry.2) := by
  induction requested generalizing index seen accepted with
  | nil =>
    rw [SecretScan.eligible] at clean
    obtain ⟨_, rfl⟩ := Prod.mk.inj clean
    simp
  | cons candidate rest ih =>
    rw [SecretScan.eligible] at clean
    split at clean
    · exact absurd (Prod.mk.inj clean).1 (cons_ne_nil _ _)
    · next fresh =>
      dsimp only at clean
      split at clean
      · exact absurd (Prod.mk.inj clean).1 (cons_ne_nil _ _)
      · next content found =>
        obtain ⟨none, rfl⟩ := Prod.mk.inj clean
        obtain ⟨paths, distinct, unseen, left⟩ := ih (Prod.ext none rfl)
        refine ⟨congrArg (candidate :: ·) paths, ?_, ?_, ?_⟩
        · rw [map_cons, nodup_cons]
          refine ⟨fun again => ?_, distinct⟩
          obtain ⟨other, member, same⟩ := mem_map.mp again
          exact unseen other member (same ▸ mem_cons_self)
        · intro path member
          rcases mem_cons.mp member with same | later
          · rw [same]
            simpa using fresh
          · exact fun known => unseen path later (mem_cons_of_mem _ known)
        · intro entry member
          rcases mem_cons.mp member with same | later
          · rw [same]
            exact examine_ok found
          · exact left entry later

/-! What an extension of the record does. -/

theorem SecretScanAcknowledgment.of_eq {path contentHash acknowledgedAt : String} {note : Option String} (made : SecretScanAcknowledgment.of platform path contentHash acknowledgedAt note = some entry) :
    entry.path = path ∧ entry.contentHash = contentHash ∧ entry.note = note := by
  unfold SecretScanAcknowledgment.of at made
  split at made
  · cases made
    exact ⟨rfl, rfl, rfl⟩
  · cases made

theorem SecretScanAcknowledgments.of_eq {entries : List (SecretScanAcknowledgment platform)} {record : SecretScanAcknowledgments platform}
    (made : SecretScanAcknowledgments.of platform entries = some record) : record.acknowledgments = entries := by
  unfold SecretScanAcknowledgments.of at made
  split at made
  · split at made
    · cases made
      rfl
    · cases made
  · cases made

/-- The entries behind some acknowledgments: under the key of each accepted path is its new entry, with the note of the entry
that was there, and under the other keys is what was there. -/
structure Acknowledged (entries : Directory String (SecretScanAcknowledgment platform)) (accepted : List (String × Bytes))
    (after : Directory String (SecretScanAcknowledgment platform)) : Prop where
  unique : (entries.map Prod.fst).Nodup → (after.map Prod.fst).Nodup
  added : ∀ new ∈ accepted, ∃ entry, after.get (platform.casefold new.1) = some entry ∧ entry.path = new.1 ∧
    entry.contentHash = platform.contentHash new.2 ∧ entry.note = (entries.get (platform.casefold new.1)).bind (·.note)
  kept : ∀ key, key ∉ accepted.map (fun new => platform.casefold new.1) → after.get key = entries.get key

theorem acknowledgeAll_ok {entries after : Directory String (SecretScanAcknowledgment platform)}
    (distinct : (accepted.map fun new => platform.casefold new.1).Nodup) (ok : acknowledgeAll time entries accepted = some after) :
    Acknowledged entries accepted after := by
  induction accepted generalizing entries with
  | nil =>
    cases ok
    exact ⟨id, by simp, fun _ _ => rfl⟩
  | cons first rest ih =>
    obtain ⟨path, content⟩ := first
    obtain ⟨between, one, others⟩ := Option.bind_eq_some_iff.mp ok
    obtain ⟨entry, made, rfl⟩ := Option.map_eq_some_iff.mp one
    obtain ⟨samePath, sameHash, sameNote⟩ := SecretScanAcknowledgment.of_eq made
    rw [map_cons, nodup_cons] at distinct
    have later := ih distinct.2 others
    constructor
    · exact fun unique => later.unique (Directory.nodup_put unique _ _)
    · intro new member
      rcases mem_cons.mp member with same | inside
      · rw [same]
        refine ⟨entry, ?_, samePath, sameHash, sameNote⟩
        rw [later.kept _ distinct.1, Directory.get_put_self]
      · obtain ⟨other, found, rest⟩ := later.added new inside
        have apart : platform.casefold new.1 ≠ platform.casefold path := by
          intro same
          exact distinct.1 (same ▸ mem_map_of_mem (f := fun new : String × Bytes => platform.casefold new.1) inside)
        rw [Directory.get_put_of_ne apart] at rest
        exact ⟨other, found, rest⟩
    · intro key absent
      rw [map_cons, mem_cons, not_or] at absent
      rw [later.kept key absent.2, Directory.get_put_of_ne absent.1]

theorem keyed_get {key : String}
    (found : (keyed existing).get key = some entry) : entry ∈ existing ∧ entry.key = key := by
  obtain ⟨old, member, same⟩ := mem_map.mp (Directory.mem_of_get found)
  cases same
  exact ⟨member, rfl⟩

theorem keyed_keys (existing : List (SecretScanAcknowledgment platform)) :
    (keyed existing).map Prod.fst = existing.map SecretScanAcknowledgment.key := map_map

theorem keyed_get_of_mem (distinct : (existing.map SecretScanAcknowledgment.key).Nodup) (member : entry ∈ existing) : (keyed existing).get entry.key = some entry := by
  apply Directory.get_of_mem
  · rw [keyed_keys]
    exact distinct
  · exact mem_map.mpr ⟨entry, member, rfl⟩

structure Extended (existing : List (SecretScanAcknowledgment platform)) (accepted : List (String × Bytes))
    (record : SecretScanAcknowledgments platform) : Prop where
  added : ∀ new ∈ accepted, ∃ entry ∈ record.acknowledgments, entry.path = new.1 ∧ entry.contentHash = platform.contentHash new.2 ∧
    ∀ old ∈ existing, old.key = platform.casefold new.1 → entry.note = old.note
  kept : ∀ old ∈ existing, (∀ new ∈ accepted, platform.casefold new.1 ≠ old.key) → old ∈ record.acknowledgments
  only : ∀ entry ∈ record.acknowledgments, entry ∈ existing ∨ ∃ new ∈ accepted, entry.path = new.1 ∧
    entry.contentHash = platform.contentHash new.2

theorem extended_ok
    {record : SecretScanAcknowledgments platform} (unique : (existing.map SecretScanAcknowledgment.key).Nodup)
    (distinct : (accepted.map fun new => platform.casefold new.1).Nodup) (ok : extended time existing accepted = some record) :
    Extended existing accepted record := by
  obtain ⟨after, entries, made⟩ := Option.bind_eq_some_iff.mp ok
  have acknowledged := acknowledgeAll_ok distinct entries
  have keys : (after.map Prod.fst).Nodup := by
    apply acknowledged.unique
    rw [keyed_keys]
    exact unique
  have listed : ∀ {entry}, entry ∈ record.acknowledgments ↔ ∃ key, after.get key = some entry := by
    intro entry
    rw [SecretScanAcknowledgments.of_eq made, Search.mem_sortedBy]
    constructor
    · intro member
      obtain ⟨⟨key, _⟩, inside, rfl⟩ := mem_map.mp member
      exact ⟨key, Directory.get_of_mem keys inside⟩
    · intro ⟨key, found⟩
      exact mem_map.mpr ⟨(key, entry), Directory.mem_of_get found, rfl⟩
  constructor
  · intro new member
    obtain ⟨entry, found, samePath, sameHash, sameNote⟩ := acknowledged.added new member
    refine ⟨entry, listed.mpr ⟨_, found⟩, samePath, sameHash, fun old inside same => ?_⟩
    rw [sameNote, ← same, keyed_get_of_mem unique inside]
    rfl
  · intro old member apart
    refine listed.mpr ⟨old.key, ?_⟩
    rw [acknowledged.kept, keyed_get_of_mem unique member]
    intro inside
    obtain ⟨new, listed, same⟩ := mem_map.mp inside
    exact apart new listed same
  · intro entry member
    obtain ⟨key, found⟩ := listed.mp member
    by_cases fresh : key ∈ accepted.map fun new => platform.casefold new.1
    · obtain ⟨new, inside, rfl⟩ := mem_map.mp fresh
      obtain ⟨other, here, samePath, sameHash, _⟩ := acknowledged.added new inside
      rw [found, Option.some.injEq] at here
      rw [here]
      exact .inr ⟨new, inside, samePath, sameHash⟩
    · rw [acknowledged.kept key fresh] at found
      exact .inl (keyed_get found).1

theorem existing_distinct {current : Option Bytes}
    (found : scan.existing current = some existing) : (existing.map SecretScanAcknowledgment.key).Nodup := by
  cases current with
  | none =>
    cases found
    exact nodup_nil
  | some content =>
    obtain ⟨text, _, loaded⟩ := Option.bind_eq_some_iff.mp found
    obtain ⟨record, _, rfl⟩ := Option.map_eq_some_iff.mp loaded
    exact record.distinct

structure Recorded (scan : SecretScan platform) (current : Option (Option Bytes)) (compiled : CompiledProposal)
    (requested : List String) (result : CompiledProposal) (existing : List (SecretScanAcknowledgment platform))
    (accepted : List (String × Bytes)) (record : SecretScanAcknowledgments platform) : Prop where
  read : ∃ content, current = some content ∧ scan.existing content = some existing ∧
    result = @withRecord platform compiled content (scan.dumpSecretScanAcknowledgments record) requested
  paths : accepted.map Prod.fst = requested
  left : ∀ entry ∈ accepted, Directory.get compiled.finalFiles entry.1 = some (some entry.2)
  record : Extended existing accepted record

/-- Without a refusal, the proposal does not address the file of the record, and its file is added for the requests. -/
theorem compileSecretAcknowledgments_clean {current : Option (Option Bytes)} {compiled : CompiledProposal} {requested : List String}
    (clean : (compileSecretAcknowledgments scan time current compiled requested).2 = []) :
    (∀ file ∈ compiled.finalFiles, platform.casefold file.1 ≠ platform.casefold acknowledgmentsPath) ∧
      (requested = [] ∧ (compileSecretAcknowledgments scan time current compiled requested).1 = compiled ∨
        ∃ existing accepted record, Recorded scan current compiled requested
          (compileSecretAcknowledgments scan time current compiled requested).1 existing accepted record) := by
  unfold compileSecretAcknowledgments at clean ⊢
  split at clean
  · exact absurd clean (cons_ne_nil _ _)
  next free =>
  rw [if_neg free]
  constructor
  · intro file member same
    apply free
    rw [any_eq_true]
    exact ⟨file, member, by rw [same, beq_self_eq_true]⟩
  split at clean
  · next none =>
    rw [if_pos none]
    exact .inl ⟨List.isEmpty_iff.mp none, rfl⟩
  next some =>
  rw [if_neg some]
  split at clean
  · exact absurd clean (cons_ne_nil _ _)
  next accepted requests =>
  obtain ⟨paths, distinct, _, left⟩ := eligible_clean requests
  have keys : (accepted.map fun new => platform.casefold new.1).Nodup := by
    rw [← paths, map_map] at distinct
    exact distinct
  split at clean
  · exact absurd clean (cons_ne_nil _ _)
  next current =>
  split at clean
  · exact absurd clean (cons_ne_nil _ _)
  next existing found =>
  split at clean
  · exact absurd clean (cons_ne_nil _ _)
  next record made =>
  refine .inr ⟨existing, accepted, record, ⟨current, rfl, found, ?_⟩, paths, left, extended_ok (existing_distinct found) keys made⟩
  rw [paths]

end
end Workctx.Secrets
