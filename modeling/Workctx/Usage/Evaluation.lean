import Mathlib.Algebra.GroupWithZero.Nat
import Mathlib.Data.Prod.Lex
import Mathlib.Data.String.Basic
import Workctx.Domain.Checks
import Workctx.Search.Sorted
import Workctx.Text.Newlines
import Workctx.Usage.Recording

/-! The summary of the recorded usage events. -/

namespace Workctx.Usage
open Workctx.Text Workctx.Json Workctx.Domain Workctx.Search

/-! The files of the log. -/

def rotatedIndex (name : String) : Option Nat :=
  let opening := (currentName ++ ".").toList
  if opening.isPrefixOf name.toList then
    let suffix := name.toList.drop opening.length
    if suffix ≠ [] ∧ suffix.all isDigit then some (Nat.ofDigitChars 10 suffix 0) else none
  else none

/-- `iterdir` lists the names of a directory in some order. -/
structure Listing where
  names : Folder → List String
  every : ∀ folder, (names folder).Perm folder.keys

/-- The names of the rotated files with their numbers, the highest number first. -/
def rotatedNames (listing : Listing) (folder : Folder) : List (Nat × String) :=
  sortedBy (fun found => OrderDual.toDual (toLex found))
    ((listing.names folder).filterMap fun name => (rotatedIndex name).map fun index => (index, name))

def usageFiles (listing : Listing) (folder : Folder) : List String :=
  (rotatedNames listing folder).map Prod.snd ++ if (folder.lookup currentName).isSome then [currentName] else []

/-! What the lines say. -/

structure TargetAccumulator where
  uses7d : Nat
  uses30d : Nat
  uses90d : Nat
  lastUsedAt : Option Int

structure Counts where
  targets : AList fun _ : String => TargetAccumulator
  eventCount : Nat
  uriEventCount : Nat
  queryEventCount : Nat
  corruptLineCount : Nat

def Counts.zero : Counts := ⟨∅, 0, 0, 0, 0⟩

def Counts.corrupt (counts : Counts) : Counts := { counts with corruptLineCount := counts.corruptLineCount + 1 }

def day : Int := 24 * 60 * 60 * 1000000

def TargetAccumulator.used (current timestamp : Int) (accumulator : TargetAccumulator) : TargetAccumulator where
  lastUsedAt := match accumulator.lastUsedAt with
    | none => some timestamp
    | some last => if last < timestamp then some timestamp else some last
  uses90d := if current - 90 * day ≤ timestamp then accumulator.uses90d + 1 else accumulator.uses90d
  uses30d := if current - 30 * day ≤ timestamp then accumulator.uses30d + 1 else accumulator.uses30d
  uses7d := if current - 7 * day ≤ timestamp then accumulator.uses7d + 1 else accumulator.uses7d

def Counts.event (current : Int) (counts : Counts) (event : UsageEvent) : Counts :=
  if current < event.timestamp then counts
  else
    let counts := { counts with eventCount := counts.eventCount + 1 }
    match event.targetUri with
    | none => { counts with queryEventCount := counts.queryEventCount + 1 }
    | some uri =>
      let accumulator := (counts.targets.lookup uri).getD ⟨0, 0, 0, none⟩
      { counts with
        uriEventCount := counts.uriEventCount + 1
        targets := counts.targets.insert uri (accumulator.used current event.timestamp) }

def Counts.line (library : UsageLibrary) (current : Int) (counts : Counts) (line : List Char) : Counts :=
  if strip line = [] then counts.corrupt
  else match (loads line).bind library.modelValidate with
    | none => counts.corrupt
    | some event => counts.event current event

def Counts.file (library : UsageLibrary) (current : Int) (counts : Counts) (content : Bytes) : Counts :=
  match decodeUtf8 content with
  | some text => (cutLines (· == '\n') (universalNewlines text)).foldl (Counts.line library current) counts
  | none => ((library.linesBefore content).foldl (Counts.line library current) counts).corrupt

structure UsageTargetSummary where
  targetUri : String
  uses7d : Nat
  uses30d : Nat
  uses90d : Nat
  lastUsedAt : Int
deriving DecidableEq

structure UsageSummary where
  generatedAt : Int
  eventCount : Nat
  uriEventCount : Nat
  queryEventCount : Nat
  corruptLineCount : Nat
  /-- The totals of the windows of 7, 30 and 90 days -/
  totals : Nat × Nat × Nat
  targets : List UsageTargetSummary
deriving DecidableEq

def Counts.summaries (counts : Counts) : List UsageTargetSummary :=
  (sortedBy (fun entry => entry.1) counts.targets.entries).filterMap fun entry =>
    entry.2.lastUsedAt.map fun last => ⟨entry.1, entry.2.uses7d, entry.2.uses30d, entry.2.uses90d, last⟩

def Counts.summary (current : Int) (counts : Counts) : UsageSummary where
  generatedAt := current
  eventCount := counts.eventCount
  uriEventCount := counts.uriEventCount
  queryEventCount := counts.queryEventCount
  corruptLineCount := counts.corruptLineCount
  totals := ((counts.summaries.map UsageTargetSummary.uses7d).sum, (counts.summaries.map UsageTargetSummary.uses30d).sum,
    (counts.summaries.map UsageTargetSummary.uses90d).sum)
  targets := counts.summaries

def summarize (library : UsageLibrary) (listing : Listing) (folder : Folder) (current : Int) : UsageSummary :=
  (((usageFiles listing folder).map folder.content).foldl (Counts.file library current) .zero).summary current

end Workctx.Usage
