import Mathlib.Data.List.AList
import Workctx.Json.RoundTrip
import Workctx.Text.Lines

/-! The recording of usage events in a rotated log. -/

namespace Workctx.Usage
open Workctx.Text Workctx.Json

/-- An event names a target or the digest of a query. -/
structure UsageEvent where
  /-- The instant in microseconds -/
  timestamp : Int
  api : String
  targetUri : Option String
  querySha256 : Option String
  single : targetUri.isSome ≠ querySha256.isSome

/-- What recording and evaluation take from the models' library and from the standard library. -/
structure UsageLibrary where
  /-- The text of an instant in a dumped model -/
  isoText : Int → String
  /-- `UsageEvent.model_validate` of what a line holds -/
  modelValidate : Value → Option UsageEvent
  /-- The lines that come out of a file before bytes that are no UTF-8 -/
  linesBefore : Bytes → List (List Char)

/-- `event.model_dump(mode="json", exclude_none=True)` -/
def UsageEvent.modelDump (library : UsageLibrary) (event : UsageEvent) : Value :=
  .object ([("timestamp", .string (library.isoText event.timestamp)), ("api", .string event.api)] ++
    (event.targetUri.map fun uri => ("target_uri", Value.string uri)).toList ++
    (event.querySha256.map fun digest => ("query_sha256", Value.string digest)).toList)

def UsageEvent.text (library : UsageLibrary) (event : UsageEvent) : List Char := dumpsCompact (event.modelDump library)

def UsageEvent.payload (library : UsageLibrary) (event : UsageEvent) : Bytes := encodeUtf8 (event.text library) ++ [linefeed]

abbrev Folder := AList fun _ : String => Bytes

def currentName : String := "usage.jsonl"

/-- `_rotated_path` -/
def rotatedName (index : Nat) : String := currentName ++ "." ++ toString index

/-- `source.replace(target)`; a file that is not there is not moved. -/
def Folder.replace (folder : Folder) (source target : String) : Folder :=
  match folder.lookup source with
  | none => folder
  | some bytes => (folder.erase source).insert target bytes

/-- The rest of `_rotate` from an index on, as the directories after each of its steps. -/
def shiftMoments : Nat → Folder → List Folder
  | 0, folder => [folder.replace currentName (rotatedName 1)]
  | index + 1, folder =>
    let moved := if (folder.lookup (rotatedName (index + 1))).isSome then folder.replace (rotatedName (index + 1)) (rotatedName (index + 2)) else folder
    moved :: shiftMoments index moved

/-- `_rotate`, as the directories after each of its steps. -/
def rotateMoments (keep : Nat) (folder : Folder) : List Folder :=
  match keep with
  | 0 => [folder.erase currentName]
  | index + 1 =>
    let freed := if (folder.lookup (rotatedName (index + 1))).isSome then folder.erase (rotatedName (index + 1)) else folder
    freed :: shiftMoments index freed

def Folder.content (folder : Folder) (name : String) : Bytes := (folder.lookup name).getD []

/-- What `_append` does to the directory before it writes the payload. -/
def makeRoom (maxBytes keep : Nat) (payload : Bytes) (folder : Folder) : List Folder :=
  let currentSize := (folder.content currentName).length
  if currentSize ≠ 0 ∧ maxBytes < currentSize + payload.length then rotateMoments keep folder else []

def Folder.write (folder : Folder) (payload : Bytes) : Folder := folder.insert currentName (folder.content currentName ++ payload)

/-- The directory when the file is opened for the payload. -/
def roomMade (maxBytes keep : Nat) (payload : Bytes) (folder : Folder) : Folder :=
  ((makeRoom maxBytes keep payload folder).getLast?).getD folder

/-- `_append`: the directories on the way, and the one when it returns. -/
def appendMoments (maxBytes keep : Nat) (payload : Bytes) (folder : Folder) : List Folder :=
  makeRoom maxBytes keep payload folder ++ [(roomMade maxBytes keep payload folder).write []]

def append (maxBytes keep : Nat) (payload : Bytes) (folder : Folder) : Folder := (roomMade maxBytes keep payload folder).write payload

/-- The directories that come about while events are recorded, with the events recorded so far. A call that stops on the way leaves the directory
as it is then. -/
inductive Recorded (library : UsageLibrary) (maxBytes keep : Nat) : Folder → List UsageEvent → Prop
  | nothing : Recorded library maxBytes keep ∅ []
  | meanwhile {folder moment : Folder} {events : List UsageEvent} (event : UsageEvent) (before : Recorded library maxBytes keep folder events)
      (step : moment ∈ appendMoments maxBytes keep (event.payload library) folder) : Recorded library maxBytes keep moment events
  | appended {folder : Folder} {events : List UsageEvent} (event : UsageEvent) (before : Recorded library maxBytes keep folder events) :
      Recorded library maxBytes keep (append maxBytes keep (event.payload library) folder) (events ++ [event])

end Workctx.Usage
