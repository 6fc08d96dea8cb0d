import Mathlib.Data.List.Basic
import Workctx.Text.Lines

/-! The identifier patterns and the path rules of the transaction documents. -/

namespace Workctx.Domain
open Workctx.Text

def isLowerAlnum (c : Char) : Bool := ('a' ≤ c && c ≤ 'z') || ('0' ≤ c && c ≤ '9')

def isAsciiDigit (c : Char) : Bool := '0' ≤ c && c ≤ '9'

def isLowerHex (c : Char) : Bool := ('a' ≤ c && c ≤ 'f') || ('0' ≤ c && c ≤ '9')

/-- `[a-z0-9]+(?:-[a-z0-9]+)*` -/
def matchesSlug (text : List Char) : Bool :=
  (text.splitOn '-').all fun segment => !segment.isEmpty && segment.all isLowerAlnum

/-- `[0-9]{8}T[0-9]{6}Z-` and a slug, behind a fixed tag. -/
def matchesStamped (tag text : List Char) : Bool :=
  tag.isPrefixOf text &&
    let body := text.drop tag.length
    (body.take 8).length == 8 && (body.take 8).all isAsciiDigit && (body.drop 8).take 1 == ['T'] &&
      ((body.drop 9).take 6).length == 6 && ((body.drop 9).take 6).all isAsciiDigit &&
      (body.drop 15).take 2 == ['Z', '-'] && matchesSlug (body.drop 17)

/-- `TRANSACTION_PROPOSAL_ID_PATTERN` -/
def isTransactionProposalId (text : String) : Bool := matchesStamped ['T', 'X', 'P', '-'] text.toList

/-- `AUDIT_EVENT_ID_PATTERN` -/
def isAuditEventId (text : String) : Bool := matchesStamped ['A', 'U', 'D', '-'] text.toList

/-- `CONTEXT_ID_PATTERN` with its length bounds. -/
def isContextId (text : String) : Bool :=
  matchesSlug text.toList && 2 ≤ text.length && text.length ≤ 64

def isHex64 (text : List Char) : Bool := text.length == 64 && text.all isLowerHex

/-- `REVISION_PATTERN` -/
def isRevision (text : String) : Bool := isHex64 text.toList

def contentHashPrefix : List Char := ['s', 'h', 'a', '2', '5', '6', ':']

/-- `CONTENT_HASH_PATTERN` -/
def isContentHash (text : String) : Bool :=
  contentHashPrefix.isPrefixOf text.toList && isHex64 (text.toList.drop contentHashPrefix.length)

def zeroRevision : String := String.ofList (List.replicate 64 '0')

/-- What the program computes with code outside the repository: the SHA-256 digest in
hexadecimal, the Unicode tables, the date-time codec, and the URI parser under the
durable references. -/
structure Platform where
  sha256Hex : Bytes → String
  hexDigest : ∀ bytes, isRevision (sha256Hex bytes) = true
  nfc : String → String
  casefold : String → String
  /-- The canonical text of an aware date-time in UTC; none for any other text. -/
  canonicalTimestamp : String → Option String
  validateDurableReference : String → Option String
  /-- The context of a `workctx://` URI that `WorkctxUri.parse` accepts. -/
  workctxContext : String → Option String

namespace Platform
variable (platform : Platform)

/-- `sha256_bytes` -/
def contentHash (bytes : Bytes) : String := String.ofList (contentHashPrefix ++ (platform.sha256Hex bytes).toList)

theorem isContentHash_contentHash (bytes : Bytes) : isContentHash (platform.contentHash bytes) = true := by
  have digest := platform.hexDigest bytes
  rw [isRevision] at digest
  rw [isContentHash, contentHash, String.toList_ofList, List.drop_left, digest, Bool.and_true]
  exact List.isPrefixOf_iff_prefix.mpr (List.prefix_append _ _)

def pathKey (value : String) : String := platform.casefold (platform.nfc value)

end Platform

def ledgerPath : String := "99_meta/audit/ledger.jsonl"

def canonicalZones : List String :=
  ["00_inbox", "01_processed", "02_knowledge", "03_work", "04_views", "05_outbox", "90_integrations", "99_meta"]

/-- One character under `re.IGNORECASE`, as far as the device names can tell: the letters of
the names have the dotted and the dotless i and the Kelvin sign among their case variants. -/
def foldDeviceChar (c : Char) : Char :=
  if 'A' ≤ c ∧ c ≤ 'Z' then Char.ofNat (c.toNat + 32)
  else if c = Char.ofNat 0x130 ∨ c = Char.ofNat 0x131 then 'i'
  else if c = Char.ofNat 0x212A then 'k'
  else c

def deviceNames : List String :=
  ["con", "prn", "aux", "nul", "clock$", "conin$", "conout$"] ++
    ((List.range 9).map fun n => "com" ++ toString (n + 1)) ++ (List.range 9).map fun n => "lpt" ++ toString (n + 1)

/-- `_WINDOWS_DEVICE_NAME`: a device name, alone or before a point. -/
def isWindowsDeviceName (part : List Char) : Bool :=
  (deviceNames.map String.toList).contains ((part.takeWhile (· ≠ '.')).map foldDeviceChar)

def isPortableSegment (part : List Char) : Bool :=
  !part.contains ':' && part.getLast? != some '.' && part.getLast? != some ' ' && !isWindowsDeviceName part

def validateContextPath (platform : Platform) (value : String) : Bool :=
  let parts := value.toList.splitOn '/'
  value != "" && platform.pathKey value != platform.pathKey ledgerPath &&
    !(value.toList.contains '\\' || value.toList.any fun c => c.toNat < 32) &&
    value == platform.nfc value &&
    (canonicalZones.map String.toList).contains (parts.headD []) &&
    !(parts.any fun part => part == [] || part == ['.'] || part == ['.', '.']) &&
    parts.all isPortableSegment

def validateGeneratedPath (platform : Platform) (value : String) : Bool :=
  validateContextPath platform value && "04_views/".toList.isPrefixOf value.toList

end Workctx.Domain
