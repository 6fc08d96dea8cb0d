import Workctx.Ingestion.Models
import Workctx.Secrets.Patterns
import Workctx.Text.Windows

/-! The scan of an artifact: guards that look at its name, its media type and its first bytes, and the
search for secrets and prompt injections in the windows of its text. -/

namespace Workctx.Ingestion
open Workctx.Text Workctx.Domain Workctx.Services Workctx.Secrets

structure IngestionPolicy where
  maxArtifactBytes : Nat
  scanChunkBytes : Nat
  scanOverlapChars : Nat
  maxArtifactBytes_pos : 1 ≤ maxArtifactBytes
  scanChunkBytes_bounds : 4096 ≤ scanChunkBytes ∧ scanChunkBytes ≤ 8 * 1024 * 1024
  scanOverlapChars_bounds : 256 ≤ scanOverlapChars ∧ scanOverlapChars ≤ 65536

/-! Names and media types. -/

def mediaBySuffix : List (String × String) :=
  [(".bmp", "image/bmp"), (".csv", "text/csv"), (".doc", "application/msword"),
    (".docx", "application/vnd.openxmlformats-officedocument.wordprocessingml.document"), (".eml", "message/rfc822"),
    (".flac", "audio/flac"), (".gif", "image/gif"), (".htm", "text/html"), (".html", "text/html"), (".jpeg", "image/jpeg"),
    (".jpg", "image/jpeg"), (".json", "application/json"), (".log", "text/plain"), (".md", "text/markdown"),
    (".mkv", "video/x-matroska"), (".mov", "video/quicktime"), (".mp3", "audio/mpeg"), (".mp4", "video/mp4"),
    (".odf", "application/vnd.oasis.opendocument.formula"), (".odg", "application/vnd.oasis.opendocument.graphics"),
    (".odp", "application/vnd.oasis.opendocument.presentation"), (".ods", "application/vnd.oasis.opendocument.spreadsheet"),
    (".odt", "application/vnd.oasis.opendocument.text"), (".ogg", "audio/ogg"), (".pdf", "application/pdf"), (".png", "image/png"),
    (".ppt", "application/vnd.ms-powerpoint"), (".pptx", "application/vnd.openxmlformats-officedocument.presentationml.presentation"),
    (".rtf", "application/rtf"), (".tif", "image/tiff"), (".tiff", "image/tiff"), (".tsv", "text/tab-separated-values"),
    (".txt", "text/plain"), (".wav", "audio/wav"), (".webm", "video/webm"), (".webp", "image/webp"),
    (".xls", "application/vnd.ms-excel"), (".xlsx", "application/vnd.openxmlformats-officedocument.spreadsheetml.sheet"),
    (".xml", "application/xml"), (".yaml", "application/yaml"), (".yml", "application/yaml")]

def supportedApplicationTypes : List String :=
  ["application/json", "application/msword", "application/pdf", "application/rtf", "application/vnd.ms-excel",
    "application/vnd.ms-powerpoint", "application/vnd.oasis.opendocument.formula", "application/vnd.oasis.opendocument.graphics",
    "application/vnd.oasis.opendocument.presentation", "application/vnd.oasis.opendocument.spreadsheet",
    "application/vnd.oasis.opendocument.text", "application/vnd.openxmlformats-officedocument.presentationml.presentation",
    "application/vnd.openxmlformats-officedocument.spreadsheetml.sheet",
    "application/vnd.openxmlformats-officedocument.wordprocessingml.document", "application/xml", "application/yaml"]

def executableSuffixes : List String :=
  [".apk", ".app", ".bat", ".cmd", ".com", ".cpl", ".deb", ".dll", ".dmg", ".exe", ".hta", ".ipa", ".jar", ".js", ".lnk", ".msi",
    ".msix", ".mjs", ".pkg", ".ps1", ".psm1", ".py", ".pyw", ".reg", ".rpm", ".scr", ".sh", ".vbe", ".vbs", ".wsf"]

def executableMediaTypes : List String :=
  ["application/java-archive", "application/vnd.android.package-archive", "application/vnd.microsoft.portable-executable",
    "application/x-dosexec", "application/x-executable", "application/x-msdownload", "application/x-msi", "application/x-sh"]

def isSupportedMediaType (mediaType : String) : Bool :=
  (["audio/", "image/", "text/", "video/"].any fun start => start.toList.isPrefixOf mediaType.toList) ||
    mediaType == "message/rfc822" || supportedApplicationTypes.contains mediaType

/-- The media types with another name. One of three names is no alias of another: it is two names that are looked up. -/
def mediaTypeAliases : List (List String) :=
  [["application/json", "text/json"], ["application/xml", "text/xml"], ["application/yaml", "text/yaml", "text/x-yaml"],
    ["audio/wav", "audio/x-wav"]]

def mediaTypesAreCompatible (declared inferred : String) : Bool :=
  declared == inferred || mediaTypeAliases.any fun names =>
    names.length == 2 && names.contains declared && names.contains inferred

/-! Secrets and prompt injections. The text of a window has no letter but those of Latin 1. -/

/-- `\s*` -/
def blanks : Pattern Char := .run isSpace 0 none

def plural (word : String) : Pattern Char := .seq (folded word) (.optional (folded "s"))

section
variable (isWord : Char → Bool)

/-- `_PROMPT_INJECTION_MARKERS`; a `\b` is in front of a letter or behind one. -/
def promptInjectionMarkers : List (Pattern Char) :=
  [.chain (.notBehind isWord)
      [.oneOf (folded "ignore") [folded "disregard", folded "override"], spaces, .optional (.seq (folded "all") spaces),
        .oneOf (folded "previous") [folded "prior", folded "above", folded "system", folded "developer"], spaces,
        .oneOf (folded "instructions") [folded "messages", plural "prompt"], .notAhead isWord],
    .chain (.notBehind isWord)
      [.oneOf (folded "system") [folded "developer"], spaces, .oneOf (folded "message") [folded "prompt"], .notAhead isWord],
    .chain (plain "<")
      [blanks, .optional (plain "/"), blanks, .oneOf (folded "system") [folded "developer", folded "assistant"], blanks, plain ">"],
    .chain (.notBehind isWord)
      [.oneOf (folded "reveal") [folded "print", folded "exfiltrate"], .notAhead isWord, .run (fun _ => true) 0 (some 120),
        .notBehind isWord,
        .oneOf (plural "credential")
          [plural "password", plural "secret", .chain (folded "system") [spaces, folded "prompt"], plural "token"],
        .notAhead isWord]]

/-- `set.add` -/
def addReason (reason : QuarantineReason) (reasons : List QuarantineReason) : List QuarantineReason :=
  if reasons.contains reason then reasons else reasons ++ [reason]

/-- What is searched of a window: it, and where it has null characters, it without them. -/
def candidates (window : List Char) : List (List Char) :=
  if window.contains '\x00' then [window, window.filter (· != '\x00')] else [window]

def shows : QuarantineReason → List Char → Bool
  | .possibleSecret, text => containsPossibleSecret isWord text
  | .promptInjection, text => (promptInjectionMarkers isWord).any fun marker => marker.occurs none text
  | _, _ => false

def scanTextWindow (window : List Char) (reasons : List QuarantineReason) : List QuarantineReason :=
  let secret := if !reasons.contains .possibleSecret && (candidates window).any (shows isWord .possibleSecret) then
      addReason .possibleSecret reasons
    else reasons
  if !secret.contains .promptInjection && (candidates window).any (shows isWord .promptInjection) then
    addReason .promptInjection secret
  else secret

def hasExecutableMagic (chunk : Bytes) : Bool :=
  [[0x4D, 0x5A], [0x7F, 0x45, 0x4C, 0x46], [0xCA, 0xFE, 0xBA, 0xBE], [0xCE, 0xFA, 0xED, 0xFE], [0xCF, 0xFA, 0xED, 0xFE],
    [0xFE, 0xED, 0xFA, 0xCE], [0xFE, 0xED, 0xFA, 0xCF], [0x23, 0x21], [0xEF, 0xBB, 0xBF, 0x23, 0x21]].any fun magic =>
    magic.isPrefixOf chunk

/-- `bytes.decode("latin-1")` -/
def latin1 (content : Bytes) : List Char := content.map fun byte => Char.ofNat byte.toNat

def scanChunks (policy : IngestionPolicy) : (firstChunk : Bool) → (tail : List Char) → List QuarantineReason → List Bytes →
    List QuarantineReason
  | _, _, reasons, [] => reasons
  | firstChunk, tail, reasons, chunk :: rest =>
    let known := if firstChunk && hasExecutableMagic chunk then addReason .executablePayload reasons else reasons
    let window := tail ++ latin1 chunk
    scanChunks policy false (lastSigns policy.scanOverlapChars window) (scanTextWindow isWord window known) rest

structure ArtifactScan where
  contentHash : String
  sizeBytes : Nat
  mediaType : String
  reasons : List QuarantineReason

/-- `scan_artifact` of a regular file that nobody touches; `lower` is `str.lower`, and `hash` the digest of the content. -/
def scanArtifact (lower : String → String) (hash : Bytes → String) (policy : IngestionPolicy) (path : String)
    (declaredMediaType : Option String) (content : Bytes) : ArtifactScan :=
  let suffix := lower (String.ofList (splitSuffix (nameOf path)).2)
  let inferred := (mediaBySuffix.find? fun entry => entry.1 == suffix).map Prod.snd
  let declared := declaredMediaType.map fun value => lower (String.ofList (strip (value.toList.takeWhile (· != ';'))))
  let mediaType := (declared.filter (· != "")).getD (inferred.getD "application/octet-stream")
  let executable := if executableSuffixes.contains suffix || executableMediaTypes.contains mediaType then [.executablePayload] else []
  let supported := if !isSupportedMediaType mediaType || !(inferred.any (mediaTypesAreCompatible mediaType)) then
      addReason .unsupportedType executable
    else executable
  let sized := if policy.maxArtifactBytes < content.length then addReason .oversized supported else supported
  let reasons := scanChunks isWord policy true [] sized (readChunks policy.scanChunkBytes content.length content)
  ⟨hash content, content.length, mediaType, reasons.mergeSort fun one two => decide (one.value ≤ two.value)⟩

end
end Workctx.Ingestion
