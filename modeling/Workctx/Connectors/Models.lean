import Workctx.Connectors.Urls
import Workctx.Domain.Patterns

/-! The manifests of the connectors. -/

namespace Workctx.Connectors
open Workctx.Text Workctx.Services Workctx.Domain

structure SnapshotManifest where
  id : Chars
  path : Chars
  query : List (Chars × QueryValue)
  accept : Chars

def validatePath (value : Chars) : Bool :=
  let parsed := urlsplit value
  decide (value ≠ []) && decide (value.length ≤ 2048) &&
    !(value.any (fun c => decide (c.toNat < 32)) || value.contains '\\') &&
    !(decide (parsed.scheme ≠ []) || decide (parsed.netloc ≠ []) || decide (parsed.query ≠ []) || decide (parsed.fragment ≠ []) ||
      ['/', '/'].isPrefixOf value) &&
    !((value.dropWhile (· = '/')).splitOn '/').any fun part => part == ['.'] || part == ['.', '.']

inductive AuthStyle where
  | bearer
  | header (name : Chars)
  | query (name : Chars)
deriving DecidableEq

/-- `_HEADER_NAME_PATTERN` -/
def isHeaderName (name : Chars) : Bool :=
  decide (name ≠ []) && name.all fun c => isLetter c || isAsciiDigit c || ("!#$%&'*+.^_".toList ++ ['\x60'] ++ "|~-".toList).contains c

/-- `_QUERY_NAME_PATTERN` -/
def isQueryName (name : Chars) : Bool :=
  decide (name ≠ []) && name.all fun c => isLetter c || isAsciiDigit c || ['.', '_', '~', '-'].contains c

def framingHeaders : List Chars := ["connection", "content-length", "host", "transfer-encoding"].map String.toList

/-- `_parse_auth_style`; none where it raises. -/
def parseAuthStyle (library : UrlLibrary) (value : Chars) : Option AuthStyle :=
  if value = "bearer".toList then some .bearer
  else
    let kind := value.takeWhile (· ≠ ':')
    let parameter := (value.dropWhile (· ≠ ':')).drop 1
    if kind = "header".toList ∧ isHeaderName parameter then
      if framingHeaders.contains (library.casefold parameter) then none else some (.header parameter)
    else if kind = "query".toList ∧ isQueryName parameter then some (.query parameter)
    else none

structure ConnectorManifest where
  baseUrl : Chars
  allowInsecureHttp : Bool
  secretRef : Option Chars
  authStyle : Option Chars
  snapshots : List SnapshotManifest

def http : Chars := "http".toList

def https : Chars := "https".toList

def validateBaseUrl (library : UrlLibrary) (value : Chars) : Bool :=
  decide (value ≠ []) && decide (value.length ≤ 2048) &&
    match library.url value with
    | none => false
    | some parsed =>
      (parsed.scheme == http || parsed.scheme == https) && decide (parsed.host ≠ []) &&
        decide (parsed.userinfo = []) && decide (parsed.query = []) && decide (parsed.fragment = [])

def validateRelationalContract (library : UrlLibrary) (manifest : ConnectorManifest) : Bool :=
  !("http://".toList.isPrefixOf manifest.baseUrl && !manifest.allowInsecureHttp) &&
    (manifest.secretRef.isNone == manifest.authStyle.isNone) &&
    decide (manifest.snapshots.map SnapshotManifest.id).Nodup &&
    manifest.authStyle.all fun style =>
      match parseAuthStyle library style with
      | some (.query name) => !manifest.snapshots.any fun snapshot => (snapshot.query.map Prod.fst).contains name
      | _ => true

structure Accepted (library : UrlLibrary) (manifest : ConnectorManifest) : Prop where
  baseUrl : validateBaseUrl library manifest.baseUrl = true
  authStyle : ∀ style ∈ manifest.authStyle, (parseAuthStyle library style).isSome
  paths : ∀ snapshot ∈ manifest.snapshots, validatePath snapshot.path = true
  relational : validateRelationalContract library manifest = true

end Workctx.Connectors
