import Mathlib.Data.List.Basic
import Workctx.Services.World
import Workctx.Text.Lines

/-! URLs: how their texts are split, and what is taken from the HTTP library. -/

namespace Workctx.Connectors
open Workctx.Text Workctx.Services

abbrev Chars := List Char

def isLetter (c : Char) : Bool := ('a' ≤ c && c ≤ 'z') || ('A' ≤ c && c ≤ 'Z')

def isSchemeSign (c : Char) : Bool := isLetter c || ('0' ≤ c && c ≤ '9') || c == '+' || c == '-' || c == '.'

/-- The scheme of a URL or of a relative reference; none of them is empty. -/
def schemeOf (text : Chars) : Chars :=
  let front := text.takeWhile (· ≠ ':')
  if front.length < text.length ∧ front.head?.any isLetter ∧ front.all isSchemeSign then front else []

def behindScheme (text : Chars) : Chars := if schemeOf text = [] then text else text.drop ((schemeOf text).length + 1)

def hasAuthority (text : Chars) : Bool := ['/', '/'].isPrefixOf (behindScheme text)

/-- What `urlsplit` finds but the path -/
structure SplitResult where
  scheme : Chars
  netloc : Chars
  query : Chars
  fragment : Chars

/-- `urlsplit`, which passes over control characters and blanks at the start, and over tabulators and line ends. -/
def urlsplit (text : Chars) : SplitResult :=
  let text := (text.dropWhile fun c => decide (c.toNat ≤ 32)).filter fun c => c != '\t' && c != '\r' && c != '\n'
  let rest := behindScheme text
  let netloc := if hasAuthority text then (rest.drop 2).takeWhile fun c => c != '/' && c != '?' && c != '#' else []
  let rest := if hasAuthority text then rest.drop (2 + netloc.length) else rest
  let bare := rest.takeWhile (· ≠ '#')
  { scheme := (schemeOf text).map lowerAscii
    netloc
    query := (bare.dropWhile (· ≠ '?')).drop 1
    fragment := (rest.dropWhile (· ≠ '#')).drop 1 }

structure Authority where
  userinfo : Chars
  host : Chars
  port : Option Nat
deriving DecidableEq

/-- `httpx.URL`: a URL or a relative reference -/
structure Url where
  scheme : Chars
  authority : Option Authority
  path : Chars
  query : Chars
  fragment : Chars
deriving DecidableEq

def Url.host (url : Url) : Chars := url.authority.elim [] Authority.host

def Url.userinfo (url : Url) : Chars := url.authority.elim [] Authority.userinfo

inductive QueryValue where
  | str (text : Chars)
  | int (value : Int)
  | float (lexeme : Chars)
  | bool (value : Bool)

/-- What the runtime takes from the HTTP library and from the tables of Unicode, with what their documentation says of it. -/
structure UrlLibrary where
  /-- `httpx.URL(text)`; none where it raises. -/
  url : Chars → Option Url
  /-- The scheme comes in small letters. -/
  url_scheme : ∀ {text found}, url text = some found → found.scheme = (schemeOf text).map lowerAscii
  url_authority : ∀ {text found}, url text = some found → found.authority.isSome = hasAuthority text
  /-- `base.join(text)`; none where it raises. -/
  join : Url → Chars → Option Url
  /-- A reference is resolved against a base: it keeps the scheme and the authority that it has. -/
  join_reference : ∀ {base text target}, join base text = some target → ∃ reference, url text = some reference ∧
    target.scheme = (if reference.scheme = [] then base.scheme else reference.scheme) ∧
    target.authority = if reference.scheme = [] then reference.authority.or base.authority else reference.authority
  /-- A reference with an authority needs nothing of the base but the scheme. -/
  join_authority : ∀ {base text reference}, url text = some reference → reference.authority.isSome → (join base text).isSome
  /-- `params=` of a request, and `copy_set_param`: they change the query. -/
  mergeParams : Url → List (Chars × QueryValue) → Url
  mergeParams_origin : ∀ url query, (mergeParams url query).scheme = url.scheme ∧ (mergeParams url query).authority = url.authority
  copySetParam : Url → Chars → Chars → Url
  copySetParam_origin : ∀ url name value, (copySetParam url name value).scheme = url.scheme ∧ (copySetParam url name value).authority = url.authority
  /-- The bytes of the value of a header; none where it has none. -/
  headerValue : Chars → Option Bytes
  /-- `str.casefold` -/
  casefold : Chars → Chars
  casefold_nil : ∀ {text}, casefold text = casefold [] → text = []

end Workctx.Connectors
