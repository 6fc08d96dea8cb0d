import Workctx.Connectors.Models

/-! The requests of a connector. -/

namespace Workctx.Connectors
open Workctx.Text

structure Request where
  url : Url
  headers : List (Chars × Bytes)

/-- What comes back for one request, or how it fails. -/
inductive Answer where
  | timeout
  | failed
  /-- A response with its status, its `Location` and whether it can be closed. -/
  | response (status : Nat) (location : Option Chars) (closes : Bool)

inductive FailureKind where
  | timeout
  | connection
  | redirect
  | status (code : Nat)
deriving DecidableEq

/-- The end of the requests for one snapshot: a failure, or a response whose body is read. -/
inductive FetchOutcome where
  | failure (kind : FailureKind)
  | received (status : Nat)
deriving DecidableEq

def redirectStatuses : List Nat := [301, 302, 303, 307, 308]

def maxRedirects : Nat := 3

section
variable (library : UrlLibrary)

def redirectTarget (location : Option Chars) (currentUrl : Url) (allowedHost : Chars) : Option Url :=
  match location with
  | none => none
  | some location =>
    if 8192 < location.length then none
    else match library.join currentUrl location with
      | none => none
      | some target =>
        if (target.scheme ≠ http ∧ target.scheme ≠ https) ∨ library.casefold target.host ≠ library.casefold allowedHost ∨ target.userinfo ≠ [] then
          none
        else if currentUrl.scheme = https ∧ target.scheme ≠ https then none
        else some target

/-- `_build_request`; none where it raises. -/
def buildRequest (url : Url) (snapshot : SnapshotManifest) (includeManifestQuery : Bool) : Option Request :=
  (library.headerValue snapshot.accept).map fun accept =>
    ⟨if includeManifestQuery then library.mergeParams url snapshot.query else url, [("Accept".toList, accept)]⟩

/-- `_inject_authentication` into the request that goes out; none where it cannot be done. -/
def injectAuthentication (request : Request) (authStyle secret : Option Chars) : Option Request :=
  match authStyle, secret with
  | none, none => some request
  | some style, some secret =>
    match parseAuthStyle library style with
    | some .bearer =>
      (library.headerValue ("Bearer ".toList ++ secret)).map fun value => { request with headers := ("Authorization".toList, value) :: request.headers }
    | some (.header name) => (library.headerValue secret).map fun value => { request with headers := (name, value) :: request.headers }
    | some (.query name) => some { request with url := library.copySetParam request.url name secret }
    | none => none
  | _, _ => none

/-- The rest of `_fetch_snapshot` where so many redirects are left: the requests that go out, and the end. -/
def fetchFrom (manifest : ConnectorManifest) (snapshot : SnapshotManifest) (secret : Option Chars) (allowedHost : Chars) (answers : Nat → Answer) :
    (redirects number : Nat) → (currentUrl : Url) → (includeManifestQuery : Bool) → List Request × FetchOutcome
  | redirects, number, currentUrl, includeManifestQuery =>
    match buildRequest library currentUrl snapshot includeManifestQuery with
    | none => ([], .failure .connection)
    | some request =>
      match injectAuthentication library request manifest.authStyle secret with
      | none => ([], .failure .connection)
      | some outgoing =>
        match answers number with
        | .timeout => ([outgoing], .failure .timeout)
        | .failed => ([outgoing], .failure .connection)
        | .response status location closes =>
          if redirectStatuses.contains status then
            match redirects with
            | 0 => ([outgoing], .failure .redirect)
            | redirects + 1 =>
              match redirectTarget library location request.url allowedHost with
              | none => ([outgoing], .failure (if closes then .redirect else .connection))
              | some target =>
                if closes then
                  let later := fetchFrom manifest snapshot secret allowedHost answers redirects (number + 1) target false
                  (outgoing :: later.1, later.2)
                else ([outgoing], .failure .connection)
          else if status < 200 ∨ 300 ≤ status then
            ([outgoing], .failure (if closes then .status status else .connection))
          else ([outgoing], .received status)

def fetchSnapshot (manifest : ConnectorManifest) (snapshot : SnapshotManifest) (secret : Option Chars) (answers : Nat → Answer) :
    List Request × FetchOutcome :=
  match library.url manifest.baseUrl with
  | none => ([], .failure .connection)
  | some baseUrl =>
    match library.join baseUrl snapshot.path with
    | none => ([], .failure .connection)
    | some currentUrl => fetchFrom library manifest snapshot secret baseUrl.host answers maxRedirects 0 currentUrl true

end
end Workctx.Connectors
