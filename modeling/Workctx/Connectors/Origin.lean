import Mathlib.Data.List.Chain
import Workctx.Connectors.Runtime

/-! Where the secret of a connector goes. -/

namespace Workctx.Connectors
open Workctx.Text Workctx.Services List

/-! The path of a snapshot has neither a scheme nor an authority. -/

theorem schemeOf_head {text : Chars} (found : schemeOf text ≠ []) : ∃ c rest, text = c :: rest ∧ isLetter c = true := by
  unfold schemeOf at found
  dsimp only at found
  split at found
  · next facts =>
    cases text with
    | nil => exact absurd facts.1 (Nat.lt_irrefl 0)
    | cons c rest =>
      refine ⟨c, rest, rfl, ?_⟩
      by_cases colon : c = ':'
      · rw [takeWhile_cons_of_neg (by simp [colon])] at found
        exact absurd rfl found
      · have first := facts.2.1
        rw [takeWhile_cons_of_pos (by simp [colon])] at first
        exact first
  · exact absurd rfl found

theorem thirty_two_lt_of_letter {c : Char} (letter : isLetter c = true) : 32 < c.toNat := by
  simp only [isLetter, Bool.or_eq_true, Bool.and_eq_true, decide_eq_true_eq] at letter
  cases letter with
  | inl small => exact lt_of_lt_of_le (by decide) (Char.le_def.mp small.1)
  | inr capital => exact lt_of_lt_of_le (by decide) (Char.le_def.mp capital.1)

/-- `urlsplit` finds the scheme of a text without control characters. -/
theorem urlsplit_scheme {text : Chars} (printable : ∀ c ∈ text, 32 ≤ c.toNat) (found : schemeOf text ≠ []) : (urlsplit text).scheme ≠ [] := by
  obtain ⟨c, rest, rfl, letter⟩ := schemeOf_head found
  have visible := thirty_two_lt_of_letter letter
  have kept : ((c :: rest).filter fun c => c != '\t' && c != '\r' && c != '\n') = c :: rest := by
    refine filter_eq_self.mpr fun other member => ?_
    have high := printable other member
    simp only [Bool.and_eq_true, bne_iff_ne]
    refine ⟨⟨?_, ?_⟩, ?_⟩
    all_goals
      intro same
      rw [same] at high
      exact absurd high (by decide)
  have same : (urlsplit (c :: rest)).scheme = (schemeOf (c :: rest)).map lowerAscii := by
    unfold urlsplit
    rw [dropWhile_cons_of_neg (by simpa using visible), kept]
  rw [same]
  exact fun empty => found (map_eq_nil_iff.mp empty)

theorem validatePath_relative {path : Chars} (valid : validatePath path = true) : schemeOf path = [] ∧ hasAuthority path = false := by
  simp only [validatePath, Bool.and_eq_true, Bool.not_eq_true', Bool.or_eq_false_iff, decide_eq_false_iff_not, not_not] at valid
  obtain ⟨⟨⟨_, controls, _⟩, ⟨⟨⟨⟨scheme, _⟩, _⟩, _⟩, slashes⟩⟩, _⟩ := valid
  have printable : ∀ c ∈ path, 32 ≤ c.toNat := by
    intro c member
    have high := any_eq_false.mp controls c member
    simpa using high
  have bare : schemeOf path = [] := by
    by_contra found
    exact urlsplit_scheme printable found scheme
  exact ⟨bare, by rw [hasAuthority, behindScheme, if_pos bare, slashes]⟩

section
variable {library : UrlLibrary}

theorem Url.host_congr {one two : Url} (same : one.authority = two.authority) : one.host = two.host := by
  rw [Url.host, Url.host, same]

theorem join_path {base first : Url} {path : Chars} (valid : validatePath path = true) (joined : library.join base path = some first) :
    first.scheme = base.scheme ∧ first.authority = base.authority := by
  obtain ⟨reference, read, scheme, authority⟩ := library.join_reference joined
  obtain ⟨noScheme, noAuthority⟩ := validatePath_relative valid
  have bare : reference.scheme = [] := by
    rw [library.url_scheme read, noScheme, map_nil]
  have alone : reference.authority = none := by
    have absent := library.url_authority read
    rw [noAuthority] at absent
    exact Option.isSome_eq_false_iff.mp absent |> Option.isNone_iff_eq_none.mp
  rw [if_pos bare] at scheme authority
  rw [alone, Option.none_or] at authority
  exact ⟨scheme, authority⟩

/-! The requests. -/

theorem buildRequest_origin {url : Url} {snapshot : SnapshotManifest} {includeManifestQuery : Bool} {request : Request}
    (built : buildRequest library url snapshot includeManifestQuery = some request) :
    request.url.scheme = url.scheme ∧ request.url.authority = url.authority := by
  obtain ⟨accept, _, rfl⟩ := Option.map_eq_some_iff.mp built
  cases includeManifestQuery with
  | false => exact ⟨rfl, rfl⟩
  | true => exact library.mergeParams_origin url snapshot.query

theorem injectAuthentication_origin {request outgoing : Request} {authStyle secret : Option Chars}
    (injected : injectAuthentication library request authStyle secret = some outgoing) :
    outgoing.url.scheme = request.url.scheme ∧ outgoing.url.authority = request.url.authority := by
  unfold injectAuthentication at injected
  split at injected
  · cases injected
    exact ⟨rfl, rfl⟩
  · next style secret =>
    split at injected
    · obtain ⟨value, _, rfl⟩ := Option.map_eq_some_iff.mp injected
      exact ⟨rfl, rfl⟩
    · obtain ⟨value, _, rfl⟩ := Option.map_eq_some_iff.mp injected
      exact ⟨rfl, rfl⟩
    · next name _ =>
      cases injected
      exact library.copySetParam_origin request.url name secret
    · cases injected
  · cases injected

structure Followed (library : UrlLibrary) (currentUrl target : Url) (allowedHost : Chars) : Prop where
  scheme : target.scheme = http ∨ target.scheme = https
  host : library.casefold target.host = library.casefold allowedHost
  userinfo : target.userinfo = []
  secure : currentUrl.scheme = https → target.scheme = https

theorem redirectTarget_some {location : Option Chars} {currentUrl target : Url} {allowedHost : Chars} :
    redirectTarget library location currentUrl allowedHost = some target ↔
      ∃ text, location = some text ∧ text.length ≤ 8192 ∧ library.join currentUrl text = some target ∧
        Followed library currentUrl target allowedHost := by
  constructor
  · intro found
    unfold redirectTarget at found
    split at found
    · cases found
    · next text =>
      split at found
      · cases found
      · next short =>
        split at found
        · cases found
        · next url joined =>
          split at found
          · cases found
          · next fits =>
            split at found
            · cases found
            · next secure =>
              cases found
              rw [not_or, not_or, not_not, not_not, not_and_or, not_not, not_not] at fits
              refine ⟨text, rfl, by omega, joined, fits.1, fits.2.1, fits.2.2, ?_⟩
              · intro current
                by_contra other
                exact secure ⟨current, other⟩
  · intro facts
    obtain ⟨text, rfl, short, joined, followed⟩ := facts
    have fits : ¬ ((target.scheme ≠ http ∧ target.scheme ≠ https) ∨ library.casefold target.host ≠ library.casefold allowedHost ∨
        target.userinfo ≠ []) := by
      intro wrong
      rcases wrong with wrong | wrong | wrong
      · exact followed.scheme.elim wrong.1 wrong.2
      · exact wrong followed.host
      · exact wrong followed.userinfo
    have secure : ¬ (currentUrl.scheme = https ∧ target.scheme ≠ https) := fun wrong => wrong.2 (followed.secure wrong.1)
    unfold redirectTarget
    dsimp only
    rw [if_neg (by omega), joined]
    dsimp only
    rw [if_neg fits, if_neg secure]

/-! One run. -/

variable {manifest : ConnectorManifest} {snapshot : SnapshotManifest} {secret : Option Chars} {allowedHost : Chars} {answers : Nat → Answer}

/-- The requests of a run: none, one, or one before the requests behind a followed redirect. -/
theorem fetchFrom_requests (redirects number : Nat) (currentUrl : Url) (includeManifestQuery : Bool) :
    (fetchFrom library manifest snapshot secret allowedHost answers redirects number currentUrl includeManifestQuery).1 = [] ∨
      ∃ request outgoing, buildRequest library currentUrl snapshot includeManifestQuery = some request ∧
        injectAuthentication library request manifest.authStyle secret = some outgoing ∧
        ((fetchFrom library manifest snapshot secret allowedHost answers redirects number currentUrl includeManifestQuery).1 = [outgoing] ∨
          ∃ left location target, redirects = left + 1 ∧ redirectTarget library location request.url allowedHost = some target ∧
            (fetchFrom library manifest snapshot secret allowedHost answers redirects number currentUrl includeManifestQuery).1 =
              outgoing :: (fetchFrom library manifest snapshot secret allowedHost answers left (number + 1) target false).1) := by
  rw [fetchFrom]
  split
  · exact Or.inl rfl
  · next request built =>
    split
    · exact Or.inl rfl
    · next outgoing injected =>
      refine Or.inr ⟨request, outgoing, built, injected, ?_⟩
      split
      · exact Or.inl rfl
      · exact Or.inl rfl
      · next status location closes _ =>
        split
        · split
          · exact Or.inl rfl
          · next left =>
            split
            · exact Or.inl rfl
            · next target found =>
              split
              · exact Or.inr ⟨left, location, target, rfl, found, rfl⟩
              · exact Or.inl rfl
        · split
          · exact Or.inl rfl
          · exact Or.inl rfl

theorem fetchFrom_length (redirects number : Nat) (currentUrl : Url) (includeManifestQuery : Bool) :
    (fetchFrom library manifest snapshot secret allowedHost answers redirects number currentUrl includeManifestQuery).1.length ≤ redirects + 1 := by
  induction redirects generalizing number currentUrl includeManifestQuery with
  | zero =>
    rcases fetchFrom_requests 0 number currentUrl includeManifestQuery with sent | ⟨request, outgoing, _, _, sent | ⟨left, _, _, count, _⟩⟩
    · rw [sent]
      exact Nat.zero_le _
    · rw [sent, length_singleton]
    · omega
  | succ redirects ih =>
    rcases fetchFrom_requests (redirects + 1) number currentUrl includeManifestQuery with
      sent | ⟨request, outgoing, _, _, sent | ⟨left, _, target, count, _, sent⟩⟩
    · rw [sent]
      exact Nat.zero_le _
    · rw [sent, length_singleton]
      omega
    · obtain rfl : redirects = left := by omega
      have later := ih (number + 1) target false
      rw [sent, length_cons]
      omega

theorem fetchFrom_head (redirects number : Nat) (currentUrl : Url) (includeManifestQuery : Bool) :
    ∀ outgoing ∈ (fetchFrom library manifest snapshot secret allowedHost answers redirects number currentUrl includeManifestQuery).1.head?,
      outgoing.url.scheme = currentUrl.scheme ∧ outgoing.url.authority = currentUrl.authority := by
  intro outgoing member
  rcases fetchFrom_requests redirects number currentUrl includeManifestQuery with sent | ⟨request, first, built, injected, sent⟩
  · rw [sent] at member
    cases member
  · have same : first = outgoing := by
      rcases sent with sent | ⟨_, _, _, _, _, sent⟩
      · rw [sent] at member
        exact Option.some.inj member
      · rw [sent] at member
        exact Option.some.inj member
    subst same
    have one := buildRequest_origin built
    have two := injectAuthentication_origin injected
    exact ⟨two.1.trans one.1, two.2.trans one.2⟩

theorem fetchFrom_chain (redirects number : Nat) (currentUrl : Url) (includeManifestQuery : Bool) :
    (fetchFrom library manifest snapshot secret allowedHost answers redirects number currentUrl includeManifestQuery).1.IsChain
      fun one two => one.url.scheme = https → two.url.scheme = https := by
  induction redirects generalizing number currentUrl includeManifestQuery with
  | zero =>
    rcases fetchFrom_requests 0 number currentUrl includeManifestQuery with sent | ⟨request, outgoing, _, _, sent | ⟨left, _, _, count, _⟩⟩
    · rw [sent]
      exact .nil
    · rw [sent]
      exact .singleton _
    · omega
  | succ redirects ih =>
    rcases fetchFrom_requests (redirects + 1) number currentUrl includeManifestQuery with
      sent | ⟨request, outgoing, built, injected, sent | ⟨left, _, target, count, found, sent⟩⟩
    · rw [sent]
      exact .nil
    · rw [sent]
      exact .singleton _
    · obtain rfl : redirects = left := by omega
      rw [sent, isChain_cons]
      refine ⟨?_, ih (number + 1) target false⟩
      intro next member secure
      obtain ⟨_, _, _, _, followed⟩ := redirectTarget_some.mp found
      rw [(injectAuthentication_origin injected).1] at secure
      exact (fetchFrom_head redirects (number + 1) target false next member).1.trans (followed.secure secure)

def HostsApart (library : UrlLibrary) (base : Url) : Prop :=
  ∀ location reference, location.length ≤ 8192 → library.url location = some reference → reference.authority.isSome →
    (reference.scheme = [] ∨ reference.scheme = https ∨ (reference.scheme = http ∧ base.scheme ≠ https)) → reference.userinfo = [] →
      library.casefold reference.host = library.casefold base.host → reference.host = base.host

structure OfOrigin (base url : Url) : Prop where
  host : url.host = base.host
  scheme : url.scheme = http ∨ url.scheme = https
  secure : base.scheme = https → url.scheme = https

theorem OfOrigin.congr {base one two : Url} (origin : OfOrigin base one) (scheme : two.scheme = one.scheme)
    (authority : two.authority = one.authority) : OfOrigin base two where
  host := (Url.host_congr authority).trans origin.host
  scheme := by
    rw [scheme]
    exact origin.scheme
  secure above := scheme.trans (origin.secure above)

theorem OfOrigin.followed {base currentUrl target : Url} (origin : OfOrigin base currentUrl) (apart : HostsApart library base) (named : base.host ≠ [])
    {location : Option Chars} (found : redirectTarget library location currentUrl base.host = some target) : OfOrigin base target := by
  obtain ⟨text, rfl, short, joined, followed⟩ := redirectTarget_some.mp found
  refine ⟨?_, followed.scheme, fun above => followed.secure (origin.secure above)⟩
  obtain ⟨reference, read, scheme, authority⟩ := library.join_reference joined
  by_cases relative : reference.scheme = []
  · rw [if_pos relative] at scheme authority
    cases held : reference.authority with
    | none =>
      rw [held, Option.none_or] at authority
      exact (Url.host_congr authority).trans origin.host
    | some found =>
      rw [held, Option.some_or] at authority
      have same : target.authority = reference.authority := authority.trans held.symm
      rw [Url.host_congr same]
      have bare : reference.userinfo = [] := by
        rw [← followed.userinfo, Url.userinfo, Url.userinfo, same]
      have folded := followed.host
      rw [Url.host_congr same] at folded
      exact apart text reference short read (by rw [held]; rfl) (Or.inl relative) bare folded
  · rw [if_neg relative] at scheme authority
    cases held : reference.authority with
    | none =>
      have nowhere : target.host = [] := by
        rw [Url.host, authority, held]
        rfl
      have folded := followed.host
      rw [nowhere] at folded
      exact absurd (library.casefold_nil folded.symm) named
    | some found =>
      rw [Url.host_congr authority]
      have bare : reference.userinfo = [] := by
        rw [← followed.userinfo, Url.userinfo, Url.userinfo, authority]
      have folded := followed.host
      rw [Url.host_congr authority] at folded
      refine apart text reference short read (by rw [held]; rfl) (Or.inr ?_) bare folded
      rw [← scheme]
      cases followed.scheme with
      | inr secure => exact Or.inl secure
      | inl plain =>
        refine Or.inr ⟨plain, fun above => ?_⟩
        have secure := followed.secure (origin.secure above)
        rw [plain] at secure
        exact absurd secure (by decide)

theorem fetchFrom_origin {base : Url} (apart : HostsApart library base) (named : base.host ≠ []) (redirects number : Nat) {currentUrl : Url}
    (origin : OfOrigin base currentUrl) (includeManifestQuery : Bool) :
    ∀ outgoing ∈ (fetchFrom library manifest snapshot secret base.host answers redirects number currentUrl includeManifestQuery).1,
      OfOrigin base outgoing.url := by
  induction redirects generalizing number currentUrl includeManifestQuery with
  | zero =>
    intro outgoing member
    rcases fetchFrom_requests 0 number currentUrl includeManifestQuery with sent | ⟨request, first, built, injected, sent | ⟨left, _, _, count, _⟩⟩
    · rw [sent] at member
      cases member
    · rw [sent] at member
      rw [mem_singleton.mp member]
      have one := buildRequest_origin built
      have two := injectAuthentication_origin injected
      exact origin.congr (two.1.trans one.1) (two.2.trans one.2)
    · omega
  | succ redirects ih =>
    intro outgoing member
    rcases fetchFrom_requests (redirects + 1) number currentUrl includeManifestQuery with
      sent | ⟨request, first, built, injected, sent⟩
    · rw [sent] at member
      cases member
    · have one := buildRequest_origin built
      have two := injectAuthentication_origin injected
      have here : OfOrigin base first.url := origin.congr (two.1.trans one.1) (two.2.trans one.2)
      rcases sent with sent | ⟨left, _, target, count, found, sent⟩
      · rw [sent] at member
        rw [mem_singleton.mp member]
        exact here
      · obtain rfl : redirects = left := by omega
        rw [sent] at member
        cases mem_cons.mp member with
        | inl same => exact same ▸ here
        | inr later => exact ih (number + 1) ((origin.congr one.1 one.2).followed apart named found) false outgoing later

def authenticates (library : UrlLibrary) (authStyle secret : Option Chars) : Bool :=
  match authStyle, secret with
  | none, none => true
  | some style, some secret =>
    match parseAuthStyle library style with
    | some .bearer => (library.headerValue ("Bearer ".toList ++ secret)).isSome
    | some (.header _) => (library.headerValue secret).isSome
    | some (.query _) => true
    | none => false
  | _, _ => false

theorem injectAuthentication_isSome (request : Request) (authStyle secret : Option Chars) :
    (injectAuthentication library request authStyle secret).isSome = authenticates library authStyle secret := by
  cases authStyle with
  | none =>
    cases secret with
    | none => rfl
    | some secret => rfl
  | some style =>
    cases secret with
    | none => rfl
    | some secret =>
      unfold injectAuthentication authenticates
      dsimp only
      cases parseAuthStyle library style with
      | none => rfl
      | some parsed =>
        cases parsed with
        | bearer => exact Option.isSome_map
        | header name => exact Option.isSome_map
        | query name => rfl

def sends (library : UrlLibrary) (manifest : ConnectorManifest) (snapshot : SnapshotManifest) (secret : Option Chars) : Bool :=
  (library.headerValue snapshot.accept).isSome && authenticates library manifest.authStyle secret

theorem sends_request (able : sends library manifest snapshot secret = true) (url : Url) (includeManifestQuery : Bool) :
    ∃ request outgoing, buildRequest library url snapshot includeManifestQuery = some request ∧
      injectAuthentication library request manifest.authStyle secret = some outgoing := by
  rw [sends, Bool.and_eq_true] at able
  obtain ⟨accept, encoded⟩ := Option.isSome_iff_exists.mp able.1
  have built : buildRequest library url snapshot includeManifestQuery =
      some ⟨if includeManifestQuery then library.mergeParams url snapshot.query else url, [("Accept".toList, accept)]⟩ := by
    rw [buildRequest, encoded, Option.map_some]
  have injected := @injectAuthentication_isSome library
    (⟨if includeManifestQuery then library.mergeParams url snapshot.query else url, [("Accept".toList, accept)]⟩ : Request) manifest.authStyle secret
  rw [able.2] at injected
  obtain ⟨outgoing, found⟩ := Option.isSome_iff_exists.mp injected
  exact ⟨_, outgoing, built, found⟩

theorem sends_of_mem (redirects number : Nat) (currentUrl : Url) (includeManifestQuery : Bool)
    (some : (fetchFrom library manifest snapshot secret allowedHost answers redirects number currentUrl includeManifestQuery).1 ≠ []) :
    sends library manifest snapshot secret = true := by
  rcases fetchFrom_requests redirects number currentUrl includeManifestQuery with sent | ⟨request, outgoing, built, injected, _⟩
  · exact absurd sent some
  · obtain ⟨accept, encoded, _⟩ := Option.map_eq_some_iff.mp built
    have authenticated := @injectAuthentication_isSome library request manifest.authStyle secret
    rw [injected] at authenticated
    rw [sends, encoded, ← authenticated]
    rfl

/-- One run keeps the secret on the origin: at most four requests go out, none without HTTPS behind one with it, and those with the secret go to
the host of the base, over HTTPS unless the manifest allows otherwise. -/
structure Contained (library : UrlLibrary) (manifest : ConnectorManifest) (base : Url) (secret : Option Chars) (sent : List Request) : Prop where
  count : sent.length ≤ 4
  chain : sent.IsChain fun one two => one.url.scheme = https → two.url.scheme = https
  host : secret.isSome → ∀ request ∈ sent, request.url.host = base.host
  secure : secret.isSome → ∀ request ∈ sent, request.url.scheme = https ∨ manifest.allowInsecureHttp = true

theorem hostsApart_of_contained {base first : Url} (able : sends library manifest snapshot secret = true) (scheme : first.scheme = base.scheme)
    (secret_some : secret.isSome) (web : base.scheme = http ∨ base.scheme = https)
    (contained : ∀ answers, Contained library manifest base secret
      (fetchFrom library manifest snapshot secret base.host answers 3 0 first true).1) : HostsApart library base := by
  intro location reference short read there schemes bare folded
  obtain ⟨request, outgoing, built, injected⟩ := sends_request able first true
  have one := buildRequest_origin built
  obtain ⟨target, joined⟩ := Option.isSome_iff_exists.mp (@UrlLibrary.join_authority library request.url location reference read there)
  obtain ⟨reference', read', target_scheme, target_authority⟩ := library.join_reference joined
  rw [read] at read'
  cases read'
  have authority : target.authority = reference.authority := by
    rw [target_authority]
    split
    · obtain ⟨held, named⟩ := Option.isSome_iff_exists.mp there
      rw [named, Option.some_or]
    · rfl
  have followed : Followed library request.url target base.host := by
    refine ⟨?_, ?_, ?_, ?_⟩
    · rw [target_scheme]
      split
      · rw [one.1, scheme]
        exact web
      · next other =>
        rcases schemes with none | secure | plain
        · exact absurd none other
        · exact Or.inr secure
        · exact Or.inl plain.1
    · rw [Url.host_congr authority]
      exact folded
    · rw [Url.userinfo, authority]
      exact bare
    · intro secure
      rw [target_scheme]
      split
      · exact secure
      · next other =>
        rcases schemes with none | safe | plain
        · exact absurd none other
        · exact safe
        · exact absurd ((scheme.symm.trans one.1.symm).trans secure) plain.2
  have found : redirectTarget library (some location) request.url base.host = some target :=
    redirectTarget_some.mpr ⟨location, rfl, short, joined, followed⟩
  obtain ⟨request', outgoing', built', injected'⟩ := sends_request able target false
  -- A redirect first, and then no answer.
  let answers : Nat → Answer := fun number => if number = 0 then .response 302 (some location) true else .timeout
  have later : (fetchFrom library manifest snapshot secret base.host answers 2 1 target false).1 = [outgoing'] := by
    rw [fetchFrom, built']
    dsimp only
    rw [injected']
    rfl
  have sent : (fetchFrom library manifest snapshot secret base.host answers 3 0 first true).1 = [outgoing, outgoing'] := by
    rw [fetchFrom, built]
    dsimp only
    rw [injected]
    dsimp only [answers]
    rw [if_pos rfl]
    dsimp only
    rw [if_pos (by decide), found]
    dsimp only
    rw [if_pos rfl]
    exact congrArg (List.cons outgoing) later
  have host := (contained answers).host secret_some outgoing' (by rw [sent]; exact mem_cons_of_mem _ mem_cons_self)
  have same : outgoing'.url.authority = reference.authority :=
    (injectAuthentication_origin injected').2.trans ((buildRequest_origin built').2.trans authority)
  exact (Url.host_congr same).symm.trans host

end

theorem Accepted.base {library : UrlLibrary} {manifest : ConnectorManifest} (accepted : Accepted library manifest) :
    ∃ base, library.url manifest.baseUrl = some base ∧ (base.scheme = http ∨ base.scheme = https) ∧ base.host ≠ [] := by
  have valid := accepted.baseUrl
  rw [validateBaseUrl, Bool.and_eq_true] at valid
  cases read : library.url manifest.baseUrl with
  | none =>
    rw [read] at valid
    exact absurd valid.2 (by decide)
  | some base =>
    rw [read] at valid
    simp only [Bool.and_eq_true, Bool.or_eq_true, beq_iff_eq, decide_eq_true_eq] at valid
    exact ⟨base, rfl, valid.2.1.1.1.1, valid.2.1.1.1.2⟩

/-- The secret of a snapshot stays on the origin in every run, exactly where none is sent, or where the base is over HTTPS unless the manifest allows
otherwise, and no other host a redirect can name has the case folding of the host of the base. -/
theorem secret_stays_iff {library : UrlLibrary} {manifest : ConnectorManifest} (accepted : Accepted library manifest) {base : Url}
    (read : library.url manifest.baseUrl = some base) {snapshot : SnapshotManifest} (member : snapshot ∈ manifest.snapshots)
    (secret : Option Chars) :
    (∀ answers, Contained library manifest base secret (fetchSnapshot library manifest snapshot secret answers).1) ↔
      secret = none ∨ sends library manifest snapshot secret = false ∨ library.join base snapshot.path = none ∨
        ((base.scheme = https ∨ manifest.allowInsecureHttp = true) ∧ HostsApart library base) := by
  obtain ⟨_, same, web, named⟩ := accepted.base
  rw [read] at same
  cases same
  cases joined : library.join base snapshot.path with
  | none =>
    have nothing : ∀ answers, (fetchSnapshot library manifest snapshot secret answers).1 = [] := by
      intro answers
      rw [fetchSnapshot, read]
      dsimp only
      rw [joined]
    constructor
    · intro _
      exact Or.inr (Or.inr (Or.inl rfl))
    · intro _ answers
      rw [nothing answers]
      exact ⟨Nat.zero_le _, .nil, fun _ _ absent => absurd absent List.not_mem_nil, fun _ _ absent => absurd absent List.not_mem_nil⟩
  | some first =>
    have run : ∀ answers, (fetchSnapshot library manifest snapshot secret answers).1 =
        (fetchFrom library manifest snapshot secret base.host answers 3 0 first true).1 := by
      intro answers
      rw [fetchSnapshot, read]
      dsimp only
      rw [joined]
      rfl
    obtain ⟨scheme, authority⟩ := join_path (accepted.paths snapshot member) joined
    have origin : OfOrigin base first := by
      refine ⟨Url.host_congr authority, ?_, scheme.trans⟩
      rw [scheme]
      exact web
    constructor
    · intro contained
      by_cases unsecret : secret = none
      · exact Or.inl unsecret
      by_cases able : sends library manifest snapshot secret = true
      · have there := Option.isSome_iff_ne_none.mpr unsecret
        have runs : ∀ answers, Contained library manifest base secret
            (fetchFrom library manifest snapshot secret base.host answers 3 0 first true).1 := fun answers => run answers ▸ contained answers
        refine Or.inr (Or.inr (Or.inr ⟨?_, hostsApart_of_contained able scheme there web runs⟩))
        obtain ⟨request, outgoing, built, injected⟩ := sends_request able first true
        have sent : (fetchFrom library manifest snapshot secret base.host (fun _ => .timeout) 3 0 first true).1 = [outgoing] := by
          rw [fetchFrom, built]
          dsimp only
          rw [injected]
        have secure := (runs fun _ => .timeout).secure there outgoing (by rw [sent]; exact List.mem_singleton_self _)
        rw [(injectAuthentication_origin injected).1, (buildRequest_origin built).1, scheme] at secure
        exact secure
      · exact Or.inr (Or.inl (Bool.not_eq_true _ ▸ able))
    · intro condition answers
      rw [run answers]
      refine ⟨fetchFrom_length 3 0 first true, fetchFrom_chain 3 0 first true, ?_, ?_⟩
      all_goals
        intro there request sent
        rcases condition with none | unable | nowhere | ⟨safe, apart⟩
        · rw [none] at there
          cases there
        · have able := sends_of_mem 3 0 first true (List.ne_nil_of_mem sent)
          rw [able] at unable
          cases unable
        · cases nowhere
        · have here := fetchFrom_origin apart named 3 0 origin true request sent
          first
            | exact here.host
            | exact safe.imp_left here.secure

/-! A library for addresses of small letters and digits. -/

def asciiAuthority (text : Chars) : Option Authority :=
  if hasAuthority text then
    let netloc := ((behindScheme text).drop 2).takeWhile fun c => c != '/' && c != '?' && c != '#'
    some ⟨if '@' ∈ netloc then netloc.takeWhile (· ≠ '@') else [], (if '@' ∈ netloc then (netloc.dropWhile (· ≠ '@')).drop 1 else netloc).map lowerAscii, none⟩
  else none

def asciiUrl (text : Chars) : Url where
  scheme := (schemeOf text).map lowerAscii
  authority := asciiAuthority text
  path := ((if hasAuthority text then ((behindScheme text).drop 2).dropWhile fun c => c != '/' && c != '?' && c != '#' else behindScheme text)).takeWhile
    fun c => c != '?' && c != '#'
  query := (urlsplit text).query
  fragment := (urlsplit text).fragment

def asciiLibrary : UrlLibrary where
  url text := some (asciiUrl text)
  url_scheme := by
    intro text found read
    cases read
    rfl
  url_authority := by
    intro text found read
    cases read
    show (asciiAuthority text).isSome = hasAuthority text
    unfold asciiAuthority
    cases hasAuthority text <;> rfl
  join base text :=
    some (if (asciiUrl text).scheme = [] then
        { asciiUrl text with scheme := base.scheme, authority := (asciiUrl text).authority.or base.authority }
      else asciiUrl text)
  join_reference := by
    intro base text target joined
    cases joined
    refine ⟨asciiUrl text, rfl, ?_⟩
    by_cases relative : (asciiUrl text).scheme = []
    · simp only [if_pos relative]
      exact ⟨trivial, trivial⟩
    · simp only [if_neg relative]
      exact ⟨trivial, trivial⟩
  join_authority _ _ := rfl
  mergeParams url _ := url
  mergeParams_origin _ _ := ⟨rfl, rfl⟩
  copySetParam url name value := { url with query := name ++ '=' :: value }
  copySetParam_origin _ _ _ := ⟨rfl, rfl⟩
  headerValue text := if text.all fun c => decide (c.toNat < 128) then some (encodeUtf8 text) else none
  casefold text := text.map lowerAscii
  casefold_nil := fun same => List.map_eq_nil_iff.mp same

/-- A manifest with the scheme of the base in capitals, which does not allow plain HTTP. -/
def capitals : ConnectorManifest where
  baseUrl := "HTTP://api.example.com".toList
  allowInsecureHttp := false
  secretRef := some "token".toList
  authStyle := some "bearer".toList
  snapshots := [⟨"items".toList, "items".toList, [], "application/json".toList⟩]

theorem capitals_accepted : Accepted asciiLibrary capitals where
  baseUrl := by decide
  authStyle := by
    intro style member
    cases member
    decide
  paths := by
    intro snapshot member
    rw [mem_singleton.mp member]
    decide
  relational := by decide

theorem secret_stays_capitals :
    (∀ answers, Contained asciiLibrary capitals (asciiUrl capitals.baseUrl) (some "opaque".toList)
      (fetchSnapshot asciiLibrary capitals ⟨"items".toList, "items".toList, [], "application/json".toList⟩ (some "opaque".toList) answers).1) ↔
      some "opaque".toList = none ∨
        sends asciiLibrary capitals ⟨"items".toList, "items".toList, [], "application/json".toList⟩ (some "opaque".toList) = false ∨
        asciiLibrary.join (asciiUrl capitals.baseUrl) "items".toList = none ∨
        (((asciiUrl capitals.baseUrl).scheme = https ∨ capitals.allowInsecureHttp = true) ∧ HostsApart asciiLibrary (asciiUrl capitals.baseUrl)) :=
  secret_stays_iff capitals_accepted rfl (List.mem_singleton_self _) (some "opaque".toList)

/-- The secret goes out over plain HTTP, which the manifest does not allow. -/
theorem capitals_not_contained :
    Accepted asciiLibrary capitals ∧ asciiLibrary.url capitals.baseUrl = some (asciiUrl capitals.baseUrl) ∧
      ∃ snapshot ∈ capitals.snapshots, ¬ ∀ answers, Contained asciiLibrary capitals (asciiUrl capitals.baseUrl) (some "opaque".toList)
        (fetchSnapshot asciiLibrary capitals snapshot (some "opaque".toList) answers).1 := by
  refine ⟨capitals_accepted, rfl, _, List.mem_singleton_self _, fun contained => ?_⟩
  have sent : ((fetchSnapshot asciiLibrary capitals ⟨"items".toList, "items".toList, [], "application/json".toList⟩ (some "opaque".toList)
      fun _ => .timeout).1.map fun request => request.url.scheme) = [http] := by decide
  obtain ⟨request, member, scheme⟩ := List.mem_map.mp (sent ▸ List.mem_singleton_self http)
  have secure := (contained fun _ => .timeout).secure rfl request member
  rw [scheme] at secure
  exact secure.elim (by decide) (by decide)

end Workctx.Connectors
