import Workctx.Ledger.Verify
import Workctx.Owners.Compile

/-! Committed proposals and the uniqueness of the owners of identities. -/

namespace Workctx.Owners
open Workctx.Text Workctx.Concurrent Workctx.Domain Workctx.Engine List

section
variable (compiler : Compiler)

/-- The file is a document or a manifest that owns the identity. -/
def Owned (files : Files) (path id uri : String) : Prop :=
  ∃ content, files.get path = some content ∧ (id, uri) ∈ identitiesOf compiler.models compiler.contextId path content

/-- No identifier and no URI has two owners. -/
structure Unique (files : Files) : Prop where
  ids : ∀ one two id uri other, Owned compiler files one id uri → Owned compiler files two id other → one = two
  uris : ∀ one two uri id other, Owned compiler files one id uri → Owned compiler files two other uri → one = two

def Writes (files : Files) (path : String) (content : Bytes) : TransactionOperation → Prop
  | .create target payload => path = target ∧ compiler.prepareDocument target payload = some content
  | .update target payload _ => path = target ∧ compiler.prepareDocument target payload = some content
  | .move source destination _ => path = destination ∧ files.get source = some content
  | .deleteGenerated _ _ => False

def Written (files : Files) (operations : List TransactionOperation) (path : String) (content : Bytes) : Prop :=
  ∃ operation ∈ operations, Writes compiler files path content operation

def Left (files : Files) (operations : List TransactionOperation) (path : String) (content : Bytes) : Prop :=
  files.get path = some content ∧ path ∉ operations.flatMap TransactionOperation.paths

/-- A written file has an identifier in common with another file, in a way that the engine does not look for: under another
URI, across documents and manifests, or with a document of the outbox whose suffix is not in lower case. -/
structure Unchecked (files : Files) (operations : List TransactionOperation) (one two : String) (content other : Bytes)
    (id uri spelling : String) : Prop where
  apart : one ≠ two
  written : Written compiler files operations one content
  present : Written compiler files operations two other ∨ Left files operations two other
  first : (id, uri) ∈ identitiesOf compiler.models compiler.contextId one content
  second : (id, spelling) ∈ identitiesOf compiler.models compiler.contextId two other
  unseen : uri ≠ spelling ∨ isCanonicalPath one ≠ isCanonicalPath two ∨ zoneOf two = some .outbox ∧ isScannedOutboxPath two = false

end

/-! The files behind a proposal. -/

section
variable {compiler : Compiler} {files after : Files}

variable {final : FinalFiles} {path : String} {content : Bytes} {id uri : String}

theorem overlay_elsewhere (outside : path ∉ final.map Prod.fst) :
    (Compiler.overlay files final).get path = files.get path := by
  induction final generalizing files with
  | nil => rfl
  | cons entry rest ih =>
    obtain ⟨target, content⟩ := entry
    rw [map_cons, mem_cons, not_or] at outside
    cases content with
    | none =>
      rw [Compiler.overlay, ih outside.2]
      exact Directory.get_erase_of_ne outside.1
    | some bytes =>
      rw [Compiler.overlay, ih outside.2]
      exact Directory.get_put_of_ne outside.1

theorem overlay_of_mem (files : Files) {content : Option Bytes} (distinct : (final.map Prod.fst).Nodup)
    (member : (path, content) ∈ final) : (Compiler.overlay files final).get path = content := by
  induction final generalizing files with
  | nil => exact absurd member (by simp)
  | cons entry rest ih =>
    obtain ⟨target, bytes⟩ := entry
    rw [map_cons, nodup_cons] at distinct
    rcases mem_cons.mp member with here | later
    · cases here
      cases content with
      | none =>
        rw [Compiler.overlay, overlay_elsewhere distinct.1]
        exact Directory.get_erase_self _ _
      | some written =>
        rw [Compiler.overlay, overlay_elsewhere distinct.1]
        exact Directory.get_put_self _ _ _
    · cases bytes with
      | none => exact ih _ distinct.2 later
      | some _ => exact ih _ distinct.2 later

theorem compileOperation_made {operation : TransactionOperation} {own : FinalFiles}
    (made : compiler.compileOperation files operation = some own) :
    own.map Prod.fst = operation.paths ∧ ∀ path content, (path, some content) ∈ own ↔ Writes compiler files path content operation := by
  cases operation with
  | create target payload =>
    obtain ⟨bytes, rendered, accepted⟩ := Option.bind_eq_some_iff.mp made
    split at accepted
    · cases accepted
      refine ⟨rfl, fun path content => ?_⟩
      simp [Writes, rendered, eq_comm]
    · exact absurd accepted (by simp)
  | update target payload expectedHash =>
    obtain ⟨bytes, rendered, further⟩ := Option.bind_eq_some_iff.mp made
    obtain ⟨current, _, accepted⟩ := Option.bind_eq_some_iff.mp further
    split at accepted
    · cases accepted
      refine ⟨rfl, fun path content => ?_⟩
      simp [Writes, rendered, eq_comm]
    · exact absurd accepted (by simp)
  | move source destination expectedHash =>
    obtain ⟨current, found, accepted⟩ := Option.bind_eq_some_iff.mp made
    split at accepted
    · cases accepted
      refine ⟨rfl, fun path content => ?_⟩
      simp [Writes, found, eq_comm]
    · exact absurd accepted (by simp)
  | deleteGenerated target expectedHash =>
    obtain ⟨current, _, accepted⟩ := Option.bind_eq_some_iff.mp made
    split at accepted
    · cases accepted
      refine ⟨rfl, fun path content => ?_⟩
      simp [Writes]
    · exact absurd accepted (by simp)

theorem compileOperations_made {order : Nat} {known locations : List (String × String)} {operations : List TransactionOperation} {diagnostics : List TransactionDiagnostic}
    (made : compiler.compileOperations files order known operations = some (final, diagnostics, locations)) :
    final.map Prod.fst = operations.flatMap TransactionOperation.paths ∧
      ∀ path content, (path, some content) ∈ final ↔ Written compiler files operations path content := by
  induction operations generalizing order known locations final diagnostics with
  | nil =>
    obtain ⟨rfl, _⟩ := Prod.mk.inj (Option.some.inj made)
    exact ⟨rfl, by simp [Written]⟩
  | cons operation rest ih =>
    rw [Compiler.compileOperations] at made
    obtain ⟨own, first, more⟩ := Option.bind_eq_some_iff.mp made
    obtain ⟨identities, _, further⟩ := Option.bind_eq_some_iff.mp more
    obtain ⟨⟨others, found, places⟩, below, done⟩ := Option.bind_eq_some_iff.mp further
    obtain ⟨rfl, _, _⟩ := Prod.mk.inj (Option.some.inj done)
    obtain ⟨ownPaths, ownWritten⟩ := compileOperation_made first
    obtain ⟨otherPaths, otherWritten⟩ := ih below
    refine ⟨by rw [map_append, ownPaths, otherPaths, flatMap_cons], ?_⟩
    intro path content
    unfold Written at otherWritten ⊢
    rw [mem_append, ownWritten, otherWritten, exists_mem_cons_iff]

/-! Commits. -/

structure Committed (compiler : Compiler) (files : Files) (operations : List TransactionOperation) (after : Files) where
  documents : List ParsedDocument
  final : FinalFiles
  locations : List (String × String)
  manifests : List (String × String)
  complete : compiler.projection.Complete files documents
  paths : final.map Prod.fst = operations.flatMap TransactionOperation.paths
  distinct : (final.map Prod.fst).Nodup
  written : ∀ path content, (path, some content) ∈ final ↔ Written compiler files operations path content
  listed : compiler.finalManifests final = some manifests
  manifestsApart : ∀ diagnostic ∈ compiler.manifestDiagnostics files final [] manifests, isError diagnostic = false
  documentsApart : ∃ diagnostics, compiler.overlayDiagnostics documents files final locations = some diagnostics ∧
    ∀ diagnostic ∈ diagnostics, isError diagnostic = false
  left : after = Compiler.overlay files final

theorem commit_made {proposal : TransactionProposal compiler.platform} (done : compiler.commit proposal files = some after) :
    Nonempty (Committed compiler files proposal.operations after) := by
  unfold Compiler.commit at done
  cases rebuilt : compiler.projection.rebuild files with
  | mk documents skipped =>
    rw [rebuilt] at done
    dsimp only at done
    split at done
    · exact absurd done (by simp)
    · next none =>
      rw [Bool.not_eq_true', Bool.not_eq_false, List.isEmpty_iff] at none
      subst none
      split at done
      · exact absurd done (by simp)
      · next final diagnostics compiled =>
        split at done
        · exact absurd done (by simp)
        · next accepted =>
          obtain rfl := Option.some.inj done
          rw [Bool.or_eq_true, not_or] at accepted
          have silent := accepted.1
          rw [Bool.not_eq_true, any_eq_false] at silent
          unfold Compiler.compile at compiled
          obtain ⟨⟨all, first, locations⟩, operations, more⟩ := Option.bind_eq_some_iff.mp compiled
          obtain ⟨manifests, listed, further⟩ := Option.bind_eq_some_iff.mp more
          obtain ⟨overlaid, checked, same⟩ := Option.bind_eq_some_iff.mp further
          obtain ⟨rfl, rfl⟩ := Prod.mk.inj (Option.some.inj same)
          obtain ⟨paths, written⟩ := compileOperations_made operations
          have distinct : (all.map Prod.fst).Nodup := by
            rw [paths]
            exact List.Nodup.of_map _ proposal.distinctPaths
          exact ⟨
            { documents, final := all, locations, manifests
              complete := Projection.rebuild_complete rebuilt
              paths, distinct, written, listed
              manifestsApart := fun diagnostic member =>
                (Bool.not_eq_true _).mp (silent diagnostic (mem_append_left _ (mem_append_right _ member)))
              documentsApart := ⟨overlaid, checked, fun diagnostic member =>
                (Bool.not_eq_true _).mp (silent diagnostic (mem_append_right _ member))⟩
              left := rfl }⟩

/-! The identities of files. -/

theorem documentIdentities_made {identities : List (String × String)}
    (made : documentIdentities compiler.models compiler.contextId content = some identities) :
    ∃ record, readDocument compiler.models content = some record ∧ record.identities compiler.contextId = some identities := by
  have kept := (Option.filter_eq_some_iff.mp made).1
  exact Option.bind_eq_some_iff.mp kept

theorem identity_of_canonical (canonical : isCanonicalPath path = true)
    (owned : (id, uri) ∈ identitiesOf compiler.models compiler.contextId path content) :
    ∃ identities, documentIdentities compiler.models compiler.contextId content = some identities ∧ (id, uri) ∈ identities := by
  unfold identitiesOf at owned
  rw [if_pos canonical] at owned
  cases made : documentIdentities compiler.models compiler.contextId content with
  | none =>
    rw [made] at owned
    exact absurd owned (by simp)
  | some identities =>
    rw [made] at owned
    exact ⟨identities, rfl, owned⟩

theorem identity_of_manifest (other : isCanonicalPath path = false)
    (owned : (id, uri) ∈ identitiesOf compiler.models compiler.contextId path content) :
    isManifestPath path = true ∧ manifestIdentity compiler.models compiler.contextId path content = some (id, uri) := by
  unfold identitiesOf at owned
  rw [if_neg (by simp [other])] at owned
  split at owned
  · next manifest => exact ⟨manifest, Option.mem_toList.mp owned⟩
  · exact absurd owned (by simp)

theorem manifestIdentity_made
    (made : manifestIdentity compiler.models compiler.contextId path content = some (id, uri)) :
    (∃ context, compiler.models.artifact path content = some (context, id)) ∧
      recordUri compiler.contextId "artifact" id = some uri := by
  obtain ⟨⟨context, artifactId⟩, read, named⟩ := Option.bind_eq_some_iff.mp made
  obtain ⟨spelled, first, same⟩ := Option.map_eq_some_iff.mp named
  cases same
  exact ⟨⟨context, (Option.filter_eq_some_iff.mp read).1⟩, first⟩

theorem id_of_uri
    (owned : (id, uri) ∈ identitiesOf compiler.models compiler.contextId path content) :
    ∃ parsed, compiler.models.parseUri uri = some parsed ∧ parsed.entityId = id := by
  by_cases canonical : isCanonicalPath path = true
  · obtain ⟨identities, made, member⟩ := identity_of_canonical canonical owned
    obtain ⟨record, read, named⟩ := documentIdentities_made made
    obtain ⟨raw, _, typed⟩ := Option.bind_eq_some_iff.mp read
    obtain ⟨parsed, spelled, same, _⟩ := ((identities_made named).1 _ member).spelled (readRecord_typed typed)
    exact ⟨parsed, spelled, same⟩
  · obtain ⟨_, made⟩ := identity_of_manifest ((Bool.not_eq_true _).mp canonical) owned
    exact ⟨_, recordUri_made (manifestIdentity_made made).2, rfl⟩

theorem mem_markdownIdentities (canonical : isCanonicalPath path = true)
    (owned : (id, uri) ∈ identitiesOf compiler.models compiler.contextId path content) :
    ∃ uris, markdownIdentities compiler.models compiler.contextId content = some uris ∧ uri ∈ uris := by
  obtain ⟨identities, made, member⟩ := identity_of_canonical canonical owned
  refine ⟨identities.map Prod.snd, ?_, mem_map.mpr ⟨_, member, rfl⟩⟩
  unfold markdownIdentities
  rw [made, Option.map_some]

/-! The checks of a commit. -/

theorem manifestDiagnostics_silent {seen : List String} {manifests : List (String × String)}
    (silent : ∀ diagnostic ∈ compiler.manifestDiagnostics files final seen manifests, isError diagnostic = false) :
    (∀ manifest ∈ manifests, manifest.2 ∉ seen) ∧ (manifests.map Prod.snd).Nodup ∧
      ∀ manifest ∈ manifests, ∀ owner ∈ compiler.manifestPaths files manifest.2, owner ∈ final.map Prod.fst := by
  induction manifests generalizing seen with
  | nil => simp
  | cons manifest rest ih =>
    obtain ⟨path, artifactId⟩ := manifest
    rw [Compiler.manifestDiagnostics, forall_mem_append, forall_mem_append] at silent
    obtain ⟨⟨once, untouched⟩, others⟩ := silent
    obtain ⟨fresh, distinct, owners⟩ := ih others
    have new : artifactId ∉ seen := by
      intro again
      rw [if_pos (contains_iff_mem.mpr again)] at once
      exact absurd (once _ (mem_singleton_self _)) (by simp [isError, artifactCollision])
    have own : ∀ owner ∈ compiler.manifestPaths files artifactId, owner ∈ final.map Prod.fst := by
      intro owner member
      by_contra outside
      have present : ((compiler.manifestPaths files artifactId).any fun owner => !(final.map Prod.fst).contains owner) = true :=
        any_eq_true.mpr ⟨owner, member, by simpa using outside⟩
      rw [if_pos present] at untouched
      exact absurd (untouched _ (mem_singleton_self _)) (by simp [isError, artifactCollision])
    refine ⟨forall_mem_cons.mpr ⟨new, ?_⟩, ?_, forall_mem_cons.mpr ⟨own, owners⟩⟩
    · exact fun other member old => fresh other member (mem_append_left _ old)
    · rw [map_cons, nodup_cons]
      refine ⟨?_, distinct⟩
      intro twice
      obtain ⟨other, member, same⟩ := mem_map.mp twice
      exact fresh other member (mem_append_right _ (mem_singleton.mpr same))

/-- The identities of the staged documents have one owner each, and no owner among the other files that the engine finds. -/
theorem ownerDiagnostics_silent {documents : List ParsedDocument} {locations : List (String × String)}
    {diagnostics : List TransactionDiagnostic} {identity : String}
    (made : compiler.ownerDiagnostics documents files final locations identity = some diagnostics)
    (silent : ∀ diagnostic ∈ diagnostics, isError diagnostic = false) :
    (∀ one two, (identity, one) ∈ compiler.overlayOwners final → (identity, two) ∈ compiler.overlayOwners final → one = two) ∧
      ∃ current, compiler.currentPaths documents files identity = some current ∧ ∀ owner ∈ current, owner ∈ final.map Prod.fst := by
  unfold Compiler.ownerDiagnostics at made
  dsimp only at made
  obtain ⟨current, found, done⟩ := Option.bind_eq_some_iff.mp made
  cases done
  rw [forall_mem_append] at silent
  obtain ⟨single, untouched⟩ := silent
  refine ⟨?_, current, found, ?_⟩
  · intro one two first second
    by_contra differ
    have members : ∀ owner, (identity, owner) ∈ compiler.overlayOwners final →
        owner ∈ (((compiler.overlayOwners final).filter fun owner => owner.1 == identity).map Prod.snd).eraseDups := by
      intro owner member
      rw [mem_eraseDups]
      exact mem_map.mpr ⟨_, mem_filter.mpr ⟨member, beq_self_eq_true identity⟩, rfl⟩
    have several : 1 < (((compiler.overlayOwners final).filter fun owner => owner.1 == identity).map Prod.snd).eraseDups.length := by
      have pair : [one, two].Nodup := by simpa using differ
      exact pair.length_le_of_subset (cons_subset.mpr ⟨members one first, cons_subset.mpr ⟨members two second, nil_subset _⟩⟩)
    rw [if_pos several] at single
    exact absurd (single _ (mem_singleton_self _)) (by simp [isError, identityCollision])
  · intro owner member
    by_contra outside
    have present : (current.any fun owner => !(final.map Prod.fst).contains owner) = true :=
      any_eq_true.mpr ⟨owner, member, by simpa using outside⟩
    rw [if_pos present] at untouched
    exact absurd (untouched _ (mem_singleton_self _)) (by simp [isError, identityCollision])

namespace Committed
variable {operations : List TransactionOperation} (committed : Committed compiler files operations after)

include committed

variable {path : String} {content : Bytes} {id uri : String}

theorem get_iff :
    after.get path = some content ↔ Written compiler files operations path content ∨ Left files operations path content := by
  rw [committed.left, ← committed.written]
  by_cases addressed : path ∈ committed.final.map Prod.fst
  · obtain ⟨⟨_, bytes⟩, member, rfl⟩ := mem_map.mp addressed
    rw [overlay_of_mem files committed.distinct member]
    constructor
    · intro same
      rw [same] at member
      exact .inl member
    · rintro (written | ⟨_, outside⟩)
      · rw [← overlay_of_mem files committed.distinct member, overlay_of_mem files committed.distinct written]
      · rw [committed.paths] at addressed
        exact absurd addressed outside
  · rw [overlay_elsewhere addressed]
    constructor
    · intro found
      rw [committed.paths] at addressed
      exact .inr ⟨found, addressed⟩
    · rintro (written | ⟨found, _⟩)
      · exact absurd (mem_map.mpr ⟨_, written, rfl⟩) addressed
      · exact found

theorem staged (written : Written compiler files operations path content)
    (canonical : isCanonicalPath path = true) (owned : (id, uri) ∈ identitiesOf compiler.models compiler.contextId path content) :
    (uri, path) ∈ compiler.overlayOwners committed.final := by
  obtain ⟨uris, made, member⟩ := mem_markdownIdentities canonical owned
  have narrative : isNarrativePath path = true := (Bool.and_eq_true_iff.mp canonical).1
  refine mem_flatMap.mpr ⟨(path, content), mem_filterMap.mpr ⟨_, (committed.written path content).mpr written, ?_⟩, ?_⟩
  · rw [if_pos narrative]
    rfl
  · rw [made]
    exact mem_map.mpr ⟨uri, member, rfl⟩

theorem checked {identity : String} (member : (identity, path) ∈ compiler.overlayOwners committed.final) :
    (∀ one two, (identity, one) ∈ compiler.overlayOwners committed.final → (identity, two) ∈ compiler.overlayOwners committed.final →
      one = two) ∧
      ∃ current, compiler.currentPaths committed.documents files identity = some current ∧
        ∀ owner ∈ current, owner ∈ committed.final.map Prod.fst := by
  obtain ⟨diagnostics, made, silent⟩ := committed.documentsApart
  obtain ⟨collisions, each, done⟩ := Option.bind_eq_some_iff.mp made
  cases done
  have listed : identity ∈ ((compiler.overlayOwners committed.final).map Prod.fst).eraseDups.mergeSort fun one two => decide (one ≤ two) := by
    rw [(mergeSort_perm _ _).mem_iff, mem_eraseDups]
    exact mem_map.mpr ⟨_, member, rfl⟩
  obtain ⟨own, inside, same⟩ := (mapM_some_mem each).2 identity listed
  refine ownerDiagnostics_silent same fun diagnostic present => silent diagnostic ?_
  exact mem_append_right _ (mem_flatten.mpr ⟨own, inside, present⟩)

theorem stagedManifest (written : Written compiler files operations path content)
    (other : isCanonicalPath path = false) (owned : (id, uri) ∈ identitiesOf compiler.models compiler.contextId path content) :
    (path, id) ∈ committed.manifests := by
  obtain ⟨manifest, made⟩ := identity_of_manifest other owned
  obtain ⟨⟨context, read⟩, _⟩ := manifestIdentity_made made
  have listed := committed.listed
  unfold Compiler.finalManifests at listed
  obtain ⟨found, inside, same⟩ := (mapM_some_mem listed).2 (path, content) (by
    rw [(mergeSort_perm _ _).mem_iff]
    refine mem_filterMap.mpr ⟨_, (committed.written path content).mpr written, ?_⟩
    rw [if_pos manifest]
    rfl)
  rw [read] at same
  cases same
  exact inside

omit committed in
theorem mem_currentPaths {documents : List ParsedDocument} {current : List String}
    (complete : compiler.projection.Complete files documents) (found : files.get path = some content)
    (canonical : isCanonicalPath path = true) (owned : (id, uri) ∈ identitiesOf compiler.models compiler.contextId path content)
    (visible : ¬(zoneOf path = some .outbox ∧ isScannedOutboxPath path = false))
    (made : compiler.currentPaths documents files uri = some current) : path ∈ current := by
  obtain ⟨record, looked, rfl⟩ := Option.map_eq_some_iff.mp made
  obtain ⟨uris, read, listed⟩ := mem_markdownIdentities canonical owned
  by_cases outbox : zoneOf path = some .outbox
  · have scanned : isScannedOutboxPath path = true := by
      cases seen : isScannedOutboxPath path with
      | true => rfl
      | false => exact absurd ⟨outbox, seen⟩ visible
    refine mem_append_left _ (mem_map.mpr ⟨(path, content), mem_filter.mpr ⟨Directory.mem_of_get found, ?_⟩, rfl⟩)
    rw [scanned, read]
    exact contains_iff_mem.mpr listed
  · have zone : (zoneOf path == some .knowledge || zoneOf path == some .work) = true := by
      have narrative : isNarrativePath path = true := (Bool.and_eq_true_iff.mp canonical).1
      have some := (Bool.and_eq_true_iff.mp narrative).1
      cases zoned : zoneOf path with
      | none =>
        rw [zoned] at some
        exact absurd some (by simp)
      | some zone =>
        cases zone with
        | knowledge => rfl
        | work => rfl
        | outbox => exact absurd zoned outbox
    have indexed : isIndexedPath path = true := by
      unfold isIndexedPath
      rw [canonical, zone]
      rfl
    obtain ⟨document, member, parsed⟩ := complete.each path content found indexed
    obtain ⟨source, recorded, named, _⟩ := Projection.parseDocument_made parsed
    obtain ⟨identities, first, inside⟩ := identity_of_canonical canonical owned
    obtain ⟨record', again, named'⟩ := documentIdentities_made first
    obtain rfl := Option.some.inj (recorded.symm.trans again)
    obtain rfl := Option.some.inj (named.symm.trans named')
    have lookup := complete.lookup member inside
    rw [source] at lookup
    obtain rfl := Option.some.inj (looked.symm.trans lookup)
    refine mem_append_right _ (Option.mem_toList.mpr (Option.filter_eq_some_iff.mpr ⟨rfl, ?_⟩))
    unfold Compiler.recordIsCurrent
    rw [zone, found, Option.bind_some, read]
    exact contains_iff_mem.mpr listed

/-- Two files with one identity are as before, unless the engine does not look for what they have in common. -/
theorem one_owner {one two spelling : String} {other : Bytes}
    (clear : ∀ one two content other id uri spelling, ¬Unchecked compiler files operations one two content other id uri spelling)
    (written : Written compiler files operations one content)
    (present : Written compiler files operations two other ∨ Left files operations two other)
    (first : (id, uri) ∈ identitiesOf compiler.models compiler.contextId one content)
    (second : (id, spelling) ∈ identitiesOf compiler.models compiler.contextId two other) : one = two := by
  by_contra apart
  have seen : ¬(uri ≠ spelling ∨ isCanonicalPath one ≠ isCanonicalPath two ∨
      zoneOf two = some .outbox ∧ isScannedOutboxPath two = false) := fun unseen =>
    clear one two content other id uri spelling ⟨apart, written, present, first, second, unseen⟩
  simp only [not_or, ne_eq, not_not] at seen
  obtain ⟨rfl, kind, visible⟩ := seen
  cases canonical : isCanonicalPath one with
  | true =>
    have also : isCanonicalPath two = true := kind ▸ canonical
    have mine := committed.staged written canonical first
    obtain ⟨single, current, found, touched⟩ := committed.checked mine
    rcases present with theirs | ⟨kept, outside⟩
    · exact apart (single one two mine (committed.staged theirs also second))
    · have owner := mem_currentPaths committed.complete kept also second visible found
      rw [← committed.paths] at outside
      exact outside (touched two owner)
  | false =>
    have also : isCanonicalPath two = false := kind ▸ canonical
    have mine := committed.stagedManifest written canonical first
    obtain ⟨_, distinct, owners⟩ := manifestDiagnostics_silent committed.manifestsApart
    rcases present with theirs | ⟨kept, outside⟩
    · have same := inj_on_of_nodup_map distinct mine (committed.stagedManifest theirs also second) rfl
      exact apart (Prod.mk.inj same).1
    · obtain ⟨manifest, made⟩ := identity_of_manifest also second
      have owner : two ∈ compiler.manifestPaths files id := by
        refine mem_map.mpr ⟨(two, other), mem_filter.mpr ⟨Directory.mem_of_get kept, ?_⟩, rfl⟩
        rw [manifest, made]
        exact beq_self_eq_true id
      rw [← committed.paths] at outside
      exact outside (owners (one, id) mine two owner)

end Committed

/-- A committed proposal keeps the owners of all identities single, if and only if no file that it writes has an identifier
in common with another file in a way that the engine does not look for. -/
theorem commit_unique {proposal : TransactionProposal compiler.platform} (unique : Unique compiler files)
    (done : compiler.commit proposal files = some after) :
    Unique compiler after ↔ ∀ one two content other id uri spelling,
      ¬Unchecked compiler files proposal.operations one two content other id uri spelling := by
  obtain ⟨committed⟩ := commit_made done
  constructor
  · intro single one two content other id uri spelling unchecked
    refine unchecked.apart (single.ids one two id uri spelling ⟨content, ?_, unchecked.first⟩ ⟨other, ?_, unchecked.second⟩)
    · exact committed.get_iff.mpr (.inl unchecked.written)
    · exact committed.get_iff.mpr unchecked.present
  · intro clear
    have shared : ∀ one two id uri spelling, Owned compiler after one id uri → Owned compiler after two id spelling → one = two := by
      intro one two id uri spelling ⟨content, found, first⟩ ⟨other, found', second⟩
      rcases committed.get_iff.mp found with written | kept
      · exact committed.one_owner clear written (committed.get_iff.mp found') first second
      · rcases committed.get_iff.mp found' with written | kept'
        · exact (committed.one_owner clear written (.inr kept) second first).symm
        · exact unique.ids one two id uri spelling ⟨content, kept.1, first⟩ ⟨other, kept'.1, second⟩
    refine ⟨shared, ?_⟩
    intro one two uri id other ⟨content, found, first⟩ ⟨other', found', second⟩
    obtain ⟨parsed, named, same⟩ := id_of_uri first
    obtain ⟨parsed', named', same'⟩ := id_of_uri second
    obtain rfl := Option.some.inj (named.symm.trans named')
    obtain rfl := same.symm.trans same'
    exact shared one two id uri uri ⟨content, found, first⟩ ⟨other', found', second⟩
end

/-! A service, and a module with its identifier. -/

namespace Sample

def markdown (entityType : String) : Bytes :=
  encodeUtf8 ("---\nschema_version: 1\nid: core\nentity_type: " ++ entityType ++ "\nuri: workctx://demo/" ++ entityType ++
    "/core\ntitle: Core\n---\n").toList

def readFrontmatter (content : Bytes) : Option Frontmatter :=
  (["service", "module"].find? fun entityType => markdown entityType == content).map fun entityType =>
    [("id", .string "core"), ("entity_type", .string entityType), ("uri", .string ("workctx://demo/" ++ entityType ++ "/core"))]

def readEntity (raw : Frontmatter) : Option EntityHead := do
  let id ← (raw.get "id").bind Migration.Yaml.text
  let entityType ← (raw.get "entity_type").bind Migration.Yaml.text
  let uri ← (raw.get "uri").bind Migration.Yaml.text
  let parsed ← parseUriText uri
  if parsed.entityType = entityType ∧ parsed.entityId = id then some ⟨id, entityType, uriText parsed, id, [], none, none, [], [], ⟨0, 0⟩, ⟨0, 0⟩⟩ else none

theorem readEntity_made {raw : Frontmatter} {head : EntityHead} (made : readEntity raw = some head) :
    (∃ contextId, validUri ⟨contextId, head.entityType, head.id⟩ = true ∧ head.uri = uriText ⟨contextId, head.entityType, head.id⟩) ∧
      ∀ values ∈ head.lists, values.Nodup := by
  obtain ⟨id, _, made⟩ := Option.bind_eq_some_iff.mp made
  obtain ⟨entityType, _, made⟩ := Option.bind_eq_some_iff.mp made
  obtain ⟨uri, _, made⟩ := Option.bind_eq_some_iff.mp made
  obtain ⟨parsed, read, made⟩ := Option.bind_eq_some_iff.mp made
  split at made
  · next same =>
    cases made
    obtain ⟨rfl, rfl⟩ := same
    exact ⟨⟨parsed.contextId, parseUriText_valid read, rfl⟩, by simp [EntityHead.lists]⟩
  · exact absurd made (by simp)

def absent {α β : Type} (_ : α) : Option β := none

def models : Models where
  parseUri := parseUriText
  parse_uriText := @parseUriText_uriText
  frontmatter := readFrontmatter
  entity := readEntity
  task := absent
  entity_uri := fun _ _ made => (readEntity_made made).1
  task_uri := fun _ _ => nofun
  claim := absent
  claim_id := fun _ _ => nofun
  observation := absent
  standaloneObservation := absent
  observation_id := fun _ _ => nofun
  standaloneObservation_id := fun _ _ => nofun
  taskHead := fun _ => ⟨false, none, "", "P2", "ready", none, none, [], none, "", [], [], []⟩
  task_place := fun _ _ => nofun
  typedReference := absent
  entity_lists := fun _ _ made => (readEntity_made made).2
  task_lists := fun _ _ => nofun
  claim_lists := fun _ _ => nofun
  observation_lists := fun _ _ => nofun
  standaloneObservation_lists := fun _ _ => nofun
  typedReference_lists := fun _ _ => nofun
  durable := fun _ => false
  artifact := fun _ => absent
  encodes := fun _ => true
  encodes_ascii := fun _ _ => rfl
  jsonText := absent

def compiler : Compiler where
  platform := Ledger.samplePlatform
  projection := ⟨models, "demo"⟩
  payloadDocument := fun _ => .entity "workctx://demo/module/core" []
  prepareDocument := fun _ _ => some (markdown "module")
  stableIdentity := fun _ _ _ => true
  validDestination := fun _ _ _ => true
  contentHash := fun _ => ""
  hasParent := fun _ _ => true
  admits := fun _ _ _ => true

def files : Files := [("02_knowledge/services/core.md", markdown "service")]

def payload : DocumentPayload := ⟨.entity, .object [("id", .string "core"), ("entity_type", .string "module")], ""⟩

def proposal : TransactionProposal compiler.platform where
  id := "TXP-20250101T000000Z-core"
  contextId := "demo"
  baseRevision := zeroRevision
  actor := .human "ana"
  sourceRefs := []
  operations := [.create "02_knowledge/modules/core.md" payload]
  preconditions := []
  postconditions := []
  approvalRequired := false
  idValid := by decide
  contextValid := by decide
  actorValid := by decide
  references := by simp
  distinctReferences := List.nodup_nil
  localReferences := rfl
  nonempty := by simp
  addressed := by decide +kernel
  distinctPaths := by simp [TransactionOperation.paths]

def after : Files := [("02_knowledge/modules/core.md", markdown "module"), ("02_knowledge/services/core.md", markdown "service")]

theorem commits : compiler.commit proposal files = some after := by decide +kernel

theorem unique : Unique compiler files := by
  have single : ∀ {path id uri}, Owned compiler files path id uri → path = "02_knowledge/services/core.md" := by
    intro path id uri ⟨content, found, _⟩
    have member := Directory.mem_of_get found
    exact (Prod.mk.inj (mem_singleton.mp member)).1
  exact ⟨fun _ _ _ _ _ first second => (single first).trans (single second).symm,
    fun _ _ _ _ _ first second => (single first).trans (single second).symm⟩

end Sample

/-- A committed module has the identifier of the service that was there. -/
theorem commit_shares_id : Unique Sample.compiler Sample.files ∧
    Sample.compiler.commit Sample.proposal Sample.files = some Sample.after ∧ ¬Unique Sample.compiler Sample.after := by
  refine ⟨Sample.unique, Sample.commits, ?_⟩
  intro unique
  have same := unique.ids "02_knowledge/modules/core.md" "02_knowledge/services/core.md" "core" "workctx://demo/module/core"
    "workctx://demo/service/core" ⟨Sample.markdown "module", by decide +kernel, by decide +kernel⟩
    ⟨Sample.markdown "service", by decide +kernel, by decide +kernel⟩
  exact absurd same (by decide)

theorem commit_unique_sample : ¬Unique Sample.compiler Sample.after ↔
    ¬∀ one two content other id uri spelling,
      ¬Unchecked Sample.compiler Sample.files Sample.proposal.operations one two content other id uri spelling :=
  not_congr (commit_unique Sample.unique Sample.commits)

end Workctx.Owners
