import Workctx.Projection.Shortest
import Workctx.Text.Frames

/-! The fingerprint of the sources a projection is built from, and when two workspaces share one. -/

namespace Workctx.Projection
open Workctx.References Workctx.Search Workctx.Text List

inductive SkipReason where
  | readError | pathEscape | frontmatterError | unsupportedDocument | validationError | contextMismatch | duplicateIdentity | taskHierarchy
deriving DecidableEq

def SkipReason.value : SkipReason → String
  | .readError => "read_error"
  | .pathEscape => "path_escape"
  | .frontmatterError => "frontmatter_error"
  | .unsupportedDocument => "unsupported_document"
  | .validationError => "validation_error"
  | .contextMismatch => "context_mismatch"
  | .duplicateIdentity => "duplicate_identity"
  | .taskHierarchy => "task_hierarchy"

theorem SkipReason.value_injective {one two : SkipReason} (same : one.value = two.value) : one = two := by
  cases one <;> cases two <;> first | rfl | exact absurd same (by decide)

structure SourceFile where
  relativePath : Text
  content : Bytes
deriving DecidableEq

structure SkippedDocument where
  path : Text
  reason : SkipReason
deriving DecidableEq

/-- What the scan meets at a path: bytes, or the reason for which it has none. -/
inductive SourceState where
  | readable (content : Bytes)
  | unreadable (reason : SkipReason)
deriving DecidableEq

def contextPath : Text := literal "context.yaml".toList

def registryPath : Text := literal "99_meta/topics.yaml".toList

/-- The sources of a workspace: its configuration, its topic registry where it has one, the zones that cannot be resolved, and the
documents of the other zones in the order the tree is walked. -/
structure Workspace where
  context : Bytes
  registry : Option Bytes
  zones : List Text
  documents : List (Text × SourceState)
  /-- A path is met once, and none of them is that of the configuration or of the registry. -/
  apart : (contextPath :: registryPath :: zones ++ documents.map Prod.fst).Nodup

def Workspace.inOrder (workspace : Workspace) : List (Text × SourceState) := sortedBy (fun document => codes document.1) workspace.documents

def sourceFile : Text × SourceState → Option SourceFile
  | (path, .readable content) => some ⟨path, content⟩
  | (_, .unreadable _) => none

def skippedDocument : Text × SourceState → Option SkippedDocument
  | (path, .unreadable reason) => some ⟨path, reason⟩
  | (_, .readable _) => none

def collectSources (workspace : Workspace) : List SourceFile × List SkippedDocument :=
  (workspace.inOrder.filterMap sourceFile,
    (workspace.zones.map fun zone => ⟨zone, .pathEscape⟩) ++ workspace.inOrder.filterMap skippedDocument)

def marker (reason : SkipReason) : Bytes := encodeUtf8 ("unreadable:" ++ reason.value).toList

def SkippedDocument.key (skipped : SkippedDocument) : List Nat ×ₗ String := toLex (codes skipped.path, skipped.reason.value)

def SkippedDocument.marked (skipped : SkippedDocument) : SourceFile := ⟨skipped.path, marker skipped.reason⟩

def skipsInOrder (skips : List SkippedDocument) : List SkippedDocument := sortedBy SkippedDocument.key skips

/-- What `_source_fingerprint` passes to `_update_fingerprint`, in order -/
def updates (workspace : Workspace) : List SourceFile :=
  ⟨contextPath, workspace.context⟩ :: (workspace.registry.toList.map fun content => ⟨registryPath, content⟩) ++
    ((collectSources workspace).1 ++ (skipsInOrder (collectSources workspace).2).map SkippedDocument.marked)

/-- `str.encode("utf-8")`, which no text with a surrogate has -/
def encode (path : Text) : Option Bytes := (scalars? path).map encodeUtf8

/-- What `_update_fingerprint` adds to the digest -/
def updateFingerprint (source : SourceFile) : Option Bytes := do
  let path ← encode source.relativePath
  let first ← frame path
  let second ← frame source.content
  some (first ++ second)

section
variable {δ : Type} (digest : Bytes → δ)

/-- `_source_fingerprint`; none where it raises. -/
def sourceFingerprint (workspace : Workspace) : Option δ := ((updates workspace).mapM updateFingerprint).map fun parts => digest parts.flatten

/-- `_preflight_projection_still_current`, with the fingerprint of the report where there is one -/
def preflightProjectionStillCurrent [DecidableEq δ] (report : Option δ) (workspace : Workspace) : Bool :=
  report.any fun built => (collectSources workspace).2.isEmpty && sourceFingerprint digest workspace == some built

end

def Workspace.holds (workspace : Workspace) (path : Text) (state : SourceState) : Prop :=
  (path = contextPath ∧ state = .readable workspace.context) ∨ (path = registryPath ∧ workspace.registry.map .readable = some state) ∨
    (path ∈ workspace.zones ∧ state = .unreadable .pathEscape) ∨ (path, state) ∈ workspace.documents

def SameSources (one two : Workspace) : Prop := ∀ path state, one.holds path state ↔ two.holds path state

/-- One of two workspaces that are alike otherwise skips documents in which the other reads the markers: they come after all that the
first reads and before all that the other skips. -/
def Mistaken (skipping reading : Workspace) : Prop :=
  skipping.context = reading.context ∧ skipping.registry = reading.registry ∧
    ∃ unread : List SkippedDocument, unread ≠ [] ∧
      (collectSources reading).1 = (collectSources skipping).1 ++ unread.map SkippedDocument.marked ∧
      skipsInOrder (collectSources skipping).2 = unread ++ skipsInOrder (collectSources reading).2

/-! The bytes that are hashed determine what is passed. -/

theorem scalars?_literal {text : Text} {chars : List Char} (read : scalars? text = some chars) : text = literal chars := by
  unfold scalars? at read
  induction text generalizing chars with
  | nil =>
    rw [mapM_nil] at read
    cases read
    rfl
  | cons point rest ih =>
    rw [mapM_cons] at read
    obtain ⟨c, found, read⟩ := Option.bind_eq_some_iff.mp read
    obtain ⟨others, later, same⟩ := Option.bind_eq_some_iff.mp read
    cases same
    cases point with
    | surrogate unit => cases found
    | scalar d =>
      cases found
      rw [ih later]
      rfl

variable {bytes : Bytes} {source : SourceFile} {document : Text × SourceState} {skipped : SkippedDocument}

theorem encode_injective {one two : Text} (first : encode one = some bytes) (second : encode two = some bytes) : one = two := by
  unfold encode at first second
  obtain ⟨chars, read, same⟩ := Option.map_eq_some_iff.mp first
  obtain ⟨chars', read', same'⟩ := Option.map_eq_some_iff.mp second
  rw [scalars?_literal read, scalars?_literal read', encodeUtf8_injective (same.trans same'.symm)]

theorem updateFingerprint_some (updated : updateFingerprint source = some bytes) :
    ∃ path first second, encode source.relativePath = some path ∧ frame path = some first ∧ frame source.content = some second ∧
      bytes = first ++ second := by
  unfold updateFingerprint at updated
  obtain ⟨path, encoded, updated⟩ := Option.bind_eq_some_iff.mp updated
  obtain ⟨first, one, updated⟩ := Option.bind_eq_some_iff.mp updated
  obtain ⟨second, two, same⟩ := Option.bind_eq_some_iff.mp updated
  exact ⟨path, first, second, encoded, one, two, (Option.some.inj same).symm⟩

/-- A part of the hashed bytes is behind its lengths, so that nothing behind it is taken for part of it. -/
theorem updateFingerprint_append {one two : SourceFile} {bytes' rest rest' : Bytes} (first : updateFingerprint one = some bytes)
    (second : updateFingerprint two = some bytes') (same : bytes ++ rest = bytes' ++ rest') : one = two ∧ rest = rest' := by
  obtain ⟨path, front, back, encoded, framed, behind, rfl⟩ := updateFingerprint_some first
  obtain ⟨path', front', back', encoded', framed', behind', rfl⟩ := updateFingerprint_some second
  rw [append_assoc, append_assoc] at same
  obtain ⟨rfl, same⟩ := frame_append framed framed' same
  obtain ⟨contents, same⟩ := frame_append behind behind' same
  refine ⟨?_, same⟩
  rw [SourceFile.mk.injEq]
  exact ⟨encode_injective encoded encoded', contents⟩

theorem updateFingerprint_ne_nil (updated : updateFingerprint source = some bytes) : bytes ≠ [] := by
  obtain ⟨path, front, back, _, framed, _, rfl⟩ := updateFingerprint_some updated
  exact fun empty => frame_ne_nil framed (append_eq_nil_iff.mp empty).1

section
variable {δ : Type} {digest : Bytes → δ} {one two : Workspace} {fingerprint fingerprint' : δ}

theorem fingerprint_eq_iff (injective : Function.Injective digest) (first : sourceFingerprint digest one = some fingerprint)
    (second : sourceFingerprint digest two = some fingerprint') : fingerprint = fingerprint' ↔ updates one = updates two := by
  unfold sourceFingerprint at first second
  constructor
  · rintro rfl
    obtain ⟨parts, written, hashed⟩ := Option.map_eq_some_iff.mp first
    obtain ⟨parts', written', hashed'⟩ := Option.map_eq_some_iff.mp second
    refine parts_injective (fun _ _ => updateFingerprint_ne_nil) (fun _ _ _ _ _ _ => updateFingerprint_append) written written' ?_
    exact injective (hashed.trans hashed'.symm)
  · intro same
    rw [same, second] at first
    exact (Option.some.inj first).symm

end

/-! What is passed determines what was scanned, but for a marker that stands in for bytes. -/

theorem marker_injective {one two : SkipReason} (same : marker one = marker two) : one = two := by
  have texts := String.ext (encodeUtf8_injective same)
  rw [String.append_right_inj] at texts
  exact SkipReason.value_injective texts

theorem marked_injective : Function.Injective SkippedDocument.marked := by
  intro one two same
  cases one
  cases two
  simp only [SkippedDocument.marked, SourceFile.mk.injEq] at same
  rw [SkippedDocument.mk.injEq]
  exact ⟨same.1, marker_injective same.2⟩

theorem sourceFile_some :
    sourceFile document = some source ↔ document = (source.relativePath, .readable source.content) := by
  obtain ⟨path, state⟩ := document
  cases source
  cases state <;> simp [sourceFile]

theorem skippedDocument_some :
    skippedDocument document = some skipped ↔ document = (skipped.path, .unreadable skipped.reason) := by
  obtain ⟨path, state⟩ := document
  cases skipped
  cases state <;> simp [skippedDocument]

variable {one two workspace : Workspace}

theorem mem_inOrder : document ∈ workspace.inOrder ↔ document ∈ workspace.documents := mem_sortedBy

theorem mem_collectSources :
    source ∈ (collectSources workspace).1 ↔ (source.relativePath, .readable source.content) ∈ workspace.documents := by
  unfold collectSources
  rw [mem_filterMap]
  constructor
  · rintro ⟨document, member, read⟩
    rw [sourceFile_some.mp read] at member
    exact mem_inOrder.mp member
  · exact fun member => ⟨_, mem_inOrder.mpr member, sourceFile_some.mpr rfl⟩

theorem mem_skips : skipped ∈ (collectSources workspace).2 ↔
    (skipped.path ∈ workspace.zones ∧ skipped.reason = .pathEscape) ∨ (skipped.path, .unreadable skipped.reason) ∈ workspace.documents := by
  unfold collectSources
  rw [mem_append, mem_map, mem_filterMap]
  constructor
  · rintro (⟨zone, member, rfl⟩ | ⟨document, member, read⟩)
    · exact .inl ⟨member, rfl⟩
    · rw [skippedDocument_some.mp read] at member
      exact .inr (mem_inOrder.mp member)
  · rintro (⟨member, reason⟩ | member)
    · refine .inl ⟨skipped.path, member, ?_⟩
      rw [← reason]
    · exact .inr ⟨_, mem_inOrder.mpr member, skippedDocument_some.mpr rfl⟩

theorem scanned_apart {path : Text} (scanned : path ∈ workspace.zones ∨ path ∈ workspace.documents.map Prod.fst) :
    path ≠ contextPath ∧ path ≠ registryPath := by
  have apart := workspace.apart
  rw [cons_append, cons_append, nodup_cons, nodup_cons] at apart
  have member : path ∈ workspace.zones ++ workspace.documents.map Prod.fst := mem_append.mpr scanned
  constructor
  · rintro rfl
    exact apart.1 (mem_cons_of_mem _ member)
  · rintro rfl
    exact apart.2.1 member

theorem holds_readable {path : Text} {content : Bytes} : workspace.holds path (.readable content) ↔
    (path = contextPath ∧ content = workspace.context) ∨ (path = registryPath ∧ workspace.registry = some content) ∨
      ⟨path, content⟩ ∈ (collectSources workspace).1 := by
  rw [mem_collectSources]
  unfold Workspace.holds
  simp

theorem holds_unreadable {path : Text} {reason : SkipReason} :
    workspace.holds path (.unreadable reason) ↔ ⟨path, reason⟩ ∈ (collectSources workspace).2 := by
  rw [mem_skips]
  unfold Workspace.holds
  simp

theorem documents_nodup (workspace : Workspace) : (workspace.documents.map Prod.fst).Nodup :=
  ((nodup_append.mp workspace.apart).2).1

theorem zones_nodup (workspace : Workspace) : workspace.zones.Nodup := by
  have apart := workspace.apart
  rw [cons_append, cons_append, nodup_cons, nodup_cons, nodup_append] at apart
  exact apart.2.2.1

theorem inOrder_nodup (workspace : Workspace) : workspace.inOrder.Nodup :=
  (sortedBy_perm _ workspace.documents).nodup_iff.mpr (documents_nodup workspace).of_map

theorem sources_nodup (workspace : Workspace) : (collectSources workspace).1.Nodup := by
  apply (inOrder_nodup workspace).filterMap
  intro document other source found also
  rw [sourceFile_some.mp found, sourceFile_some.mp also]

theorem skips_nodup (workspace : Workspace) : (collectSources workspace).2.Nodup := by
  unfold collectSources
  rw [nodup_append]
  refine ⟨?_, ?_, ?_⟩
  · apply (zones_nodup workspace).map
    intro zone other same
    exact congrArg SkippedDocument.path same
  · apply (inOrder_nodup workspace).filterMap
    intro document other skipped found also
    rw [skippedDocument_some.mp found, skippedDocument_some.mp also]
  · intro skipped zone other document same
    obtain ⟨path, member, rfl⟩ := mem_map.mp zone
    obtain ⟨found, inside, read⟩ := mem_filterMap.mp document
    rw [skippedDocument_some.mp read, ← same, mem_inOrder] at inside
    have apart := workspace.apart
    rw [cons_append, cons_append, nodup_cons, nodup_cons, nodup_append] at apart
    exact apart.2.2.2.2 path member path (mem_map.mpr ⟨_, inside, rfl⟩) rfl

theorem sources_sorted (workspace : Workspace) :
    (collectSources workspace).1.Pairwise fun first second => codes first.relativePath ≤ codes second.relativePath := by
  unfold collectSources
  rw [pairwise_filterMap]
  refine (sortedBy_sorted _ workspace.documents).imp ?_
  intro document other less source found source' also
  rw [sourceFile_some.mp found, sourceFile_some.mp also] at less
  exact less

theorem SkippedDocument.key_injective {one two : SkippedDocument} (same : one.key = two.key) : one = two := by
  unfold SkippedDocument.key at same
  rw [toLex_inj, Prod.mk.injEq] at same
  cases one
  cases two
  rw [SkippedDocument.mk.injEq]
  exact ⟨codes_injective same.1, SkipReason.value_injective same.2⟩

/-- Sources come in one order: two readable documents of a workspace have different paths. -/
theorem sources_congr (same : ∀ source, source ∈ (collectSources one).1 ↔ source ∈ (collectSources two).1) :
    (collectSources one).1 = (collectSources two).1 := by
  refine ((perm_ext_iff_of_nodup (sources_nodup one) (sources_nodup two)).mpr same).eq_of_pairwise ?_ (sources_sorted one) (sources_sorted two)
  intro source other member also less more
  have paths := codes_injective (le_antisymm less more)
  have first := mem_collectSources.mp member
  have second := mem_collectSources.mp ((same other).mpr also)
  have entries := inj_on_of_nodup_map (documents_nodup one) first second paths
  rw [Prod.mk.injEq, SourceState.readable.injEq] at entries
  cases source
  cases other
  rw [SourceFile.mk.injEq]
  exact entries

theorem skipsInOrder_congr (same : ∀ skipped, skipped ∈ (collectSources one).2 ↔ skipped ∈ (collectSources two).2) :
    skipsInOrder (collectSources one).2 = skipsInOrder (collectSources two).2 :=
  sortedBy_congr ((perm_ext_iff_of_nodup (skips_nodup one) (skips_nodup two)).mpr same) fun _ _ _ _ => SkippedDocument.key_injective

theorem mem_skipsInOrder {skips : List SkippedDocument} : skipped ∈ skipsInOrder skips ↔ skipped ∈ skips := mem_sortedBy

theorem source_apart (member : source ∈ (collectSources workspace).1) :
    source.relativePath ≠ contextPath ∧ source.relativePath ≠ registryPath :=
  scanned_apart (.inr (mem_map.mpr ⟨_, mem_collectSources.mp member, rfl⟩))

theorem skipped_apart (member : skipped ∈ (collectSources workspace).2) :
    skipped.path ≠ contextPath ∧ skipped.path ≠ registryPath :=
  scanned_apart ((mem_skips.mp member).imp And.left fun document => mem_map.mpr ⟨_, document, rfl⟩)

theorem registryPath_ne : registryPath ≠ contextPath := by decide

theorem sameSources_iff : SameSources one two ↔ one.context = two.context ∧ one.registry = two.registry ∧
    (collectSources one).1 = (collectSources two).1 ∧ skipsInOrder (collectSources one).2 = skipsInOrder (collectSources two).2 := by
  constructor
  · intro same
    have context := (holds_readable.mp ((same contextPath (.readable one.context)).mp (holds_readable.mpr (.inl ⟨rfl, rfl⟩))))
    have registry : ∀ content, one.registry = some content ↔ two.registry = some content := by
      intro content
      have there := same registryPath (.readable content)
      rw [holds_readable, holds_readable] at there
      have outside : ∀ workspace : Workspace, ⟨registryPath, content⟩ ∉ (collectSources workspace).1 :=
        fun workspace member => (source_apart member).2 rfl
      simpa [registryPath_ne, outside one, outside two] using there
    refine ⟨?_, Option.ext registry, sources_congr fun source => ?_, skipsInOrder_congr fun skipped => ?_⟩
    · rcases context with ⟨_, found⟩ | ⟨wrong, _⟩ | member
      · exact found
      · exact absurd wrong.symm registryPath_ne
      · exact absurd rfl (source_apart member).1
    · have there := same source.relativePath (.readable source.content)
      rw [holds_readable, holds_readable] at there
      constructor
      · intro member
        have apart := source_apart member
        simpa [apart.1, apart.2] using there.mp (.inr (.inr member))
      · intro member
        have apart := source_apart member
        simpa [apart.1, apart.2] using there.mpr (.inr (.inr member))
    · rw [← @holds_unreadable one skipped.path, ← @holds_unreadable two skipped.path]
      exact same _ _
  · rintro ⟨context, registry, sources, skips⟩ path state
    cases state with
    | readable content => rw [holds_readable, holds_readable, context, registry, sources]
    | unreadable reason => rw [holds_unreadable, holds_unreadable, ← mem_skipsInOrder, skips, mem_skipsInOrder]

def scanned (workspace : Workspace) : List SourceFile :=
  (collectSources workspace).1 ++ (skipsInOrder (collectSources workspace).2).map SkippedDocument.marked

theorem scanned_outside (member : source ∈ scanned workspace) : source.relativePath ≠ registryPath := by
  rcases mem_append.mp member with read | marked
  · exact (source_apart read).2
  · obtain ⟨skipped, inside, rfl⟩ := mem_map.mp marked
    exact (skipped_apart (mem_skipsInOrder.mp inside)).2

theorem updates_eq_iff : updates one = updates two ↔ one.context = two.context ∧ one.registry = two.registry ∧ scanned one = scanned two := by
  have whole : ∀ workspace, updates workspace =
      ⟨contextPath, workspace.context⟩ :: ((workspace.registry.toList.map fun content => ⟨registryPath, content⟩) ++ scanned workspace) := fun _ => rfl
  rw [whole, whole, List.cons.injEq, SourceFile.mk.injEq, and_iff_right rfl]
  refine and_congr_right fun _ => ?_
  -- A registry is never taken for a document, since no document is at its path.
  cases first : one.registry with
  | none =>
    cases second : two.registry with
    | none => simp
    | some content =>
      refine ⟨fun same => ?_, fun same => absurd same.1 (by simp)⟩
      have member : (⟨registryPath, content⟩ : SourceFile) ∈ scanned one := by
        rw [show scanned one = _ from same]
        exact mem_cons_self
      exact absurd rfl (scanned_outside member)
  | some content =>
    cases second : two.registry with
    | none =>
      refine ⟨fun same => ?_, fun same => absurd same.1 (by simp)⟩
      have member : (⟨registryPath, content⟩ : SourceFile) ∈ scanned two := by
        rw [← show _ = scanned two from same]
        exact mem_cons_self
      exact absurd rfl (scanned_outside member)
    | some content' => simp

theorem scanned_eq_iff (context : one.context = two.context) (registry : one.registry = two.registry) : scanned one = scanned two ↔
    ((collectSources one).1 = (collectSources two).1 ∧ skipsInOrder (collectSources one).2 = skipsInOrder (collectSources two).2) ∨
      Mistaken one two ∨ Mistaken two one := by
  unfold scanned
  constructor
  · intro same
    rcases append_eq_append_iff.mp same with ⟨extra, reads, marks⟩ | ⟨extra, reads, marks⟩
    · obtain ⟨unread, rest, split, same, behind⟩ := map_eq_append_iff.mp marks
      rw [List.map_inj_right marked_injective] at behind
      rw [behind] at split
      subst same
      cases unread with
      | nil =>
        rw [map_nil, append_nil] at reads
        exact .inl ⟨reads.symm, split⟩
      | cons skipped unread => exact .inr (.inl ⟨context, registry, skipped :: unread, cons_ne_nil _ _, reads, split⟩)
    · obtain ⟨unread, rest, split, same, behind⟩ := map_eq_append_iff.mp marks
      rw [List.map_inj_right marked_injective] at behind
      rw [behind] at split
      subst same
      cases unread with
      | nil =>
        rw [map_nil, append_nil] at reads
        exact .inl ⟨reads, split.symm⟩
      | cons skipped unread => exact .inr (.inr ⟨context.symm, registry.symm, skipped :: unread, cons_ne_nil _ _, reads, split⟩)
  · rintro (⟨reads, skips⟩ | ⟨_, _, unread, _, reads, skips⟩ | ⟨_, _, unread, _, reads, skips⟩)
    · rw [reads, skips]
    · rw [reads, skips, map_append, append_assoc]
    · rw [reads, skips, map_append, append_assoc]

theorem Mistaken.different (mistaken : Mistaken one two) : ¬SameSources one two := by
  intro same
  obtain ⟨_, _, _, skips⟩ := sameSources_iff.mp same
  obtain ⟨_, _, unread, some, _, split⟩ := mistaken
  rw [skips] at split
  have lengths := congrArg List.length split
  rw [length_append] at lengths
  have := length_pos_iff.mpr some
  omega

theorem sameSources_comm : SameSources one two ↔ SameSources two one :=
  ⟨fun same path state => (same path state).symm, fun same path state => (same path state).symm⟩

theorem updates_eq_iff_same : updates one = updates two ↔ SameSources one two ∨ Mistaken one two ∨ Mistaken two one := by
  rw [updates_eq_iff, sameSources_iff]
  constructor
  · rintro ⟨context, registry, same⟩
    exact ((scanned_eq_iff context registry).mp same).imp_left fun lists => ⟨context, registry, lists⟩
  · rintro (⟨context, registry, lists⟩ | mistaken | mistaken)
    · exact ⟨context, registry, (scanned_eq_iff context registry).mpr (.inl lists)⟩
    · exact ⟨mistaken.1, mistaken.2.1, (scanned_eq_iff mistaken.1 mistaken.2.1).mpr (.inr (.inl mistaken))⟩
    · exact ⟨mistaken.1.symm, mistaken.2.1.symm, (scanned_eq_iff mistaken.1.symm mistaken.2.1.symm).mpr (.inr (.inr mistaken))⟩

/-- Where the current scan skips nothing, it only mistakes bytes for what the earlier scan skipped. -/
theorem not_mistaken {now : Workspace} (none : (collectSources now).2 = []) : ¬Mistaken now one := by
  rintro ⟨_, _, unread, some, _, split⟩
  rw [none, skipsInOrder, sortedBy, mergeSort_nil] at split
  exact some (append_eq_nil_iff.mp split.symm).1

section
variable {δ : Type} [DecidableEq δ] (digest : Bytes → δ)

/-- Two scans share a fingerprint exactly where they hold the same, and what a preflight keeps holds what is on disk, exactly where no
marker of the one is read as bytes by the other. -/
theorem fingerprint_exact (injective : Function.Injective digest) {one two : Workspace} {fingerprint fingerprint' : δ}
    (first : sourceFingerprint digest one = some fingerprint) (second : sourceFingerprint digest two = some fingerprint') :
    ((fingerprint = fingerprint' ↔ SameSources one two) ↔ ¬(Mistaken one two ∨ Mistaken two one)) ∧
      (preflightProjectionStillCurrent digest (some fingerprint) two = true → (SameSources one two ↔ ¬Mistaken one two)) := by
  have equal := (fingerprint_eq_iff injective first second).trans updates_eq_iff_same
  have different : Mistaken one two ∨ Mistaken two one → ¬SameSources one two := by
    rintro (mistaken | mistaken)
    · exact mistaken.different
    · exact fun same => mistaken.different (sameSources_comm.mp same)
  rw [equal]
  constructor
  · constructor
    · exact fun same mistaken => different mistaken (same.mp (.inr mistaken))
    · exact fun none => or_iff_left none
  · intro current
    unfold preflightProjectionStillCurrent at current
    rw [Option.any_some, Bool.and_eq_true, List.isEmpty_iff, second, beq_iff_eq, Option.some.injEq] at current
    rcases equal.mp current.2.symm with same | mistaken | mistaken
    · exact iff_of_true same fun mistaken => mistaken.different same
    · exact iff_of_false (different (.inl mistaken)) (not_not.mpr mistaken)
    · exact absurd mistaken (not_mistaken current.1)

/-- A workspace with one document, of which the scan knows the state -/
def unreadBefore : Workspace :=
  ⟨encodeUtf8 "schema_version: 1\n".toList, none, [], [(literal "02_knowledge/a.md".toList, .unreadable .readError)], by decide⟩

def readAs (content : Bytes) : Workspace :=
  ⟨encodeUtf8 "schema_version: 1\n".toList, none, [], [(literal "02_knowledge/a.md".toList, .readable content)], by simp; decide⟩

def fingerprintOf (workspace : Workspace) : Bytes := (sourceFingerprint id workspace).getD []

theorem fingerprint_exact_sample :
    ((fingerprintOf unreadBefore = fingerprintOf (readAs []) ↔ SameSources unreadBefore (readAs [])) ↔
      ¬(Mistaken unreadBefore (readAs []) ∨ Mistaken (readAs []) unreadBefore)) ∧
      (preflightProjectionStillCurrent id (some (fingerprintOf unreadBefore)) (readAs []) = true →
        (SameSources unreadBefore (readAs []) ↔ ¬Mistaken unreadBefore (readAs []))) :=
  fingerprint_exact id Function.injective_id (by decide +kernel) (by decide +kernel)

/-- A document that could not be read is then read as the bytes of its marker. -/
theorem marker_read_as_content :
    preflightProjectionStillCurrent id (sourceFingerprint id unreadBefore) (readAs (marker .readError)) = true ∧
      ¬SameSources unreadBefore (readAs (marker .readError)) := by
  constructor
  · decide +kernel
  · intro same
    have there := (same (literal "02_knowledge/a.md".toList) (.unreadable .readError)).mp
      (.inr (.inr (.inr (List.mem_singleton.mpr rfl))))
    simp [Workspace.holds, readAs] at there

end

end Workctx.Projection
