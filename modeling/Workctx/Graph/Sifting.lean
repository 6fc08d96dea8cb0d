import Workctx.Graph.Indexed
import Workctx.Owners.Uniqueness

/-! Why a rebuild skips the files that it does not accept. -/

namespace Workctx.Owners
open Workctx.Text Workctx.Concurrent Workctx.Domain Workctx.Migration List

/-- `SkipReason`; whatever is wrong with a file by itself is one of them. -/
inductive SkipReason where
  | unparsed
  | duplicateIdentity
  | taskHierarchy
deriving DecidableEq

namespace Projection

section
variable (projection : Projection)

/-- The files that the first loop of `_parse_sources` skips -/
def siftedOut : List (String × String) → List (String × Bytes) → List (String × SkipReason)
  | _, [] => []
  | seen, (path, content) :: rest =>
    match projection.parseDocument path content with
    | none => (path, .unparsed) :: siftedOut seen rest
    | some document =>
      if document.identities.any fun identity =>
          (seen.map Prod.fst).contains identity.1 || (seen.map Prod.snd).contains identity.2 then
        (path, .duplicateIdentity) :: siftedOut seen rest
      else siftedOut (document.identities ++ seen) rest

/-- The documents that the first loop of `_parse_sources` keeps -/
def siftedIn (files : Directory String Bytes) : List ParsedDocument := (projection.parseSources [] (sources files)).1

/-- The documents that `_parse_sources` accepts, in the order of their paths -/
def accepted (files : Directory String Bytes) : List ParsedDocument := (projection.rebuild files).1

/-- The files that `_parse_sources` skips, in their order -/
def skippedFiles (files : Directory String Bytes) : List (String × SkipReason) :=
  projection.siftedOut [] (sources files) ++
    (projection.rejectedTasks (projection.siftedIn files)).map fun path => (path, .taskHierarchy)

/-- A document of the file is a subtask whose parent is not accepted. -/
def Orphan (files : Directory String Bytes) (path : String) : Prop :=
  ∃ content document task, (path, content) ∈ sources files ∧ projection.parseDocument path content = some document ∧
    projection.taskOf document = some task ∧ task.head.isSubtask = true ∧
      ∀ other ∈ projection.accepted files, ∀ parent, projection.taskOf other = some parent → parent.head.isSubtask = false →
        task.head.parentTask ≠ some parent.id

/-- What `_parse_sources` makes of the sources. -/
structure Justified (files : Directory String Bytes) : Prop where
  ids : ((projection.accepted files).flatMap fun document => document.identities.map Prod.fst).Nodup
  uris : ((projection.accepted files).flatMap fun document => document.identities.map Prod.snd).Nodup
  hierarchy : validateTaskHierarchy ((projection.accepted files).filterMap projection.taskOf) = true
  once : ((projection.accepted files).map ParsedDocument.sourcePath ++ (projection.skippedFiles files).map Prod.fst).Perm
    ((sources files).map Prod.fst)
  /-- A duplicate has an identity of an accepted document, or of one that is itself skipped, for its hierarchy. -/
  duplicates : ∀ path, (path, .duplicateIdentity) ∈ projection.skippedFiles files → ∃ content document,
    (path, content) ∈ sources files ∧ projection.parseDocument path content = some document ∧
      ∃ other ∈ projection.siftedIn files, Shares document other.identities ∧
        (other ∈ projection.accepted files ∨ (other.sourcePath, .taskHierarchy) ∈ projection.skippedFiles files)
  orphans : ∀ path, (path, .taskHierarchy) ∈ projection.skippedFiles files → projection.Orphan files path

end

variable {projection : Projection}

/-! The first loop -/

theorem siftedOut_paths (seen : List (String × String)) (files : List (String × Bytes)) :
    (projection.siftedOut seen files).map Prod.fst = (projection.parseSources seen files).2 := by
  induction files generalizing seen with
  | nil => rfl
  | cons source rest ih =>
    obtain ⟨path, content⟩ := source
    rw [siftedOut, parseSources]
    cases projection.parseDocument path content with
    | none => exact congrArg (path :: ·) (ih seen)
    | some document =>
      dsimp only
      split
      · exact congrArg (path :: ·) (ih seen)
      · exact ih _

theorem skippedFiles_paths (files : Directory String Bytes) :
    (projection.skippedFiles files).map Prod.fst = (projection.rebuild files).2 := by
  unfold skippedFiles rebuild siftedIn
  rw [map_append, siftedOut_paths, map_map]
  congr 1
  exact map_id _

theorem parseSources_once (seen : List (String × String)) (files : List (String × Bytes)) :
    ((projection.parseSources seen files).1.map ParsedDocument.sourcePath ++ (projection.parseSources seen files).2).Perm
      (files.map Prod.fst) := by
  induction files generalizing seen with
  | nil => exact .refl _
  | cons source rest ih =>
    obtain ⟨path, content⟩ := source
    rw [parseSources, map_cons]
    cases read : projection.parseDocument path content with
    | none => exact perm_middle.trans ((ih seen).cons path)
    | some document =>
      dsimp only
      split
      · exact perm_middle.trans ((ih seen).cons path)
      · obtain ⟨raw, parsed⟩ := parseDocument_iff.mp read
        rw [map_cons, parsed.path, cons_append]
        exact (ih _).cons path

theorem siftedOut_reason {seen : List (String × String)} {files : List (String × Bytes)} {path : String} {reason : SkipReason}
    (skipped : (path, reason) ∈ projection.siftedOut seen files) :
    reason = .unparsed ∨ reason = .duplicateIdentity ∧ ∃ content document, (path, content) ∈ files ∧
      projection.parseDocument path content = some document ∧
        (Shares document seen ∨ ∃ other ∈ (projection.parseSources seen files).1, Shares document other.identities) := by
  induction files generalizing seen with
  | nil => cases skipped
  | cons source rest ih =>
    obtain ⟨place, content⟩ := source
    rw [siftedOut] at skipped
    rw [parseSources]
    cases read : projection.parseDocument place content with
    | none =>
      rw [read] at skipped
      rcases mem_cons.mp skipped with here | later
      · exact .inl (Prod.mk.inj here).2
      · rcases ih later with unparsed | ⟨duplicate, content', document, inside, made, shares⟩
        · exact .inl unparsed
        · exact .inr ⟨duplicate, content', document, mem_cons_of_mem _ inside, made, shares⟩
    | some document =>
      rw [read] at skipped
      dsimp only at skipped ⊢
      split at skipped
      · next known =>
        rw [if_pos known]
        rcases mem_cons.mp skipped with here | later
        · cases here
          obtain ⟨identity, member, old⟩ := any_eq_true.mp known
          rw [Bool.or_eq_true, contains_iff_mem, contains_iff_mem] at old
          exact .inr ⟨rfl, content, document, mem_cons_self, read, .inl ⟨identity, member, old⟩⟩
        · rcases ih later with unparsed | ⟨duplicate, content', other, inside, made, shares⟩
          · exact .inl unparsed
          · exact .inr ⟨duplicate, content', other, mem_cons_of_mem _ inside, made, shares⟩
      · next new =>
        rw [if_neg new]
        rcases ih skipped with unparsed | ⟨duplicate, content', other, inside, made, shares⟩
        · exact .inl unparsed
        · refine .inr ⟨duplicate, content', other, mem_cons_of_mem _ inside, made, ?_⟩
          rcases shares with known | ⟨owner, own, same⟩
          · rcases known.split with first | old
            · exact .inr ⟨document, mem_cons_self, first⟩
            · exact .inl old
          · exact .inr ⟨owner, mem_cons_of_mem _ own, same⟩

/-! The second loop -/

theorem rejectTasks_sublist (parents : List Task) (tasks : List (String × Task)) :
    (rejectTasks parents tasks).Sublist (tasks.map Prod.fst) := by
  induction tasks generalizing parents with
  | nil => exact nil_sublist _
  | cons task rest ih =>
    obtain ⟨path, task⟩ := task
    rw [rejectTasks, map_cons]
    split
    · split
      · exact (ih _).cons _
      · exact (ih _).cons_cons _
    · split
      · exact (ih _).cons _
      · exact (ih _).cons_cons _

theorem rejectedTasks_nodup {documents : List ParsedDocument} (apart : (documents.map ParsedDocument.sourcePath).Nodup) :
    (projection.rejectedTasks documents).Nodup := by
  unfold rejectedTasks
  refine List.Nodup.sublist (rejectTasks_sublist _ _) ?_
  have placed : ((documents.filterMap fun document => (projection.taskOf document).map fun task => (document.sourcePath, task)).map
      Prod.fst).Sublist (documents.map ParsedDocument.sourcePath) := by
    induction documents with
    | nil => exact nil_sublist _
    | cons document rest ih =>
      rw [map_cons, nodup_cons] at apart
      have below := ih apart.2
      rw [filterMap_cons, map_cons]
      cases projection.taskOf document with
      | none => exact below.cons _
      | some task => exact below.cons_cons _
  refine (List.Perm.nodup_iff (List.Perm.map Prod.fst ?_)).mpr (apart.sublist placed)
  unfold sortTasks
  refine ((mergeSort_perm _ _).append (mergeSort_perm _ _)).trans ?_
  exact perm_append_comm.trans (filter_append_perm (fun task : String × Task => task.2.head.isSubtask) _)

/-! The accepted documents -/

section
variable {files : Directory String Bytes} {document : ParsedDocument}

theorem sifted (files : Directory String Bytes) :
    Sifted projection [] (sources files) (projection.siftedIn files) (projection.parseSources [] (sources files)).2 :=
  parseSources_sifted

theorem mem_accepted : document ∈ projection.accepted files ↔
    document ∈ projection.siftedIn files ∧ document.sourcePath ∉ projection.rejectedTasks (projection.siftedIn files) := by
  unfold accepted rebuild siftedIn
  dsimp only
  rw [mem_filter, Bool.not_eq_true', Bool.eq_false_iff, Ne, contains_iff_mem]

theorem siftedIn_parsed (member : document ∈ projection.siftedIn files) :
    ∃ content raw, (document.sourcePath, content) ∈ sources files ∧ Parsed projection document.sourcePath content document raw := by
  obtain ⟨path, content, inside, made⟩ := (sifted files).made document member
  obtain ⟨raw, parsed⟩ := parseDocument_iff.mp made
  obtain rfl := parsed.path
  exact ⟨content, raw, inside, parsed⟩

theorem siftedIn_placed (member : document ∈ projection.siftedIn files) {task : Task} (own : projection.taskOf document = some task) :
    (∃ uri, (task.id, uri) ∈ document.identities) ∧ task.Placed projection.contextId := by
  obtain ⟨_, _, _, parsed⟩ := siftedIn_parsed member
  obtain ⟨_, _, ⟨head, entity, id⟩, placed⟩ := parsed.task own
  exact ⟨⟨head.uri, id ▸ (identities_made parsed.identities).2.1 head entity⟩, placed⟩

theorem siftedIn_apart (distinct : (files.map Prod.fst).Nodup) : ((projection.siftedIn files).map ParsedDocument.sourcePath).Nodup := by
  have once := @parseSources_once projection [] (sources files)
  exact (once.nodup_iff.mpr (sources_distinct distinct)).sublist (sublist_append_left _ _)

theorem accepted_sublist (files : Directory String Bytes) : (projection.accepted files).Sublist (projection.siftedIn files) :=
  filter_sublist

theorem mem_rejected {path : String} : path ∈ projection.rejectedTasks (projection.siftedIn files) ↔
    ∃ document ∈ projection.siftedIn files, document.sourcePath = path ∧ ∃ task, projection.taskOf document = some task ∧
      task.head.isSubtask = true ∧ ∀ other ∈ projection.siftedIn files, ∀ parent, projection.taskOf other = some parent →
        parent.head.isSubtask = false → parent.id ≠ task.head.rootTask :=
  mem_rejectedTasks fun _ member _ own => (siftedIn_placed member own).2

theorem eq_of_sourcePath (distinct : (files.map Prod.fst).Nodup) {other : ParsedDocument} (member : document ∈ projection.siftedIn files)
    (also : other ∈ projection.siftedIn files) (same : document.sourcePath = other.sourcePath) : document = other :=
  inj_on_of_nodup_map (siftedIn_apart distinct) member also same

theorem parent_accepted (distinct : (files.map Prod.fst).Nodup) (member : document ∈ projection.siftedIn files) {parent : Task}
    (own : projection.taskOf document = some parent) (top : parent.head.isSubtask = false) : document ∈ projection.accepted files := by
  refine mem_accepted.mpr ⟨member, fun rejected => ?_⟩
  obtain ⟨other, also, same, task, made, subtask, _⟩ := mem_rejected.mp rejected
  obtain rfl := eq_of_sourcePath distinct also member same
  obtain rfl := Option.some.inj (own.symm.trans made)
  exact absurd (top.symm.trans subtask) (by simp)

/-! The identities of the accepted documents -/

theorem identities_apart (member : document ∈ projection.siftedIn files) :
    (document.identities.map Prod.fst).Nodup ∧ (document.identities.map Prod.snd).Nodup := by
  obtain ⟨_, raw, _, parsed⟩ := siftedIn_parsed member
  have named := (identities_made parsed.identities).1
  have typed := readRecord_typed parsed.record
  refine ⟨parsed.apart, ?_⟩
  rw [List.Nodup, pairwise_map]
  refine (pairwise_map.mp parsed.apart).imp_of_mem ?_
  intro one two first second apart same
  obtain ⟨uri, read, id, _⟩ := (named one first).spelled typed
  obtain ⟨uri', read', id', _⟩ := (named two second).spelled typed
  rw [same] at read
  obtain rfl := Option.some.inj (read.symm.trans read')
  exact apart (id.symm.trans id')

theorem accepted_ids (files : Directory String Bytes) :
    ((projection.accepted files).flatMap fun document => document.identities.map Prod.fst).Nodup := by
  refine nodup_flatMap.mpr ⟨fun document member => (identities_apart ((accepted_sublist files).subset member)).1, ?_⟩
  refine ((sifted files).apart.sublist (accepted_sublist files)).imp ?_
  intro one two apart id first second
  obtain ⟨⟨_, uri⟩, member, rfl⟩ := mem_map.mp first
  obtain ⟨⟨_, spelling⟩, also, rfl⟩ := mem_map.mp second
  exact apart.ids _ _ _ member also

theorem accepted_uris (files : Directory String Bytes) :
    ((projection.accepted files).flatMap fun document => document.identities.map Prod.snd).Nodup := by
  refine nodup_flatMap.mpr ⟨fun document member => (identities_apart ((accepted_sublist files).subset member)).2, ?_⟩
  refine ((sifted files).apart.sublist (accepted_sublist files)).imp ?_
  intro one two apart uri first second
  obtain ⟨⟨id, _⟩, member, rfl⟩ := mem_map.mp first
  obtain ⟨⟨other, _⟩, also, rfl⟩ := mem_map.mp second
  exact apart.uris _ _ _ member also

/-! The hierarchy of the accepted tasks -/

theorem accepted_tasks_apart (files : Directory String Bytes) :
    (((projection.accepted files).filterMap projection.taskOf).map Task.id).Nodup := by
  rw [List.Nodup, pairwise_map, pairwise_filterMap]
  refine ((sifted files).apart.sublist (accepted_sublist files)).imp_of_mem ?_
  intro one two first second apart task own other also same
  obtain ⟨⟨uri, member⟩, _⟩ := siftedIn_placed ((accepted_sublist files).subset first) own
  obtain ⟨⟨spelling, inside⟩, _⟩ := siftedIn_placed ((accepted_sublist files).subset second) also
  rw [same] at member
  exact apart.ids _ _ _ member inside

theorem accepted_hierarchy (distinct : (files.map Prod.fst).Nodup) :
    validateTaskHierarchy ((projection.accepted files).filterMap projection.taskOf) = true := by
  refine @validateTaskHierarchy_of _ projection.contextId (accepted_tasks_apart files) ?_ ?_
  · intro task member
    obtain ⟨document, inside, own⟩ := mem_filterMap.mp member
    exact (siftedIn_placed ((accepted_sublist files).subset inside) own).2.inContext
  · intro task member subtask
    obtain ⟨document, inside, own⟩ := mem_filterMap.mp member
    obtain ⟨kept, free⟩ := mem_accepted.mp inside
    obtain ⟨_, named, _⟩ := (siftedIn_placed kept own).2.place.resolve_left fun other => absurd (subtask.symm.trans other.1) (by simp)
    -- An accepted subtask has a parent, as it would be rejected otherwise.
    by_contra missing
    refine free (mem_rejected.mpr ⟨document, kept, rfl, task, own, subtask, ?_⟩)
    intro other also parent above top same
    obtain ⟨_, root⟩ := (siftedIn_placed also above).2.place.resolve_right fun sub => absurd (top.symm.trans sub.1) (by simp)
    refine missing ⟨parent, mem_filterMap.mpr ⟨other, parent_accepted distinct also above top, above⟩, ?_, top, ?_⟩
    · rw [named, same]
    · rw [root, same]

/-! The skipped files -/

theorem accepted_once (distinct : (files.map Prod.fst).Nodup) :
    ((projection.accepted files).map ParsedDocument.sourcePath ++ (projection.skippedFiles files).map Prod.fst).Perm
      ((sources files).map Prod.fst) := by
  have apart := @siftedIn_apart projection files distinct
  have kept : ((projection.accepted files).map ParsedDocument.sourcePath ++
      projection.rejectedTasks (projection.siftedIn files)).Perm ((projection.siftedIn files).map ParsedDocument.sourcePath) := by
    refine (perm_ext_iff_of_nodup ?_ apart).mpr fun path => ?_
    · refine nodup_append.mpr ⟨apart.sublist ((accepted_sublist files).map _), rejectedTasks_nodup apart, ?_⟩
      intro one member other rejected same
      obtain ⟨document, inside, rfl⟩ := mem_map.mp member
      exact (mem_accepted.mp inside).2 (same ▸ rejected)
    · rw [mem_append, mem_map, mem_map]
      constructor
      · intro member
        rcases member with ⟨document, inside, path⟩ | rejected
        · exact ⟨document, (mem_accepted.mp inside).1, path⟩
        · obtain ⟨document, inside, path, _⟩ := mem_rejected.mp rejected
          exact ⟨document, inside, path⟩
      · intro ⟨document, inside, same⟩
        by_cases rejected : path ∈ projection.rejectedTasks (projection.siftedIn files)
        · exact .inr rejected
        · exact .inl ⟨document, mem_accepted.mpr ⟨inside, same ▸ rejected⟩, same⟩
  rw [skippedFiles_paths]
  unfold rebuild
  dsimp only
  refine (List.Perm.append_left _ perm_append_comm).trans ?_
  rw [← append_assoc]
  exact (kept.append_right _).trans (parseSources_once [] (sources files))

theorem orphan_of_skipped {path : String} (skipped : (path, .taskHierarchy) ∈ projection.skippedFiles files) :
    projection.Orphan files path := by
  have rejected : path ∈ projection.rejectedTasks (projection.siftedIn files) := by
    rcases mem_append.mp skipped with first | second
    · rcases siftedOut_reason first with other | ⟨other, _⟩
      · cases other
      · cases other
    · obtain ⟨_, inside, same⟩ := mem_map.mp second
      exact (Prod.mk.inj same).1 ▸ inside
  obtain ⟨document, member, rfl, task, own, subtask, missing⟩ := mem_rejected.mp rejected
  obtain ⟨content, raw, inside, parsed⟩ := siftedIn_parsed member
  refine ⟨content, document, task, inside, parseDocument_iff.mpr ⟨raw, parsed⟩, own, subtask, ?_⟩
  intro other also parent above top named
  obtain ⟨_, root, _⟩ := (siftedIn_placed member own).2.place.resolve_left fun sub => absurd (subtask.symm.trans sub.1) (by simp)
  exact missing other ((accepted_sublist files).subset also) parent above top (Option.some.inj (named.symm.trans root))

theorem justified (distinct : (files.map Prod.fst).Nodup) : projection.Justified files where
  ids := accepted_ids files
  uris := accepted_uris files
  hierarchy := accepted_hierarchy distinct
  once := accepted_once distinct
  duplicates := by
    intro path skipped
    have first : (path, SkipReason.duplicateIdentity) ∈ projection.siftedOut [] (sources files) := by
      refine (List.mem_append.mp skipped).resolve_right fun second => ?_
      obtain ⟨_, _, same⟩ := List.mem_map.mp second
      cases (Prod.mk.inj same).2
    obtain ⟨_, content, document, inside, made, shares⟩ := (siftedOut_reason first).resolve_left (by simp)
    obtain ⟨other, member, same⟩ := shares.resolve_left fun ⟨_, _, known⟩ => by simp at known
    refine ⟨content, document, inside, made, other, member, same, ?_⟩
    by_cases rejected : other.sourcePath ∈ projection.rejectedTasks (projection.siftedIn files)
    · exact .inr (List.mem_append_right _ (List.mem_map_of_mem rejected))
    · exact .inl (mem_accepted.mpr ⟨member, rejected⟩)
  orphans := fun _ skipped => orphan_of_skipped skipped

end
end Projection

/-! Two files of one subtask, whose parent is missing. -/

namespace Orphans

def subtask : EntityHead where
  id := "TASK-2026-001-ST01"
  entityType := "task"
  uri := uriText ⟨"demo", "task", "TASK-2026-001-ST01"⟩
  title := "Core"
  aliases := []
  status := some "ready"
  confidence := none
  tags := []
  topics := []
  createdAt := ⟨0, 0⟩
  updatedAt := ⟨0, 0⟩

def readTask (raw : Frontmatter) : Option EntityHead :=
  if (raw.get "id").bind Yaml.text = some subtask.id then some subtask else none

theorem readTask_made {raw : Frontmatter} {head : EntityHead} (made : readTask raw = some head) : head = subtask := by
  unfold readTask at made
  split at made
  · exact (Option.some.inj made).symm
  · cases made

def place : TaskHead := ⟨true, some "TASK-2026-001", "TASK-2026-001", "P2", "ready", none, none, [], none, "Review", [], [], []⟩

theorem place_apart : place.rootTask ≠ subtask.id := by decide

theorem lists_nodup : ∀ values ∈ subtask.lists ++ place.lists, values.Nodup := by decide

@[irreducible] def note : Bytes :=
  encodeUtf8 ("---\nid: TASK-2026-001-ST01\nentity_type: task\nuri: workctx://demo/task/TASK-2026-001-ST01\ntitle: Core\nstatus: ready\n" ++
    "task_type: subtask\nparent_task: TASK-2026-001\nroot_task: TASK-2026-001\npriority: P2\nnext_action: Review\n" ++
    "created_at: 1970-01-01T00:00:00Z\nupdated_at: 1970-01-01T00:00:00Z\n---\n").toList

def raw : Frontmatter := [("id", .string "TASK-2026-001-ST01"), ("entity_type", .string "task")]

def readFrontmatter (content : Bytes) : Option Frontmatter := if content = note then some raw else none

def projection : Projection where
  models :=
    { Sample.models with
      frontmatter := readFrontmatter
      task := readTask
      taskHead := fun _ => place
      task_uri := fun _ _ made => readTask_made made ▸ ⟨"demo", by decide⟩
      task_place := fun _ _ made => readTask_made made ▸ .inr ⟨rfl, rfl, place_apart⟩
      task_lists := fun _ _ made => readTask_made made ▸ lists_nodup }
  contextId := "demo"

def files : Directory String Bytes := [("03_work/tasks/one.md", note), ("03_work/tasks/two.md", note)]

theorem sources_files : Projection.sources files = files := by
  have indexed : ∀ entry ∈ files, isIndexedPath entry.1 = true := by
    simp only [files, forall_mem_cons]
    decide +kernel
  unfold Projection.sources
  rw [filter_eq_self.mpr indexed]
  exact mergeSort_of_pairwise (by decide +kernel)

def record : Record := ⟨some subtask, some place, none, []⟩

def document (path : String) : ParsedDocument := ⟨path, record, [], [(subtask.id, subtask.uri)]⟩

theorem inContext : projection.localRecord record = true := by
  have parsed := Sample.models.parse_uriText ⟨"demo", "task", "TASK-2026-001-ST01"⟩ (by decide)
  simp [Projection.localRecord, Projection.localTask, Projection.isLocalUri, record, subtask, place, parsed, projection]

theorem parses (path : String) : projection.parseDocument path note = some (document path) := by
  have read : projection.models.frontmatter note = some raw := if_pos rfl
  exact Projection.parseDocument_iff.mpr ⟨raw, rfl, read, rfl, rfl, rfl, inContext, nodup_singleton _⟩

theorem sifts_of {content : Bytes} (parses : ∀ path, projection.parseDocument path content = some (document path)) (one two : String) :
    projection.parseSources [] [(one, content), (two, content)] = ([document one], [two]) ∧
      projection.siftedOut [] [(one, content), (two, content)] = [(two, .duplicateIdentity)] := by
  constructor
  · simp [Projection.parseSources, parses, document]
  · simp [Projection.siftedOut, parses, document]

theorem sifts : projection.parseSources [] files = ([document "03_work/tasks/one.md"], ["03_work/tasks/two.md"]) ∧
    projection.siftedOut [] files = [("03_work/tasks/two.md", .duplicateIdentity)] := sifts_of parses _ _

theorem rejects : projection.rejectedTasks [document "03_work/tasks/one.md"] = ["03_work/tasks/one.md"] := by decide +kernel

theorem rebuilt : projection.accepted files = [] ∧
    projection.skippedFiles files = [("03_work/tasks/two.md", .duplicateIdentity), ("03_work/tasks/one.md", .taskHierarchy)] := by
  unfold Projection.accepted Projection.rebuild Projection.skippedFiles Projection.siftedIn
  rw [sources_files, sifts.1, sifts.2]
  dsimp only
  rw [rejects]
  exact ⟨rfl, rfl⟩

end Orphans

theorem justified_orphans : Orphans.projection.Justified Orphans.files := Projection.justified (by decide)

/-- The second file is skipped for an identity that no accepted document has. -/
theorem orphan_hides_duplicate : ¬∀ path, (path, SkipReason.duplicateIdentity) ∈ Orphans.projection.skippedFiles Orphans.files →
    ∃ content document, (path, content) ∈ Projection.sources Orphans.files ∧
      Orphans.projection.parseDocument path content = some document ∧
        ∃ other ∈ Orphans.projection.accepted Orphans.files, Projection.Shares document other.identities := by
  intro justified
  obtain ⟨empty, skipped⟩ := Orphans.rebuilt
  obtain ⟨_, _, _, _, other, member, _⟩ := justified "03_work/tasks/two.md" (skipped ▸ List.mem_cons_self)
  rw [empty] at member
  cases member

end Workctx.Owners
