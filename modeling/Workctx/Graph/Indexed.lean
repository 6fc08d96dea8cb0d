import Workctx.Graph.Admission

/-! Which of the documents of a valid workspace a rebuild indexes. -/

namespace Workctx.Owners.Projection
open Workctx.Text Workctx.Concurrent Workctx.Domain Workctx.Migration List
variable {projection : Projection}

/-! The hierarchy of the tasks. -/

structure Task.Placed (contextId : String) (task : Task) : Prop where
  inContext : task.contextId = contextId
  place : (task.head.isSubtask = false ∧ task.head.rootTask = task.id) ∨
    (task.head.isSubtask = true ∧ task.head.parentTask = some task.head.rootTask ∧ task.head.rootTask ≠ task.id)

theorem hierarchy_parent {task : Task} (parent : task.head.isSubtask = false) : validateTaskHierarchy [task] = true := by
  unfold validateTaskHierarchy
  simp [parent, eraseDups_cons]

variable {contextId : String}

theorem hierarchy_orphan {task : Task} (placed : task.Placed contextId) (subtask : task.head.isSubtask = true) :
    validateTaskHierarchy [task] = false := by
  obtain ⟨_, parent, apart⟩ := placed.place.resolve_left fun other => absurd (subtask.symm.trans other.1) (by simp)
  unfold validateTaskHierarchy
  simp [subtask, parent, apart.symm]

theorem hierarchy_child {parent task : Task} (placed : task.Placed contextId) (above : parent.Placed contextId)
    (subtask : task.head.isSubtask = true) (top : parent.head.isSubtask = false) (same : parent.id = task.head.rootTask) :
    validateTaskHierarchy [parent, task] = true := by
  obtain ⟨_, named, apart⟩ := placed.place.resolve_left fun other => absurd (subtask.symm.trans other.1) (by simp)
  obtain ⟨_, root⟩ := above.place.resolve_right fun other => absurd (top.symm.trans other.1) (by simp)
  have different : parent.id ≠ task.id := same ▸ apart
  unfold validateTaskHierarchy
  simp [subtask, named, top, root, same, apart, placed.inContext, above.inContext, eraseDups_cons]

theorem rejectTasks_parents {accepted : List Task} {parents others : List (String × Task)}
    (tops : ∀ parent ∈ parents, parent.2.head.isSubtask = false) :
    rejectTasks accepted (parents ++ others) = rejectTasks (accepted ++ parents.map Prod.snd) others := by
  induction parents generalizing accepted with
  | nil => simp
  | cons parent rest ih =>
    obtain ⟨path, task⟩ := parent
    rw [forall_mem_cons] at tops
    have top : task.head.isSubtask = false := tops.1
    rw [cons_append, rejectTasks, if_neg (by simp [top]), if_pos (hierarchy_parent top), ih tops.2]
    simp

theorem mem_rejectTasks {path : String} {parents : List Task} {tasks : List (String × Task)}
    (tops : ∀ parent ∈ parents, parent.head.isSubtask = false ∧ parent.Placed contextId)
    (subtasks : ∀ task ∈ tasks, task.2.head.isSubtask = true ∧ task.2.Placed contextId) :
    path ∈ rejectTasks parents tasks ↔ ∃ task, (path, task) ∈ tasks ∧ ∀ parent ∈ parents, parent.id ≠ task.head.rootTask := by
  induction tasks with
  | nil => simp [rejectTasks]
  | cons task rest ih =>
    obtain ⟨place, task⟩ := task
    rw [forall_mem_cons] at subtasks
    obtain ⟨⟨subtask, placed⟩, others⟩ := subtasks
    have below := ih others
    rw [rejectTasks, if_pos subtask]
    cases found : parents.find? fun parent => parent.id == task.head.rootTask with
    | some parent =>
      have member := mem_of_find?_eq_some found
      have same : parent.id = task.head.rootTask := by simpa using find?_some found
      obtain ⟨top, above⟩ := tops parent member
      rw [Option.toList_some, singleton_append, if_pos (hierarchy_child placed above subtask top same), below]
      constructor
      · rintro ⟨other, inside, missing⟩
        exact ⟨other, mem_cons_of_mem _ inside, missing⟩
      · rintro ⟨other, inside, missing⟩
        rcases mem_cons.mp inside with here | later
        · obtain ⟨_, rfl⟩ := Prod.mk.inj here
          exact absurd same (missing parent member)
        · exact ⟨other, later, missing⟩
    | none =>
      have missing : ∀ parent ∈ parents, parent.id ≠ task.head.rootTask := by
        intro parent member
        simpa using find?_eq_none.mp found parent member
      rw [Option.toList_none, nil_append, hierarchy_orphan placed subtask, if_neg (by simp), mem_cons, below]
      constructor
      · rintro (rfl | ⟨other, inside, absent⟩)
        · exact ⟨task, mem_cons_self, missing⟩
        · exact ⟨other, mem_cons_of_mem _ inside, absent⟩
      · rintro ⟨other, inside, absent⟩
        rcases mem_cons.mp inside with here | later
        · exact .inl (Prod.mk.inj here).1
        · exact .inr ⟨other, later, absent⟩

theorem mem_rejectedTasks {path : String} {documents : List ParsedDocument}
    (placed : ∀ document ∈ documents, ∀ task, projection.taskOf document = some task → task.Placed projection.contextId) :
    path ∈ projection.rejectedTasks documents ↔ ∃ document ∈ documents, document.sourcePath = path ∧
      ∃ task, projection.taskOf document = some task ∧ task.head.isSubtask = true ∧
        ∀ other ∈ documents, ∀ parent, projection.taskOf other = some parent → parent.head.isSubtask = false →
          parent.id ≠ task.head.rootTask := by
  have listed : ∀ {place : String} {task : Task}, (place, task) ∈ (documents.filterMap fun document =>
      (projection.taskOf document).map fun task => (document.sourcePath, task)) ↔
      ∃ document ∈ documents, document.sourcePath = place ∧ projection.taskOf document = some task := by
    intro place task
    rw [mem_filterMap]
    constructor
    · rintro ⟨document, member, same⟩
      obtain ⟨own, made, equal⟩ := Option.map_eq_some_iff.mp same
      cases equal
      exact ⟨document, member, rfl, made⟩
    · rintro ⟨document, member, rfl, made⟩
      exact ⟨document, member, by rw [made]; rfl⟩
  have sorted : ∀ (tasks : List (String × Task)) (task : String × Task), task ∈ sortTasks tasks ↔ task ∈ tasks :=
    fun tasks task => (mergeSort_perm _ _).mem_iff
  unfold rejectedTasks
  dsimp only
  rw [rejectTasks_parents, nil_append, mem_rejectTasks]
  · constructor
    · rintro ⟨task, member, missing⟩
      obtain ⟨inside, subtask⟩ := mem_filter.mp ((sorted _ _).mp member)
      obtain ⟨document, own, place, made⟩ := listed.mp inside
      refine ⟨document, own, place, task, made, subtask, ?_⟩
      intro other also parent above top
      refine missing parent (mem_map.mpr ⟨(other.sourcePath, parent), (sorted _ _).mpr (mem_filter.mpr ⟨?_, ?_⟩), rfl⟩)
      · exact listed.mpr ⟨other, also, rfl, above⟩
      · rw [top]
        rfl
    · rintro ⟨document, own, place, task, made, subtask, missing⟩
      refine ⟨task, (sorted _ _).mpr (mem_filter.mpr ⟨listed.mpr ⟨document, own, place, made⟩, subtask⟩), ?_⟩
      intro parent member
      obtain ⟨⟨other, above⟩, inside, rfl⟩ := mem_map.mp member
      obtain ⟨inside, top⟩ := mem_filter.mp ((sorted _ _).mp inside)
      obtain ⟨document', own', _, made'⟩ := listed.mp inside
      exact missing document' own' above made' ((Bool.not_eq_true' _).mp top)
  · intro parent member
    obtain ⟨⟨other, above⟩, inside, rfl⟩ := mem_map.mp member
    obtain ⟨inside, top⟩ := mem_filter.mp ((sorted _ _).mp inside)
    obtain ⟨document, own, _, made⟩ := listed.mp inside
    exact ⟨(Bool.not_eq_true' _).mp top, placed document own above made⟩
  · rintro ⟨other, task⟩ member
    obtain ⟨inside, subtask⟩ := mem_filter.mp ((sorted _ _).mp member)
    obtain ⟨document, own, _, made⟩ := listed.mp inside
    exact ⟨subtask, placed document own task made⟩
  · rintro ⟨other, parent⟩ member
    obtain ⟨_, top⟩ := mem_filter.mp ((sorted _ _).mp member)
    exact (Bool.not_eq_true' _).mp top

theorem task_of_record {models : Models} {raw : Frontmatter} {record : Record} {task : TaskHead}
    (read : readRecord models raw = some record) (own : record.task = some task) :
    ∃ head, record.entity = some head ∧ models.task raw = some head ∧ task = models.taskHead raw := by
  unfold readRecord at read
  split at read
  · split at read
    · exact absurd read (by simp)
    · split at read
      · obtain ⟨claim, _, rfl⟩ := Option.map_eq_some_iff.mp read
        exact absurd own (by simp)
      · split at read
        · obtain ⟨observation, _, rfl⟩ := Option.map_eq_some_iff.mp read
          exact absurd own (by simp)
        · exact absurd read (by simp)
  · obtain ⟨head, found, more⟩ := Option.bind_eq_some_iff.mp read
    obtain ⟨observations, _, done⟩ := Option.bind_eq_some_iff.mp more
    cases done
    dsimp only at own
    split at own
    · next typed =>
      unfold readHead at found
      rw [if_pos typed] at found
      exact ⟨head, rfl, found, (Option.some.inj own).symm⟩
    · exact absurd own (by simp)

theorem Parsed.task {path : String} {content : Bytes} {document : ParsedDocument} {raw : Frontmatter}
    (parsed : Parsed projection path content document raw) {task : Task} (own : projection.taskOf document = some task) :
    projection.models.task raw = document.record.entity ∧ task.head = projection.models.taskHead raw ∧
      (∃ head, document.record.entity = some head ∧ task.id = head.id) ∧ task.Placed projection.contextId := by
  obtain ⟨head, entity, more⟩ := Option.bind_eq_some_iff.mp own
  obtain ⟨part, had, rfl⟩ := Option.map_eq_some_iff.mp more
  obtain ⟨head', entity', read, rfl⟩ := task_of_record parsed.record had
  obtain rfl := Option.some.inj (entity.symm.trans entity')
  have inContext := (parseDocument_made (parseDocument_iff.mpr ⟨raw, parsed⟩)).2.2.2 head entity
  refine ⟨read.trans entity.symm, rfl, ⟨head, entity, rfl⟩, ⟨?_, projection.models.task_place raw head read⟩⟩
  unfold isLocalUri at inContext
  cases found : projection.models.parseUri head.uri with
  | none =>
    rw [found] at inContext
    exact absurd inContext (by simp)
  | some uri =>
    rw [found] at inContext
    exact beq_iff_eq.mp inContext

theorem parsed_placed {files : Directory String Bytes} : ∀ document ∈ (projection.parseSources [] (sources files)).1,
    ∀ task, projection.taskOf document = some task → task.Placed projection.contextId := by
  intro document member task own
  have sifted : Sifted projection [] (sources files) _ _ := parseSources_sifted
  obtain ⟨_, _, _, made⟩ := sifted.made document member
  obtain ⟨_, parsed⟩ := parseDocument_iff.mp made
  exact (parsed.task own).2.2.2

end Workctx.Owners.Projection

namespace Workctx.Graph
open Workctx.Text Workctx.Concurrent Workctx.Domain Workctx.Migration Workctx.Owners List

namespace Validator
variable (validator : Validator) (configuration : Configuration validator.projection.contextId)

/-- A rebuild gives a database, and skips no accepted document of the indexed zones. -/
structure Indexes (files : Files) : Prop where
  completes : ∃ rows, validator.projection.build configuration files = some rows
  indexed : ∀ path content raw model, Accepts validator files path content raw model → path ∉ (validator.projection.rebuild files).2

/-- What the validator leaves open between the documents. -/
structure Indexable (files : Files) : Prop where
  projectable : ∀ path content raw model, Accepts validator files path content raw model → validator.Projectable raw model
  /-- No other document has an identifier of an accepted one. -/
  apart : ∀ path content raw model, Accepts validator files path content raw model →
    ∀ other content', (other, content') ∈ files → isIndexedPath other = true → other ≠ path →
      ∀ document document', validator.projection.parseDocument path content = some document →
        validator.projection.parseDocument other content' = some document' →
        ∀ id ∈ document.identities.map Prod.fst, id ∉ document'.identities.map Prod.fst
  /-- The parent of an accepted subtask is in an indexed zone. -/
  parents : ∀ path content raw head references relations, Accepts validator files path content raw (.task head references relations) →
    (validator.models.taskHead raw).isSubtask = true → ∃ path' content' raw' head' references' relations',
      Accepts validator files path' content' raw' (.task head' references' relations') ∧
        (validator.models.taskHead raw').isSubtask = false ∧ head'.id = (validator.models.taskHead raw).rootTask
  /-- The values can be stored. -/
  updatedAt : storable validator.models (timeOf configuration.updatedAt) = true
  paths : ∀ path content, (path, content) ∈ files → isIndexedPath path = true → validator.models.encodes path = true
  values : ∀ path content document, (path, content) ∈ files → isIndexedPath path = true →
    validator.projection.parseDocument path content = some document →
    ∀ cell ∈ validator.projection.documentValues configuration document, storable validator.models cell = true

/-- The validator reads the documents of the indexed zones; it passes over `.git` and `98_state` directories. -/
def Covers (files : Files) : Prop :=
  ∀ path content, (path, content) ∈ files → isIndexedPath path = true → (validator.models.frontmatter content).isSome = true →
    validator.isValidated path content = true

variable {validator : Validator} {configuration : Configuration validator.projection.contextId} {files : Files}

variable {raw : Frontmatter}

theorem accepts_of_parsed (valid : validator.issues files = []) (covers : validator.Covers files) {path : String} {content : Bytes}
    {document : ParsedDocument} (member : (path, content) ∈ files) (indexed : isIndexedPath path = true)
    (parsed : Projection.Parsed validator.projection path content document raw) :
    ∃ model, Accepts validator files path content raw model := by
  have validated := covers path content member indexed (by rw [show validator.models.frontmatter content = some raw from parsed.read]; rfl)
  obtain ⟨model, made, _⟩ := validateDocument_silent ((issues_silent valid).validated _ (isValidated_document member validated parsed.read))
  exact ⟨model, member, indexed, validated, parsed.read, made⟩

theorem taskOf_accepts {path : String} {content : Bytes} {head : EntityHead} {references : List Reference}
    {relations : List String} {document : ParsedDocument} (accepts : Accepts validator files path content raw (.task head references relations))
    (made : validator.projection.parseDocument path content = some document) :
    ∃ task, validator.projection.taskOf document = some task ∧ task.head = validator.models.taskHead raw ∧ task.id = head.id := by
  obtain ⟨raw', parsed⟩ := Projection.parseDocument_iff.mp made
  obtain rfl := Option.some.inj (accepts.read.symm.trans parsed.read)
  have form := form_of_validate accepts.made
  cases form with
  | task value _ _ typed own accepted =>
    have present : value ≠ .null := by
      rintro rfl
      exact absurd own (by simp [Yaml.text])
    obtain ⟨other, observations, read, _, same⟩ := (readRecord_of_typed typed present).mp parsed.record
    unfold readHead at read
    rw [if_pos own] at read
    obtain rfl := Option.some.inj (accepted.symm.trans read)
    rw [if_pos own] at same
    unfold Projection.taskOf
    rw [same]
    exact ⟨_, rfl, rfl, rfl⟩

theorem model_of_task {model : Model} {head : EntityHead} (form : Form validator raw model)
    (own : validator.models.task raw = some head) : ∃ references relations, model = .task head references relations := by
  have named := validator.task_typed raw head own
  rw [validator.task_head raw head own] at named
  obtain ⟨value, found, task⟩ := Option.bind_eq_some_iff.mp named
  have present : (raw.get "entity_type").isSome = true := by rw [found]; rfl
  cases form with
  | entity other _ typed _ apart _ =>
    obtain rfl := Option.some.inj (found.symm.trans typed)
    exact absurd task apart
  | task _ other relations _ _ accepted =>
    obtain rfl := Option.some.inj (own.symm.trans accepted)
    exact ⟨_, _, rfl⟩
  | claim claim accepted => exact absurd (validator.claim_members raw claim accepted _ present) (by decide)
  | artifact _ untyped _ =>
    rw [untyped] at found
    exact absurd found (by simp)
  | observation observation accepted => exact absurd (validator.observation_members raw observation accepted _ present) (by decide)

theorem shares_ids {one two : ParsedDocument} {models : Models} {contextId : String}
    (first : Typed models one.record) (second : Typed models two.record)
    (named : one.record.identities contextId = some one.identities) (named' : two.record.identities contextId = some two.identities)
    (shares : Projection.Shares one two.identities) : ∃ id ∈ one.identities.map Prod.fst, id ∈ two.identities.map Prod.fst := by
  obtain ⟨identity, member, known⟩ := shares
  refine ⟨identity.1, mem_map_of_mem member, ?_⟩
  rcases known with id | uri
  · exact id
  · obtain ⟨other, also, same⟩ := mem_map.mp uri
    obtain ⟨parsed, read, own, _⟩ := ((identities_made named).1 identity member).spelled first
    obtain ⟨parsed', read', own', _⟩ := ((identities_made named').1 other also).spelled second
    rw [same] at read'
    obtain rfl := Option.some.inj (read.symm.trans read')
    exact mem_map.mpr ⟨other, also, own'.symm.trans own⟩

section
variable (valid : validator.issues files = [])
include valid

section
variable (unique : (files.map Prod.fst).Nodup)
include unique

theorem parsed_of_indexable
    (indexable : validator.Indexable configuration files) {path : String} {content : Bytes} {model : Model}
    (accepts : Accepts validator files path content raw model) :
    path ∉ (validator.projection.parseSources [] (Projection.sources files)).2 ∧
      ∃ document ∈ (validator.projection.parseSources [] (Projection.sources files)).1,
        validator.projection.parseDocument path content = some document := by
  have sifted : Projection.Sifted validator.projection [] (Projection.sources files) _ _ := Projection.parseSources_sifted
  have source : (path, content) ∈ Projection.sources files := Projection.mem_sources.mpr ⟨accepts.member, accepts.indexed⟩
  obtain ⟨document, made⟩ := (accepts.parses valid configuration.valid).mpr (indexable.projectable path content raw model accepts)
  have kept : path ∉ (validator.projection.parseSources [] (Projection.sources files)).2 := by
    intro skipped
    obtain ⟨content', found, why⟩ := sifted.reason (Projection.sources_distinct unique) path skipped
    obtain rfl : content = content' := Option.some.inj ((Directory.get_of_mem (Projection.sources_distinct unique) source).symm.trans
      (Directory.get_of_mem (Projection.sources_distinct unique) found))
    rcases why document made with ⟨_, _, seen⟩ | ⟨owner, own, elsewhere, shares⟩
    · exact absurd seen (by simp)
    · obtain ⟨place, content'', inside, made'⟩ := sifted.made owner own
      obtain ⟨raw', parsed'⟩ := Projection.parseDocument_iff.mp made'
      obtain ⟨raw'', parsed⟩ := Projection.parseDocument_iff.mp made
      obtain rfl := parsed'.path
      obtain ⟨member, indexed⟩ := Projection.mem_sources.mp inside
      obtain ⟨id, mine, theirs⟩ := shares_ids (readRecord_typed parsed.record) (readRecord_typed parsed'.record) parsed.identities
        parsed'.identities shares
      exact indexable.apart path content raw model accepts _ content'' member indexed elsewhere document owner made made' id mine theirs
  exact ⟨kept, sifted.kept path content source kept⟩

theorem indexes_of_indexable
    (indexable : validator.Indexable configuration files) : validator.Indexes configuration files := by
  constructor
  · refine (Projection.build_iff unique).mpr ⟨indexable.updatedAt, indexable.paths, ?_⟩
    intro document member
    obtain ⟨content, found, indexed, made⟩ := Projection.mem_rebuild member
    exact indexable.values _ content document found indexed made
  · intro path content raw model accepts listed
    obtain ⟨kept, document, member, made⟩ := parsed_of_indexable valid unique indexable accepts
    unfold Projection.rebuild at listed
    dsimp only at listed
    rcases mem_append.mp listed with skipped | rejected
    · exact kept skipped
    · have sifted : Projection.Sifted validator.projection [] (Projection.sources files) _ _ := Projection.parseSources_sifted
      obtain ⟨document', member', place, task, own, subtask, missing⟩ := (Projection.mem_rejectedTasks Projection.parsed_placed).mp rejected
      obtain ⟨place', content', inside, made'⟩ := sifted.made document' member'
      obtain ⟨raw', parsed⟩ := Projection.parseDocument_iff.mp made'
      obtain rfl : place' = path := parsed.path.symm.trans place
      obtain rfl : content = content' := Option.some.inj ((Directory.get_of_mem unique accepts.member).symm.trans
        (Directory.get_of_mem unique (Projection.mem_sources.mp inside).1))
      obtain rfl := Option.some.inj (accepts.read.symm.trans parsed.read)
      obtain ⟨read, same, ⟨head, entity, _⟩, _⟩ := parsed.task own
      obtain ⟨references, relations, rfl⟩ := model_of_task (form_of_validate accepts.made) (read.trans entity)
      rw [same] at subtask
      obtain ⟨path', content', raw', head', references', relations', parent, top, root⟩ :=
        indexable.parents _ content raw head references relations accepts subtask
      obtain ⟨_, other, also, made''⟩ := parsed_of_indexable valid unique indexable parent
      obtain ⟨above, owned, head'', id⟩ := taskOf_accepts parent made''
      refine missing other also above owned (head'' ▸ top) ?_
      rw [id, root, same]
      rfl

theorem indexable_of_indexes (covers : validator.Covers files)
    (indexes : validator.Indexes configuration files) : validator.Indexable configuration files := by
  have sifted : Projection.Sifted validator.projection [] (Projection.sources files) _ _ := Projection.parseSources_sifted
  -- Each document that is parsed is indexed.
  have kept : ∀ path content document, (path, content) ∈ files → isIndexedPath path = true →
      validator.projection.parseDocument path content = some document →
      document ∈ (validator.projection.rebuild files).1 ∧ document ∈ (validator.projection.parseSources [] (Projection.sources files)).1 ∧
        path ∉ (validator.projection.rebuild files).2 := by
    intro path content document member indexed made
    obtain ⟨raw, parsed⟩ := Projection.parseDocument_iff.mp made
    obtain ⟨model, accepts⟩ := accepts_of_parsed valid covers member indexed parsed
    have outside := indexes.indexed path content raw model accepts
    obtain ⟨other, inside, place⟩ := (Projection.rebuild_accounts unique member indexed).mpr outside
    obtain ⟨content', found, _, made'⟩ := Projection.mem_rebuild inside
    rw [place] at found made'
    obtain rfl := Option.some.inj ((Directory.get_of_mem unique member).symm.trans (Directory.get_of_mem unique found))
    obtain rfl := Option.some.inj (made.symm.trans made')
    exact ⟨inside, (mem_filter.mp inside).1, outside⟩
  have parses : ∀ path content raw model, Accepts validator files path content raw model →
      ∃ document, validator.projection.parseDocument path content = some document := by
    intro path content raw model accepts
    have outside := indexes.indexed path content raw model accepts
    obtain ⟨document, inside, place⟩ := (Projection.rebuild_accounts unique accepts.member accepts.indexed).mpr outside
    obtain ⟨content', found, _, made⟩ := Projection.mem_rebuild inside
    rw [place] at found made
    obtain rfl := Option.some.inj ((Directory.get_of_mem unique accepts.member).symm.trans (Directory.get_of_mem unique found))
    exact ⟨document, made⟩
  obtain ⟨updated, paths, values⟩ := (Projection.build_iff unique).mp indexes.completes
  constructor
  · intro path content raw model accepts
    exact (accepts.parses valid configuration.valid).mp (parses path content raw model accepts)
  · intro path content raw model accepts other content' member indexed elsewhere document document' made made' id mine theirs
    obtain ⟨_, inside, _⟩ := kept path content document accepts.member accepts.indexed made
    obtain ⟨_, inside', _⟩ := kept other content' document' member indexed made'
    obtain ⟨raw', parsed⟩ := Projection.parseDocument_iff.mp made
    obtain ⟨raw'', parsed'⟩ := Projection.parseDocument_iff.mp made'
    have different : document' ≠ document := by
      rintro rfl
      exact elsewhere (parsed'.path.symm.trans parsed.path)
    obtain ⟨identity, own, rfl⟩ := mem_map.mp mine
    obtain ⟨identity', own', same⟩ := mem_map.mp theirs
    exact (sifted.apart.forall inside' inside different).ids identity'.1 identity'.2 identity.2 own' (same ▸ own)
  · intro path content raw head references relations accepts subtask
    obtain ⟨document, made⟩ := parses path content raw _ accepts
    obtain ⟨_, inside, outside⟩ := kept path content document accepts.member accepts.indexed made
    obtain ⟨task, own, same, _⟩ := taskOf_accepts accepts made
    have free : path ∉ validator.projection.rejectedTasks (validator.projection.parseSources [] (Projection.sources files)).1 :=
      fun rejected => outside (mem_append_right _ rejected)
    rw [Projection.mem_rejectedTasks Projection.parsed_placed] at free
    obtain ⟨raw', parsed⟩ := Projection.parseDocument_iff.mp made
    by_contra missing
    refine free ⟨document, inside, parsed.path, task, own, same ▸ subtask, ?_⟩
    intro other member parent above top root
    obtain ⟨place, content', inside', made'⟩ := sifted.made other member
    obtain ⟨found, indexed⟩ := Projection.mem_sources.mp inside'
    obtain ⟨raw'', parsed'⟩ := Projection.parseDocument_iff.mp made'
    obtain ⟨model, accepts'⟩ := accepts_of_parsed valid covers found indexed parsed'
    obtain ⟨read, same', ⟨head', entity, id⟩, _⟩ := parsed'.task above
    obtain ⟨references', relations', rfl⟩ := model_of_task (form_of_validate accepts'.made) (read.trans entity)
    refine missing ⟨place, content', raw'', head', references', relations', accepts', ?_, ?_⟩
    · exact same' ▸ top
    · rw [← id, root, same]
  · exact updated
  · exact paths
  · intro path content document member indexed made
    exact values document (kept path content document member indexed made).1

end

end

end Validator

namespace Silence

def note : Bytes :=
  encodeUtf8 "---\n".toList ++ encodeUtf8 ("schema_version: 1\nid: core\nentity_type: service\ntitle: Core\n" ++
    "uri: workctx://demo/service/core\ncreated_at: 2026-01-01T00:00:00Z\nupdated_at: 2026-01-01T00:00:00Z\nobservations:\n---\n").toList

def frontmatter : Frontmatter :=
  [("schema_version", .int 1), ("id", .string "core"), ("entity_type", .string "service"), ("title", .string "Core"),
    ("uri", .string "workctx://demo/service/core"), ("observations", .null)]

def head : EntityHead where
  id := "core"
  entityType := "service"
  uri := "workctx://demo/service/core"
  title := "Core"
  aliases := []
  status := none
  confidence := none
  tags := []
  topics := []
  createdAt := ⟨1767225600000000, 0⟩
  updatedAt := ⟨1767225600000000, 0⟩

def readEntity (raw : Frontmatter) : Option EntityHead :=
  if (raw.get "entity_type").bind Yaml.text = some "service" ∧ (raw.get "references").isNone = true then some head else none

theorem readEntity_made {raw : Frontmatter} {read : EntityHead} (made : readEntity raw = some read) :
    (raw.get "entity_type").bind Yaml.text = some "service" ∧ raw.get "references" = none ∧ read = head := by
  unfold readEntity at made
  split at made
  · next members => exact ⟨members.1, Option.isNone_iff_eq_none.mp members.2, (Option.some.inj made).symm⟩
  · exact absurd made (by simp)

theorem readEntity_uri (raw : Frontmatter) (read : EntityHead) (made : readEntity raw = some read) :
    ∃ contextId, validUri ⟨contextId, read.entityType, read.id⟩ = true ∧ read.uri = uriText ⟨contextId, read.entityType, read.id⟩ := by
  obtain ⟨_, _, rfl⟩ := readEntity_made made
  exact ⟨"demo", by decide⟩

theorem readEntity_lists (raw : Frontmatter) (read : EntityHead) (made : readEntity raw = some read) : ∀ values ∈ read.lists, values.Nodup := by
  obtain ⟨_, _, rfl⟩ := readEntity_made made
  simp [EntityHead.lists, head]

theorem readEntity_references (raw : Frontmatter) (read : EntityHead) (made : readEntity raw = some read) :
    ∃ items, (raw.get "references").getD (.list []) = .list items ∧ ∀ item ∈ items, ((none : Option Reference)).isSome = true := by
  obtain ⟨_, none, _⟩ := readEntity_made made
  rw [none]
  exact ⟨[], rfl, by simp⟩

theorem readEntity_typed (raw : Frontmatter) (read : EntityHead) (made : readEntity raw = some read) :
    (raw.get "entity_type").bind Yaml.text = some read.entityType := by
  obtain ⟨typed, _, rfl⟩ := readEntity_made made
  exact typed

def absent {α β : Type} (_ : α) : Option β := none

def models : Models where
  parseUri := parseUriText
  parse_uriText := @parseUriText_uriText
  frontmatter := fun _ => some frontmatter
  entity := readEntity
  task := absent
  entity_uri := readEntity_uri
  task_uri := fun _ _ => nofun
  claim := absent
  claim_id := fun _ _ => nofun
  observation := absent
  standaloneObservation := absent
  observation_id := fun _ _ => nofun
  standaloneObservation_id := fun _ _ => nofun
  taskHead := fun _ => ⟨false, none, "", "P2", "ready", none, none, [], none, "", [], [], []⟩
  task_place := fun _ _ => nofun
  typedReference := absent
  entity_lists := readEntity_lists
  task_lists := fun _ _ => nofun
  claim_lists := fun _ _ => nofun
  observation_lists := fun _ _ => nofun
  standaloneObservation_lists := fun _ _ => nofun
  typedReference_lists := fun _ _ => nofun
  durable := Sample.durable
  artifact := fun _ => absent
  encodes := fun _ => true
  encodes_ascii := fun _ _ => rfl
  jsonText := absent

def validator : Validator where
  projection := ⟨models, "demo"⟩
  casefold := Sample.lower
  casefold_ascii := Sample.lower_ascii
  structured := fun _ => absent
  manifest := absent
  entityIdIsValid := fun _ => true
  referencePayload := absent
  otherIssues := fun _ => []
  typedReference_payload := fun _ _ _ => nofun
  typedReference_of_payload := fun _ _ => nofun
  typedReference_durable := fun _ _ => nofun
  observation_durable := fun _ _ => nofun
  standalone_durable := fun _ _ => nofun
  entity_references := readEntity_references
  task_references := fun _ _ => nofun
  task_head := fun _ _ => nofun
  claim_members := fun _ _ => nofun
  observation_members := fun _ _ => nofun
  observation_own := fun _ _ => nofun
  claim_own := fun _ _ => nofun
  entity_typed := readEntity_typed
  task_typed := fun _ _ => nofun
  parseUri_scheme := fun _ _ parsed => Sample.parseUriText_scheme parsed
  durable_workctx := fun _ _ parsed spelled typed => Sample.durable_canonical parsed spelled typed
  claim_subject := fun _ _ => nofun
  claim_observations := fun _ _ => nofun
  manifest_members := fun _ _ => nofun

def configuration : Configuration validator.projection.contextId where
  valid := by decide
  updatedAt := ⟨1767225600000000, 0⟩
  unicode := Topics.sampleUnicode
  topics := []

def workspace : Workspace where
  files := [("02_knowledge/services/core.md", note)]
  apart := by simp

theorem valid : validator.issues workspace.files = [] := by decide +kernel

theorem accepts : Validator.Accepts validator workspace.files "02_knowledge/services/core.md" note frontmatter (.entity head []) where
  member := mem_singleton.mpr rfl
  indexed := by decide +kernel
  validated := by decide +kernel
  read := rfl
  made := by rfl

theorem skipped : (validator.projection.rebuild workspace.files).2 = ["02_knowledge/services/core.md"] := by decide +kernel

end Silence

end Workctx.Graph
