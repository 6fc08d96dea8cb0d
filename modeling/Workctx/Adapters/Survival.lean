import Mathlib.Data.List.Infix
import Workctx.Adapters.Freshness

/-! The operator's skill files over runs of edits, package versions and applied plans. -/

namespace Workctx.Adapters
open Workctx.Concurrent Workctx.Text Workctx.Domain List
variable (kit : Kit) (start : ContextState)

def Visited (events : List ContextEvent) (holds : ContextState → Prop) : Prop :=
  ∃ earlier, earlier <+: events ∧ holds (start.run kit earlier)

def Shipped (events : List ContextEvent) (path : CanonicalPath) (content : Bytes) : Prop :=
  Visited kit start events fun state => (path, content) ∈ state.package

/-- The manifest has no record of the path that a plan for this package would compare with. -/
def Untracked (state : ContextState) (path : CanonicalPath) : Prop :=
  ∀ packaged, loadPackagedSources kit state.package [] = .ok packaged →
    ¬(Ships packaged path ∧ (recordOf state.manifest path).isSome)

/-- An applied plan found these bytes at the path untracked, and put them on record. -/
def Adopted (events : List ContextEvent) (path : CanonicalPath) (content : Bytes) : Prop :=
  ∃ earlier, earlier ++ [.refresh] <+: events ∧ (start.run kit earlier).file path = some content ∧
    Untracked kit (start.run kit earlier) path

def OverrideManaged (state : ContextState) (path : CanonicalPath) : Prop :=
  path ∈ (generatedInventory state.manifest).map Prod.fst ∨ ∃ overrides name,
    loadSkillOverrides kit state.package state.overrideFiles = .ok overrides ∧
      (overrideFor overrides name).isSome ∧ path = primaryPath name

/-- The bytes were adopted by an earlier plan and the package has the skill; a registry with
context-local skills is rewritten around them. -/
def Exposed (events : List ContextEvent) (path : CanonicalPath) (content : Bytes) : Prop :=
  (Adopted kit start events path content ∧ ∃ packaged,
    loadPackagedSources kit (start.run kit events).package [] = .ok packaged ∧ Ships packaged path) ∨
    path = registryPath ∧ DeclaresCustom kit content

def Hashed (content : Bytes) (state : ContextState) : Prop :=
  (∃ path, (path, content) ∈ treeFiles state.tree ++ state.package) ∨ ∃ own shipped,
    (registryPath, own) ∈ treeFiles state.tree ∧ (registryPath, shipped) ∈ state.package ∧
      refreshRegistrySkills kit own shipped = .ok content

def CollisionFree (events : List ContextEvent) : Prop :=
  Set.InjOn kit.contentHash {content | Visited kit start events (Hashed kit content)}

/-- A hash on record is that of shipped bytes, of adopted bytes, or of a mixed registry. -/
def Accounted (events : List ContextEvent) (path : CanonicalPath) (digest : String) : Prop :=
  ∃ content, digest = kit.contentHash content ∧ Visited kit start events (Hashed kit content) ∧
    (Shipped kit start events path content ∨ Adopted kit start events path content ∨
      path = registryPath ∧ DeclaresCustom kit content)

section
variable {kit} {start} {events more : List ContextEvent} {path : CanonicalPath} {content : Bytes}

theorem Visited.mono {holds : ContextState → Prop} (visited : Visited kit start events holds) (longer : events <+: more) :
    Visited kit start more holds := by
  obtain ⟨earlier, before, here⟩ := visited
  exact ⟨earlier, before.trans longer, here⟩

theorem Visited.last {holds : ContextState → Prop} (here : holds (start.run kit events)) : Visited kit start events holds :=
  ⟨events, prefix_rfl, here⟩

theorem Adopted.mono (adopted : Adopted kit start events path content) (longer : events <+: more) :
    Adopted kit start more path content := by
  obtain ⟨earlier, before, here⟩ := adopted
  exact ⟨earlier, before.trans longer, here⟩

theorem Accounted.mono {digest : String} (accounted : Accounted kit start events path digest) (longer : events <+: more) :
    Accounted kit start more path digest := by
  obtain ⟨content, hash, hashed, source⟩ := accounted
  refine ⟨content, hash, hashed.mono longer, ?_⟩
  obtain shipped | adopted | mixed := source
  · exact .inl (shipped.mono longer)
  · exact .inr (.inl (adopted.mono longer))
  · exact .inr (.inr mixed)

theorem run_concat (event : ContextEvent) :
    start.run kit (events ++ [event]) = (start.run kit events).step kit event := by
  unfold ContextState.run
  rw [foldl_append]
  rfl

theorem file_of_mem {state : ContextState} (member : (path, content) ∈ treeFiles state.tree) :
    state.file path = some content := by
  unfold ContextState.file
  cases inside : state.tree with
  | none =>
    rw [inside] at member
    cases member
  | some tree =>
    rw [inside] at member
    exact Directory.get_of_mem tree.unique member

theorem step_refresh (kit : Kit) (state : ContextState) :
    state.step kit .refresh = state ∨ ∃ mutations manifest, state.plan kit = .ok (.mutating mutations manifest) ∧
      state.step kit .refresh = { state with tree := applyMutations state.tree mutations, manifest := some manifest } := by
  cases planned : state.plan kit with
  | error error =>
    left
    simp only [ContextState.step, planned]
  | ok plan =>
    cases plan with
    | reportOnly reason =>
      left
      simp only [ContextState.step, planned]
    | mutating mutations manifest =>
      right
      refine ⟨mutations, manifest, rfl, ?_⟩
      simp only [ContextState.step, planned]

theorem accounted_refresh {manifest : AdapterManifest} {mutations : List FileMutation} {digest : String}
    (ih : ∀ path digest, recordOf (start.run kit events).manifest path = some digest → Accounted kit start events path digest)
    (planned : (start.run kit events).plan kit = .ok (.mutating mutations manifest))
    (recorded : recordedHash manifest path = some digest) : Accounted kit start (events ++ [.refresh]) path digest := by
  have longer := prefix_append events [ContextEvent.refresh]
  obtain ⟨selection, isSelection, same, _⟩ := prepareInstallOrRepair_facts planned
  obtain ⟨overrides, packaged, _, isPackaged, facts⟩ := loadSourceSelection_facts isSelection
  subst same
  have adopted : ∀ bytes, (path, bytes) ∈ treeFiles (start.run kit events).tree →
      Untracked kit (start.run kit events) path → Adopted kit start (events ++ [.refresh]) path bytes :=
    fun bytes here untracked => ⟨events, prefix_rfl, file_of_mem here, untracked⟩
  have visited : ∀ bytes, Hashed kit bytes (start.run kit events) →
      Visited kit start (events ++ [.refresh]) (Hashed kit bytes) := fun bytes hashed => (Visited.last hashed).mono longer
  obtain old | ⟨bytes, hash, source⟩ := buildManifest_record facts recorded
  · exact (ih path digest old).mono longer
  · obtain shipped | ⟨here, untracked, _⟩ | ⟨isRegistry, source⟩ := source
    · exact ⟨bytes, hash, visited bytes (.inl ⟨path, mem_append_right _ shipped⟩), .inl ⟨events, longer, shipped⟩⟩
    · refine ⟨bytes, hash, visited bytes (.inl ⟨path, mem_append_left _ here⟩), .inr (.inl (adopted bytes here ?_))⟩
      intro other isOther
      cases isPackaged.symm.trans isOther
      exact untracked
    · subst isRegistry
      cases source with
      | packaged shipped =>
        exact ⟨bytes, hash, visited bytes (.inl ⟨_, mem_append_right _ shipped⟩), .inl ⟨events, longer, shipped⟩⟩
      | adopted here first =>
        refine ⟨bytes, hash, visited bytes (.inl ⟨_, mem_append_left _ here⟩), .inr (.inl (adopted bytes here ?_))⟩
        intro other _ both
        rw [recordOf, first] at both
        cases both.2
      | mixed own shipped here there refreshed declares =>
        exact ⟨bytes, hash, visited bytes (.inr ⟨own, shipped, here, there, refreshed⟩), .inr (.inr ⟨rfl, declares⟩)⟩

theorem accounted (fresh : start.manifest = none) (events : List ContextEvent) :
    ∀ path digest, recordOf (start.run kit events).manifest path = some digest → Accounted kit start events path digest := by
  induction events using List.reverseRecOn with
  | nil =>
    intro path digest recorded
    have nothing : (start.run kit []).manifest = none := fresh
    rw [nothing] at recorded
    cases recorded
  | append_singleton events event ih =>
    intro path digest recorded
    rw [run_concat] at recorded
    have unchanged : recordOf (start.run kit events).manifest path = some digest →
        Accounted kit start (events ++ [event]) path digest :=
      fun old => (ih path digest old).mono (prefix_append events [event])
    cases event with
    | edit tree => exact unchanged recorded
    | override files => exact unchanged recorded
    | upgrade package => exact unchanged recorded
    | refresh =>
      obtain same | ⟨mutations, manifest, planned, result⟩ := step_refresh kit (start.run kit events)
      · rw [same] at recorded
        exact unchanged recorded
      · rw [result] at recorded
        exact accounted_refresh ih planned recorded

/-- A plan spares a file whose bytes were neither shipped for its path nor adopted from it. -/
theorem refresh_spares (fresh : start.manifest = none) (collisionFree : CollisionFree kit start events)
    (present : (start.run kit events).file path = some content) (own : ¬Shipped kit start events path content)
    (unmanaged : ¬OverrideManaged kit (start.run kit events) path) (unexposed : ¬Exposed kit start events path content) :
    (start.run kit (events ++ [.refresh])).file path = some content := by
  rw [run_concat]
  obtain same | ⟨mutations, manifest, planned, result⟩ := step_refresh kit (start.run kit events)
  · rw [same]
    exact present
  · rw [result]
    refine (get_applyMutations ?_).trans present
    intro mutation member samePath
    obtain ⟨selection, isSelection, _, rests⟩ := prepareInstallOrRepair_facts planned
    obtain ⟨overrides, packaged, isOverrides, isPackaged, facts⟩ := loadSourceSelection_facts isSelection
    subst samePath
    obtain ⟨change, changed, place, authority⟩ | ⟨skill, listed, overridden, place⟩ | managed := rests mutation member content present
    · obtain ⟨recorded, ships⟩ | ⟨isRegistry, bytes, there, declares⟩ := facts.changes change changed _ authority
      · rw [place] at recorded ships
        obtain ⟨bytes, hash, hashed, source⟩ := accounted fresh events mutation.path _ recorded
        have seen : Visited kit start events (Hashed kit content) :=
          Visited.last (.inl ⟨mutation.path, mem_append_left _ (Directory.mem_of_get present)⟩)
        cases collisionFree seen hashed hash
        obtain shipped | adopted | mixed := source
        · exact own shipped
        · exact unexposed (.inl ⟨adopted, packaged, isPackaged, ships⟩)
        · exact unexposed (.inr mixed)
      · rw [place] at isRegistry
        have same : some bytes = some content := by
          rw [← there, ← isRegistry]
          exact present
        cases same
        exact unexposed (.inr ⟨isRegistry, declares⟩)
    · exact unmanaged (.inr ⟨overrides, skill.name, isOverrides, facts.overridden skill listed overridden, place⟩)
    · exact unmanaged (.inl managed)
end

/-- A file stays as it is while the operator leaves it, over any number of refreshes and package
versions, if at each of them its bytes were neither shipped nor adopted before. -/
theorem operator_files_survive (fresh : start.manifest = none) (earlier later : List ContextEvent) (path : CanonicalPath)
    (content : Bytes) (collisionFree : CollisionFree kit start (earlier ++ later))
    (present : (start.run kit earlier).file path = some content)
    (edits : ∀ tree, .edit tree ∈ later → (treeFiles tree).get path = some content)
    (refreshes : ∀ middle rest, later = middle ++ .refresh :: rest →
      ¬Shipped kit start (earlier ++ middle) path content ∧
        ¬OverrideManaged kit (start.run kit (earlier ++ middle)) path ∧
        ¬Exposed kit start (earlier ++ middle) path content) :
    (start.run kit (earlier ++ later)).file path = some content := by
  induction later using List.reverseRecOn with
  | nil =>
    rw [List.append_nil]
    exact present
  | append_singleton before event ih =>
    have shorter : earlier ++ before <+: earlier ++ (before ++ [event]) := by
      rw [← List.append_assoc]
      exact List.prefix_append _ _
    have free : CollisionFree kit start (earlier ++ before) := collisionFree.mono fun _ visited => visited.mono shorter
    have here := ih free (fun tree member => edits tree (List.mem_append_left _ member)) (by
      intro middle rest split
      refine refreshes middle (rest ++ [event]) ?_
      rw [split, List.append_assoc]
      rfl)
    rw [← List.append_assoc]
    cases event with
    | edit tree =>
      rw [run_concat]
      exact edits tree (List.mem_append_right _ List.mem_cons_self)
    | override files =>
      rw [run_concat]
      exact here
    | upgrade package =>
      rw [run_concat]
      exact here
    | refresh =>
      obtain ⟨own, unmanaged, unexposed⟩ := refreshes before [] rfl
      exact refresh_spares fresh free here own unmanaged unexposed

/-! A context with one packaged skill. -/

def sampleKit : Kit where
  contentHash content := String.ofList (content.map fun byte => Char.ofNat byte.toNat)
  registryDefinition _ := .ok ⟨[("plan-work", "read_only")], [], (0, 1), (0, 0)⟩
  validateSkill _ _ _ _ := .ok ()
  validateResource _ _ _ := .ok ()
  provenance _ := .error (.state "The override has no provenance")
  collisionKey text := text

theorem sampleKit_injective : Function.Injective sampleKit.contentHash := by
  have codes : ∀ code < 256, (Char.ofNat code).toNat = code := by decide +kernel
  have bytes : Function.Injective fun byte : UInt8 => Char.ofNat byte.toNat := by
    intro one two same
    have number := congrArg Char.toNat same
    dsimp only at number
    rw [codes one.toNat one.toNat_lt, codes two.toNat two.toNat_lt] at number
    exact UInt8.toNat_inj.mp number
  intro one two same
  exact map_injective_iff.mpr bytes (String.ofList_injective same)

def packagedKit : Directory CanonicalPath Bytes := [(registryPath, [1]), (primaryPath "plan-work", [2])]

def sampleStart : ContextState := ⟨none, packagedKit, [], none⟩

def writtenTree (path : CanonicalPath) (content : Bytes) : SkillTree :=
  (SkillTree.mk ["plan-work"] packagedKit (by decide)).write path content

def addedPath : CanonicalPath := .skill "plan-work" "notes.md"

theorem sample_package {events : List ContextEvent} (same : ∀ package, .upgrade package ∉ events) :
    (sampleStart.run sampleKit events).package = packagedKit := by
  induction events using List.reverseRecOn with
  | nil => rfl
  | append_singleton events event ih =>
    have before := ih fun package member => same package (mem_append_left _ member)
    rw [run_concat]
    cases event with
    | edit tree => exact before
    | override files => exact before
    | upgrade package => exact absurd (mem_append_right _ mem_cons_self) (same package)
    | refresh =>
      obtain unchanged | ⟨_, _, _, result⟩ := step_refresh sampleKit (sampleStart.run sampleKit events)
      · rw [unchanged]
        exact before
      · rw [result]
        exact before

theorem sample_unshipped {events : List ContextEvent} {path : CanonicalPath} {content : Bytes}
    (same : ∀ package, .upgrade package ∉ events) (foreign : (path, content) ∉ packagedKit) :
    ¬Shipped sampleKit sampleStart events path content := by
  intro ⟨earlier, before, shipped⟩
  dsimp only at shipped
  rw [sample_package fun package member => same package (before.subset member)] at shipped
  exact foreign shipped

theorem unmanaged_of_none {kit : Kit} {state : ContextState} {path : CanonicalPath} (files : state.overrideFiles = [])
    (outputs : generatedInventory state.manifest = []) : ¬OverrideManaged kit state path := by
  intro managed
  obtain inside | ⟨overrides, name, loaded, active, _⟩ := managed
  · rw [outputs] at inside
    cases inside
  · rw [files] at loaded
    cases loaded
    cases active

/-- An operator's revision of a packaged file stays. -/
theorem operator_files_survive_sample :
    (sampleStart.run sampleKit ([.refresh, .edit (writtenTree (primaryPath "plan-work") [7])] ++ [.refresh])).file
      (primaryPath "plan-work") = some [7] := by
  apply operator_files_survive
  · rfl
  · exact sampleKit_injective.injOn
  · decide +kernel
  · intro tree member
    cases List.mem_singleton.mp member
  · intro middle rest split
    obtain ⟨rfl, rfl⟩ : middle = [] ∧ rest = [] := by
      cases middle with
      | nil => exact ⟨rfl, (List.cons.inj split).2.symm⟩
      | cons first others =>
        have absurd := (List.cons.inj split).2
        cases others <;> cases absurd
    refine ⟨sample_unshipped (by simp) (by decide), unmanaged_of_none (by decide +kernel) (by decide +kernel), ?_⟩
    intro exposed
    obtain ⟨⟨earlier, before, there, _⟩, _⟩ | ⟨isRegistry, _⟩ := exposed
    · rw [List.append_nil] at before
      cases earlier with
      | nil => cases there
      | cons first others =>
        have tail := (List.cons_prefix_cons.mp before).2
        cases others with
        | nil => cases (List.cons_prefix_cons.mp tail).1
        | cons second rest =>
          have nothing := List.prefix_nil.mp (List.cons_prefix_cons.mp tail).2
          simp at nothing
    · cases isRegistry

/-- The second refresh after an operator adds a file to a packaged skill deletes the file. -/
theorem refresh_deletes_added :
    ¬∀ (kit : Kit) (start : ContextState) (events : List ContextEvent) (path : CanonicalPath) (content : Bytes),
      start.manifest = none → CollisionFree kit start events →
      (start.run kit events).file path = some content → ¬Shipped kit start events path content →
      ¬OverrideManaged kit (start.run kit events) path →
      (start.run kit (events ++ [.refresh])).file path = some content := by
  intro survives
  have kept := survives sampleKit sampleStart [.refresh, .edit (writtenTree addedPath [3]), .refresh] addedPath [3] rfl
    sampleKit_injective.injOn (by decide +kernel) (sample_unshipped (by simp) (by decide))
    (unmanaged_of_none (by decide +kernel) (by decide +kernel))
  revert kept
  decide +kernel
end Workctx.Adapters
