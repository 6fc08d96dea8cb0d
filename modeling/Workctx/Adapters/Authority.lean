import Workctx.Adapters.Survival
import Workctx.Adapters.Plans

/-! The authority of a plan: why each file that it replaces or deletes may be. -/

namespace Workctx.Adapters.Plans
open Workctx.Concurrent Workctx.Text Workctx.Domain List

/-! Dictionaries -/

section
variable {κ α : Type} [DecidableEq κ]

variable {entries : List (κ × α)} {start : Directory κ α} {entry : κ × α}

theorem mem_of_foldl_put
    (member : entry ∈ entries.foldl (fun directory entry => directory.put entry.1 entry.2) start) : entry ∈ start ∨ entry ∈ entries := by
  induction entries generalizing start with
  | nil => exact Or.inl member
  | cons first rest ih =>
    cases ih member with
    | inr later => exact Or.inr (mem_cons_of_mem first later)
    | inl put =>
      cases mem_cons.mp put with
      | inl same => exact Or.inr (mem_cons.mpr (Or.inl same))
      | inr kept => exact Or.inl (mem_filter.mp kept).1

theorem mem_foldl_put (member : entry ∈ start)
    (apart : ∀ other ∈ entries, other.1 ≠ entry.1) : entry ∈ entries.foldl (fun directory entry => directory.put entry.1 entry.2) start := by
  induction entries generalizing start with
  | nil => exact member
  | cons first rest ih =>
    refine ih (mem_cons_of_mem _ (mem_filter.mpr ⟨member, ?_⟩)) fun other inside => apart other (mem_cons_of_mem first inside)
    exact bne_iff_ne.mpr (apart first mem_cons_self).symm

theorem nodup_foldl_put (unique : (start.map Prod.fst).Nodup) :
    ((entries.foldl (fun directory entry => directory.put entry.1 entry.2) start).map Prod.fst).Nodup := by
  induction entries generalizing start with
  | nil => exact unique
  | cons first rest ih => exact ih (Directory.nodup_put unique first.1 first.2)

theorem mem_of_dictOf (member : entry ∈ dictOf entries) : entry ∈ entries := by
  cases mem_of_foldl_put member with
  | inl none => cases none
  | inr inside => exact inside

theorem nodup_dictOf (entries : List (κ × α)) : ((dictOf entries).map Prod.fst).Nodup := nodup_foldl_put nodup_nil

end

section
variable {environment : Environment} {project : Project} {old : Option AdapterManifest} {selection : SourceSelection} {desired : Desired}

/-! What a manifest records -/

def McpConfiguration.contentHash : McpConfiguration → Option String
  | .notImplemented => none
  | .generated contentHash | .native contentHash | .divergent contentHash => some contentHash

inductive Recorded (client : AgentClient) (manifest : AdapterManifest) : ProjectPath → String → Prop
  | registry : Recorded client manifest (.canonical registryPath) manifest.registryHash
  | native (skill : InstalledSkill) (member : skill ∈ manifest.skills) (files : List (String × String))
      (mode : skill.mode = .nativeVerified files) (relative digest : String) (file : (relative, digest) ∈ files) :
      Recorded client manifest (.canonical (.skill skill.name relative)) digest
  | output (skill : InstalledSkill) (member : skill ∈ manifest.skills) (path : ProjectPath) (digest : String)
      (own : (path, digest) ∈ skill.outputs) : Recorded client manifest path digest
  | bridge (components : AdapterComponents) (there : manifest.components = some components) :
      Recorded client manifest (.bridge client) components.instructionBridge.targetHash
  | mcp (components : AdapterComponents) (there : manifest.components = some components) (digest : String)
      (implemented : components.mcpConfiguration.contentHash = some digest) : Recorded client manifest (.mcp client) digest
  | backup (entry : BackupEntry) (member : entry ∈ manifest.backups) : Recorded client manifest (.backup entry.path) entry.contentHash

/-- The outputs that a manifest owns: those of its skills, and the configuration and the bridge when they were generated. -/
inductive Generated (client : AgentClient) (manifest : AdapterManifest) : ProjectPath → String → Prop
  | output (skill : InstalledSkill) (member : skill ∈ manifest.skills) (path : ProjectPath) (digest : String)
      (own : (path, digest) ∈ skill.outputs) : Generated client manifest path digest
  | bridge (components : AdapterComponents) (there : manifest.components = some components)
      (generated : components.instructionBridge.ownership = .generated) :
      Generated client manifest (.bridge client) components.instructionBridge.targetHash
  | mcp (components : AdapterComponents) (there : manifest.components = some components) (digest : String)
      (generated : components.mcpConfiguration = .generated digest) : Generated client manifest (.mcp client) digest

variable {digest : String} {current : Bytes} {mutation : FileMutation} {prepared : AdapterPlan}

variable {client : AgentClient} {path : ProjectPath} {content : Bytes}

theorem AdapterManifest.Valid.safe {manifest : AdapterManifest} (valid : manifest.Valid client) {skill : InstalledSkill}
    (member : skill ∈ manifest.skills) (own : (path, digest) ∈ skill.outputs) :
    isSafeSkillOutput client skill.name path = true := by
  have shape := valid.shapes skill member
  unfold InstalledSkill.wellShaped at shape
  unfold InstalledSkill.outputs at own
  split at shape
  · next mode =>
    rw [mode] at own
    cases own
  · next mode =>
    rw [mode] at own
    exact all_eq_true.mp (Bool.and_eq_true_iff.mp shape).2 _ own

theorem mem_generatedSkillInventory (member : (path, digest) ∈ generatedSkillInventory old) :
    ∃ manifest, old = some manifest ∧ ∃ skill ∈ manifest.skills, (path, digest) ∈ skill.outputs := by
  have inside := mem_of_dictOf member
  cases old with
  | none => cases inside
  | some manifest => exact ⟨manifest, rfl, mem_flatMap.mp inside⟩

theorem mem_generatedMcp (member : (path, digest) ∈ generatedMcp client old) :
    path = .mcp client ∧ ∃ manifest components, old = some manifest ∧ manifest.components = some components ∧
      components.mcpConfiguration = .generated digest := by
  unfold generatedMcp at member
  cases old with
  | none => cases member
  | some manifest =>
    dsimp only [Option.bind] at member
    cases there : manifest.components with
    | none =>
      rw [there] at member
      cases member
    | some components =>
      rw [there] at member
      dsimp only at member
      split at member
      · next contentHash generated =>
        obtain ⟨rfl, rfl⟩ := Prod.mk.inj (mem_singleton.mp member)
        exact ⟨rfl, manifest, components, rfl, there, generated⟩
      · cases member

theorem mem_generatedInventory
    (member : (path, digest) ∈ generatedInventory client old) : ∃ manifest, old = some manifest ∧ Generated client manifest path digest := by
  cases mem_of_foldl_put member with
  | inl output =>
    obtain ⟨manifest, same, skill, listed, own⟩ := mem_generatedSkillInventory output
    exact ⟨manifest, same, .output skill listed path digest own⟩
  | inr mcp =>
    obtain ⟨rfl, manifest, components, same, there, generated⟩ := mem_generatedMcp mcp
    exact ⟨manifest, same, .mcp components there digest generated⟩

theorem mem_generatedInventory_of_output (trustedOutputs : ∀ manifest, old = some manifest → manifest.Valid project.client) (member : (path, digest) ∈ generatedSkillInventory old) :
    (path, digest) ∈ generatedInventory project.client old ∧ path ≠ .mcp project.client := by
  obtain ⟨manifest, same, skill, listed, own⟩ := mem_generatedSkillInventory member
  have apart : path ≠ .mcp project.client := by
    rintro rfl
    cases (trustedOutputs manifest same).safe listed own
  refine ⟨mem_foldl_put member ?_, apart⟩
  intro ⟨other, recorded⟩ inside equal
  obtain ⟨isMcp, _⟩ := mem_generatedMcp inside
  exact apart (equal.symm.trans isMcp)

theorem Generated.recorded {manifest : AdapterManifest}
    (generated : Generated client manifest path digest) : Recorded client manifest path digest := by
  cases generated with
  | output skill member path digest own => exact .output skill member path digest own
  | bridge components there _ => exact .bridge components there
  | mcp components there digest generated => exact .mcp components there digest (by rw [generated]; rfl)

theorem Generated.unique {manifest : AdapterManifest} (valid : manifest.Valid client)
    {other : String} (generated : Generated client manifest path digest) (recorded : Recorded client manifest path other) :
    digest = other := by
  cases generated with
  | bridge components there _ =>
    cases recorded with
    | bridge others again =>
      rw [there] at again
      cases again
      rfl
    | output skill member _ _ own => cases valid.safe member own
  | mcp components there digest isGenerated =>
    cases recorded with
    | mcp others again _ implemented =>
      rw [there] at again
      cases again
      rw [isGenerated] at implemented
      exact Option.some.inj implemented
    | output skill member _ _ own => cases valid.safe member own
  | output skill member _ _ own =>
    have safe := valid.safe member own
    cases recorded with
    | registry =>
      have same : registryPath = primaryPath skill.name := eq_of_beq (Bool.and_eq_true_iff.mp safe).2
      cases same
    | native other listed files mode relative _ file =>
      have same : CanonicalPath.skill other.name relative = primaryPath skill.name := eq_of_beq (Bool.and_eq_true_iff.mp safe).2
      obtain ⟨names, _⟩ := CanonicalPath.skill.inj same
      have one : other = skill := inj_on_of_nodup_map valid.names listed member names
      rw [← one] at own
      unfold InstalledSkill.outputs at own
      rw [mode] at own
      cases own
    | output other listed _ _ again =>
      have one := inj_on_of_nodup_map valid.outputs (mem_flatMap.mpr ⟨skill, member, own⟩)
        (mem_flatMap.mpr ⟨other, listed, again⟩) rfl
      exact (Prod.mk.inj one).2
    | bridge components there => cases safe
    | mcp components there _ implemented => cases safe
    | backup entry listed => cases safe

/-! Trust -/

/-- The install record has the hash of the manifest that is there. -/
def Authentic (environment : Environment) (project : Project) : Prop :=
  ∃ record digest, project.record = .ok (some record) ∧ observedHash environment project (manifestPath project) = some digest ∧
    record.authenticates digest = true

theorem authentic_of_trusted (trusted : installRecordError environment project = none)
    (there : project.file (manifestPath project) = some content) : Authentic environment project := by
  unfold installRecordError at trusted
  split at trusted
  · cases trusted
  · next record known =>
    split at trusted
    · cases trusted
    · split at trusted
      · next digest observed =>
        split at trusted
        · next authentic =>
          cases record with
          | none => cases authentic
          | some record => exact ⟨record, digest, known, observed, authentic⟩
        · cases trusted
      · next absent =>
        unfold observedHash at absent
        rw [there] at absent
        cases absent

def Records (environment : Environment) (project : Project) (path : ProjectPath) (digest : String) : Prop :=
  ∃ manifest, manifestFromSnapshot environment project = .ok (some manifest) ∧ Authentic environment project ∧
    Recorded project.client manifest.toAdapterManifest path digest

/-- A canonical registry that declares context-local skills, and that the package or the manifest accounts for: the mutation renews only
its packaged section. -/
def MixedRegistry (environment : Environment) (project : Project) (mutation : FileMutation) (current : Bytes) : Prop :=
  mutation.path = .canonical registryPath ∧
    ∃ manifest registry shipped packaged content, manifestFromSnapshot environment project = .ok (some manifest) ∧
      Authentic environment project ∧ environment.kit.registryDefinition current = .ok registry ∧ registry.customSkills ≠ [] ∧
      project.package.get registryPath = some shipped ∧ environment.kit.registryDefinition shipped = .ok packaged ∧
      (environment.kit.contentHash current = environment.kit.contentHash shipped ∨
        environment.kit.contentHash (withoutCustomContent current registry) = manifest.registryHash ∨
        skillsContent current registry = skillsContent shipped packaged) ∧
      mutation.content = some content ∧ refreshRegistrySkills environment.kit current shipped = .ok content

/-- Why a plan may replace or delete a file: the authority of a mutation, with the bytes that are at its path now. -/
inductive Authorised (environment : Environment) (project : Project) (mutation : FileMutation) (current : Bytes) : Prop where
  | recorded (record : Records environment project mutation.path (environment.kit.contentHash current))
  | template (path : mutation.path = .bridge project.client)
      (shipped : environment.kit.contentHash current ∈ environment.templateBridgeHashes project.client)
      (free : ∀ manifest digest, manifestFromSnapshot environment project = .ok (some manifest) →
        ¬Generated project.client manifest.toAdapterManifest (.bridge project.client) digest)
  | registry (mixed : MixedRegistry environment project mutation current)
  | manifest (path : mutation.path = manifestPath project) (authentic : Authentic environment project)

/-! The changes of canonical files -/

/-- A change of a registry that declares context-local skills, against its bytes in the tree -/
def MixedChange (environment : Environment) (project : Project) (recorded : String) (change : CanonicalFileChange) : Prop :=
  change.path = registryPath ∧
    ∃ own registry shipped packaged content, (treeFiles project.tree).get registryPath = some own ∧
      environment.kit.registryDefinition own = .ok registry ∧ registry.customSkills ≠ [] ∧
      project.package.get registryPath = some shipped ∧ environment.kit.registryDefinition shipped = .ok packaged ∧
      (environment.kit.contentHash own = environment.kit.contentHash shipped ∨
        environment.kit.contentHash (withoutCustomContent own registry) = recorded ∨
        skillsContent own registry = skillsContent shipped packaged) ∧
      change.content = some content ∧ refreshRegistrySkills environment.kit own shipped = .ok content

theorem recorded_of_tracked {manifest : AdapterManifest} {path : CanonicalPath}
    (record : recordedHash (AdapterManifest.tracked manifest) path = some digest) : Recorded client manifest (.canonical path) digest := by
  cases path with
  | top name =>
    unfold recordedHash at record
    dsimp only at record
    split at record
    · next isRegistry =>
      cases record
      rw [isRegistry]
      exact .registry
    · cases record
  | skill name relative =>
    cases mode : ((AdapterManifest.tracked manifest).skills.find? (·.name == name)).map SkillAdapterEntry.mode with
    | none =>
      rw [recordedHash_untracked (by simp [mode])] at record
      cases record
    | some mode' =>
      obtain ⟨entry, found, sameMode⟩ := Option.map_eq_some_iff.mp mode
      obtain ⟨skill, member, made⟩ := mem_filterMap.mp (mem_of_find?_eq_some found)
      split at made
      · next files native =>
        cases made
        have named : skill.name = name := by simpa using find?_some found
        subst named
        have tracked : ((AdapterManifest.tracked manifest).skills.find? (·.name == skill.name)).map SkillAdapterEntry.mode =
            some (.nativeVerified files) := by rw [mode, ← sameMode]
        rw [recordedHash_native tracked] at record
        exact .native skill member files native relative digest (Directory.mem_of_get record)
      · cases made

theorem selectCodexContextSources_changes {kit : Kit} {files package : Directory CanonicalPath Bytes} {overrides : List SkillOverride}
    {localSources packaged : CanonicalSourceSet} {manifest : Adapters.AdapterManifest} {restoreNames : List String}
    (sourced : Sourced kit files package overrides localSources)
    (shipped : ∀ skill ∈ packaged.skills, skill.override = none ∧ Owns package skill)
    (done : selectCodexContextSources kit localSources packaged manifest restoreNames = .ok selection) :
    selection.restoreNames = restoreNames ∧ ∀ change ∈ selection.changes, ∀ digest, change.authorityHash = some digest →
      recordedHash manifest change.path = some digest ∨
        localSources.origin = .local ∧ change.path = registryPath ∧ localSources.customSkillNames.isEmpty = false ∧
          registryMatches kit localSources packaged manifest.registryHash = true ∧
          (kit.contentHash localSources.registryContent = manifest.registryHash → recordedHash manifest change.path = some digest) ∧
          ∃ content, change.content = some content ∧
            refreshRegistrySkills kit localSources.registryContent packaged.registryContent = .ok content := by
  unfold selectCodexContextSources at done
  split at done
  · cases done
    exact ⟨rfl, by simp⟩
  · next isLocal =>
    dsimp only at done
    obtain ⟨states, _, later⟩ := bind_ok.mp done
    obtain ⟨effective, refreshed, rest⟩ := bind_ok.mp later
    obtain ⟨selections, each, last⟩ := bind_ok.mp rest
    obtain ⟨registry, _, made⟩ := bind_ok.mp last
    cases made
    refine ⟨rfl, ?_⟩
    intro change member digest authority
    cases mem_append.mp ((perm_insertionSort _ _).mem_iff.mp member) with
    | inr ofSkill =>
      obtain ⟨chosen, listed, inside⟩ := mem_flatMap.mp ofSkill
      obtain ⟨skill, _, made⟩ := mem_of_mapM each listed
      exact Or.inl ((selectSkill_facts sourced shipped made).changes change inside digest authority).1
    | inl isRegistry =>
      split at isRegistry
      · next use =>
        cases mem_singleton.mp isRegistry
        dsimp only at authority
        have matching : registryMatches kit localSources packaged manifest.registryHash = true ∧
            ((localSources.skills.filter fun skill => !skill.custom).filter
              fun skill => !packaged.skills.any (·.name == skill.name)).isEmpty = true := by
          rw [Bool.and_eq_true, Bool.and_eq_true, Bool.not_not] at use
          exact use.1
        cases mixed : localSources.customSkillNames.isEmpty with
        | true =>
          rw [mixed] at authority
          exact Or.inl authority
        | false =>
          refine Or.inr ⟨not_not.mp isLocal, rfl, rfl, matching.1, ?_, effective, rfl, ?_⟩
          · intro same
            rw [mixed] at authority
            rw [← authority]
            exact congrArg some same.symm
          · rw [matching.1, matching.2] at refreshed
            exact refreshed
      · cases isRegistry

theorem overridden_not_removed {overrides : List SkillOverride} {name : String}
    (active : (overrideFor overrides name).isSome = true) : name ∉ removedCodexOverrideNames client old overrides := by
  intro removed
  unfold removedCodexOverrideNames at removed
  split at removed
  · obtain ⟨skill, kept, same⟩ := mem_map.mp removed
    have absent := (Bool.and_eq_true_iff.mp (mem_filter.mp kept).2).2
    obtain ⟨override, found⟩ := Option.isSome_iff_exists.mp active
    unfold overrideFor at found
    have held := find?_some found
    have named := (Bool.and_eq_true_iff.mp held).2
    have any : overrides.any (·.skill == skill.name) = true := any_eq_true.mpr ⟨override, mem_of_find?_eq_some found, by rw [same]; exact named⟩
    rw [any] at absent
    cases absent
  · cases removed

/-- Every change that replaces or deletes a file was decided for its recorded hash, or renews a mixed registry. -/
theorem loadSourceSelection_spec (done : loadSourceSelection environment project old = .ok selection) :
    (∀ skill ∈ selection.sources.skills, skill.override.isSome = true → skill.name ∉ selection.restoreNames) ∧
      ∀ change ∈ selection.changes, ∀ digest, change.authorityHash = some digest → ∃ manifest, old = some manifest ∧
        (Recorded project.client manifest (.canonical change.path) digest ∨ MixedChange environment project manifest.registryHash change) := by
  obtain ⟨overrides, _, later⟩ := bind_ok.mp done
  obtain ⟨loaded, isLoaded, later⟩ := bind_ok.mp later
  obtain ⟨localSources, isLocal, rest⟩ := bind_ok.mp later
  obtain ⟨origin, own, loadedSourced⟩ := loadCanonicalSources_from isLoaded
  obtain ⟨sameOrigin, sameRegistry, sourced⟩ := restorePackagedSkillSources_from loadedSourced isLocal
  have plain (same : selection = ⟨localSources, [], [], [], none, removedCodexOverrideNames project.client old overrides⟩) :
      (∀ skill ∈ selection.sources.skills, skill.override.isSome = true → skill.name ∉ selection.restoreNames) ∧
        ∀ change ∈ selection.changes, ∀ digest, change.authorityHash = some digest → ∃ manifest, old = some manifest ∧
          (Recorded project.client manifest (.canonical change.path) digest ∨ MixedChange environment project manifest.registryHash change) := by
    subst same
    refine ⟨fun skill member isOverridden => overridden_not_removed ?_, by simp⟩
    exact sourced.overridden skill member isOverridden ▸ isOverridden
  split at rest
  · obtain ⟨packaged, isPackaged, rest⟩ := bind_ok.mp rest
    obtain ⟨_, placed, rest⟩ := bind_ok.mp rest
    cases old with
    | none =>
      cases rest
      exact plain rfl
    | some manifest =>
      dsimp only at rest
      split at rest
      · obtain ⟨_, there, definition, _, _, shipped⟩ := loadPackagedSources_from isPackaged
        have allShipped : ∀ skill ∈ packaged.skills, skill.override = none ∧ Owns project.package skill := by
          intro skill member
          obtain ⟨_, override, owns⟩ := shipped skill member
          exact ⟨override, owns⟩
        obtain ⟨names, changes⟩ := selectCodexContextSources_changes sourced allShipped rest
        constructor
        · intro skill member isOverridden
          rw [names]
          have facts : SelectionFacts environment.kit (treeFiles project.tree) project.package packaged overrides True
              (recordedHash (AdapterManifest.tracked manifest)) selection :=
            selectCodexContextSources_facts sourced (fun notLocal => ?_) (fun isLocal => ?_) (Directory.mem_of_get there) allShipped ?_ rest
          · exact overridden_not_removed (facts.overridden skill member isOverridden)
          · rw [sameOrigin] at notLocal
            have isPackage : loaded.origin = .packaged := by
              cases same : loaded.origin with
              | packaged => rfl
              | «local» => exact absurd same notLocal
            rw [origin.mp isPackage]
            rfl
          · rw [sameRegistry]
            exact own (sameOrigin ▸ isLocal)
          · intro skill member kept
            by_contra absent
            unfold requirePlaced at placed
            dsimp only at placed
            split at placed
            · next empty =>
              have inside : skill ∈ ([] : List CanonicalSkill) := by
                rw [← List.isEmpty_iff.mp empty]
                exact mem_filter.mpr ⟨member, by simp [kept, absent]⟩
              cases inside
            · cases placed
        · intro change member digest authority
          refine ⟨manifest, rfl, ?_⟩
          cases changes change member digest authority with
          | inl record => exact Or.inl (recorded_of_tracked record)
          | inr mixed =>
            obtain ⟨isLocal, path, custom, matched, recorded, content, written, refreshed⟩ := mixed
            have inTree : (treeFiles project.tree).get registryPath = some localSources.registryContent := by
              rw [sameRegistry]
              exact own (sameOrigin ▸ isLocal)
            obtain ⟨registry, read, declares⟩ := sourced.declaresCustom custom
            have same : registry = localSources.registry := by
              have again := sourced.definition
              rw [read] at again
              exact Except.ok.inj again
            unfold registryMatches at matched
            dsimp only at matched
            rw [Bool.or_eq_true, Bool.or_eq_true, beq_iff_eq, beq_iff_eq, custom, Bool.not_false, Bool.true_and, Bool.or_eq_true,
              beq_iff_eq, beq_iff_eq] at matched
            by_cases isRecorded : environment.kit.contentHash localSources.registryContent = manifest.registryHash
            · exact Or.inl (recorded_of_tracked (recorded isRecorded))
            · refine Or.inr ⟨path, _, registry, _, packaged.registry, content, inTree, read, declares, there, definition, ?_, written, refreshed⟩
              rw [same]
              rcases matched with (own | shipped) | parts
              · exact absurd own isRecorded
              · exact Or.inl shipped
              · exact Or.inr parts
      · cases rest
        exact plain rfl
  · cases rest
    exact plain rfl

/-! The mutations of an authorized plan -/

def Trusted (environment : Environment) (project : Project) (old : Option AdapterManifest) : Prop :=
  ∃ manifest, manifestFromSnapshot environment project = .ok manifest ∧ manifest.map InstalledManifest.toAdapterManifest = old ∧
    installRecordError environment project = none

section
variable (trusted : Trusted environment project old)
include trusted

theorem Trusted.manifest {manifest : AdapterManifest} (same : old = some manifest) :
    ∃ installed : InstalledManifest project.client, manifestFromSnapshot environment project = .ok (some installed) ∧
      installed.toAdapterManifest = manifest ∧ Authentic environment project := by
  obtain ⟨read, known, own, record⟩ := trusted
  rw [same, Option.map_eq_some_iff] at own
  obtain ⟨installed, rfl, isManifest⟩ := own
  refine ⟨installed, known, isManifest, ?_⟩
  unfold manifestFromSnapshot at known
  cases there : project.file (manifestPath project) with
  | none =>
    rw [there] at known
    cases known
  | some content => exact authentic_of_trusted record there

theorem Trusted.records {manifest : AdapterManifest} (same : old = some manifest)
    {path : ProjectPath} (recorded : Recorded project.client manifest path digest) :
    Records environment project path digest := by
  obtain ⟨installed, known, rfl, authentic⟩ := trusted.manifest same
  exact ⟨installed, known, authentic, recorded⟩

theorem Trusted.valid (manifest : AdapterManifest) (same : old = some manifest) :
    manifest.Valid project.client := by
  obtain ⟨installed, _, rfl, _⟩ := trusted.manifest same
  exact installed.valid

end

theorem observedHash_some (there : project.file path = some current) :
    observedHash environment project path = some (environment.kit.contentHash current) := by
  unfold observedHash
  rw [there]
  rfl

theorem canonicalMutation_authorised (trusted : Trusted environment project old)
    (loaded : loadSourceSelection environment project old = .ok selection) (fitting : driftedSources environment project selection = false) (member : mutation ∈ selection.changes.filterMap (canonicalMutation environment project))
    (there : project.file mutation.path = some current) : Authorised environment project mutation current := by
  obtain ⟨change, listed, made⟩ := mem_filterMap.mp member
  unfold canonicalMutation at made
  split at made
  · cases made
  · cases made
    have file : project.file (.canonical change.path) = some current := there
    have decided := any_eq_false.mp fitting change listed
    rw [observedHash_some file, bne_iff_ne, ne_eq, not_not] at decided
    obtain ⟨manifest, same, record | mixed⟩ := (loadSourceSelection_spec loaded).2 change listed _ decided.symm
    · exact .recorded (trusted.records same record)
    · obtain ⟨path, own, registry, shipped, packaged, content, inTree, read, declares, inPackage, definition, matched, written, refreshed⟩ := mixed
      obtain ⟨installed, known, isManifest, authentic⟩ := trusted.manifest same
      have same : own = current := by
        rw [path] at file
        exact Option.some.inj (inTree.symm.trans file)
      subst same
      refine .registry ⟨congrArg ProjectPath.canonical path, installed, registry, shipped, packaged, content, known, authentic, read, declares,
        inPackage, definition, ?_, written, refreshed⟩
      rw [isManifest]
      exact matched

theorem recorded_or_managed (fitting : editedOutputs environment project old desired = false)
    (output : (path, digest) ∈ generatedInventory project.client old) (there : project.file path = some current) :
    environment.kit.contentHash current = digest ∨
      desired.managedHash environment project path = some (environment.kit.contentHash current) := by
  have fits := any_eq_false.mp fitting (path, digest) output
  dsimp only at fits
  rw [observedHash_some there] at fits
  by_cases same : environment.kit.contentHash current = digest
  · exact Or.inl same
  · refine Or.inr ?_
    by_contra other
    apply fits
    simp only [Option.isSome_some, Bool.true_and, Bool.and_eq_true, bne_iff_ne, ne_eq, Option.some.injEq]
    exact ⟨same, fun equal => other equal.symm⟩

theorem mem_desired_outputs (wanted : desiredOf environment project selection = .ok desired)
    (member : (path, content) ∈ desired.outputs) :
    (∃ skill ∈ selection.sources.skills, skill.override.isSome = true ∧ path = .canonical (primaryPath skill.name)) ∨
      ∃ skill relative, path = .output project.client skill relative := by
  obtain ⟨rendered, each, made⟩ := bind_ok.mp wanted
  cases made
  obtain ⟨files, listed, inside⟩ := mem_flatten.mp (mem_of_dictOf member)
  obtain ⟨skill, own, renders⟩ := mem_of_mapM each listed
  unfold renderSourceSkill at renders
  split at renders
  · next codex =>
    cases renders
    split at inside
    · next overridden =>
      obtain ⟨rfl, _⟩ := Prod.mk.inj (mem_singleton.mp inside)
      refine Or.inl ⟨skill, own, overridden, ?_⟩
      unfold targetPath
      rw [if_pos codex]
      rfl
    · cases inside
  · next other =>
    obtain ⟨primary, _, rest⟩ := bind_ok.mp renders
    obtain ⟨_, _, made⟩ := bind_ok.mp rest
    cases made
    refine Or.inr ?_
    cases mem_cons.mp inside with
    | inl same =>
      obtain ⟨rfl, _⟩ := Prod.mk.inj same
      refine ⟨skill.name, "SKILL.md", ?_⟩
      unfold targetPath
      rw [if_neg other]
    | inr auxiliary =>
      obtain ⟨resource, _, same⟩ := mem_map.mp ((perm_insertionSort _ _).mem_iff.mp auxiliary)
      obtain ⟨rfl, _⟩ := Prod.mk.inj same
      refine ⟨skill.name, resource.relativePath, ?_⟩
      unfold targetPath
      rw [if_neg other]

theorem mem_desired_restored (wanted : desiredOf environment project selection = .ok desired)
    (member : (path, content) ∈ desired.restored) :
    ∃ skill ∈ selection.sources.skills, skill.name ∈ selection.restoreNames ∧ path = .canonical (primaryPath skill.name) := by
  obtain ⟨rendered, _, made⟩ := bind_ok.mp wanted
  cases made
  obtain ⟨skill, kept, same⟩ := mem_map.mp (mem_of_dictOf member)
  obtain ⟨rfl, _⟩ := Prod.mk.inj same
  obtain ⟨listed, named⟩ := mem_filter.mp kept
  exact ⟨skill, listed, by simpa using named, rfl⟩

theorem managedHash_output (loaded : loadSourceSelection environment project old = .ok selection)
    (wanted : desiredOf environment project selection = .ok desired)
    (member : (path, content) ∈ desired.outputs) :
    desired.managedHash environment project path = some (environment.kit.contentHash content) := by
  have unique : (desired.outputs.map Prod.fst).Nodup := by
    obtain ⟨rendered, _, made⟩ := bind_ok.mp wanted
    cases made
    exact nodup_dictOf _
  have apart : path ≠ .mcp project.client := by
    rintro rfl
    obtain ⟨skill, _, _, same⟩ | ⟨skill, relative, same⟩ := mem_desired_outputs wanted member <;> cases same
  have free : desired.restored.get path = none := by
    cases restored : desired.restored.get path with
    | none => rfl
    | some other =>
      obtain ⟨back, _, removed, rfl⟩ := mem_desired_restored wanted (Directory.mem_of_get restored)
      obtain ⟨skill, listed, overridden, same⟩ | ⟨skill, relative, same⟩ := mem_desired_outputs wanted member
      · obtain ⟨names, _⟩ := CanonicalPath.skill.inj (ProjectPath.canonical.inj same)
        rw [names] at removed
        exact absurd removed ((loadSourceSelection_spec loaded).1 skill listed overridden)
      · cases same
  unfold Desired.managedHash
  rw [if_neg apart, free, Directory.get_of_mem unique member]
  rfl

theorem mem_takeoverHashes {sources : CanonicalSourceSet}
    (member : (path, digest) ∈ codexOverrideTakeoverHashes client old sources) :
    ∃ manifest name, old = some manifest ∧ path = .canonical (primaryPath name) ∧ Recorded client manifest path digest := by
  unfold codexOverrideTakeoverHashes at member
  split at member
  · obtain ⟨skill, _, made⟩ := mem_filterMap.mp (mem_of_dictOf member)
    dsimp only [bind, Option.bind] at made
    cases chosen : skill.override with
    | none =>
      rw [chosen] at made
      cases made
    | some override =>
      rw [chosen] at made
      cases old with
      | none => cases made
      | some manifest =>
        dsimp only at made
        cases found : manifest.skills.find? (·.name == skill.name) with
        | none =>
          rw [found] at made
          cases made
        | some entry =>
          rw [found] at made
          dsimp only at made
          cases adoption : override.packagedAtAdoptionHash with
          | none =>
            rw [adoption] at made
            cases made
          | some adopted =>
            rw [adoption] at made
            dsimp only at made
            split at made
            · cases made
            · next files mode =>
              split at made
              · next held =>
                cases made
                have named : entry.name = skill.name := by simpa using find?_some found
                refine ⟨manifest, skill.name, rfl, rfl, ?_⟩
                rw [← named]
                exact .native entry (mem_of_find?_eq_some found) files mode "SKILL.md" _ (Directory.mem_of_get held.2)
              · cases made
  · cases member

section
variable (trusted : Trusted environment project old)
include trusted

theorem outputMutation_authorised
    (loaded : loadSourceSelection environment project old = .ok selection) (wanted : desiredOf environment project selection = .ok desired)
    (outputs : editedOutputs environment project old desired = false) (conflicts : untrackedConflicts environment project old desired = false)
    (member : mutation ∈ (sortedPaths project desired.outputs).filterMap (outputMutation environment project old desired))
    (there : project.file mutation.path = some current) : Authorised environment project mutation current := by
  obtain ⟨⟨path, content⟩, listed, made⟩ := mem_filterMap.mp member
  have inside : (path, content) ∈ desired.outputs := (perm_insertionSort _ _).mem_iff.mp listed
  unfold outputMutation at made
  dsimp only at made
  split at made
  · cases made
  · next free =>
    split at made
    · cases made
    · next differs =>
      cases made
      have file : project.file path = some current := there
      rw [observedHash_some file] at differs
      cases skills : (generatedSkillInventory old).get path with
      | some digest =>
        obtain ⟨output, _⟩ := mem_generatedInventory_of_output trusted.valid (Directory.mem_of_get skills)
        cases recorded_or_managed outputs output file with
        | inl recorded =>
          obtain ⟨manifest, same, generated⟩ := mem_generatedInventory output
          exact .recorded (trusted.records same (recorded ▸ generated.recorded))
        | inr managed =>
          rw [managedHash_output loaded wanted inside] at managed
          exact absurd managed.symm differs
      | none =>
        have fits := any_eq_false.mp conflicts (path, content) inside
        dsimp only at fits
        rw [skills, observedHash_some file] at fits
        simp only [Option.isNone_none, Option.isSome_some, Bool.true_and, bne_iff_ne, ne_eq, not_not] at fits
        obtain ⟨manifest, _, same, _, recorded⟩ := mem_takeoverHashes (Directory.mem_of_get fits.symm)
        exact .recorded (trusted.records same recorded)

theorem obsoleteMutation_authorised
    (outputs : editedOutputs environment project old desired = false)
    (member : mutation ∈ (obsoletePaths project old desired).filterMap (obsoleteMutation environment project desired))
    (there : project.file mutation.path = some current) : Authorised environment project mutation current := by
  obtain ⟨_, listed, made⟩ := mem_filterMap.mp member
  obtain ⟨⟨path, digest⟩, sorted, rfl⟩ := mem_map.mp listed
  obtain ⟨recorded, unwanted⟩ := mem_filter.mp ((perm_insertionSort _ _).mem_iff.mp sorted)
  dsimp only at made unwanted
  obtain ⟨output, apart⟩ := mem_generatedInventory_of_output trusted.valid recorded
  have own (file : project.file path = some current) (other : desired.managedHash environment project path ≠ some (environment.kit.contentHash current)) :
      Records environment project path (environment.kit.contentHash current) := by
    cases recorded_or_managed outputs output file with
    | inl same =>
      obtain ⟨manifest, isManifest, generated⟩ := mem_generatedInventory output
      exact trusted.records isManifest (same ▸ generated.recorded)
    | inr managed => exact absurd managed other
  unfold obsoleteMutation at made
  split at made
  · cases made
  · split at made
    · next content restored =>
      split at made
      · cases made
      · next differs =>
        cases made
        have file : project.file path = some current := there
        refine .recorded (own file ?_)
        unfold Desired.managedHash
        rw [if_neg apart, restored]
        rw [observedHash_some file] at differs
        exact fun same => differs same.symm
    · next restored =>
      cases made
      have file : project.file path = some current := there
      refine .recorded (own file ?_)
      unfold Desired.managedHash
      rw [if_neg apart, restored, Option.isNone_iff_eq_none.mp unwanted]
      exact (Option.some_ne_none _).symm

theorem planBridge_authorised
    (member : (planBridge environment project old).mutation = some mutation)
    (there : project.file mutation.path = some current) : Authorised environment project mutation current := by
  have written (made : some (mutationTo project (.bridge project.client) (some project.bridgeContent)) = some mutation) :
      mutation.path = .bridge project.client ∧ project.file (.bridge project.client) = some current := by
    cases made
    exact ⟨rfl, there⟩
  have free (other : ∀ bridge, oldBridge old = some bridge → bridge.ownership = .userOwned) : ∀ manifest digest,
      manifestFromSnapshot environment project = .ok (some manifest) →
        ¬Generated project.client manifest.toAdapterManifest (.bridge project.client) digest := by
    intro manifest digest known generated
    obtain ⟨read, again, own, _⟩ := trusted
    rw [known] at again
    cases again
    cases generated with
    | bridge components there isGenerated =>
      have isOld : oldBridge old = some components.instructionBridge := by
        rw [← own]
        unfold oldBridge
        rw [Option.map_some, Option.bind_some, there]
        rfl
      rw [other _ isOld] at isGenerated
      cases isGenerated
    | output skill listed _ _ own => cases manifest.valid.safe listed own
  unfold planBridge at member
  dsimp only at member
  split at member
  · next source target bridge =>
    split at member
    · next own observed =>
      split at member
      · next shipped =>
        obtain ⟨path, file⟩ := written member
        rw [observedHash_some file] at observed
        cases observed
        refine .template path shipped (free ?_)
        intro other same
        rw [bridge] at same
        cases same
        rfl
      · cases member
    · cases member
  · next observed _ =>
    obtain ⟨_, file⟩ := written member
    rw [observedHash_some file] at observed
    cases observed
  · next own bridge observed =>
    split at member
    · next shipped =>
      obtain ⟨path, file⟩ := written member
      rw [observedHash_some file] at observed
      cases observed
      refine .template path shipped (free ?_)
      intro other same
      rw [bridge] at same
      cases same
    · cases member
  · next source target own bridge observed =>
    split at member
    · cases member
    · split at member
      · cases member
      · next same =>
        split at member
        · obtain ⟨path, file⟩ := written member
          rw [observedHash_some file] at observed
          cases observed
          rw [not_not] at same
          unfold oldBridge at bridge
          obtain ⟨components, known, isBridge⟩ := Option.map_eq_some_iff.mp bridge
          obtain ⟨manifest, isManifest, has⟩ := Option.bind_eq_some_iff.mp known
          refine .recorded ?_
          rw [path, same, show target = components.instructionBridge.targetHash by rw [isBridge]]
          exact trusted.records isManifest (.bridge components has)
        · cases member

theorem planMcpConfiguration_authorised
    (outputs : editedOutputs environment project old desired = false)
    (member : (planMcpConfiguration environment project old).1 = some mutation)
    (there : project.file mutation.path = some current) : Authorised environment project mutation current := by
  unfold planMcpConfiguration at member
  dsimp only at member
  split at member
  · cases member
  · cases member
  · cases member
  · cases member
  · cases member
  · cases member
  · next absent _ _ =>
    cases member
    have file : project.file (.mcp project.client) = some current := there
    rw [absent] at file
    cases file
  · next digest content known present =>
    split at member
    · cases member
    · next differs =>
      cases member
      have file : project.file (.mcp project.client) = some current := there
      rw [present] at file
      cases file
      obtain ⟨components, has, generated⟩ := Option.map_eq_some_iff.mp known
      obtain ⟨manifest, isManifest, components'⟩ := Option.bind_eq_some_iff.mp has
      have output : (ProjectPath.mcp project.client, digest) ∈ generatedInventory project.client old := by
        unfold generatedInventory generatedMcp
        rw [has]
        dsimp only
        rw [generated]
        exact mem_cons_self
      cases recorded_or_managed outputs output present with
      | inl recorded =>
        refine .recorded (trusted.records isManifest ?_)
        rw [recorded]
        exact .mcp components components' digest (by rw [generated]; rfl)
      | inr managed =>
        unfold Desired.managedHash at managed
        rw [if_pos rfl] at managed
        exact absurd (Option.some.inj managed).symm differs

theorem planTrusted_authorised
    (loaded : loadSourceSelection environment project old = .ok selection) {action : OperationAction}
    (planned : planTrusted environment project action old selection = .ok prepared)
    (member : mutation ∈ prepared.mutations) (there : project.file mutation.path = some current) :
    Authorised environment project mutation current := by
  obtain ⟨desired, wanted, rest⟩ := bind_ok.mp planned
  split at rest
  · cases rest
    cases member
  · next fits =>
    unfold authorityFails at fits
    simp only [Bool.or_eq_true, not_or, Bool.not_eq_true] at fits
    obtain ⟨⟨⟨⟨outputs, sources⟩, _⟩, _⟩, conflicts⟩ := fits
    split at rest
    · cases rest
      cases member
    · next unseeded =>
      obtain ⟨bytes, _, made⟩ := bind_ok.mp rest
      cases made
      cases mem_append.mp member with
      | inr committed =>
        split at committed
        · cases committed
        · cases mem_singleton.mp committed
          have file : project.file (manifestPath project) = some current := there
          obtain ⟨_, _, _, record⟩ := trusted
          exact .manifest rfl (authentic_of_trusted record file)
      | inl changed =>
        unfold plannedMutations at changed
        simp only [mem_append, Option.mem_toList] at changed
        obtain ((((canonical | seed) | output) | obsolete) | bridge) | mcp := changed
        · exact canonicalMutation_authorised trusted loaded sources canonical there
        · obtain ⟨entry, listed, rfl⟩ := mem_map.mp seed
          have absent := find?_eq_none.mp unseeded entry listed
          have file : project.file entry.1 = some current := there
          rw [file] at absent
          exact absurd rfl absent
        · exact outputMutation_authorised trusted loaded wanted outputs conflicts output there
        · exact obsoleteMutation_authorised trusted outputs obsolete there
        · exact planBridge_authorised trusted bridge there
        · exact planMcpConfiguration_authorised trusted outputs mcp there

end

theorem prepareInstallOrRepair_authorised {action : OperationAction}
    (planned : prepareInstallOrRepair environment project action = .ok prepared)
    (member : mutation ∈ prepared.mutations) (there : project.file mutation.path = some current) :
    Authorised environment project mutation current := by
  obtain ⟨manifest, known, rest⟩ := bind_ok.mp planned
  obtain ⟨selection, loaded, rest⟩ := bind_ok.mp rest
  have reported (reason : String) (same : Except.ok (reportOnlyPlan action reason) = Except.ok (ε := AdapterError) prepared) :
      Authorised environment project mutation current := by
    cases same
    cases member
  split at rest
  · next record => exact planTrusted_authorised ⟨manifest, known, rfl, record⟩ loaded rest member there
  · next reason _ =>
    split at rest
    · split at rest
      · unfold prepareUntrackedAdoption at rest
        dsimp only at rest
        split at rest
        · cases rest
        · split at rest
          · cases rest
            cases member
          · cases rest
            cases member
      · exact reported reason rest
    · exact reported reason rest

/-! The mutations of an uninstallation -/

theorem prepareUninstall_authorised (planned : prepareUninstall environment project = .ok prepared) (member : mutation ∈ prepared.mutations)
    (there : project.file mutation.path = some current) : Authorised environment project mutation current := by
  obtain ⟨read, known, rest⟩ := bind_ok.mp planned
  split at rest
  · cases rest
    cases member
  · next record =>
    have trusted : Trusted environment project (read.map InstalledManifest.toAdapterManifest) := ⟨read, known, rfl, record⟩
    split at rest
    · cases rest
      cases member
    · next manifest same =>
      rw [same] at trusted
      split at rest
      · cases rest
        cases member
      · next fits =>
        unfold uninstallFails at fits
        simp only [Bool.or_eq_true, not_or, Bool.not_eq_true] at fits
        obtain ⟨⟨outputs, bridges⟩, _⟩ := fits
        obtain ⟨restores, _, made⟩ := bind_ok.mp rest
        cases made
        simp only [mem_append, mem_singleton] at member
        obtain ((output | bridge) | backup) | rfl := member
        · obtain ⟨⟨path, digest⟩, listed, made⟩ := mem_filterMap.mp output
          have inside := (perm_insertionSort _ _).mem_iff.mp listed
          have recorded (file : project.file path = some current) : Records environment project path (environment.kit.contentHash current) := by
            have fit := any_eq_false.mp outputs (path, digest) inside
            dsimp only at fit
            rw [observedHash_some file, file] at fit
            simp only [Option.isSome_some, Bool.true_and, bne_iff_ne, ne_eq, Option.some.injEq, not_not] at fit
            obtain ⟨_, isManifest, generated⟩ := mem_generatedInventory inside
            rw [fit]
            exact trusted.records isManifest generated.recorded
          unfold uninstallOutput at made
          dsimp only at made
          split at made
          · split at made
            · cases made
            · cases made
              exact .recorded (recorded there)
          · split at made
            · cases made
              exact .recorded (recorded there)
            · cases made
        · unfold uninstallBridge at bridge
          split at bridge
          · next held =>
            cases mem_singleton.mp bridge
            have file : project.file (.bridge project.client) = some current := there
            unfold oldBridge at held bridges
            rw [Option.bind_some] at held bridges
            cases has : manifest.components with
            | none =>
              rw [has] at held
              cases held.1
            | some components =>
              rw [has, Option.map_some, Option.any_some] at held bridges
              rw [held.1, observedHash_some file, file] at bridges
              simp only [Option.isSome_some, Bool.true_and, bne_eq_false_iff_eq, Option.some.injEq] at bridges
              refine .recorded ?_
              rw [bridges]
              exact trusted.records rfl (.bridge components has)
          · cases bridge
        · obtain ⟨entry, listed, made⟩ := mem_filterMap.mp backup
          unfold uninstallBackup at made
          split at made
          · next held =>
            cases made
            have file : project.file (.backup entry.path) = some current := there
            rw [observedHash_some file, Option.some.injEq] at held
            refine .recorded ?_
            rw [held]
            exact trusted.records rfl (.backup entry listed)
          · cases made
        · have file : project.file (manifestPath project) = some current := there
          exact .manifest rfl (authentic_of_trusted record file)

/-! What is never changed -/

theorem Authorised.untracked (authorised : Authorised environment project mutation current)
    (untracked : ∀ digest, ¬Records environment project mutation.path digest) : mutation.path = manifestPath project ∨
      mutation.path = .bridge project.client ∧ environment.kit.contentHash current ∈ environment.templateBridgeHashes project.client := by
  cases authorised with
  | recorded record => exact absurd record (untracked _)
  | template path shipped _ => exact Or.inr ⟨path, shipped⟩
  | registry mixed =>
    obtain ⟨path, manifest, _, _, _, _, known, authentic, _⟩ := mixed
    refine absurd ⟨manifest, known, authentic, ?_⟩ (untracked manifest.registryHash)
    rw [path]
    exact .registry
  | manifest path _ => exact Or.inl path

theorem Authorised.unedited (authorised : Authorised environment project mutation current)
    {manifest : InstalledManifest project.client} (known : manifestFromSnapshot environment project = .ok (some manifest))
    (generated : Generated project.client manifest.toAdapterManifest mutation.path digest) : environment.kit.contentHash current = digest := by
  cases authorised with
  | recorded record =>
    obtain ⟨other, again, _, recorded⟩ := record
    rw [known] at again
    cases again
    exact (generated.unique manifest.valid recorded).symm
  | template path _ free => exact absurd (path ▸ generated) (free manifest digest known)
  | registry mixed =>
    rw [mixed.1] at generated
    cases generated with
    | output skill member _ _ own =>
      have same : registryPath = primaryPath skill.name := eq_of_beq (Bool.and_eq_true_iff.mp (manifest.valid.safe member own)).2
      cases same
  | manifest path _ =>
    rw [path] at generated
    cases generated with
    | output skill member _ _ own => cases manifest.valid.safe member own

/-- What a plan replaces or deletes has its hash in the trusted manifest, or is a shipped template of the bridge, a registry with
context-local skills whose packaged section is renewed, or the trusted manifest itself; no untracked file and no edited output is changed. -/
theorem plan_authorised {action : OperationAction} {prepared : AdapterPlan} (planned : plan environment project action = .ok prepared) :
    ∀ mutation ∈ prepared.mutations, ∀ current, project.file mutation.path = some current →
      Authorised environment project mutation current ∧
      ((∀ digest, ¬Records environment project mutation.path digest) → mutation.path = manifestPath project ∨
        mutation.path = .bridge project.client ∧ environment.kit.contentHash current ∈ environment.templateBridgeHashes project.client) ∧
      ∀ manifest digest, manifestFromSnapshot environment project = .ok (some manifest) →
        Generated project.client manifest.toAdapterManifest mutation.path digest → environment.kit.contentHash current = digest := by
  intro mutation member current there
  have authorised : Authorised environment project mutation current := by
    cases action with
    | install => exact prepareInstallOrRepair_authorised (show prepareInstallOrRepair environment project .install = .ok prepared from planned) member there
    | repair => exact prepareInstallOrRepair_authorised (show prepareInstallOrRepair environment project .repair = .ok prepared from planned) member there
    | uninstall => exact prepareUninstall_authorised planned member there
  exact ⟨authorised, authorised.untracked, fun manifest digest known => authorised.unedited known⟩

end

/-! A context with a packaged skill and one of its own -/

def sampleDefinition : Bytes → RegistryDefinition
  | [_, _] => ⟨[("plan-work", "read_only")], [("own-work", "read_only")], (0, 1), (1, 2)⟩
  | _ => ⟨[("plan-work", "read_only")], [], (0, 1), (0, 0)⟩

def sampleManifest : InstalledManifest .codex where
  generatedAt := "2026-01-01T00:00:00Z"
  registryHash := "\x01"
  skills := [⟨"plan-work", "\x02", .nativeVerified [("SKILL.md", "\x02")]⟩]
  components := none
  backups := []
  valid := by decide

def sampleEnvironment : Environment where
  kit := { sampleKit with registryDefinition := fun content => .ok (sampleDefinition content) }
  upper := id
  loadManifest
    | .codex, _ => .ok sampleManifest
    | _, _ => .error (.state "Adapter manifest does not match its derived location")
  dumpManifest _ := [0]
  mcpEquivalent _ _ := false
  templateBridgeHashes _ := []

/-- The package has another registry than the one that was installed, to which the operator has added a skill. -/
def sampleProject : Project where
  client := .codex
  isContext := true
  tree := some ⟨["plan-work", "own-work"], [(registryPath, [1, 7]), (primaryPath "plan-work", [2]), (primaryPath "own-work", [3])], by decide⟩
  others path := if path = .manifest .codex then some [0] else none
  overrideFiles := []
  package := [(registryPath, [9]), (primaryPath "plan-work", [2])]
  bridgeContent := [4]
  bridgeTemplate := [4]
  record := .ok (some ⟨some "\x00", false⟩)
  now := "2026-02-01T00:00:00Z"

def registryMutation : FileMutation := ⟨.canonical registryPath, some [1, 7], some [9, 7]⟩

theorem sample_planned : ∃ prepared, plan sampleEnvironment sampleProject .repair = .ok prepared ∧ prepared.blockedReason = none ∧
    registryMutation ∈ prepared.mutations := by
  have computed : (plan sampleEnvironment sampleProject .repair).toOption.any (fun prepared =>
      prepared.mutations.contains registryMutation && prepared.blockedReason.isNone) = true := by decide +kernel
  cases planned : plan sampleEnvironment sampleProject .repair with
  | error error =>
    rw [planned] at computed
    cases computed
  | ok prepared =>
    rw [planned] at computed
    obtain ⟨inside, free⟩ := Bool.and_eq_true_iff.mp (show (prepared.mutations.contains registryMutation && prepared.blockedReason.isNone) = true
      from computed)
    exact ⟨prepared, rfl, Option.isNone_iff_eq_none.mp free, by simpa using inside⟩

theorem plan_authorised_sample : ∃ prepared, plan sampleEnvironment sampleProject .repair = .ok prepared ∧
    ∀ mutation ∈ prepared.mutations, ∀ current, sampleProject.file mutation.path = some current →
      Authorised sampleEnvironment sampleProject mutation current ∧
      ((∀ digest, ¬Records sampleEnvironment sampleProject mutation.path digest) → mutation.path = manifestPath sampleProject ∨
        mutation.path = .bridge sampleProject.client ∧
          sampleEnvironment.kit.contentHash current ∈ sampleEnvironment.templateBridgeHashes sampleProject.client) ∧
      ∀ manifest digest, manifestFromSnapshot sampleEnvironment sampleProject = .ok (some manifest) →
        Generated sampleProject.client manifest.toAdapterManifest mutation.path digest → sampleEnvironment.kit.contentHash current = digest := by
  obtain ⟨prepared, planned, _⟩ := sample_planned
  exact ⟨prepared, planned, plan_authorised planned⟩

/-- The registry with the operator's skill is replaced, though neither its hash nor that of its new bytes is the recorded one. -/
theorem mixed_registry_replaced :
    ¬∀ (environment : Environment) (project : Project) (action : OperationAction) (prepared : AdapterPlan),
      plan environment project action = .ok prepared → prepared.blockedReason = none → ∀ mutation ∈ prepared.mutations, ∀ current,
        project.file mutation.path = some current → mutation.path ≠ manifestPath project →
          Records environment project mutation.path (environment.kit.contentHash current) ∨
            mutation.content.map environment.kit.contentHash = some (environment.kit.contentHash current) ∨
            (mutation.path = .bridge project.client ∧
              environment.kit.contentHash current ∈ environment.templateBridgeHashes project.client) ∨
            ∃ old sources, (mutation.path, environment.kit.contentHash current) ∈ codexOverrideTakeoverHashes project.client old sources := by
  intro claimed
  obtain ⟨prepared, planned, free, member⟩ := sample_planned
  rcases claimed sampleEnvironment sampleProject .repair prepared planned free registryMutation member [1, 7] (by decide) (by decide) with
    record | same | template | ⟨old, sources, takeover⟩
  · obtain ⟨manifest, known, _, recorded⟩ := record
    obtain rfl : manifest = sampleManifest := Option.some.inj (Except.ok.inj known.symm)
    generalize isDigest : sampleEnvironment.kit.contentHash [1, 7] = digest at recorded
    generalize isPath : registryMutation.path = path at recorded
    cases recorded with
    | registry => exact absurd isDigest (by decide)
    | native skill listed files mode relative digest file => cases isPath
    | output skill listed _ _ own =>
      rw [List.mem_singleton.mp listed] at own
      cases own
    | bridge components there => cases isPath
    | mcp components there _ implemented => cases isPath
    | backup entry listed => cases isPath
  · exact absurd same (by decide)
  · cases template.1
  · obtain ⟨_, name, _, path, _⟩ := mem_takeoverHashes takeover
    cases path

end Workctx.Adapters.Plans
