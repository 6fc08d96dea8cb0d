import Workctx.Ingestion.Service

/-! The manifests of a workspace: their form, how a call of the service may revise them, and the
paths that are none of theirs. -/

namespace Workctx.Ingestion
open Workctx.Concurrent Workctx.Text Workctx.Domain Workctx.Staging Workctx.Engine Workctx.Services List

section
variable (format : ManifestFormat)

def manifestAt (files : Files) (path : String) : Option ArtifactManifest :=
  if isManifestFile path then (files.get path).bind format.read else none

/-- Where the files of a manifest are preserved, by its status. -/
def ArtifactManifest.places (manifest : ArtifactManifest) (metadata : ManifestMetadata) : List String :=
  match manifest.status with
  | .quarantined => destinationsIn "00_inbox/quarantine" manifest.id metadata
  | .processed => destinationsIn "01_processed" manifest.id metadata
  | _ => metadata.paths

/-- The form the service gives a manifest: its files were registered in the raw zone, and are
preserved where its status says. -/
def ArtifactManifest.Formed (manifest : ArtifactManifest) : Prop :=
  ∀ metadata, manifest.notes = some metadata →
    (∀ path ∈ metadata.paths, isRawPath path = true) ∧ manifest.destinations = manifest.places metadata

/-- What a call of the service may make of a manifest. -/
structure Evolves (old new : ArtifactManifest) : Prop where
  id : new.id = old.id
  contentHash : new.contentHash = old.contentHash
  duplicateOf : new.duplicateOf = old.duplicateOf
  sources : new.sources = old.sources
  status : new.status = old.status ∨ ((old.status = .pending ∨ old.status = .processing) ∧ new.status = .processed)

/-- Every manifest is still there, or what it has evolved to. -/
def Grows (before after : Files) : Prop :=
  ∀ path manifest, manifestAt format before path = some manifest →
    ∃ later, manifestAt format after path = some later ∧ Evolves manifest later

/-- There are no other manifests than what they have evolved to. -/
def Retains (before after : Files) : Prop :=
  ∀ path now, manifestAt format after path = some now →
    ∃ was, manifestAt format before path = some was ∧ Evolves was now ∧ (was.Formed → now.Formed)

def AllFormed (files : Files) : Prop := ∀ path manifest, manifestAt format files path = some manifest → manifest.Formed

end

section
variable {format : ManifestFormat} {files after : Files} {path : String} {manifest : ArtifactManifest}

theorem manifestAt_elsewhere (same : after.get path = files.get path) : manifestAt format after path = manifestAt format files path := by
  unfold manifestAt
  rw [same]

theorem manifestAt_rendered (found : after.get path = some (format.render manifest)) (there : isManifestFile path = true) :
    manifestAt format after path = some manifest := by
  unfold manifestAt
  rw [if_pos there, found, Option.bind_some, format.readBack]

theorem manifestAt_outside (outside : isManifestFile path = false) : manifestAt format files path = none := by
  unfold manifestAt
  rw [outside]
  rfl

theorem manifestFile_of_at (found : manifestAt format files path = some manifest) : isManifestFile path = true := by
  by_contra outside
  rw [manifestAt_outside (Bool.not_eq_true _ ▸ outside)] at found
  cases found

theorem file_of_manifestAt (found : manifestAt format files path = some manifest) : ∃ content, files.get path = some content := by
  unfold manifestAt at found
  split at found
  · obtain ⟨content, present, _⟩ := Option.bind_eq_some_iff.mp found
    exact ⟨content, present⟩
  · cases found

theorem manifestAt_same {one two : ArtifactManifest} (first : manifestAt format files path = some one)
    (second : manifestAt format files path = some two) : one = two := Option.some.inj (first.symm.trans second)

theorem manifestAt_none (absent : files.all (fun entry => !isManifestFile entry.1) = true) (path : String) :
    manifestAt format files path = none := by
  cases found : manifestAt format files path with
  | none => rfl
  | some manifest =>
    obtain ⟨content, present⟩ := file_of_manifestAt found
    have aside := all_eq_true.mp absent (path, content) (Directory.mem_of_get present)
    dsimp only at aside
    rw [manifestFile_of_at found] at aside
    cases aside

/-! Evolution. -/

theorem Evolves.refl (manifest : ArtifactManifest) : Evolves manifest manifest := ⟨rfl, rfl, rfl, rfl, .inl rfl⟩

theorem Evolves.trans {one two three : ArtifactManifest} (first : Evolves one two) (second : Evolves two three) : Evolves one three := by
  refine ⟨second.id.trans first.id, second.contentHash.trans first.contentHash, second.duplicateOf.trans first.duplicateOf,
    second.sources.trans first.sources, ?_⟩
  rcases second.status with same | ⟨early, late⟩
  · rw [same]
    exact first.status
  · rcases first.status with equal | ⟨_, processed⟩
    · rw [equal] at early
      exact .inr ⟨early, late⟩
    · rw [processed] at early
      rcases early with pending | processing
      · cases pending
      · cases processing

theorem Evolves.onto {old current new : ArtifactManifest} (first : Evolves old current) (last : Evolves old new)
    (final : new.status = .quarantined ∨ new.status = .processed) : Evolves current new := by
  refine ⟨last.id.trans first.id.symm, last.contentHash.trans first.contentHash.symm,
    last.duplicateOf.trans first.duplicateOf.symm, last.sources.trans first.sources.symm, ?_⟩
  rcases first.status with same | ⟨_, processed⟩
  · rw [same]
    exact last.status
  · left
    rcases last.status with equal | ⟨_, late⟩
    · rw [equal] at final
      rcases final with quarantined | done
      · grind
      · rw [processed, equal, done]
    · rw [processed, late]

theorem Evolves.original {old new : ArtifactManifest} (evolves : Evolves old new) (status : ArtifactStatus)
    (settled : status = .duplicate ∨ status = .quarantined) : new.status = status ↔ old.status = status := by
  rcases evolves.status with same | ⟨early, late⟩
  · rw [same]
  · rw [late]
    rcases settled with rfl | rfl <;> rcases early with early | early <;> rw [early] <;> decide

theorem grows_refl : Grows format files files := fun _ manifest found => ⟨manifest, found, Evolves.refl manifest⟩

theorem Grows.trans {one two three : Files} (first : Grows format one two) (second : Grows format two three) : Grows format one three := by
  intro path manifest found
  obtain ⟨middle, there, early⟩ := first path manifest found
  obtain ⟨last, here, late⟩ := second path middle there
  exact ⟨last, here, early.trans late⟩

theorem AllFormed.retained (formed : AllFormed format files) (retains : Retains format files after) : AllFormed format after := by
  intro path now found
  obtain ⟨was, there, _, keeps⟩ := retains path now found
  exact keeps (formed path was there)

/-! The steps. -/

theorem manifests_same (same : ∀ path, manifestAt format after path = manifestAt format files path) :
    Grows format files after ∧ Retains format files after := by
  constructor
  · intro path manifest found
    rw [← same] at found
    exact ⟨manifest, found, Evolves.refl manifest⟩
  · intro path manifest found
    rw [same] at found
    exact ⟨manifest, found, Evolves.refl manifest, id⟩

theorem manifestAt_carried {source destination : String} {content : Bytes} (outside : isManifestFile source = false)
    (aside : isManifestFile destination = false) (path : String) :
    manifestAt format ((files.erase source).put destination content) path = manifestAt format files path := by
  by_cases there : isManifestFile path = true
  · have fromSource : path ≠ source := by
      rintro rfl
      rw [outside] at there
      cases there
    have fromDestination : path ≠ destination := by
      rintro rfl
      rw [aside] at there
      cases there
    apply manifestAt_elsewhere
    rw [Directory.get_put_of_ne fromDestination, Directory.get_erase_of_ne fromSource]
  · rw [Bool.not_eq_true] at there
    rw [manifestAt_outside there, manifestAt_outside there]

theorem manifests_revised {current : ArtifactManifest}
    (there : isManifestFile path = true → manifestAt format files path = some current ∧ Evolves current manifest)
    (formed : manifest.Formed) :
    Grows format files (files.put path (format.render manifest)) ∧ Retains format files (files.put path (format.render manifest)) := by
  by_cases present : isManifestFile path = true
  · obtain ⟨found, evolves⟩ := there present
    have here : manifestAt format (files.put path (format.render manifest)) path = some manifest :=
      manifestAt_rendered (Directory.get_put_self _ _ _) present
    have elsewhere : ∀ other, other ≠ path →
        manifestAt format (files.put path (format.render manifest)) other = manifestAt format files other :=
      fun other apart => manifestAt_elsewhere (Directory.get_put_of_ne apart)
    constructor
    · intro other was before
      by_cases same : other = path
      · subst same
        rw [manifestAt_same before found]
        exact ⟨manifest, here, evolves⟩
      · rw [← elsewhere other same] at before
        exact ⟨was, before, Evolves.refl was⟩
    · intro other now later
      by_cases same : other = path
      · subst same
        rw [manifestAt_same later here]
        exact ⟨current, found, evolves, fun _ => formed⟩
      · rw [elsewhere other same] at later
        exact ⟨now, later, Evolves.refl now, id⟩
  · apply manifests_same
    intro other
    by_cases same : other = path
    · subst same
      rw [Bool.not_eq_true] at present
      rw [manifestAt_outside present, manifestAt_outside present]
    · exact manifestAt_elsewhere (Directory.get_put_of_ne same)

theorem manifests_created (absent : files.get path = none) :
    Grows format files (files.put path (format.render manifest)) ∧
      ∀ other now, manifestAt format (files.put path (format.render manifest)) other = some now →
        (other = path ∧ now = manifest) ∨ manifestAt format files other = some now := by
  have elsewhere : ∀ other, other ≠ path →
      manifestAt format (files.put path (format.render manifest)) other = manifestAt format files other :=
    fun other apart => manifestAt_elsewhere (Directory.get_put_of_ne apart)
  constructor
  · intro other was before
    have apart : other ≠ path := by
      rintro rfl
      unfold manifestAt at before
      rw [absent, Option.bind_none, ite_self] at before
      cases before
    rw [← elsewhere other apart] at before
    exact ⟨was, before, Evolves.refl was⟩
  · intro other now later
    by_cases same : other = path
    · subst same
      have present := manifestFile_of_at later
      exact .inl ⟨rfl, manifestAt_same later (manifestAt_rendered (Directory.get_put_self _ _ _) present)⟩
    · rw [elsewhere other same] at later
      exact .inr later

theorem AllFormed.created (formed : AllFormed format files) (absent : files.get path = none) (new : manifest.Formed) :
    AllFormed format (files.put path (format.render manifest)) := by
  intro other now found
  rcases (manifests_created absent).2 other now found with ⟨_, rfl⟩ | there
  · exact new
  · exact formed other now there

/-! Paths outside of the manifest directory. -/

theorem inManifests_tenth {path : String} (there : inManifests path = true) : path.toList[9]? = some 'm' := by
  obtain ⟨rest, same⟩ := isPrefixOf_iff_prefix.mp there
  rw [← same]
  rfl

theorem manifestFile_inManifests {path : String} (there : isManifestFile path = true) : inManifests path = true :=
  (Bool.and_eq_true_iff.mp there).1

theorem manifestPath_inManifests (artifactId : String) : inManifests (manifestPath artifactId) = true := by
  unfold inManifests manifestPath
  rw [List.isPrefixOf_iff_prefix, String.toList_append, String.toList_append, append_assoc]
  exact prefix_append _ _

theorem rawPath_tenth {path : String} (raw : isRawPath path = true) : path.toList[9]? = some 'r' := by
  unfold isRawPath at raw
  split at raw
  · next inbox zone rest parts =>
    simp only [Bool.and_eq_true, beq_iff_eq] at raw
    obtain ⟨⟨⟨first, second⟩, _⟩, _⟩ := raw
    have whole : ['/'].intercalate (path.toList.splitOn '/') = path.toList := intercalate_splitOn '/'
    rw [parts, first, second] at whole
    rw [← whole]
    cases rest with
    | nil => decide
    | cons one others =>
      simp only [intercalate_cons_cons, append_assoc]
      rfl
  · cases raw

theorem destination_tenth {zone : String} (preserving : zone = "00_inbox/quarantine" ∨ zone = "01_processed") {artifactId source : String}
    {index : Option Nat} : (destinationPath zone artifactId source index).toList[9]? = some 'q' ∨
      (destinationPath zone artifactId source index).toList[9]? = some 's' := by
  unfold destinationPath
  simp only [String.toList_append, append_assoc]
  rcases preserving with rfl | rfl
  · exact .inl rfl
  · exact .inr rfl

theorem notManifest_of_tenth {path : String} {c : Char} (tenth : path.toList[9]? = some c) (other : c ≠ 'm') :
    inManifests path = false := by
  rw [← Bool.not_eq_true]
  intro there
  rw [inManifests_tenth there] at tenth
  exact other (Option.some.inj tenth).symm

theorem rawPath_outside {path : String} (raw : isRawPath path = true) : inManifests path = false :=
  notManifest_of_tenth (rawPath_tenth raw) (by decide)

theorem isManifestFile_outside {path : String} (outside : inManifests path = false) : isManifestFile path = false := by
  unfold isManifestFile
  rw [outside]
  rfl

structure Preserving (path : String) : Prop where
  outside : inManifests path = false
  notRaw : isRawPath path = false

theorem mem_destinationsIn {zone artifactId : String} {metadata : ManifestMetadata}
    (preserving : zone = "00_inbox/quarantine" ∨ zone = "01_processed") (member : path ∈ destinationsIn zone artifactId metadata) :
    Preserving path := by
  have tenth : path.toList[9]? = some 'q' ∨ path.toList[9]? = some 's' := by
    rcases mem_cons.mp member with rfl | there
    · exact destination_tenth preserving
    · obtain ⟨sidecar, _, rfl⟩ := mem_map.mp there
      exact destination_tenth preserving
  constructor
  · rcases tenth with tenth | tenth
    · exact notManifest_of_tenth tenth (by decide)
    · exact notManifest_of_tenth tenth (by decide)
  · rw [← Bool.not_eq_true]
    intro raw
    rw [rawPath_tenth raw] at tenth
    rcases tenth with tenth | tenth
    · exact absurd (Option.some.inj tenth) (by decide)
    · exact absurd (Option.some.inj tenth) (by decide)

end
end Workctx.Ingestion
