import Mathlib.Data.List.Nodup
import Workctx.Ingestion.Service
import Workctx.Json.RoundTrip

/-! The paths at which registered artifacts and their sidecars are preserved: two of them are one only
where an artifact is named like a sidecar of another. -/

namespace Workctx.Ingestion
open Workctx.Text Workctx.Domain Workctx.Services List

/-! Texts that end in a run of signs -/

theorem run_unique {α : Type} {test : α → Bool} {run run' behind behind' : List α} {stop stop' : α}
    (inside : ∀ item ∈ run, test item = true) (inside' : ∀ item ∈ run', test item = true) (ends : test stop = false)
    (ends' : test stop' = false) (same : run ++ stop :: behind = run' ++ stop' :: behind') :
    run = run' ∧ stop = stop' ∧ behind = behind' := by
  induction run generalizing run' with
  | nil =>
    cases run' with
    | nil => exact ⟨rfl, List.cons.inj same⟩
    | cons item rest =>
      obtain ⟨rfl, _⟩ := List.cons.inj same
      exact absurd (inside' _ mem_cons_self) (by simp [ends])
  | cons item rest ih =>
    cases run' with
    | nil =>
      obtain ⟨rfl, _⟩ := List.cons.inj same
      exact absurd (inside _ mem_cons_self) (by simp [ends'])
    | cons item' rest' =>
      obtain ⟨rfl, tails⟩ := List.cons.inj same
      obtain ⟨rfl, more⟩ := ih (fun _ member => inside _ (mem_cons_of_mem _ member))
        (fun _ member => inside' _ (mem_cons_of_mem _ member)) tails
      exact ⟨rfl, more⟩

theorem last_run_unique {α : Type} {test : α → Bool} {front front' run run' : List α} {stop stop' : α}
    (inside : ∀ item ∈ run, test item = true) (inside' : ∀ item ∈ run', test item = true) (ends : test stop = false)
    (ends' : test stop' = false) (same : front ++ stop :: run = front' ++ stop' :: run') :
    front = front' ∧ stop = stop' ∧ run = run' := by
  have turned := congrArg List.reverse same
  simp only [reverse_append, reverse_cons, append_assoc, singleton_append] at turned
  obtain ⟨runs, stops, fronts⟩ := run_unique (fun item member => inside item (mem_reverse.mp member))
    (fun item member => inside' item (mem_reverse.mp member)) ends ends' turned
  exact ⟨reverse_injective fronts, stops, reverse_injective runs⟩

/-! Numbers of two digits -/

variable {number : Nat} {metadata : ManifestMetadata} {path : String} {artifact : Registered}

theorem twoDigits_digits {c : Char} (member : c ∈ (twoDigits number).toList) : isAsciiDigit c = true := by
  have digit : c ∈ (toString number).toList → isAsciiDigit c = true := by
    intro inside
    rw [Nat.toString_eq_repr, Nat.toList_repr] at inside
    exact Json.isDigit_of_mem_toDigits inside
  unfold twoDigits at member
  split at member
  · rcases mem_append.mp (String.toList_append ▸ member) with zero | inside
    · obtain rfl := mem_singleton.mp zero
      rfl
    · exact digit inside
  · exact digit member

theorem twoDigits_value (number : Nat) : Nat.ofDigitChars 10 (twoDigits number).toList 0 = number := by
  have value : Nat.ofDigitChars 10 (toString number).toList 0 = number := by
    rw [Nat.toString_eq_repr, Nat.toList_repr, Nat.ofDigitChars_ten_toDigits]
  unfold twoDigits
  split
  · rw [String.toList_append]
    exact value
  · exact value

theorem twoDigits_injective {one two : Nat} (same : twoDigits one = twoDigits two) : one = two := by
  rw [← twoDigits_value one, same, twoDigits_value]

theorem twoDigits_length (small : number ≤ 99) : (twoDigits number).toList.length = 2 := by
  have lengths : ∀ number < 100, (twoDigits number).toList.length = 2 := by decide
  exact lengths number (by omega)

/-! Sequence numbers -/

theorem sequenceOf_eq {start identifier : String} (read : sequenceOf start identifier = some number) :
    ∃ digits, identifier.toList = start.toList ++ '-' :: digits ∧ digits.length = 2 := by
  unfold sequenceOf at read
  dsimp only at read
  split at read
  · next shaped =>
    rw [Bool.and_eq_true, Bool.and_eq_true, isPrefixOf_iff_prefix] at shaped
    obtain ⟨⟨⟨tail, whole⟩, hyphen⟩, digits⟩ := shaped
    rw [← whole, ← String.length_toList, drop_left] at hyphen digits
    cases tail with
    | nil => cases hyphen
    | cons c rest =>
      obtain rfl : c = '-' := by simpa using hyphen
      exact ⟨rest, whole.symm, beq_iff_eq.mp (Bool.and_eq_true_iff.mp digits).1⟩
  · cases read

theorem toList_sequence (start number : String) : (start ++ "-" ++ number).toList = start.toList ++ '-' :: number.toList := by
  rw [String.toList_append, String.toList_append, append_assoc]
  rfl

theorem sequenceOf_made {start start' : String} (small : number ≤ 99) :
    sequenceOf start (start' ++ "-" ++ twoDigits number) = if start = start' then some number else none := by
  have whole := toList_sequence start' (twoDigits number)
  split
  · next same =>
    obtain rfl := same
    have two : isDigits 2 (twoDigits number).toList = true := by
      rw [isDigits, Bool.and_eq_true, all_eq_true]
      exact ⟨beq_iff_eq.mpr (twoDigits_length small), fun _ => twoDigits_digits⟩
    unfold sequenceOf
    dsimp only
    rw [whole, ← String.length_toList, drop_left, if_pos]
    · exact congrArg some (twoDigits_value number)
    · rw [Bool.and_eq_true, Bool.and_eq_true, isPrefixOf_iff_prefix]
      exact ⟨⟨prefix_append _ _, rfl⟩, two⟩
  · next different =>
    cases read : sequenceOf start (start' ++ "-" ++ twoDigits number) with
    | none => rfl
    | some found =>
      obtain ⟨digits, split, length⟩ := sequenceOf_eq read
      have fronts := (append_inj' (whole.symm.trans split) (by simp [twoDigits_length small, length])).1
      exact absurd (String.toList_inj.mp fronts).symm different

/-! Registered artifacts -/

/-- A registered artifact: a record whose manifest has its metadata. -/
structure Registered where
  record : ArtifactRecord
  metadata : ManifestMetadata
  noted : record.manifest.notes = some metadata

def Registered.id (artifact : Registered) : String := artifact.record.manifest.id

def Registered.new (request : RegisterRequest) (artifactId : String) (ingestedAt : AwareDatetime) (primary : ScannedPath)
    (sidecars : List ScannedPath) (diagnostics : List IngestionDiagnostic) (status : ArtifactStatus × Option String) : Registered where
  record := ⟨manifestPath artifactId, newManifest request artifactId ingestedAt primary sidecars diagnostics status⟩
  metadata := ⟨request.path, sidecars.map fun sidecar => ⟨sidecar.relativePath, sidecar.contentHash⟩, diagnostics, none⟩
  noted := rfl

/-- Where an artifact and its sidecars are archived, and where they are put in quarantine. -/
def Registered.destinations (artifact : Registered) : List String :=
  destinationsIn "01_processed" artifact.id artifact.metadata ++ destinationsIn "00_inbox/quarantine" artifact.id artifact.metadata

section
variable (library : Library)

/-- What the identifiers of a day and of a name begin with. -/
def identifierStart (path : String) (ingestedAt : AwareDatetime) : String :=
  "ART-" ++ library.utcDay ingestedAt ++ "-" ++ artifactSlug library.unicode (splitSuffix (nameOf path)).1

def Registered.start (artifact : Registered) : String :=
  identifierStart library artifact.metadata.registeredPath artifact.record.manifest.ingestedAt

/-- Artifacts with the identifiers they were handed out, the newest first: a registration sees manifests that were created before, and
creates its own where there is none. -/
inductive HandedOut : List Registered → Prop
  | none : HandedOut []
  | next {earlier : List Registered} {existing : List ArtifactRecord} {artifact : Registered} (handed : HandedOut earlier)
    (seen : ∀ record ∈ existing, record.manifest.id ∈ earlier.map Registered.id)
    (allocated : allocateArtifactId library existing artifact.metadata.registeredPath artifact.record.manifest.ingestedAt =
      some artifact.id)
    (created : artifact.id ∉ earlier.map Registered.id) : HandedOut (artifact :: earlier)

def numberAt (artifacts : List Registered) (position : Nat) (artifact : Registered) : Nat :=
  (artifacts.drop position).countP fun other => other.start library == artifact.start library

/-- The one artifact has the name of a sidecar of the other: behind the other's identifier stands the marker, its own number is that
of a sidecar, and the suffixes are the same. -/
def NamedLikeSidecar (artifacts : List Registered) (one two : Nat) : Prop :=
  ∃ artifact owner sidecar, artifacts[one]? = some artifact ∧ artifacts[two]? = some owner ∧
    artifact.start library = owner.start library ++ "-" ++ twoDigits (numberAt library artifacts two owner) ++ "-sidecar" ∧
    owner.metadata.sidecars[numberAt library artifacts one artifact - 1]? = some sidecar ∧
    safeSuffix artifact.metadata.registeredPath = safeSuffix sidecar.sourcePath

end

section
variable {library : Library} {artifacts : List Registered} {artifact : Registered} {position : Nat}

theorem allocateArtifactId_some {existing : List ArtifactRecord} {path id : String} {ingestedAt : AwareDatetime}
    (allocated : allocateArtifactId library existing path ingestedAt = some id) :
    ∃ number, number < 99 ∧ id = identifierStart library path ingestedAt ++ "-" ++ twoDigits (number + 1) ∧
      ∀ smaller < number, ∃ record ∈ existing,
        sequenceOf (identifierStart library path ingestedAt) record.manifest.id = some (smaller + 1) := by
  unfold allocateArtifactId at allocated
  dsimp only at allocated
  obtain ⟨sequence, found, rfl⟩ := Option.map_eq_some_iff.mp allocated
  rw [find?_map] at found
  obtain ⟨number, first, rfl⟩ := Option.map_eq_some_iff.mp found
  obtain ⟨_, inside, used⟩ := find?_range_eq_some.mp first
  refine ⟨number, mem_range.mp inside, rfl, fun smaller below => ?_⟩
  have taken := used smaller below
  rw [Function.comp_apply, Bool.not_not, contains_iff_mem] at taken
  exact mem_filterMap.mp taken

theorem exists_number {α : Type} {test : α → Bool} {items : List α} {number : Nat} (positive : 0 < number)
    (enough : number ≤ items.countP test) :
    ∃ position item, items[position]? = some item ∧ test item = true ∧ (items.drop position).countP test = number := by
  induction items with
  | nil =>
    rw [countP_nil] at enough
    omega
  | cons item rest ih =>
    rcases Nat.lt_or_ge (rest.countP test) number with more | less
    · have passes : test item = true := by
        by_contra fails
        rw [countP_cons_of_neg fails] at enough
        omega
      refine ⟨0, item, rfl, passes, ?_⟩
      rw [countP_cons_of_pos passes] at enough
      rw [drop_zero, countP_cons_of_pos passes]
      omega
    · obtain ⟨position, found, here, passes, counted⟩ := ih less
      exact ⟨position + 1, found, here, passes, counted⟩

theorem numberAt_pos (here : artifacts[position]? = some artifact) : 0 < numberAt library artifacts position artifact := by
  obtain ⟨inside, rfl⟩ := List.getElem?_eq_some_iff.mp here
  rw [numberAt, countP_pos_iff]
  exact ⟨artifacts[position], mem_of_mem_head? (by rw [head?_drop]; exact here), beq_self_eq_true _⟩

/-- The identifier of an artifact is told by its number among those of its day and name. -/
theorem HandedOut.identified (handed : HandedOut library artifacts) (here : artifacts[position]? = some artifact) :
    artifact.id = artifact.start library ++ "-" ++ twoDigits (numberAt library artifacts position artifact) ∧
      numberAt library artifacts position artifact ≤ 99 := by
  induction handed generalizing position artifact with
  | none => cases here
  | @next earlier existing newest _ seen allocated created ih =>
    cases position with
    | succ position => exact ih here
    | zero =>
      obtain rfl : newest = artifact := Option.some.inj here
      obtain ⟨number, bounded, id, used⟩ := allocateArtifactId_some allocated
      change newest.id = newest.start library ++ "-" ++ twoDigits (number + 1) at id
      have own : numberAt library (newest :: earlier) 0 newest =
          earlier.countP (fun other => other.start library == newest.start library) + 1 :=
        countP_cons_of_pos (beq_self_eq_true _)
      rw [own]
      -- All smaller numbers are those of earlier artifacts, and this one is none of them.
      have enough : number ≤ earlier.countP fun other => other.start library == newest.start library := by
        rcases Nat.eq_zero_or_pos number with rfl | positive
        · exact Nat.zero_le _
        · obtain ⟨record, known, sequence⟩ := used (number - 1) (by omega)
          obtain ⟨other, member, same⟩ := mem_map.mp (seen record known)
          obtain ⟨place, there⟩ := mem_iff_getElem?.mp member
          obtain ⟨made, small⟩ := ih there
          rw [← same, made, sequenceOf_made small] at sequence
          split at sequence
          · next start =>
            have counted : numberAt library earlier place other = number := by
              have equal := Option.some.inj sequence
              omega
            rw [← counted, show newest.start library = other.start library from start]
            exact (drop_sublist _ _).countP_le
          · cases sequence
      have fresh : ¬number + 1 ≤ earlier.countP fun other => other.start library == newest.start library := by
        intro more
        obtain ⟨place, other, there, start, counted⟩ := exists_number (Nat.succ_pos number) more
        have start : other.start library = newest.start library := beq_iff_eq.mp start
        have made := (ih there).1
        unfold numberAt at made
        rw [start, counted, ← id] at made
        exact created (made ▸ mem_map_of_mem (mem_of_getElem? there))
      have counted : number = earlier.countP fun other => other.start library == newest.start library := by omega
      rw [← counted]
      exact ⟨id, by omega⟩

theorem HandedOut.apart (handed : HandedOut library artifacts) : (artifacts.map Registered.id).Nodup := by
  induction handed with
  | none => exact nodup_nil
  | next _ _ _ created ih => exact nodup_cons.mpr ⟨created, ih⟩

end

/-! Where the files go -/

/-- The files of an artifact, with the numbers of the sidecars. -/
def ManifestMetadata.slots (metadata : ManifestMetadata) : List (String × Option Nat) :=
  (metadata.registeredPath, none) :: metadata.sidecars.zipIdx.map fun sidecar => (sidecar.1.sourcePath, some (sidecar.2 + 1))

theorem destinationsIn_slots {zone id : String} :
    destinationsIn zone id metadata = metadata.slots.map fun slot => destinationPath zone id slot.1 slot.2 := by
  unfold destinationsIn ManifestMetadata.slots
  rw [map_cons, map_map]
  rfl

theorem mem_slots :
    (path, some number) ∈ metadata.slots ↔
      ∃ sidecar, 0 < number ∧ metadata.sidecars[number - 1]? = some sidecar ∧ sidecar.sourcePath = path := by
  unfold ManifestMetadata.slots
  rw [mem_cons, mem_map]
  constructor
  · intro member
    rcases member with other | ⟨⟨sidecar, place⟩, inside, same⟩
    · cases (Prod.mk.inj other).2
    · obtain ⟨rfl, number⟩ := Prod.mk.inj same
      cases number
      exact ⟨sidecar, Nat.succ_pos _, mem_zipIdx_iff_getElem?.mp inside, rfl⟩
  · intro ⟨sidecar, positive, there, same⟩
    refine .inr ⟨(sidecar, number - 1), mem_zipIdx_iff_getElem?.mpr there, ?_⟩
    rw [same, Nat.sub_add_cancel positive]

theorem slots_numbers (metadata : ManifestMetadata) : (metadata.slots.map Prod.snd).Nodup := by
  have numbers : metadata.slots.map Prod.snd = none :: (List.range metadata.sidecars.length).map fun place => some (place + 1) := by
    unfold ManifestMetadata.slots
    rw [map_cons, map_map, range_eq_range', ← zipIdx_map_snd 0 metadata.sidecars, map_map]
    rfl
  rw [numbers, nodup_cons]
  refine ⟨fun member => ?_, nodup_range.map fun one two same => Nat.succ.inj (Option.some.inj same)⟩
  obtain ⟨_, _, none⟩ := mem_map.mp member
  cases none

theorem mem_destinations :
    path ∈ artifact.destinations ↔ ∃ zone ∈ ["01_processed", "00_inbox/quarantine"], ∃ slot ∈ artifact.metadata.slots,
      destinationPath zone artifact.id slot.1 slot.2 = path := by
  unfold Registered.destinations
  rw [destinationsIn_slots, destinationsIn_slots, mem_append, mem_map, mem_map]
  simp only [mem_cons, not_mem_nil, or_false, exists_eq_or_imp, exists_eq_left]

/-- An identifier that ends in a number behind a hyphen. -/
def Sequenced (id : String) : Prop := ∃ start number, id = start ++ "-" ++ twoDigits number

theorem splitSuffix_cases (name : List Char) : (splitSuffix name).2 = [] ∨ ∃ letters, (splitSuffix name).2 = '.' :: letters := by
  unfold splitSuffix
  dsimp only
  split
  · exact .inl rfl
  · next long =>
    right
    have parts := takeWhile_append_dropWhile (p := (· != '.')) (l := name.reverse)
    cases dots : name.reverse.dropWhile (· != '.') with
    | nil => exact absurd (by simp [dots]) long
    | cons c rest =>
      obtain rfl : c = '.' := by
        have stops := head?_dropWhile_not (· != '.') name.reverse
        rw [dots] at stops
        simpa using stops
      rw [dots] at parts
      generalize name.reverse.takeWhile (· != '.') = letters at parts
      have whole := congrArg List.reverse parts
      rw [reverse_reverse, reverse_append, reverse_cons, append_assoc] at whole
      exact ⟨letters.reverse, by rw [← whole, length_cons, Nat.add_sub_cancel, ← length_reverse, drop_left]; rfl⟩

theorem safeSuffix_cases (path : String) :
    safeSuffix path = "" ∨ ∃ letters, (safeSuffix path).toList = '.' :: letters ∧ ∀ c ∈ letters, isLowerAlnum c = true := by
  unfold safeSuffix
  dsimp only
  split
  · next safe =>
    rcases splitSuffix_cases (nameOf path) with empty | ⟨letters, suffix⟩
    · exact .inl (by rw [empty]; rfl)
    · rw [suffix, Bool.and_eq_true] at safe
      exact .inr ⟨letters.map lowerToAscii, by rw [suffix, String.toList_ofList]; rfl, all_eq_true.mp safe.2⟩
  · exact .inl rfl

theorem digit_lowerAlnum {c : Char} (digit : isAsciiDigit c = true) : isLowerAlnum c = true := by
  unfold isLowerAlnum
  rw [Bool.or_eq_true]
  exact .inr digit

theorem marked_none (id : String) : id ++ sidecarMarker none = id := String.append_empty

theorem marked_some (id : String) (number : Nat) : id ++ sidecarMarker (some number) = id ++ "-sidecar" ++ "-" ++ twoDigits number := by
  have marker : "-sidecar-" = "-sidecar" ++ "-" := rfl
  unfold sidecarMarker
  simp only [Option.map_some, Option.getD_some, marker, String.append_assoc]

theorem Sequenced.marked {id : String} (sequenced : Sequenced id) (index : Option Nat) : Sequenced (id ++ sidecarMarker index) := by
  cases index with
  | none =>
    rw [marked_none]
    exact sequenced
  | some index =>
    exact ⟨id ++ "-sidecar", index, marked_some id index⟩

theorem Sequenced.toList {id : String} (sequenced : Sequenced id) :
    ∃ front digits, id.toList = front ++ '-' :: digits ∧ ∀ c ∈ digits, isLowerAlnum c = true := by
  obtain ⟨start, number, rfl⟩ := sequenced
  exact ⟨start.toList, (twoDigits number).toList, toList_sequence _ _, fun _ member => digit_lowerAlnum (twoDigits_digits member)⟩

theorem suffix_unique {id id' : String} {path' : String} (sequenced : Sequenced id) (sequenced' : Sequenced id')
    (same : id ++ safeSuffix path = id' ++ safeSuffix path') : id = id' ∧ safeSuffix path = safeSuffix path' := by
  obtain ⟨front, digits, split, inside⟩ := sequenced.toList
  obtain ⟨front', digits', split', inside'⟩ := sequenced'.toList
  have lists := congrArg String.toList same
  rw [String.toList_append, String.toList_append] at lists
  have hyphen : isLowerAlnum '-' = false := rfl
  have dot : isLowerAlnum '.' = false := rfl
  rcases safeSuffix_cases path with empty | ⟨letters, suffix, run⟩ <;>
    rcases safeSuffix_cases path' with empty' | ⟨letters', suffix', run'⟩
  · rw [empty, empty', String.append_empty, String.append_empty] at same
    exact ⟨same, empty.trans empty'.symm⟩
  · rw [empty, suffix', split, String.toList_empty, append_nil] at lists
    cases (last_run_unique inside run' hyphen dot lists).2.1
  · rw [empty', suffix, split', String.toList_empty, append_nil] at lists
    cases (last_run_unique run inside' dot hyphen lists).2.1
  · rw [suffix, suffix'] at lists
    obtain ⟨ids, _, runs⟩ := last_run_unique run run' dot dot lists
    exact ⟨String.toList_inj.mp ids, String.toList_inj.mp (by rw [suffix, suffix', runs])⟩

/-- Where one file goes is where another one goes in these cases alone. -/
theorem destinationPath_eq_iff {zone zone' id id' path' : String} {index index' : Option Nat}
    (preserving : zone ∈ ["01_processed", "00_inbox/quarantine"]) (preserving' : zone' ∈ ["01_processed", "00_inbox/quarantine"])
    (sequenced : Sequenced id) (sequenced' : Sequenced id') :
    destinationPath zone id path index = destinationPath zone' id' path' index' ↔
      zone = zone' ∧ id ++ sidecarMarker index = id' ++ sidecarMarker index' ∧ safeSuffix path = safeSuffix path' := by
  have whole : ∀ zone id path index,
      destinationPath zone id path index = zone ++ ("/" ++ (id ++ sidecarMarker index ++ safeSuffix path)) := by
    intro zone id path index
    unfold destinationPath
    simp only [String.append_assoc]
  rw [whole, whole]
  constructor
  · intro same
    obtain rfl : zone = zone' := by
      -- The zones differ in their second sign.
      have second := congrArg (fun text => text.toList[1]?) same
      simp only [mem_cons, not_mem_nil, or_false] at preserving preserving'
      rcases preserving with rfl | rfl <;> rcases preserving' with rfl | rfl
      · rfl
      · simp [String.toList_append] at second
      · simp [String.toList_append] at second
      · rfl
    have tails := String.append_right_inj _ |>.mp (String.append_right_inj _ |>.mp same)
    exact ⟨rfl, suffix_unique (sequenced.marked index) (sequenced'.marked index') tails⟩
  · rintro ⟨zones, ids, suffixes⟩
    rw [zones, ids, suffixes]

theorem marked_unique {id id' : String} {number' : Nat}
    (same : id ++ sidecarMarker (some number) = id' ++ sidecarMarker (some number')) : id = id' ∧ number = number' := by
  rw [marked_some, marked_some] at same
  have lists := congrArg String.toList same
  rw [toList_sequence, toList_sequence] at lists
  obtain ⟨fronts, _, digits⟩ := last_run_unique (fun _ => twoDigits_digits) (fun _ => twoDigits_digits) rfl rfl lists
  exact ⟨String.append_left_inj _ |>.mp (String.toList_inj.mp fronts), twoDigits_injective (String.toList_inj.mp digits)⟩

theorem marked_ne (id : String) (number : Nat) : id ≠ id ++ sidecarMarker (some number) := by
  intro same
  have lengths := congrArg String.length same
  rw [marked_some] at lengths
  simp only [String.length_append] at lengths
  have marker : "-sidecar".length = 8 := rfl
  omega

theorem destinations_nodup (sequenced : Sequenced artifact.id) : artifact.destinations.Nodup := by
  have zones : ["01_processed", "00_inbox/quarantine"].Nodup := by decide
  have flat : artifact.destinations = ["01_processed", "00_inbox/quarantine"].flatMap fun zone =>
      artifact.metadata.slots.map fun slot => destinationPath zone artifact.id slot.1 slot.2 := by
    unfold Registered.destinations
    rw [destinationsIn_slots, destinationsIn_slots, flatMap_cons, flatMap_singleton]
  rw [flat, nodup_flatMap]
  constructor
  · intro zone preserving
    refine List.Nodup.map_on ?_ (slots_numbers artifact.metadata).of_map
    intro slot member slot' member' same
    obtain ⟨_, ids, _⟩ := (destinationPath_eq_iff preserving preserving sequenced sequenced).mp same
    refine inj_on_of_nodup_map (slots_numbers artifact.metadata) member member' ?_
    cases number : slot.2 with
    | none =>
      cases number' : slot'.2 with
      | none => rfl
      | some other =>
        rw [number, number', marked_none] at ids
        exact absurd ids (marked_ne _ _)
    | some one =>
      cases number' : slot'.2 with
      | none =>
        rw [number, number', marked_none] at ids
        exact absurd ids.symm (marked_ne _ _)
      | some other =>
        rw [number, number'] at ids
        rw [(marked_unique ids).2]
  · refine zones.imp_of_mem fun {zone zone'} preserving preserving' different path first second => different ?_
    obtain ⟨slot, _, one⟩ := mem_map.mp first
    obtain ⟨slot', _, other⟩ := mem_map.mp second
    exact ((destinationPath_eq_iff preserving preserving' sequenced sequenced).mp (one.trans other.symm)).1

def LikeSidecar (artifact owner : Registered) : Prop :=
  ∃ path number, (path, some number) ∈ owner.metadata.slots ∧ artifact.id = owner.id ++ sidecarMarker (some number) ∧
    safeSuffix artifact.metadata.registeredPath = safeSuffix path

theorem slot_none (slot : (path, none) ∈ metadata.slots) :
    path = metadata.registeredPath := by
  rcases mem_cons.mp slot with same | other
  · exact (Prod.mk.inj same).1
  · obtain ⟨_, _, same⟩ := mem_map.mp other
    cases (Prod.mk.inj same).2

theorem LikeSidecar.shares {owner : Registered} (like : LikeSidecar artifact owner) (sequenced : Sequenced artifact.id)
    (sequenced' : Sequenced owner.id) : ∃ path, path ∈ artifact.destinations ∧ path ∈ owner.destinations := by
  obtain ⟨source, number, slot, id, suffixes⟩ := like
  have zone : "01_processed" ∈ ["01_processed", "00_inbox/quarantine"] := mem_cons_self
  refine ⟨destinationPath "01_processed" artifact.id artifact.metadata.registeredPath none,
    mem_destinations.mpr ⟨_, zone, (_, none), mem_cons_self, rfl⟩, mem_destinations.mpr ⟨_, zone, _, slot, ?_⟩⟩
  refine (destinationPath_eq_iff zone zone sequenced' sequenced).mpr ⟨rfl, ?_, suffixes.symm⟩
  rw [marked_none, id]

/-- Of two artifacts with their own identifiers some files go to one place where one of them goes where a sidecar of the other goes. -/
theorem disjoint_destinations_iff {artifact' : Registered} (sequenced : Sequenced artifact.id)
    (sequenced' : Sequenced artifact'.id) (different : artifact.id ≠ artifact'.id) :
    artifact.destinations.Disjoint artifact'.destinations ↔ ¬(LikeSidecar artifact artifact' ∨ LikeSidecar artifact' artifact) := by
  constructor
  · intro apart like
    rcases like with like | like
    · obtain ⟨path, first, second⟩ := like.shares sequenced sequenced'
      exact apart first second
    · obtain ⟨path, first, second⟩ := like.shares sequenced' sequenced
      exact apart second first
  · intro unlike path first second
    obtain ⟨zone, preserving, ⟨source, index⟩, slot, one⟩ := mem_destinations.mp first
    obtain ⟨zone', preserving', ⟨source', index'⟩, slot', other⟩ := mem_destinations.mp second
    obtain ⟨_, ids, suffixes⟩ := (destinationPath_eq_iff preserving preserving' sequenced sequenced').mp (one.trans other.symm)
    dsimp only at ids suffixes
    cases index with
    | none =>
      obtain rfl := slot_none slot
      rw [marked_none] at ids
      cases index' with
      | none =>
        rw [marked_none] at ids
        exact different ids
      | some number => exact unlike (.inl ⟨source', number, slot', ids, suffixes⟩)
    | some number =>
      cases index' with
      | none =>
        obtain rfl := slot_none slot'
        rw [marked_none] at ids
        exact unlike (.inr ⟨source, number, slot, ids.symm, suffixes.symm⟩)
      | some number' => exact different (marked_unique ids).1

/-! Registered artifacts, and where their files go -/

section
variable {library : Library} {artifacts : List Registered}

section
variable (handed : HandedOut library artifacts)
include handed

variable {artifact : Registered}

theorem HandedOut.sequenced (member : artifact ∈ artifacts) :
    Sequenced artifact.id := by
  obtain ⟨position, here⟩ := mem_iff_getElem?.mp member
  exact ⟨_, _, (handed.identified here).1⟩

theorem HandedOut.position_unique {one two : Nat} {artifact' : Registered}
    (here : artifacts[one]? = some artifact) (there : artifacts[two]? = some artifact') (same : artifact.id = artifact'.id) :
    one = two := by
  have inside := (List.getElem?_eq_some_iff.mp here).1
  refine (getElem?_inj (by rwa [length_map]) handed.apart).mp ?_
  rw [getElem?_map, getElem?_map, here, there, Option.map_some, Option.map_some, same]

theorem HandedOut.likeSidecar_iff {one two : Nat} {owner : Registered}
    (here : artifacts[one]? = some artifact) (there : artifacts[two]? = some owner) :
    LikeSidecar artifact owner ↔ NamedLikeSidecar library artifacts one two := by
  have own := (handed.identified here).1
  have others := (handed.identified there).1
  constructor
  · intro ⟨path, number, slot, id, suffixes⟩
    obtain ⟨sidecar, _, inside, rfl⟩ := mem_slots.mp slot
    rw [marked_some, own, others] at id
    have lists := congrArg String.toList id
    rw [toList_sequence, toList_sequence] at lists
    obtain ⟨fronts, _, digits⟩ := last_run_unique (fun _ => twoDigits_digits) (fun _ => twoDigits_digits) rfl rfl lists
    obtain rfl := twoDigits_injective (String.toList_inj.mp digits)
    exact ⟨artifact, owner, sidecar, here, there, String.toList_inj.mp fronts, inside, suffixes⟩
  · intro ⟨artifact', owner', sidecar, here', there', start, inside, suffixes⟩
    obtain rfl := Option.some.inj (here.symm.trans here')
    obtain rfl := Option.some.inj (there.symm.trans there')
    have slot := mem_slots.mpr ⟨sidecar, numberAt_pos here, inside, rfl⟩
    refine ⟨sidecar.sourcePath, numberAt library artifacts one artifact, slot, ?_, suffixes⟩
    rw [own, marked_some, others, start]

end

/-- No two files of the artifacts go to one place, but where an artifact is named like a sidecar of another. -/
theorem destinations_apart_iff (handed : HandedOut library artifacts) :
    (artifacts.flatMap Registered.destinations).Nodup ↔ ¬∃ one two, NamedLikeSidecar library artifacts one two := by
  rw [List.nodup_flatMap, List.pairwise_iff_getElem]
  have pair : ∀ one two (inside : one < artifacts.length) (inside' : two < artifacts.length), one ≠ two →
      (artifacts[one].destinations.Disjoint artifacts[two].destinations ↔
        ¬(NamedLikeSidecar library artifacts one two ∨ NamedLikeSidecar library artifacts two one)) := by
    intro one two inside inside' different
    have here := List.getElem?_eq_getElem inside
    have there := List.getElem?_eq_getElem inside'
    rw [disjoint_destinations_iff (handed.sequenced (List.getElem_mem inside)) (handed.sequenced (List.getElem_mem inside')),
      handed.likeSidecar_iff here there, handed.likeSidecar_iff there here]
    intro same
    exact different (handed.position_unique here there same)
  constructor
  · intro ⟨_, apart⟩ ⟨one, two, named⟩
    have ⟨artifact, owner, _, here, there, _⟩ := named
    obtain ⟨inside, _⟩ := List.getElem?_eq_some_iff.mp here
    obtain ⟨inside', _⟩ := List.getElem?_eq_some_iff.mp there
    rcases Nat.lt_trichotomy one two with before | rfl | behind
    · exact (pair one two inside inside' (by omega)).mp (apart one two inside inside' before) (.inl named)
    · obtain rfl := Option.some.inj (here.symm.trans there)
      obtain ⟨_, number, _, id, _⟩ := (handed.likeSidecar_iff here here).mpr named
      exact marked_ne _ _ id
    · exact (pair two one inside' inside (by omega)).mp (apart two one inside' inside behind) (.inr named)
  · intro unnamed
    refine ⟨fun artifact member => destinations_nodup (handed.sequenced member), ?_⟩
    intro one two inside inside' before
    refine (pair one two inside inside' (by omega)).mpr ?_
    rintro (named | named)
    · exact unnamed ⟨one, two, named⟩
    · exact unnamed ⟨two, one, named⟩

end

/-! A report, and a file that is named like its sidecar -/

def sampleArtifact (name id : String) (sidecars : List String) : Registered :=
  .new (sampleRequest (rawPath name) (sidecars.map rawPath)) id ⟨0, 0⟩ ⟨rawPath name, contentHashA, "text/plain", []⟩
    (sidecars.map fun sidecar => ⟨rawPath sidecar, contentHashA, "text/plain", []⟩) [] (.pending, none)

def annual : Registered := sampleArtifact "report" "ART-20260101-report-01" ["notes"]

def annualTwin : Registered := sampleArtifact "report-01-sidecar" "ART-20260101-report-01-sidecar-01" []

theorem annual_handedOut : HandedOut demoLibrary [annual] :=
  @HandedOut.next _ [] [] _ .none (by simp) (by decide) (by simp)

theorem annualTwin_handedOut : HandedOut demoLibrary [annualTwin, annual] :=
  @HandedOut.next _ _ [annual.record] _ annual_handedOut (by simp [Registered.id]) (by decide) (by decide)

theorem destinations_apart_report :
    ([annual].flatMap Registered.destinations).Nodup ↔ ¬∃ one two, NamedLikeSidecar demoLibrary [annual] one two :=
  destinations_apart_iff annual_handedOut

theorem destinations_collide :
    HandedOut demoLibrary [annualTwin, annual] ∧ ¬([annualTwin, annual].flatMap Registered.destinations).Nodup :=
  ⟨annualTwin_handedOut, by decide⟩

end Workctx.Ingestion
