import Mathlib.Data.List.NodupEquivFin
import Workctx.Usage.Rotation

/-! What the evaluation reads of a rotated log: the files from the oldest to the current one, as if they were one file. -/

namespace Workctx.Usage
open Workctx.Text Workctx.Json Workctx.Domain Workctx.Search Workctx.Durable Workctx.Durable.Slots List

/-! The order of the files. -/

/-- The names of the files that may be there, the oldest first. -/
def namesFrom : Nat → List String
  | 0 => [currentName]
  | top + 1 => rotatedName (top + 1) :: namesFrom top

theorem mem_namesFrom {index top : Nat} (below : index ≤ top) : logName index ∈ namesFrom top := by
  induction top with
  | zero =>
    rw [Nat.le_zero.mp below]
    exact mem_singleton_self currentName
  | succ top ih =>
    by_cases last : index = top + 1
    · rw [last]
      exact mem_cons_self
    · exact mem_cons_of_mem _ (ih (by omega))

/-- The files that are there, from the oldest to the current one. -/
def oldestFirst (keep : Nat) (folder : Folder) : List String := (namesFrom keep).filter fun name => (folder.lookup name).isSome

def numbered (slots : Slots UsageEvent) : Nat → List (Nat × String)
  | 0 => []
  | top + 1 => if (slots (top + 1)).isSome then (top + 1, rotatedName (top + 1)) :: numbered slots top else numbered slots top

theorem mem_numbered {slots : Slots UsageEvent} {top : Nat} {found : Nat × String} :
    found ∈ numbered slots top ↔ found.1 ≠ 0 ∧ found.1 ≤ top ∧ (slots found.1).isSome ∧ found.2 = logName found.1 := by
  induction top with
  | zero =>
    constructor
    · intro member
      cases member
    · intro facts
      exact absurd (Nat.le_zero.mp facts.2.1) facts.1
  | succ top ih =>
    have lower : found ∈ numbered slots top → found.1 ≠ 0 ∧ found.1 ≤ top + 1 ∧ (slots found.1).isSome ∧ found.2 = logName found.1 := by
      intro member
      have facts := ih.mp member
      exact ⟨facts.1, by omega, facts.2.2⟩
    unfold numbered
    split
    · next present =>
      constructor
      · intro member
        cases mem_cons.mp member with
        | inl same =>
          rw [same]
          exact ⟨Nat.succ_ne_zero top, Nat.le_refl _, present, rfl⟩
        | inr later => exact lower later
      · intro facts
        by_cases last : found.1 = top + 1
        · have name : found.2 = rotatedName (top + 1) := by
            rw [facts.2.2.2, last, logName]
          have same : found = (top + 1, rotatedName (top + 1)) := Prod.ext last name
          rw [same]
          exact mem_cons_self
        · exact mem_cons_of_mem _ (ih.mpr ⟨facts.1, by omega, facts.2.2⟩)
    · next absent =>
      constructor
      · exact lower
      · intro facts
        have other : found.1 ≠ top + 1 := fun same => absent (same ▸ facts.2.2.1)
        exact ih.mpr ⟨facts.1, by omega, facts.2.2⟩

theorem numbered_sorted (slots : Slots UsageEvent) (top : Nat) : (numbered slots top).Pairwise fun one two => two.1 < one.1 := by
  induction top with
  | zero => exact List.Pairwise.nil
  | succ top ih =>
    unfold numbered
    split
    · exact pairwise_cons.mpr ⟨fun found member => Nat.lt_succ_of_le (mem_numbered.mp member).2.1, ih⟩
    · exact ih

section
variable {library : UsageLibrary} {keep : Nat} {folder : Folder} {slots : Slots UsageEvent}

section
variable (laid : Laid library keep folder slots)
include laid

theorem present_iff (index : Nat) : (folder.lookup (logName index)).isSome ↔ (slots index).isSome := by
  rw [laid.shows, Option.isSome_map]

/-- The rotated files come in the order of their numbers, however the directory is listed. -/
theorem rotatedNames_laid (listing : Listing) :
    rotatedNames listing folder = numbered slots keep := by
  have listed : ∀ found : Nat × String,
      found ∈ (listing.names folder).filterMap (fun name => (rotatedIndex name).map fun index => (index, name)) ↔ found ∈ numbered slots keep := by
    intro found
    rw [mem_filterMap, mem_numbered]
    constructor
    · intro member
      obtain ⟨name, present, shown⟩ := member
      obtain ⟨index, number, rfl⟩ := Option.map_eq_some_iff.mp shown
      have inside : name ∈ folder := (listing.every folder).mem_iff.mp present
      obtain ⟨slot, rfl⟩ := laid.names name inside
      cases slot with
      | zero =>
        rw [logName, rotatedIndex_currentName] at number
        cases number
      | succ slot =>
        rw [logName, rotatedIndex_rotatedName] at number
        cases number
        have held := (present_iff laid (slot + 1)).mp (AList.lookup_isSome.mpr inside)
        have low : slot + 1 ≤ keep := by
          by_contra high
          rw [laid.high (slot + 1) (by omega)] at held
          cases held
        exact ⟨Nat.succ_ne_zero slot, low, held, rfl⟩
    · intro facts
      have inside : found.2 ∈ folder := by
        rw [facts.2.2.2]
        exact AList.lookup_isSome.mp ((present_iff laid found.1).mpr facts.2.2.1)
      obtain ⟨slot, same⟩ := Nat.exists_eq_succ_of_ne_zero facts.1
      refine ⟨found.2, (listing.every folder).mem_iff.mpr inside, ?_⟩
      rw [facts.2.2.2, same, logName, rotatedIndex_rotatedName, Option.map_some]
      exact congrArg some (Prod.ext same.symm (by rw [facts.2.2.2, same, logName]))
  have once : ((listing.names folder).filterMap fun name => (rotatedIndex name).map fun index => (index, name)).Nodup := by
    apply List.Nodup.filterMap
    · intro one two found first second
      obtain ⟨_, _, rfl⟩ := Option.map_eq_some_iff.mp first
      obtain ⟨_, _, same⟩ := Option.map_eq_some_iff.mp second
      exact (congrArg Prod.snd same).symm
    · exact (listing.every folder).nodup_iff.mpr folder.nodupKeys
  have distinct : (numbered slots keep).Nodup :=
    (numbered_sorted slots keep).imp fun less same => absurd (congrArg Prod.fst same) (by omega)
  have permuted : (rotatedNames listing folder).Perm (numbered slots keep) :=
    (sortedBy_perm _ _).trans ((perm_ext_iff_of_nodup once distinct).mpr listed)
  let order (one two : Nat × String) : Prop := OrderDual.toDual (toLex one) ≤ OrderDual.toDual (toLex two)
  apply @List.Perm.eq_of_pairwise _ order
  · intro one two _ _ less more
    exact toLex.injective (OrderDual.toDual.injective (le_antisymm less more))
  · exact sortedBy_sorted _ _
  · exact (numbered_sorted slots keep).imp fun {one two} less => OrderDual.toDual_le_toDual.mpr (Prod.Lex.toLex_le_toLex.mpr (Or.inl less))
  · exact permuted

theorem oldestFirst_laid (top : Nat) :
    (namesFrom top).filter (fun name => (folder.lookup name).isSome) =
      (numbered slots top).map Prod.snd ++ if (folder.lookup currentName).isSome then [currentName] else [] := by
  induction top with
  | zero => rw [namesFrom, numbered, map_nil, nil_append, filter_cons, filter_nil]
  | succ top ih =>
    have here := present_iff laid (top + 1)
    rw [logName] at here
    rw [namesFrom, filter_cons, ih, numbered.eq_2]
    by_cases present : (slots (top + 1)).isSome = true
    · rw [if_pos (here.mpr present), if_pos present, map_cons, cons_append]
    · rw [if_neg fun shown => present (here.mp shown), if_neg present]

theorem usageFiles_laid (listing : Listing) :
    usageFiles listing folder = oldestFirst keep folder := by
  rw [usageFiles, rotatedNames_laid laid listing, oldestFirst, oldestFirst_laid laid keep]

theorem contents_laid (top : Nat) :
    ((namesFrom top).filter fun name => (folder.lookup name).isSome).map folder.content = (pieces slots top).map (joined library) := by
  have each : ∀ index : Nat, ((if (folder.lookup (logName index)).isSome = true then [logName index] else []).map folder.content) =
      (slots index).toList.map (joined library) := by
    intro index
    have content := laid.content index
    have here := present_iff laid index
    cases held : slots index with
    | none =>
      rw [held] at here
      rw [if_neg fun shown => absurd (here.mp shown) (by decide)]
      rfl
    | some piece =>
      rw [held] at here content
      rw [if_pos (here.mpr rfl), map_singleton, content]
      rfl
  induction top with
  | zero =>
    rw [namesFrom, filter_cons, filter_nil]
    exact each 0
  | succ top ih =>
    have first := each (top + 1)
    have cut : ((namesFrom (top + 1)).filter fun name => (folder.lookup name).isSome) =
        (if (folder.lookup (logName (top + 1))).isSome = true then [logName (top + 1)] else []) ++
          (namesFrom top).filter fun name => (folder.lookup name).isSome := by
      rw [namesFrom, filter_cons, logName]
      split
      · rfl
      · rfl
    rw [cut, map_append, first, ih, pieces, map_append]

end

end
/-! The lines of the files. -/

section
variable (library : UsageLibrary)

theorem text_printable (event : UsageEvent) {c : Char} (member : c ∈ event.text library) : 32 ≤ c.toNat := by
  refine dumpsCompact_printable ?_ member
  rw [UsageEvent.modelDump, Value.Exact, membersExact_iff]
  intro item inside
  rw [append_assoc, mem_append, mem_append] at inside
  rcases inside with inside | inside | inside
  · simp only [mem_cons, not_mem_nil, or_false] at inside
    rcases inside with rfl | rfl <;> trivial
  · obtain ⟨_, _, rfl⟩ := Option.map_eq_some_iff.mp (Option.mem_toList.mp inside)
    trivial
  · obtain ⟨_, _, rfl⟩ := Option.map_eq_some_iff.mp (Option.mem_toList.mp inside)
    trivial

def UsageEvent.line (event : UsageEvent) : List Char := event.text library ++ ['\n']

theorem joined_eq (events : List UsageEvent) : joined library events = encodeUtf8 (events.flatMap (UsageEvent.line library)) :=
  calc
    joined library events = joinLines (events.map fun event => encodeUtf8 (event.text library)) := by
      rw [joined, joinLines, flatMap_map]
      rfl
    _ = encodeUtf8 (events.flatMap (UsageEvent.line library)) := joinLines_eq_flatMap_encodeUtf8 events (UsageEvent.text library)

theorem lines_plain (events : List UsageEvent) : '\r' ∉ events.flatMap (UsageEvent.line library) := by
  intro member
  obtain ⟨event, _, inside⟩ := mem_flatMap.mp member
  cases mem_append.mp inside with
  | inl spelled => exact absurd (text_printable library event spelled) (by decide)
  | inr ending => exact absurd (mem_singleton.mp ending) (by decide)

theorem cutLines_lines (events : List UsageEvent) :
    cutLines (· == '\n') (events.flatMap (UsageEvent.line library)) = events.map (UsageEvent.line library) := by
  induction events with
  | nil => rfl
  | cons event rest ih =>
    have plain : ∀ c ∈ event.text library, (c == '\n') = false := by
      intro c member
      have high := text_printable library event member
      exact beq_eq_false_iff_ne.mpr fun same => absurd (same ▸ high) (by decide)
    rw [flatMap_cons, map_cons, ← ih]
    conv_lhs => rw [UsageEvent.line, append_assoc, singleton_append]
    exact cutLines_plain plain rfl fun carriage => absurd carriage.1 (by decide)

theorem file_joined (current : Int) (counts : Counts) (events : List UsageEvent) :
    counts.file library current (joined library events) = (events.map (UsageEvent.line library)).foldl (Counts.line library current) counts := by
  rw [Counts.file, joined_eq, decodeUtf8_encodeUtf8]
  dsimp only
  rw [universalNewlines_plain (lines_plain library events), cutLines_lines]

theorem files_joined (current : Int) (counts : Counts) (held : List (List UsageEvent)) :
    (held.map (joined library)).foldl (Counts.file library current) counts =
      counts.file library current (joined library held.flatten) := by
  induction held generalizing counts with
  | nil => rw [map_nil, foldl_nil, flatten_nil, file_joined, map_nil, foldl_nil]
  | cons piece rest ih =>
    rw [map_cons, foldl_cons, ih, file_joined, file_joined, file_joined, flatten_cons, map_append, foldl_append]

theorem flatten_joined (held : List (List UsageEvent)) : (held.map (joined library)).flatten = joined library held.flatten := by
  induction held with
  | nil => rfl
  | cons piece rest ih => rw [map_cons, flatten_cons, ih, flatten_cons, joined, joined, joined, flatMap_append]

end

def undivided (bytes : Bytes) : Folder := AList.insert currentName bytes ∅

theorem usageFiles_undivided (listing : Listing) (bytes : Bytes) : usageFiles listing (undivided bytes) = [currentName] := by
  have keys : listing.names (undivided bytes) = [currentName] := perm_singleton.mp (listing.every (undivided bytes))
  have present : (AList.lookup currentName (undivided bytes)).isSome = true := by
    rw [undivided, AList.lookup_insert, Option.isSome_some]
  have rotated : rotatedNames listing (undivided bytes) = [] := by
    have none : [currentName].filterMap (fun name => (rotatedIndex name).map fun index => (index, name)) = [] := by
      simp [rotatedIndex_currentName]
    rw [rotatedNames, keys, none]
    exact mergeSort_nil
  rw [usageFiles, rotated, if_pos present]
  rfl

theorem summarize_undivided (library : UsageLibrary) (listing : Listing) (bytes : Bytes) (current : Int) :
    summarize library listing (undivided bytes) current = (Counts.zero.file library current bytes).summary current := by
  have content : (undivided bytes).content currentName = bytes := by
    rw [Folder.content, undivided, AList.lookup_insert, Option.getD_some]
  rw [summarize, usageFiles_undivided, map_singleton, foldl_cons, foldl_nil, content]

/-- At every moment the log holds the last of the recorded lines, whole and in order, each file within the limit or of one line, and the
evaluation reads it as one file. -/
theorem rotation_keeps_suffix (library : UsageLibrary) (listing : Listing) {maxBytes keep : Nat} (kept : 0 < keep) {folder : Folder}
    {events : List UsageEvent} (recorded : Recorded library maxBytes keep folder events) :
    usageFiles listing folder = oldestFirst keep folder ∧ (∀ name ∈ folder, name ∈ oldestFirst keep folder) ∧
      (∃ held : List (List UsageEvent), (oldestFirst keep folder).map folder.content = held.map (joined library) ∧ held.flatten <:+ events ∧
        ∀ piece ∈ held, (joined library piece).length ≤ maxBytes ∨ ∃ event, piece = [event]) ∧
      ∀ current, summarize library listing folder current =
        summarize library listing (undivided ((oldestFirst keep folder).map folder.content).flatten) current := by
  obtain ⟨slots, laid, suffixed⟩ := recorded.suffixed kept
  have files := usageFiles_laid laid listing
  have contents := contents_laid laid keep
  refine ⟨files, ?_, ⟨pieces slots keep, contents, suffixed.last, suffixed.fits⟩, ?_⟩
  · intro name member
    obtain ⟨index, rfl⟩ := laid.names name member
    have present := AList.lookup_isSome.mpr member
    have low : index ≤ keep := by
      by_contra high
      rw [present_iff laid, laid.high index (by omega)] at present
      cases present
    exact List.mem_filter.mpr ⟨mem_namesFrom low, present⟩
  · intro current
    rw [summarize_undivided, summarize, files, oldestFirst, contents, files_joined, flatten_joined]

def visit : UsageEvent := ⟨0, "documents.get", some "https://example.com/page", none, by decide⟩

def visitLibrary : UsageLibrary where
  isoText instant := if instant = 0 then "1970-01-01T00:00:00Z" else ""
  modelValidate
    | .object [("timestamp", .string "1970-01-01T00:00:00Z"), ("api", .string "documents.get"), ("target_uri", .string "https://example.com/page")] =>
      some visit
    | _ => none
  linesBefore _ := []

/-- Three visits, each in a file of its own, of which two are kept. -/
theorem rotation_keeps_suffix_visits :
    ∃ held : List (List UsageEvent),
      (oldestFirst 1 (append 1 1 (visit.payload visitLibrary) (append 1 1 (visit.payload visitLibrary)
        (append 1 1 (visit.payload visitLibrary) ∅)))).map
          (Folder.content (append 1 1 (visit.payload visitLibrary) (append 1 1 (visit.payload visitLibrary)
            (append 1 1 (visit.payload visitLibrary) ∅)))) = held.map (joined visitLibrary) ∧
        held.flatten <:+ [visit, visit, visit] ∧ ∀ piece ∈ held, (joined visitLibrary piece).length ≤ 1 ∨ ∃ event, piece = [event] :=
  (rotation_keeps_suffix visitLibrary ⟨AList.keys, fun _ => List.Perm.refl _⟩ (by decide)
    (.appended visit (.appended visit (.appended visit .nothing)))).2.2.1

end Workctx.Usage
