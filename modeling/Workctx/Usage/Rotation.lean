import Workctx.Durable.Slots
import Workctx.Usage.Evaluation

/-! The rotated log holds the last of the recorded events. -/

namespace Workctx.Usage
open Workctx.Text Workctx.Json Workctx.Domain Workctx.Search Workctx.Durable Workctx.Durable.Slots List

/-! The names of the files. -/

/-- The file of a slot: the current file is the slot 0. -/
def logName : Nat → String
  | 0 => currentName
  | index + 1 => rotatedName (index + 1)

theorem rotatedIndex_rotatedName (index : Nat) : rotatedIndex (rotatedName index) = some index := by
  have spelled : (rotatedName index).toList = (currentName ++ ".").toList ++ Nat.toDigits 10 index := by
    rw [rotatedName, String.toList_append, Nat.toString_eq_repr, Nat.toList_repr]
  have opens : (currentName ++ ".").toList.isPrefixOf (rotatedName index).toList = true := by
    rw [spelled]
    exact isPrefixOf_iff_prefix.mpr (prefix_append _ _)
  have digits : (Nat.toDigits 10 index).all isDigit = true :=
    all_eq_true.mpr fun c member => isDigit_of_mem_toDigits member
  rw [rotatedIndex, if_pos opens, spelled, drop_left, if_pos ⟨Nat.toDigits_ne_nil, digits⟩, Nat.ofDigitChars_ten_toDigits]

theorem rotatedIndex_currentName : rotatedIndex currentName = none := by decide

theorem logName_injective {one two : Nat} (same : logName one = logName two) : one = two := by
  have numbers := congrArg rotatedIndex same
  cases one with
  | zero =>
    cases two with
    | zero => rfl
    | succ two =>
      rw [logName, logName, rotatedIndex_currentName, rotatedIndex_rotatedName] at numbers
      cases numbers
  | succ one =>
    cases two with
    | zero =>
      rw [logName, logName, rotatedIndex_currentName, rotatedIndex_rotatedName] at numbers
      cases numbers
    | succ two =>
      rw [logName, logName, rotatedIndex_rotatedName, rotatedIndex_rotatedName] at numbers
      exact Option.some.inj numbers

/-! The directory as slots. -/

section
variable (library : UsageLibrary)

def joined (events : List UsageEvent) : Bytes := events.flatMap fun event => event.payload library

structure Laid (keep : Nat) (folder : Folder) (slots : Slots UsageEvent) : Prop where
  shows : ∀ index, folder.lookup (logName index) = (slots index).map (joined library)
  high : ∀ index, keep < index → slots index = none
  names : ∀ name ∈ folder, ∃ index, name = logName index

variable {library} {keep : Nat} {folder : Folder} {slots : Slots UsageEvent}

theorem Laid.nothing : Laid library keep ∅ empty where
  shows _ := AList.lookup_empty _
  high _ _ := rfl
  names name member := absurd member (AList.notMem_empty name)

section
variable (laid : Laid library keep folder slots)
include laid

theorem Laid.content (index : Nat) :
    folder.content (logName index) = joined library ((slots index).getD []) := by
  rw [Folder.content, laid.shows]
  cases slots index with
  | none => rfl
  | some piece => rfl

theorem Laid.erase (index : Nat) :
    Laid library keep (AList.erase (logName index) folder) (vacate slots index) where
  shows other := by
    by_cases same : other = index
    · rw [same, AList.lookup_erase, vacate_self, Option.map_none]
    · rw [AList.lookup_erase_ne fun names => same (logName_injective names), vacate_other slots same, laid.shows]
  high other above := by
    by_cases same : other = index
    · rw [same, vacate_self]
    · rw [vacate_other slots same, laid.high other above]
  names name member := laid.names name (AList.mem_erase.mp member).2

theorem Laid.write (events : List UsageEvent) :
    Laid library keep (folder.write (joined library events)) (extend slots events) where
  shows other := by
    unfold Folder.write
    cases other with
    | zero =>
      rw [logName, AList.lookup_insert, extend_first, Option.map_some, joined, joined, flatMap_append]
      congr 2
      exact laid.content 0
    | succ other =>
      have apart : logName (other + 1) ≠ currentName := fun same => Nat.succ_ne_zero other (@logName_injective (other + 1) 0 same)
      rw [AList.lookup_insert_ne apart, extend_other slots events (Nat.succ_ne_zero other), laid.shows]
  high other above := by
    rw [extend_other slots events (by omega), laid.high other above]
  names name member := by
    unfold Folder.write at member
    cases (AList.mem_insert folder).mp member with
    | inl same => exact ⟨0, same⟩
    | inr inside => exact laid.names name inside

theorem Laid.replace {index : Nat} (below : index < keep) (free : slots (index + 1) = none) :
    Laid library keep (folder.replace (logName index) (logName (index + 1))) (shift slots index) := by
  unfold Folder.replace
  cases held : slots index with
  | none =>
    rw [laid.shows, held, Option.map_none]
    rw [shift_free held free]
    exact laid
  | some piece =>
    rw [laid.shows, held, Option.map_some]
    have apart : logName index ≠ logName (index + 1) := fun same => absurd (logName_injective same) (by omega)
    constructor
    · intro other
      by_cases low : other = index
      · rw [low, AList.lookup_insert_ne apart, AList.lookup_erase, shift_from, Option.map_none]
      by_cases high : other = index + 1
      · rw [high, AList.lookup_insert, shift_into, held, Option.map_some]
      · rw [AList.lookup_insert_ne fun same => high (logName_injective same),
          AList.lookup_erase_ne fun same => low (logName_injective same), shift_other slots low high, laid.shows]
    · intro other above
      rw [shift_other slots (by omega) (by omega), laid.high other above]
    · intro name member
      cases (AList.mem_insert _).mp member with
      | inl same => exact ⟨index + 1, same⟩
      | inr inside => exact laid.names name (AList.mem_erase.mp inside).2

/-- A file that is not there makes no difference: it need not be moved. -/
theorem Laid.moved {index : Nat} (below : index < keep) (free : slots (index + 1) = none) :
    Laid library keep
      (if (folder.lookup (logName index)).isSome then folder.replace (logName index) (logName (index + 1)) else folder)
      (shift slots index) := by
  split
  · exact laid.replace below free
  · next absent =>
    have vacant : slots index = none := by
      rw [laid.shows, Option.isSome_map] at absent
      exact Option.not_isSome_iff_eq_none.mp absent
    rw [shift_free vacant free]
    exact laid

theorem Laid.freed (index : Nat) :
    Laid library keep (if (folder.lookup (logName index)).isSome then AList.erase (logName index) folder else folder) (vacate slots index) := by
  split
  · exact laid.erase index
  · next absent =>
    have vacant : slots index = none := by
      rw [laid.shows, Option.isSome_map] at absent
      exact Option.not_isSome_iff_eq_none.mp absent
    rw [vacate_free vacant]
    exact laid

/-! One rotation. -/

theorem mem_shiftMoments {index : Nat} {moment : Folder} (below : index < keep)
    (free : slots (index + 1) = none) (member : moment ∈ shiftMoments index folder) :
    ∃ slots', Laid library keep moment slots' ∧ pieces slots' keep = pieces slots keep := by
  induction index generalizing folder slots with
  | zero =>
    rw [shiftMoments, mem_singleton] at member
    rw [member]
    exact ⟨shift slots 0, laid.replace below free, pieces_shift free below⟩
  | succ index ih =>
    rw [shiftMoments] at member
    have moved := laid.moved below free
    have same := pieces_shift free below
    cases mem_cons.mp member with
    | inl here => exact ⟨shift slots (index + 1), here ▸ moved, same⟩
    | inr later =>
      obtain ⟨slots', laid', same'⟩ := ih moved (by omega) (shift_from slots (index + 1)) later
      exact ⟨slots', laid', same'.trans same⟩

theorem last_shiftMoments {index : Nat} (below : index < keep) (free : slots (index + 1) = none) :
    ∃ moment slots', (shiftMoments index folder).getLast? = some moment ∧ Laid library keep moment slots' ∧ slots' 0 = none ∧
      pieces slots' keep = pieces slots keep := by
  induction index generalizing folder slots with
  | zero => exact ⟨_, shift slots 0, rfl, laid.replace below free, shift_from slots 0, pieces_shift free below⟩
  | succ index ih =>
    obtain ⟨moment, slots', last, laid', vacant, same⟩ := ih (laid.moved below free) (by omega) (shift_from slots (index + 1))
    refine ⟨moment, slots', ?_, laid', vacant, same.trans (pieces_shift free below)⟩
    rw [logName] at last
    rw [shiftMoments, getLast?_cons]
    exact congrArg (fun found => some (Option.getD found _)) last

end

theorem mem_rotateMoments {moment : Folder} (kept : 0 < keep) (laid : Laid library keep folder slots)
    (member : moment ∈ rotateMoments keep folder) :
    ∃ slots', Laid library keep moment slots' ∧ pieces slots' keep = pieces (vacate slots keep) keep := by
  obtain ⟨index, rfl⟩ := Nat.exists_eq_succ_of_ne_zero (Nat.pos_iff_ne_zero.mp kept)
  have freed := laid.freed (index + 1)
  cases mem_cons.mp member with
  | inl here => exact ⟨vacate slots (index + 1), here ▸ freed, rfl⟩
  | inr later => exact mem_shiftMoments freed (Nat.lt_succ_self index) (vacate_self slots (index + 1)) later

theorem last_rotateMoments (kept : 0 < keep) (laid : Laid library keep folder slots) :
    ∃ moment slots', (rotateMoments keep folder).getLast? = some moment ∧ Laid library keep moment slots' ∧ slots' 0 = none ∧
      pieces slots' keep = pieces (vacate slots keep) keep := by
  obtain ⟨index, rfl⟩ := Nat.exists_eq_succ_of_ne_zero (Nat.pos_iff_ne_zero.mp kept)
  obtain ⟨moment, slots', last, laid', vacant, same⟩ :=
    last_shiftMoments (laid.freed (index + 1)) (Nat.lt_succ_self index) (vacate_self slots (index + 1))
  refine ⟨moment, slots', ?_, laid', vacant, same⟩
  rw [logName] at last
  rw [rotateMoments, getLast?_cons]
  exact congrArg (fun found => some (Option.getD found _)) last

end

/-! The whole log. -/

section
variable (library : UsageLibrary) (maxBytes keep : Nat)

def Fits (piece : List UsageEvent) : Prop := (joined library piece).length ≤ maxBytes ∨ ∃ event, piece = [event]

/-- The slots hold the last of the events, each file within the limit. -/
structure Suffixed (slots : Slots UsageEvent) (events : List UsageEvent) : Prop where
  last : (pieces slots keep).flatten <:+ events
  fits : ∀ piece ∈ pieces slots keep, Fits library maxBytes piece

variable {library maxBytes keep} {folder : Folder} {slots : Slots UsageEvent} {events : List UsageEvent}

theorem Suffixed.vacate (suffixed : Suffixed library maxBytes keep slots events) (kept : 0 < keep) {slots' : Slots UsageEvent}
    (same : pieces slots' keep = pieces (Slots.vacate slots keep) keep) : Suffixed library maxBytes keep slots' events where
  last := by
    obtain ⟨index, rfl⟩ := Nat.exists_eq_succ_of_ne_zero (Nat.pos_iff_ne_zero.mp kept)
    rw [same]
    exact (pieces_vacate slots index).trans suffixed.last
  fits piece member := by
    rw [same] at member
    exact suffixed.fits piece (mem_pieces_vacate member)

theorem Suffixed.extend (suffixed : Suffixed library maxBytes keep slots events) {added : List UsageEvent}
    (fits : Fits library maxBytes ((slots 0).getD [] ++ added)) : Suffixed library maxBytes keep (Slots.extend slots added) (events ++ added) where
  last := by
    rw [pieces_extend]
    obtain ⟨front, whole⟩ := suffixed.last
    exact ⟨front, by rw [← append_assoc, whole]⟩
  fits piece member := by
    cases mem_pieces_extend member with
    | inl newest => exact newest ▸ fits
    | inr before => exact suffixed.fits piece before

theorem payload_pos (library : UsageLibrary) (event : UsageEvent) : 0 < (event.payload library).length := by
  rw [UsageEvent.payload, length_append, length_singleton]
  exact Nat.succ_pos _

theorem joined_eq_nil {events : List UsageEvent} (empty : (joined library events).length = 0) : events = [] := by
  cases events with
  | nil => rfl
  | cons event rest =>
    rw [joined, flatMap_cons, length_append] at empty
    have positive := payload_pos library event
    omega

theorem fits_slot (suffixed : Suffixed library maxBytes keep slots events) : Fits library maxBytes ((slots 0).getD []) := by
  cases held : slots 0 with
  | none => exact Or.inl (Nat.zero_le maxBytes)
  | some piece => exact suffixed.fits piece (mem_pieces.mpr ⟨0, Nat.zero_le keep, held⟩)

/-- Where the file is opened there is room for the line, or no line is in it. -/
theorem roomMade_suffixed (kept : 0 < keep) (laid : Laid library keep folder slots) (suffixed : Suffixed library maxBytes keep slots events)
    (event : UsageEvent) :
    ∃ slots', Laid library keep (roomMade maxBytes keep (event.payload library) folder) slots' ∧
      Suffixed library maxBytes keep slots' events ∧ Fits library maxBytes ((slots' 0).getD [] ++ [event]) := by
  have size : (folder.content currentName).length = (joined library ((slots 0).getD [])).length :=
    congrArg List.length (laid.content 0)
  unfold roomMade makeRoom
  dsimp only
  split
  · obtain ⟨moment, slots', last, laid', vacant, same⟩ := last_rotateMoments kept laid
    rw [last, Option.getD_some]
    refine ⟨slots', laid', suffixed.vacate kept same, Or.inr ⟨event, ?_⟩⟩
    rw [vacant]
    rfl
  · next room =>
    refine ⟨slots, laid, suffixed, ?_⟩
    rw [size] at room
    by_cases empty : (joined library ((slots 0).getD [])).length = 0
    · rw [joined_eq_nil empty]
      exact Or.inr ⟨event, rfl⟩
    · have within : (joined library ((slots 0).getD [])).length + (event.payload library).length ≤ maxBytes := by
        omega
      left
      rw [joined, flatMap_append, length_append]
      simpa [joined] using within

theorem mem_appendMoments (kept : 0 < keep) (laid : Laid library keep folder slots) (suffixed : Suffixed library maxBytes keep slots events)
    (event : UsageEvent) {moment : Folder} (member : moment ∈ appendMoments maxBytes keep (event.payload library) folder) :
    ∃ slots', Laid library keep moment slots' ∧ Suffixed library maxBytes keep slots' events := by
  cases mem_append.mp member with
  | inl rotating =>
    unfold makeRoom at rotating
    dsimp only at rotating
    split at rotating
    · obtain ⟨slots', laid', same⟩ := mem_rotateMoments kept laid rotating
      exact ⟨slots', laid', suffixed.vacate kept same⟩
    · cases rotating
  | inr opened =>
    obtain ⟨slots', laid', suffixed', _⟩ := roomMade_suffixed kept laid suffixed event
    have again : Suffixed library maxBytes keep (extend slots' []) (events ++ []) := suffixed'.extend (by
      rw [append_nil]
      exact fits_slot suffixed')
    rw [append_nil] at again
    rw [mem_singleton.mp opened]
    exact ⟨extend slots' [], laid'.write [], again⟩

/-- In every directory that comes about, the files hold the last of the recorded events. -/
theorem Recorded.suffixed (kept : 0 < keep) (recorded : Recorded library maxBytes keep folder events) :
    ∃ slots, Laid library keep folder slots ∧ Suffixed library maxBytes keep slots events := by
  induction recorded with
  | nothing =>
    refine ⟨empty, Laid.nothing, ⟨?_, fun piece member => ?_⟩⟩
    · rw [pieces_empty]
      exact suffix_refl []
    · rw [pieces_empty] at member
      cases member
  | meanwhile event before step ih =>
    obtain ⟨slots, laid, suffixed⟩ := ih
    exact mem_appendMoments kept laid suffixed event step
  | appended event before ih =>
    obtain ⟨slots, laid, suffixed⟩ := ih
    obtain ⟨slots', laid', suffixed', fits⟩ := roomMade_suffixed kept laid suffixed event
    refine ⟨extend slots' [event], ?_, suffixed'.extend fits⟩
    have one : joined library [event] = event.payload library := by
      rw [joined, flatMap_singleton]
    have written := laid'.write [event]
    rwa [one] at written

end
end Workctx.Usage
