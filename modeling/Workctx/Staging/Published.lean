import Mathlib.Data.List.Nodup
import Workctx.Staging.Lattice

/-! A whole transaction: wherever an attempt in either direction stops, every operation of the
published intent keeps one of its shapes and the rest of the disk is as it was. -/

namespace Workctx.Staging
open Workctx.Durable Workctx.Text Workctx.Domain List

namespace Plan
variable {workspace : Workspace} (plan : Plan workspace)

def Region : File → Prop
  | .canonical path => path ∈ plan.paths
  | .asset directory _ => directory = plan.directory
  | .intent => False

def Shapes (disk : Disk) : Prop :=
  ∀ entry ∈ plan.operations.zipIdx, entry.1.Holds disk plan.directory entry.2

structure Steady (start disk : Disk) : Prop where
  agrees : Agrees plan.Region start disk
  shapes : plan.Shapes disk

/-- No parent of an addressed path is a context of its own. -/
def Opened (disk : Disk) : Prop := ∀ path ∈ plan.paths, nestedContext disk path = false

def Flat : Prop := ∀ path ∈ plan.paths, path ∉ contextMarkers path

/-- Every operation has reached its postimage, as far as the hashes tell. -/
def Applied (disk : Disk) : Prop :=
  ∀ planned ∈ plan.operations, applied workspace disk (planned.operation workspace.platform) = true

def Undone (disk : Disk) : Prop := ∀ planned ∈ plan.operations, planned.Undone disk

def Done (disk : Disk) : Prop := ∀ planned ∈ plan.operations, planned.Done disk

variable {plan} {start disk other : Disk}

variable {entry : Planned × Nat} {planned : Planned} {total : Prop} {expectedNonce : Option String}

theorem mem_of_mem_zipIdx (member : entry ∈ plan.operations.zipIdx) : entry.1 ∈ plan.operations :=
  fst_mem_of_mem_zipIdx member

theorem region_of_touches (member : entry ∈ plan.operations.zipIdx) {file : File}
    (touched : entry.1.Touches plan.directory entry.2 file) : plan.Region file := by
  cases file with
  | canonical path => exact mem_paths (mem_of_mem_zipIdx member) touched
  | asset directory name => exact touched.1
  | intent => exact touched

theorem paths_nodup : plan.paths.Nodup := List.Nodup.of_map _ plan.distinct

theorem operation_paths_nodup (member : planned ∈ plan.operations) : planned.paths.Nodup :=
  (nodup_flatMap.mp plan.paths_nodup).1 planned member

theorem apart {one two : Planned × Nat} (first : one ∈ plan.operations.zipIdx) (second : two ∈ plan.operations.zipIdx)
    (different : one.2 ≠ two.2) {file : File} (touched : one.1.Touches plan.directory one.2 file) :
    ¬two.1.Touches plan.directory two.2 file := by
  intro both
  cases file with
  | canonical path =>
    have disjoint := (nodup_flatMap.mp plan.paths_nodup).2
    have left := mem_zipIdx_iff_getElem?.mp first
    have right := mem_zipIdx_iff_getElem?.mp second
    obtain ⟨leftBound, leftAt⟩ := List.getElem?_eq_some_iff.mp left
    obtain ⟨rightBound, rightAt⟩ := List.getElem?_eq_some_iff.mp right
    rw [pairwise_iff_getElem] at disjoint
    rcases Nat.lt_or_gt_of_ne different with less | more
    · have meet := disjoint one.2 two.2 leftBound rightBound less
      rw [leftAt, rightAt] at meet
      exact meet touched both
    · have meet := disjoint two.2 one.2 rightBound leftBound more
      rw [leftAt, rightAt] at meet
      exact meet both touched
  | asset directory name =>
    obtain ⟨_, one'⟩ := touched
    obtain ⟨_, two'⟩ := both
    rcases one' with same | same | same | ⟨token, same⟩ <;> rw [same] at two' <;>
      simp_all [eq_comm]
  | intent => exact touched

theorem Steady.step (steady : plan.Steady start disk) {entry : Planned × Nat} (member : entry ∈ plan.operations.zipIdx)
    (stable : Stable disk plan.directory entry.2 entry.1 other) : plan.Steady start other := by
  have agrees : Agrees plan.Region disk other :=
    ⟨fun file outside => stable.agrees.files file fun touched => outside (region_of_touches member touched),
      stable.agrees.directories, stable.agrees.lock, stable.agrees.ledger⟩
  refine ⟨steady.agrees.trans agrees, fun second inside => ?_⟩
  by_cases same : entry.2 = second.2
  · have entries : entry = second := by
      refine Prod.ext ?_ same
      have left := mem_zipIdx_iff_getElem?.mp member
      have right := mem_zipIdx_iff_getElem?.mp inside
      rw [same, right, Option.some.injEq] at left
      exact left.symm
    rw [← entries]
    exact stable.holds
  · refine (steady.shapes second inside).congr fun file touched => ?_
    exact stable.agrees.files file (apart inside member (Ne.symm same) touched)

theorem Steady.refl (shapes : plan.Shapes disk) : plan.Steady disk disk := ⟨Agrees.refl _ _, shapes⟩

theorem opened_of_entry (opened : plan.Opened disk) (member : planned ∈ plan.operations) :
    Open disk planned := fun path inside => opened path (mem_paths member inside)

/-- The rule for both loops. A round starts with its own files as they were at the beginning,
and what the earlier rounds reached depends on their own files only. -/
theorem eachOperation_triple {lock : String}
    (body : Planned × Nat → Action Unit) (Goal : Planned × Nat → Disk → Prop) (entries : List (Planned × Nat))
    (within : ∀ entry ∈ entries, entry ∈ plan.operations.zipIdx) (indexed : (entries.map Prod.snd).Nodup)
    (local_ : ∀ entry ∈ entries, ∀ disk other, (∀ file, entry.1.Touches plan.directory entry.2 file →
      other.files file = disk.files file) → Goal entry disk → Goal entry other)
    (shapes : plan.Shapes start)
    (ready : total → Fenced lock expectedNonce start ∧ start.directories plan.directory = true ∧ plan.Opened start)
    (opens : total → ∀ entry ∈ entries, ∀ disk other, plan.Opened disk → plan.Steady start other →
      Stable disk plan.directory entry.2 entry.1 other → Goal entry other → plan.Opened other)
    (each : ∀ entry ∈ entries, ∀ disk, entry.1.Holds disk plan.directory entry.2 →
      (total → Ready lock expectedNonce plan.directory entry.1 disk ∧ ∀ file,
        entry.1.Touches plan.directory entry.2 file → disk.files file = start.files file) →
      Triple total (fun now => now = disk) (body entry)
        (fun _ now => Stable disk plan.directory entry.2 entry.1 now ∧ Goal entry now)
        (Stable disk plan.directory entry.2 entry.1)) :
    Triple total (fun disk => disk = start) (Program.forEach body entries)
      (fun _ disk => plan.Steady start disk ∧ ∀ entry ∈ entries, Goal entry disk) (plan.Steady start) := by
  let inv (before after : List (Planned × Nat)) (disk : Disk) : Prop :=
    plan.Steady start disk ∧ (∀ entry ∈ before, Goal entry disk) ∧
      (∀ entry ∈ after, ∀ file, entry.1.Touches plan.directory entry.2 file → disk.files file = start.files file) ∧
      (total → plan.Opened disk)
  have loop : Triple total (inv [] entries) (Program.forEach body entries) (fun _ => inv entries []) (plan.Steady start) := by
    refine Triple.forEach entries fun before entry after split => Triple.of_each fun disk now => ?_
    obtain ⟨steady, reached, fresh, opened⟩ := now
    have member : entry ∈ entries := by rw [split]; simp
    have inside := within entry member
    have facts : total → Ready lock expectedNonce plan.directory entry.1 disk ∧ ∀ file,
        entry.1.Touches plan.directory entry.2 file → disk.files file = start.files file := by
      intro must
      obtain ⟨fenced, present, _⟩ := ready must
      refine ⟨⟨⟨steady.agrees.lock.trans fenced.held, fenced.owner⟩, ?_, ?_⟩, fresh entry mem_cons_self⟩
      · exact opened_of_entry (opened must) (mem_of_mem_zipIdx inside)
      · rw [steady.agrees.directories]
        exact present
    refine (each entry member disk (steady.shapes entry inside) facts).weaken (fun _ => id) ?_ fun _ stable =>
      steady.step inside stable
    intro _ later finished
    obtain ⟨stable, goal⟩ := finished
    have next := steady.step inside stable
    have unchanged : ∀ second ∈ before ++ after, ∀ file, second.1.Touches plan.directory second.2 file →
        later.files file = disk.files file := by
      intro second elsewhere file touched
      refine stable.agrees.files file (apart (within second ?_) inside ?_ touched)
      · rw [split]
        rcases mem_append.mp elsewhere with left | right
        · exact mem_append_left _ left
        · exact mem_append_right _ (mem_cons_of_mem _ right)
      · rw [split, map_append, map_cons] at indexed
        have apart' := nodup_middle.mp indexed
        intro same
        refine (nodup_cons.mp apart').1 ?_
        rw [← map_append, ← same]
        exact mem_map_of_mem elsewhere
    refine ⟨next, ?_, ?_, fun must => opens must entry member disk later (opened must) next stable goal⟩
    · intro second earlier
      rcases mem_append.mp earlier with earlier | same
      · have there : second ∈ entries := by rw [split]; exact mem_append_left _ earlier
        exact local_ second there disk later (unchanged second (mem_append_left _ earlier)) (reached second earlier)
      · rw [mem_singleton.mp same]
        exact goal
    · intro second waiting file touched
      rw [unchanged second (mem_append_right _ waiting) file touched]
      exact fresh second (mem_cons_of_mem _ waiting) file touched
  refine loop.weaken (fun disk same => ?_) (fun _ _ now => ⟨now.1, now.2.1⟩) fun _ => id
  rw [same]
  exact ⟨Steady.refl shapes, by simp, fun _ _ _ _ => rfl, fun must => (ready must).2.2⟩

theorem zipIdx_validated : plan.validated.operations.zipIdx =
    plan.operations.zipIdx.map fun entry => (entry.1.operation workspace.platform, entry.2) := by
  rw [validated, zipIdx_map]
  rfl

theorem zipIdx_indices_nodup : (plan.operations.zipIdx.map Prod.snd).Nodup := by
  rw [zipIdx_map_snd]
  exact nodup_range' 1

theorem regular_of_entry (member : planned ∈ plan.operations) :
    ∀ path ∈ planned.paths, workspace.Regular path := fun path inside => plan.regular path (mem_paths member inside)

theorem applied_congr (same : ∀ path ∈ planned.paths, other.canonical path = disk.canonical path) :
    applied workspace other (planned.operation workspace.platform) =
      applied workspace disk (planned.operation workspace.platform) := by
  have target : other.canonical (planned.operation workspace.platform).target =
      disk.canonical (planned.operation workspace.platform).target := by
    rw [Planned.operation_target]
    exact same planned.target (Planned.target_mem_paths planned)
  unfold applied
  rw [target]
  cases planned with
  | replace path preimage postimage => rfl
  | move source destination content =>
    have arrival := same destination (by simp [Planned.paths, Planned.destination])
    simp only [Planned.operation, arrival]
  | delete path preimage => rfl

theorem restored_congr {directory : String} {index : Nat}
    (same : ∀ file, planned.Touches directory index file → other.files file = disk.files file)
    (reached : planned.Restored disk directory index) : planned.Restored other directory index := by
  refine ⟨(Planned.undone_congr fun path inside => same (.canonical path) inside).mpr reached.undone, ?_⟩
  have stocked := reached.stocked
  cases planned with
  | replace target preimage postimage => exact (same (.asset directory (.stage index)) ⟨rfl, .inl rfl⟩).trans stocked
  | move source destination content => trivial
  | delete target preimage => trivial

theorem requireNoConflict_triple (shapes : plan.Shapes start)
    (ready : total → start.directories plan.directory = true ∧ plan.Opened start) :
    Triple total (fun disk => disk = start) (requireNoConflict workspace plan.validated) (fun _ disk => disk = start)
      (fun disk => disk = start) := by
  unfold requireNoConflict
  rw [zipIdx_validated]
  refine Triple.forEach_keep _ fun entry member => ?_
  obtain ⟨⟨planned, index⟩, inside, same⟩ := mem_map.mp member
  subst same
  have regular := regular_of_entry (mem_of_mem_zipIdx inside)
  have holds := shapes _ inside
  refine Triple.bind (Triple.check_keep (fun _ => id) ?_) fun snapshot => ?_
  · intro must disk same
    rw [same]
    obtain ⟨present, opened⟩ := ready must
    exact ⟨_, snapshot_exists regular holds (opened_of_entry opened (mem_of_mem_zipIdx inside)) present⟩
  · refine (Triple.ensure_keep (fun _ seen => seen.1) ?_).ensuring (fun _ _ kept => kept.1.1)
    intro must disk seen
    have found := seen.2
    rw [seen.1] at found
    have same := snapshot_of_ok regular holds found
    rw [same]
    simp only [Planned.snapshot, Planned.state]
    split <;> rfl

theorem marker_absent (opened : plan.Opened disk) {path marker : String} (member : path ∈ plan.paths)
    (marks : marker ∈ contextMarkers path) : disk.canonical marker = none := by
  have closed := opened path member
  rw [nestedContext, any_eq_false] at closed
  have absent := closed marker marks
  rw [Bool.not_eq_true, Option.isSome_eq_false_iff, Option.isNone_iff_eq_none] at absent
  exact absent

theorem opened_of_absent
    (absent : ∀ path ∈ plan.paths, ∀ marker ∈ contextMarkers path, disk.canonical marker = none) : plan.Opened disk := by
  intro path member
  rw [nestedContext, any_eq_false]
  intro marker marks
  rw [absent path member marker marks]
  decide

/-- Where no addressed path marks a context, no attempt closes a parent. -/
theorem opened_of_flat (flat : plan.Flat) (opened : plan.Opened start) (steady : plan.Steady start disk) :
    plan.Opened disk := by
  refine opened_of_absent fun path member marker marks => ?_
  have outside : marker ∉ plan.paths := fun inside => flat marker inside (contextMarkers_self marks)
  rw [Disk.canonical, steady.agrees.files (.canonical marker) outside]
  exact marker_absent opened member marks

/-- Bringing preimages back closes no parent: no existing file marked a context. -/
theorem opened_of_restored (inside : entry ∈ plan.operations.zipIdx) (opened : plan.Opened disk)
    (stable : Stable disk plan.directory entry.2 entry.1 other) (undone : entry.1.Undone other) : plan.Opened other := by
  refine opened_of_absent fun path member marker marks => ?_
  by_cases own : marker ∈ entry.1.paths
  · have plain := plan.plain entry.1 (mem_of_mem_zipIdx inside)
    have self := contextMarkers_self marks
    obtain ⟨planned, index⟩ := entry
    cases planned with
    | replace target preimage postimage =>
      rw [mem_singleton.mp own] at self ⊢
      exact undone.trans (plain self)
    | move source destination content =>
      rcases mem_cons.mp own with same | arrives
      · rw [same] at self
        cases plain self
      · rw [mem_singleton.mp arrives]
        exact undone.2
    | delete target preimage =>
      rw [mem_singleton.mp own] at self
      cases plain self
  · rw [Disk.canonical, stable.agrees.files (.canonical marker) own]
    exact marker_absent opened member marks

theorem applyValidated_triple {lock : String} (shapes : plan.Shapes start)
    (ready : total → Fenced lock expectedNonce start ∧ start.directories plan.directory = true ∧ plan.Opened start ∧
      plan.Flat) :
    Triple total (fun disk => disk = start) (applyValidated workspace lock expectedNonce plan.validated)
      (fun _ disk => plan.Steady start disk ∧ plan.Applied disk) (plan.Steady start) := by
  have begin : ∀ disk, disk = start → plan.Steady start disk := by
    intro disk same
    rw [same]
    exact Steady.refl shapes
  refine Triple.bind ((requireNoConflict_triple shapes fun must => ⟨(ready must).2.1, (ready must).2.2.1⟩).stopping
    begin) fun _ => ?_
  refine Triple.bind (verifyLock_triple begin fun must disk same => same ▸ (ready must).1) fun _ => ?_
  rw [zipIdx_validated, Program.forEach_map]
  refine (eachOperation_triple _ (fun entry disk => applied workspace disk (entry.1.operation workspace.platform) = true)
    _ (fun _ => id) zipIdx_indices_nodup ?_ shapes (fun must => ⟨(ready must).1, (ready must).2.1, (ready must).2.2.1⟩)
    ?_ ?_).ensuring ?_
  · intro entry _ disk other same reached
    rw [applied_congr fun path inside => same (.canonical path) inside]
    exact reached
  · intro must entry _ disk other _ steady _ _
    exact opened_of_flat (ready must).2.2.2 (ready must).2.2.1 steady
  · intro entry member disk holds facts
    have inside := mem_of_mem_zipIdx member
    exact applyOperation_triple (regular_of_entry inside) (operation_paths_nodup inside) holds fun must => (facts must).1
  · intro _ disk finished
    refine ⟨finished.1, fun planned member => ?_⟩
    obtain ⟨index, found⟩ := getElem?_of_mem member
    exact finished.2 (planned, index) (mem_zipIdx_iff_getElem?.mpr found)

theorem rollbackValidated_triple {lock : String} {tokens : Nat → String}
    (shapes : plan.Shapes start)
    (ready : total → Fenced lock expectedNonce start ∧ start.directories plan.directory = true ∧ plan.Opened start ∧
      ∀ index, start.files (.asset plan.directory (.rebuild index (tokens index))) = none) :
    Triple total (fun disk => disk = start) (rollbackValidated workspace lock expectedNonce tokens plan.validated)
      (fun _ disk => plan.Steady start disk ∧
        ∀ entry ∈ plan.operations.zipIdx, entry.1.Restored disk plan.directory entry.2) (plan.Steady start) := by
  have begin : ∀ disk, disk = start → plan.Steady start disk := by
    intro disk same
    rw [same]
    exact Steady.refl shapes
  refine Triple.bind ((requireNoConflict_triple shapes fun must => ⟨(ready must).2.1, (ready must).2.2.1⟩).stopping
    begin) fun _ => ?_
  refine Triple.bind (verifyLock_triple begin fun must disk same => same ▸ (ready must).1) fun _ => ?_
  rw [zipIdx_validated, ← map_reverse, Program.forEach_map]
  refine (eachOperation_triple _ (fun entry disk => entry.1.Restored disk plan.directory entry.2) _
    (fun _ => mem_reverse.mp) ?_ ?_ shapes (fun must => ⟨(ready must).1, (ready must).2.1, (ready must).2.2.1⟩)
    ?_ ?_).ensuring (fun _ _ finished => ⟨finished.1, fun entry member => finished.2 entry
      (mem_reverse.mpr member)⟩)
  · rw [map_reverse, nodup_reverse]
    exact zipIdx_indices_nodup
  · intro entry _ disk other same reached
    exact restored_congr same reached
  · intro _ entry member disk other opened _ stable reached
    exact opened_of_restored (mem_reverse.mp member) opened stable reached.undone
  · intro entry member disk holds facts
    have inside := mem_of_mem_zipIdx (mem_reverse.mp member)
    refine rollbackOperation_triple (regular_of_entry inside) (operation_paths_nodup inside) holds fun must => ?_
    obtain ⟨ready', fresh⟩ := facts must
    refine ⟨ready', ?_⟩
    exact (fresh _ (touches_asset (.inr (.inr (.inr ⟨_, rfl⟩))))).trans ((ready must).2.2.2 entry.2)

end Plan
end Workctx.Staging
