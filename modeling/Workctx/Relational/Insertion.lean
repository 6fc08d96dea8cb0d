import Mathlib.Data.List.Nodup
import Mathlib.Data.List.Pairwise

/-! Tables with keys, and the insertion of rows one after another. -/

namespace Workctx.Relational
open List

/-- A row of a table: its values by their columns. -/
structure Row (τ α : Type) where
  table : τ
  cells : List (String × α)

/-- What the tables require of their rows. -/
structure Schema (τ α : Type) where
  /-- Whether a value can be stored. -/
  storable : α → Bool
  isNull : α → Bool
  /-- The columns that are not null -/
  required : τ → List String
  /-- The primary and the unique keys -/
  keys : τ → List (List String)
  /-- The foreign keys: the columns, and the table and the key that they refer to. -/
  references : τ → List (List String × τ × List String)

section
variable {τ α : Type}

def Row.cell (row : Row τ α) (column : String) : Option α := row.cells.lookup column

def Row.project (row : Row τ α) (columns : List String) : List (Option α) := columns.map row.cell

variable [DecidableEq τ] [DecidableEq α] (schema : Schema τ α)

def clashes (row other : Row τ α) : Bool :=
  decide (row.table = other.table) && (schema.keys row.table).any fun key => decide (row.project key = other.project key)

def refers (rows : List (Row τ α)) (row : Row τ α) (reference : List String × τ × List String) : Bool :=
  rows.any fun other => decide (other.table = reference.2.1) && decide (other.project reference.2.2 = row.project reference.1)

def fits (row : Row τ α) : Bool :=
  (row.cells.all fun cell => schema.storable cell.2) &&
    (schema.required row.table).all fun column => (row.cell column).any fun cell => !schema.isNull cell

def admits (rows : List (Row τ α)) (row : Row τ α) : Bool :=
  fits schema row && (rows.all fun other => !clashes schema other row) && (schema.references row.table).all (refers rows row)

def insertAll : List (Row τ α) → List (Row τ α) → Option (List (Row τ α))
  | rows, [] => some rows
  | rows, row :: rest => if admits schema rows row then insertAll (rows ++ [row]) rest else none

def Founded : List (Row τ α) → List (Row τ α) → Prop
  | _, [] => True
  | known, row :: rest => (∀ reference ∈ schema.references row.table, refers known row reference = true) ∧ Founded (known ++ [row]) rest

end

section
variable {τ α : Type} [DecidableEq τ] [DecidableEq α] {schema : Schema τ α} {known rows : List (Row τ α)} {row : Row τ α}

/-- Rows are inserted if and only if each of them fits, no two have a key in common, and each refers to what is there before it. -/
theorem insertAll_iff : insertAll schema known rows = some (known ++ rows) ↔
    (∀ row ∈ rows, fits schema row = true) ∧ (∀ old ∈ known, ∀ row ∈ rows, clashes schema old row = false) ∧
      (rows.Pairwise fun row other => clashes schema row other = false) ∧ Founded schema known rows := by
  induction rows generalizing known with
  | nil => simp [insertAll, Founded]
  | cons row rest ih =>
    rw [insertAll]
    by_cases taken : admits schema known row = true
    · rw [if_pos taken, append_cons known row rest, ih]
      unfold admits at taken
      simp only [Bool.and_eq_true, all_eq_true, Bool.not_eq_true'] at taken
      obtain ⟨⟨fit, free⟩, referred⟩ := taken
      rw [forall_mem_cons, pairwise_cons, Founded]
      constructor
      · rintro ⟨fitting, apart, pairwise, founded⟩
        refine ⟨⟨fit, fitting⟩, ?_, ⟨?_, pairwise⟩, referred, founded⟩
        · intro old member
          exact forall_mem_cons.mpr ⟨free old member, apart old (mem_append_left _ member)⟩
        · exact apart row (mem_append_right _ (mem_singleton.mpr rfl))
      · rintro ⟨⟨_, fitting⟩, apart, ⟨first, pairwise⟩, _, founded⟩
        refine ⟨fitting, ?_, pairwise, founded⟩
        intro old member other inside
        rcases mem_append.mp member with before | here
        · exact apart old before other (mem_cons_of_mem _ inside)
        · obtain rfl := mem_singleton.mp here
          exact first other inside
    · rw [if_neg taken]
      refine iff_of_false (by simp) ?_
      rintro ⟨fitting, apart, _, founded⟩
      refine taken ?_
      unfold admits
      simp only [Bool.and_eq_true, all_eq_true, Bool.not_eq_true']
      exact ⟨⟨fitting row mem_cons_self, fun old member => apart old member row mem_cons_self⟩, founded.1⟩

theorem insertAll_eq {result : List (Row τ α)} (made : insertAll schema known rows = some result) : result = known ++ rows := by
  induction rows generalizing known with
  | nil => simpa [insertAll] using made.symm
  | cons row rest ih =>
    rw [insertAll] at made
    split at made
    · rw [ih made, append_assoc, singleton_append]
    · exact absurd made (by simp)

/-! Foreign keys. -/

theorem refers_mono {more : List (Row τ α)} {reference : List String × τ × List String} (subset : ∀ row ∈ known, row ∈ more)
    (referred : refers known row reference = true) : refers more row reference = true := by
  unfold refers at *
  rw [any_eq_true] at *
  obtain ⟨other, member, same⟩ := referred
  exact ⟨other, subset other member, same⟩

theorem Founded.mono {more : List (Row τ α)} (founded : Founded schema known rows) (subset : ∀ row ∈ known, row ∈ more) :
    Founded schema more rows := by
  induction rows generalizing known more with
  | nil => trivial
  | cons row rest ih =>
    refine ⟨fun reference member => refers_mono subset (founded.1 reference member), ih founded.2 ?_⟩
    intro other member
    exact mem_append.mpr ((mem_append.mp member).imp_left (subset other))

theorem founded_append {more : List (Row τ α)} :
    Founded schema known (rows ++ more) ↔ Founded schema known rows ∧ Founded schema (known ++ rows) more := by
  induction rows generalizing known with
  | nil => simp [Founded]
  | cons row rest ih =>
    rw [cons_append, Founded, Founded, ih, and_assoc, append_assoc, singleton_append]

theorem founded_of_refers (referred : ∀ row ∈ rows, ∀ reference ∈ schema.references row.table, refers known row reference = true) :
    Founded schema known rows := by
  induction rows generalizing known with
  | nil => trivial
  | cons row rest ih =>
    rw [forall_mem_cons] at referred
    refine ⟨referred.1, (ih referred.2).mono ?_⟩
    exact fun other member => mem_append_left _ member

theorem founded_flatMap {β : Type} {groups : List β} {rowsOf : β → List (Row τ α)}
    (each : ∀ group ∈ groups, Founded schema [] (rowsOf group)) : Founded schema known (groups.flatMap rowsOf) := by
  induction groups generalizing known with
  | nil => trivial
  | cons group rest ih =>
    rw [forall_mem_cons] at each
    rw [flatMap_cons, founded_append]
    exact ⟨each.1.mono (by simp), ih each.2⟩

/-! Keys. -/

theorem pairwise_of_keys (distinct : ∀ table, ∀ key ∈ schema.keys table,
    ((rows.filter fun row => row.table = table).map fun row => row.project key).Nodup) :
    rows.Pairwise fun row other => clashes schema row other = false := by
  rw [pairwise_iff_forall_sublist]
  intro row other sublist
  by_contra clash
  unfold clashes at clash
  simp only [Bool.not_eq_false, Bool.and_eq_true, decide_eq_true_eq, any_eq_true] at clash
  obtain ⟨same, key, member, equal⟩ := clash
  have both : [row, other].Sublist (rows.filter fun one => one.table = row.table) := by
    have kept := sublist.filter fun one => decide (one.table = row.table)
    simpa [same] using kept
  have pair := (distinct row.table key member).sublist (both.map fun one => one.project key)
  rw [map_cons, nodup_cons] at pair
  exact pair.1 (by simp [equal])

end

/-! Values that belong to owners, with their positions. -/

section
variable {β γ δ : Type}

def entries (owners : List (β × List γ)) : List (β × γ × Nat) :=
  owners.flatMap fun owner => owner.2.zipIdx.map fun value => (owner.1, value)

theorem entries_nodup {owners : List (β × List γ)} (distinct : (owners.map Prod.fst).Nodup) (view : γ × Nat → δ)
    (each : ∀ owner ∈ owners, (owner.2.zipIdx.map view).Nodup) : ((entries owners).map fun entry => (entry.1, view entry.2)).Nodup := by
  unfold entries
  rw [map_flatMap, nodup_flatMap]
  constructor
  · intro owner member
    have owned := (each owner member).map (f := fun value => (owner.1, value)) fun _ _ same => (Prod.mk.inj same).2
    rw [map_map] at owned ⊢
    exact owned
  · refine (pairwise_map.mp distinct).imp ?_
    intro one other apart entry member also
    simp only [map_map, mem_map] at member also
    obtain ⟨_, _, rfl⟩ := member
    obtain ⟨_, _, same⟩ := also
    exact apart (Prod.mk.inj same).1.symm

theorem entries_positions {owners : List (β × List γ)} (distinct : (owners.map Prod.fst).Nodup) :
    ((entries owners).map fun entry => (entry.1, entry.2.2)).Nodup := by
  refine entries_nodup distinct Prod.snd fun owner _ => ?_
  rw [zipIdx_map_snd]
  exact nodup_range' ..

theorem entries_values {owners : List (β × List γ)} (distinct : (owners.map Prod.fst).Nodup)
    (unique : ∀ owner ∈ owners, owner.2.Nodup) : ((entries owners).map fun entry => (entry.1, entry.2.1)).Nodup := by
  refine entries_nodup distinct Prod.fst fun owner member => ?_
  rw [zipIdx_map_fst]
  exact unique owner member

end

end Workctx.Relational
