import Mathlib.Logic.Relation
import Mathlib.Data.List.Nodup

/-! Depth-first search, by the nodes that it has finished and those that are open. The finished ones stand with
the last one first, and so do the open ones. -/

namespace Workctx.Search
open Relation List
variable {α : Type} (edge : α → α → Prop)

def Mutual (one two : α) : Prop := ReflTransGen edge one two ∧ ReflTransGen edge two one

/-- A path to the second node whose nodes all belong to a list. -/
def Inside (within : List α) : α → α → Prop := ReflTransGen fun one two => edge one two ∧ two ∈ within

/-- A node that reaches one that was finished later, through nodes finished up to then, is reached from it. -/
def Ordered : List α → Prop
  | [] => True
  | last :: earlier =>
    (∀ node ∈ earlier, Inside edge (last :: earlier) node last → ReflTransGen edge last node) ∧ Ordered earlier

/-- What was finished since a node was opened is reached from it, and what was finished before that leads to nodes
that were finished or open by then. -/
def Nested : List α → List α → Prop
  | _, [] => True
  | finished, node :: below => ∃ since before, finished = since ++ before ∧ Nested before below ∧
      (∀ done ∈ before, ∀ next, edge done next → next ∈ before ∨ next ∈ below) ∧
      (∀ done ∈ since, ReflTransGen edge node done) ∧ ∀ parent ∈ below.head?, edge parent node

structure Searched (finished opened : List α) : Prop where
  nodup : (finished ++ opened).Nodup
  closed : ∀ done ∈ finished, ∀ next, edge done next → next ∈ finished ∨ next ∈ opened
  nested : Nested edge finished opened
  ordered : Ordered edge finished

variable {edge}

theorem Mutual.symm {one two : α} (mutually : Mutual edge one two) : Mutual edge two one := ⟨mutually.2, mutually.1⟩

theorem Mutual.trans {one two three : α} (first : Mutual edge one two) (second : Mutual edge two three) : Mutual edge one three :=
  ⟨first.1.trans second.1, second.2.trans first.2⟩

theorem Searched.start : Searched edge [] [] := ⟨nodup_nil, by simp, trivial, trivial⟩

section
variable {finished opened below : List α} {node : α}

theorem Searched.open (searched : Searched edge finished opened) (new : node ∉ finished ++ opened)
    (leads : ∀ parent ∈ opened.head?, edge parent node) : Searched edge finished (node :: opened) where
  nodup := perm_middle.nodup_iff.mpr (nodup_cons.mpr ⟨new, searched.nodup⟩)
  closed := by
    intro done member next leaves
    exact (searched.closed done member next leaves).imp_right (mem_cons_of_mem node)
  nested := ⟨[], finished, rfl, searched.nested, searched.closed, by simp, leads⟩
  ordered := searched.ordered

theorem Inside.stays {within kept : List α} {one two : α} (path : Inside edge within one two) (start : one ∈ kept)
    (step : ∀ here ∈ kept, ∀ next ∈ within, edge here next → next ∈ kept) : two ∈ kept := by
  induction path with
  | refl => exact start
  | tail _ last ih => exact step _ ih _ last.2 last.1

theorem Searched.finish (searched : Searched edge finished (node :: below))
    (spent : ∀ next, edge node next → next ∈ finished ∨ next ∈ node :: below) : Searched edge (node :: finished) below := by
  obtain ⟨since, before, split, nested, closed, reached, leads⟩ := searched.nested
  have apart := nodup_append.mp searched.nodup
  have open_ : ∀ next, next ∈ finished ∨ next ∈ node :: below → next ∈ node :: finished ∨ next ∈ below := by
    intro next known
    rcases known with done | here
    · exact .inl (mem_cons_of_mem node done)
    · rcases mem_cons.mp here with same | lower
      · exact .inl (same ▸ mem_cons_self)
      · exact .inr lower
  refine ⟨perm_middle.nodup_iff.mp searched.nodup, ?_, ?_, ?_, searched.ordered⟩
  · intro done member next leaves
    rcases mem_cons.mp member with here | earlier
    · exact open_ next (spent next (here ▸ leaves))
    · exact open_ next (searched.closed done earlier next leaves)
  · cases below with
    | nil => trivial
    | cons parent rest =>
      obtain ⟨since', before', split', nested', closed', reached', leads'⟩ := nested
      have first : edge parent node := leads parent rfl
      refine ⟨node :: since ++ since', before', by rw [split, split', append_assoc]; rfl, nested', closed', ?_, leads'⟩
      intro done member
      rcases mem_append.mp member with later | earlier
      · rcases mem_cons.mp later with here | after
        · exact here ▸ ReflTransGen.single first
        · exact (ReflTransGen.single first).trans (reached done after)
      · exact reached' done earlier
  · -- A node from before this one was opened leads to open nodes and to its like alone, so that no path gets here.
    intro done member path
    rw [split] at member
    rcases mem_append.mp member with after | earlier
    · exact reached done after
    · have stays : node ∈ before := by
        apply path.stays earlier
        intro here inside next within leaves
        rcases closed here inside next leaves with kept | above
        · exact kept
        · rcases mem_cons.mp within with same | done
          · exact absurd above (same ▸ (nodup_cons.mp apart.2.1).1)
          · exact absurd rfl (apart.2.2 next done next (mem_cons_of_mem node above))
      have known : node ∈ finished := split ▸ mem_append_right since stays
      exact absurd rfl (apart.2.2 node known node mem_cons_self)

end

/-! Components. -/

def Backward (edge : α → α → Prop) (taken : List α) : Prop := ∀ one two, edge one two → two ∈ taken → one ∈ taken

section
variable {taken earlier : List α} {node last : α}

theorem Backward.path (backward : Backward edge taken) {one two : α} (path : ReflTransGen edge one two) (inside : two ∈ taken) :
    one ∈ taken := by
  induction path using ReflTransGen.head_induction_on with
  | refl => exact inside
  | head first _ ih => exact backward _ _ first ih

theorem Ordered.drop (later : List α) (ordered : Ordered edge (later ++ earlier)) : Ordered edge earlier := by
  induction later with
  | nil => exact ordered
  | cons last rest ih => exact ih ordered.2

theorem Ordered.mutual {done : List α} (ordered : Ordered edge (done ++ last :: earlier))
    (known : ∀ one two, edge one two → one ∈ done ++ last :: earlier) (passed : ∀ node ∈ done, node ∈ taken)
    (backward : Backward edge taken) (free : node ∉ taken) (leads : ReflTransGen edge node last) : Mutual edge node last := by
  have left : ∀ node, node ∉ taken → node ∈ done ++ last :: earlier → node ∈ last :: earlier := by
    intro node untaken member
    rcases mem_append.mp member with old | here
    · exact absurd (passed node old) untaken
    · exact here
  have path : node ∈ last :: earlier ∧ Inside edge (last :: earlier) node last := by
    induction leads using ReflTransGen.head_induction_on with
    | refl => exact ⟨mem_cons_self, .refl⟩
    | @head here next first rest ih =>
      have inside := ih fun taken => free (backward here next first taken)
      exact ⟨left here free (known here next first), ReflTransGen.head ⟨first, inside.1⟩ inside.2⟩
  refine ⟨leads, ?_⟩
  rcases mem_cons.mp path.1 with same | before
  · rw [same]
  · exact (ordered.drop done).1 node before path.2

end
end Workctx.Search
