import Mathlib.Data.List.Infix
import Workctx.Domain.Patterns

/-! Context-relative paths of the staging layer: the portable form, the writable zones, and
the marker files that would make a parent directory a context of its own. -/

namespace Workctx.Staging
open Workctx.Domain List

def splitPath (path : String) : List (List Char) := path.toList.splitOn '/'

def joinPath (parts : List (List Char)) : String := String.ofList (['/'].intercalate parts)

def portableChar (c : Char) : Char := if c = '\\' then '/' else c

def portableRelativePath (raw : String) : Option String :=
  let normalized := raw.toList.map portableChar
  if raw = "" || raw.toList.contains (Char.ofNat 0) then none
  else if (raw.toList.drop 1).head? = some ':' then none
  else if (normalized.splitOn '/').any fun part => part == [] || part == ['.'] || part == ['.', '.'] then none
  else some (String.ofList normalized)

def canonicalTargetPrefixes : List String :=
  ["00_inbox", "01_processed", "02_knowledge", "03_work", "04_views", "05_outbox", "90_integrations", "99_meta"]

def rootTargets : List String := ["context.yaml"]

/-- `_require_allowed_location` for staged targets. -/
def allowedLocation (text : String) : Bool :=
  rootTargets.contains text ||
    canonicalTargetPrefixes.any fun zone => text == zone || (zone.toList ++ ['/']).isPrefixOf text.toList

/-- The lexical part of `_resolve_target`: the context-relative POSIX path of a target. -/
def canonicalTarget (raw : String) : Option String :=
  (portableRelativePath raw).filter allowedLocation

def contextMarker : List Char := "context.yaml".toList

/-- The files that would put a context boundary between the root and the path. -/
def contextMarkers (path : String) : List String :=
  ((splitPath path).dropLast.inits.filter (· ≠ [])).map fun directory => joinPath (directory ++ [contextMarker])

theorem portableChar_idempotent (c : Char) : portableChar (portableChar c) = portableChar c := by
  unfold portableChar
  split
  · rfl
  · next other => rfl

theorem portableChar_eq_iff {c other : Char} (slash : other ≠ '/') (backslash : other ≠ '\\') :
    portableChar c = other ↔ c = other := by
  unfold portableChar
  split
  · next same =>
    subst same
    exact ⟨fun same => absurd same.symm slash, fun same => absurd same.symm backslash⟩
  · rfl

theorem portableRelativePath_idempotent {raw path : String} (resolved : portableRelativePath raw = some path) :
    portableRelativePath path = some path := by
  simp only [portableRelativePath, Option.ite_none_left_eq_some, Bool.not_eq_true, Bool.or_eq_false_iff,
    decide_eq_false_iff_not, contains_eq_mem, Option.some.injEq] at resolved ⊢
  obtain ⟨⟨nonempty, noNull⟩, drive, plain, rfl⟩ := resolved
  have again : (raw.toList.map portableChar).map portableChar = raw.toList.map portableChar := by
    rw [map_map]
    exact map_congr_left fun c _ => portableChar_idempotent c
  simp only [String.toList_ofList, again]
  refine ⟨⟨fun empty => nonempty ?_, fun member => noNull ?_⟩, fun colon => drive ?_, plain, trivial⟩
  · have none : raw.toList.map portableChar = [] := by
      have chars := congrArg String.toList empty
      rwa [String.toList_ofList] at chars
    exact String.toList_inj.mp (map_eq_nil_iff.mp none)
  · obtain ⟨c, inside, same⟩ := mem_map.mp member
    rw [(portableChar_eq_iff (by decide) (by decide)).mp same] at inside
    exact inside
  · rw [← map_drop, head?_map, Option.map_eq_some_iff] at colon
    obtain ⟨c, first, same⟩ := colon
    rw [(portableChar_eq_iff (by decide) (by decide)).mp same] at first
    exact first

theorem canonicalTarget_idempotent {raw path : String} (resolved : canonicalTarget raw = some path) :
    canonicalTarget path = some path := by
  rw [canonicalTarget, Option.filter_eq_some_iff] at resolved ⊢
  exact ⟨portableRelativePath_idempotent resolved.1, resolved.2⟩

theorem splitPath_joinPath {parts : List (List Char)} (some : parts ≠ []) (clean : ∀ part ∈ parts, '/' ∉ part) :
    splitPath (joinPath parts) = parts := by
  rw [splitPath, joinPath, String.toList_ofList]
  exact splitOn_intercalate '/' clean some

theorem not_mem_of_mem_splitOn {α : Type} [BEq α] [LawfulBEq α] {separator : α} {items part : List α}
    (member : part ∈ items.splitOn separator) : separator ∉ part := by
  induction items generalizing part with
  | nil =>
    rw [splitOn_nil, mem_singleton] at member
    rw [member]
    exact not_mem_nil
  | cons item rest ih =>
    rw [splitOn_cons_eq_if_modifyHead] at member
    split at member
    · rcases mem_cons.mp member with same | member
      · rw [same]
        exact not_mem_nil
      · exact ih member
    · next other =>
      obtain ⟨first, others, parts⟩ := exists_cons_of_ne_nil (splitOn_ne_nil separator rest)
      rw [parts] at member ih
      rcases mem_cons.mp member with same | member
      · rw [same, mem_cons]
        intro inside
        rcases inside with same | inside
        · exact other (by simp [same])
        · exact ih mem_cons_self inside
      · exact ih (mem_cons_of_mem _ member)

theorem contextMarkers_self {path marker : String} (member : marker ∈ contextMarkers path) :
    marker ∈ contextMarkers marker := by
  obtain ⟨directory, inside, rfl⟩ := mem_map.mp member
  rw [mem_filter, mem_inits, decide_eq_true_eq] at inside
  obtain ⟨front, nonempty⟩ := inside
  have clean : ∀ part ∈ directory ++ [contextMarker], '/' ∉ part := by
    intro part inside
    rcases mem_append.mp inside with inside | inside
    · have piece : part ∈ splitPath path := dropLast_subset _ (front.subset inside)
      exact not_mem_of_mem_splitOn piece
    · rw [mem_singleton.mp inside]
      decide
  have parts := splitPath_joinPath (by simp) clean
  refine mem_map.mpr ⟨directory, ?_, rfl⟩
  rw [parts, dropLast_concat, mem_filter, mem_inits, decide_eq_true_eq]
  exact ⟨prefix_rfl, nonempty⟩

end Workctx.Staging
