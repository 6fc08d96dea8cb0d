import Workctx.Adapters.Rendered

/-! The commitment of a generated skill: what is rendered is read back, and what is read was rendered where it is spelled as the renderer
spells it. -/

namespace Workctx.Adapters
open Workctx.Json Workctx.Search Workctx.Text List

/-! Lines and their ends -/

def lineEnd (line : List Char) : List Char := line.rtakeWhile fun c => c == '\r' || c == '\n'

theorem stripEnd_append_lineEnd (line : List Char) : stripEnd line ++ lineEnd line = line := rdropWhile_append_rtakeWhile

theorem newlineOf_cases (lines : List (List Char)) : newlineOf lines = ['\r', '\n'] ∨ newlineOf lines = ['\n'] := by
  unfold newlineOf
  split
  · exact Or.inl rfl
  · exact Or.inr rfl

def Visible (text : List Char) : Prop := ∀ c ∈ text, 32 ≤ c.toNat ∧ c.toNat < 127

theorem visible_of_all {text : List Char} (every : text.all (fun c => 32 ≤ c.toNat && c.toNat < 127) = true) : Visible text := by
  intro c member
  have held := all_eq_true.mp every c member
  rw [Bool.and_eq_true, decide_eq_true_eq, decide_eq_true_eq] at held
  exact held

theorem Visible.append {front back : List Char} (one : Visible front) (two : Visible back) : Visible (front ++ back) := by
  intro c member
  cases mem_append.mp member with
  | inl inside => exact one c inside
  | inr inside => exact two c inside

theorem Visible.plain {text : List Char} (visible : Visible text) : ∀ c ∈ text, endsLine c = false := by
  intro c member
  have bounds := visible c member
  simp only [endsLine, Bool.or_eq_false_iff, Bool.and_eq_false_iff, decide_eq_false_iff_not, beq_eq_false_iff_ne]
  omega

section
variable {text newline : List Char} (visible : Visible text) (filled : text ≠ []) (ending : newline = ['\r', '\n'] ∨ newline = ['\n'])

include visible filled ending in
theorem written_strip : stripEnd (text ++ newline) = text ∧ lineEnd (text ++ newline) = newline := by
  obtain ⟨front, last, rfl⟩ : ∃ front last, text = front ++ [last] := ⟨text.dropLast, text.getLast filled, (dropLast_concat_getLast filled).symm⟩
  have bounds := visible last (by simp)
  have solid : (last == '\r' || last == '\n') = false := by
    rw [Bool.or_eq_false_iff, beq_eq_false_iff_ne, beq_eq_false_iff_ne]
    constructor
    · rintro rfl
      exact absurd bounds.1 (by decide)
    · rintro rfl
      exact absurd bounds.1 (by decide)
  have stripped : stripEnd (front ++ [last] ++ newline) = front ++ [last] := by
    cases ending with
    | inl both =>
      rw [both, show front ++ [last] ++ ['\r', '\n'] = front ++ [last] ++ ['\r'] ++ ['\n'] by simp, stripEnd, rdropWhile_concat_pos _ _ _ rfl,
        rdropWhile_concat_pos _ _ _ rfl, rdropWhile_concat_neg _ _ _ (by rw [solid]; decide)]
    | inr feed =>
      rw [feed, stripEnd, rdropWhile_concat_pos _ _ _ rfl, rdropWhile_concat_neg _ _ _ (by rw [solid]; decide)]
  have whole := stripEnd_append_lineEnd (front ++ [last] ++ newline)
  rw [stripped] at whole
  exact ⟨stripped, append_cancel_left whole⟩

include visible ending in
theorem written_cut : cutLines endsLine (text ++ newline) = [text ++ newline] ∧ (text ++ newline).getLast? = some '\n' := by
  cases ending with
  | inl both =>
    rw [both]
    exact ⟨cutLines_carriage visible.plain rfl [], by simp⟩
  | inr feed =>
    rw [feed]
    exact ⟨cutLines_plain visible.plain rfl (by simp), by simp⟩

end

/-! What stands behind a lead -/

theorem behind_eq_some {lead line rest : List Char} : behind lead line = some rest ↔ line = lead ++ rest := by
  unfold behind
  constructor
  · intro found
    split at found
    · next leads =>
      obtain ⟨back, rfl⟩ := isPrefixOf_iff_prefix.mp leads
      rw [drop_left, Option.some.injEq] at found
      rw [found]
    · cases found
  · rintro rfl
    rw [if_pos (List.isPrefixOf_iff_prefix.mpr (prefix_append lead rest)), drop_left]

theorem behind_resourceLead_side (rest : List Char) : behind resourceLead (sideEffectLead ++ rest) = none := by
  cases found : behind resourceLead (sideEffectLead ++ rest) with
  | none => rfl
  | some other =>
    have same := congrArg (List.take 12) (behind_eq_some.mp found)
    rw [take_append_of_le_length (by decide), take_append_of_le_length (by decide)] at same
    exact absurd same (by decide)

/-! What the renderer writes -/

theorem sideEffectLead_visible : Visible sideEffectLead := visible_of_all rfl

theorem resourceLead_visible : Visible resourceLead := visible_of_all rfl

theorem sideEffectClasses_visible {sideEffectClass : List Char} (known : sideEffectClass ∈ sideEffectClasses) : Visible sideEffectClass := by
  have every : sideEffectClasses.all (fun one => one.all fun c => 32 ≤ c.toNat && c.toNat < 127) = true := rfl
  exact visible_of_all (all_eq_true.mp every sideEffectClass known)

theorem isDigest_spec {digest : List Char} (valid : isDigest digest = true) : Visible digest ∧ ' ' ∉ digest := by
  simp only [isDigest, Bool.and_eq_true, all_eq_true] at valid
  obtain ⟨⟨_, leads⟩, hex⟩ := valid
  obtain ⟨rest, rfl⟩ := isPrefixOf_iff_prefix.mp leads
  have hexadecimal : ∀ c ∈ rest, c ∈ "0123456789abcdef".toList := fun c member => contains_iff_mem.mp (hex c member)
  have digits : Visible "0123456789abcdef".toList := visible_of_all rfl
  constructor
  · exact Visible.append (visible_of_all rfl) fun c member => digits c (hexadecimal c member)
  · intro member
    cases mem_append.mp member with
    | inl inside => exact absurd inside (by decide)
    | inr inside => exact absurd (hexadecimal ' ' inside) (by decide)

def Storable (resource : ResourceHash) : Prop := isDigest resource.2 = true ∧ ∀ code ∈ resource.1, code < 0x110000

def resourceText (resource : ResourceHash) : List Char := resourceLead ++ resource.2 ++ ' ' :: dumpsPoints resource.1

theorem resourceText_visible {resource : ResourceHash} (storable : Storable resource) : Visible (resourceText resource) := by
  apply (resourceLead_visible.append (isDigest_spec storable.1).1).append
  intro c member
  cases mem_cons.mp member with
  | inl blank => exact blank ▸ by decide
  | inr inside => exact dumpsPoints_visible storable.2 inside

theorem resourceLine_eq (newline : List Char) (resource : ResourceHash) : resourceLine newline resource = resourceText resource ++ newline := rfl

theorem advisory_text {newline sideEffectClass : List Char} {resources : List ResourceHash} (known : sideEffectClass ∈ sideEffectClasses)
    (storable : ∀ resource ∈ resources, Storable resource) {line : List Char} (member : line ∈ advisories newline sideEffectClass resources) :
    ∃ rest, line = '#' :: rest ++ newline ∧ Visible ('#' :: rest) := by
  cases mem_cons.mp member with
  | inl side => exact ⟨_, side, sideEffectLead_visible.append (sideEffectClasses_visible known)⟩
  | inr written =>
    obtain ⟨resource, held, rfl⟩ := mem_map.mp written
    exact ⟨_, rfl, resourceText_visible (storable resource held)⟩

/-! The frame around the commitment -/

theorem findIdx?_fence {front : List (List Char)} (inside : ∀ line ∈ front, isFence line = false) {fence : List Char} (closes : isFence fence = true)
    (body : List (List Char)) : (front ++ fence :: body).findIdx? isFence = some front.length := by
  induction front with
  | nil => rw [nil_append, findIdx?_cons, closes, if_pos rfl, length_nil]
  | cons line front ih =>
    rw [cons_append, findIdx?_cons, inside line mem_cons_self, if_neg (by decide),
      ih fun other member => inside other (mem_cons_of_mem line member), Option.map_some, length_cons]

theorem fence_of_findIdx? {lines : List (List Char)} {index : Nat} (found : lines.findIdx? isFence = some index) :
    ∃ front fence body, lines = front ++ fence :: body ∧ front.length = index ∧ isFence fence = true ∧ ∀ line ∈ front, isFence line = false := by
  induction lines generalizing index with
  | nil => cases found
  | cons line rest ih =>
    rw [findIdx?_cons] at found
    by_cases closes : isFence line = true
    · rw [if_pos closes, Option.some.injEq] at found
      exact ⟨[], line, rest, rfl, found, closes, by simp⟩
    · rw [if_neg closes, Option.map_eq_some_iff] at found
      obtain ⟨inner, later, rfl⟩ := found
      obtain ⟨front, fence, body, rfl, length, closing, inside⟩ := ih later
      refine ⟨line :: front, fence, body, rfl, by rw [length_cons, length], closing, ?_⟩
      intro other member
      cases mem_cons.mp member with
      | inl same => exact same ▸ Bool.eq_false_iff.mpr closes
      | inr held => exact inside other held

structure Framed (lines : List (List Char)) (first : List Char) (front : List (List Char)) (fence : List Char) (body : List (List Char)) : Prop where
  spelled : lines = first :: (front ++ fence :: body)
  opens : isFence first = true
  inside : ∀ line ∈ front, isFence line = false
  closes : isFence fence = true

section
variable {lines front body : List (List Char)} {first fence : List Char}

section
variable (framed : Framed lines first front fence body)
include framed

theorem Framed.index : delimiterIndex lines = some (front.length + 1) := by
  rw [framed.spelled, delimiterIndex, tail_cons, findIdx?_fence framed.inside framed.closes, Option.map_some]

theorem Framed.head : lines.head?.any isFence = true := by
  rw [framed.spelled, head?_cons, Option.any_some, framed.opens]

theorem Framed.take : lines.take (front.length + 1) = first :: front := by
  rw [framed.spelled, take_succ_cons, take_left]

theorem Framed.drop : lines.drop (front.length + 1) = fence :: body := by
  rw [framed.spelled, drop_succ_cons, drop_left]

theorem Framed.newline : newlineOf lines = newlineOf [first] := by
  rw [framed.spelled, newlineOf, newlineOf, head?_cons, head?_cons]

end

theorem Framed.unique {first' fence' : List Char} {front' body' : List (List Char)} (one : Framed lines first front fence body)
    (two : Framed lines first' front' fence' body') : first = first' ∧ front = front' ∧ fence = fence' ∧ body = body' := by
  have length : front.length = front'.length := by
    have same := one.index.symm.trans two.index
    rw [Option.some.injEq] at same
    omega
  have same := one.spelled.symm.trans two.spelled
  rw [List.cons.injEq] at same
  obtain ⟨fronts, rest⟩ := append_inj same.2 length
  rw [List.cons.injEq] at rest
  exact ⟨same.1, fronts, rest⟩

end

theorem framed_of_index {lines : List (List Char)} {index : Nat} (head : lines.head?.any isFence = true) (found : delimiterIndex lines = some index) :
    ∃ first front fence body, Framed lines first front fence body ∧ index = front.length + 1 := by
  cases lines with
  | nil => cases head
  | cons first rest =>
    rw [delimiterIndex, tail_cons, Option.map_eq_some_iff] at found
    obtain ⟨inner, later, rfl⟩ := found
    obtain ⟨front, fence, body, rfl, rfl, closes, inside⟩ := fence_of_findIdx? later
    exact ⟨first, front, fence, body, ⟨rfl, head, inside, closes⟩, rfl⟩

/-! The commitment of a file -/

section
variable (upper : Points → Points)

def Reads (line : List Char) (resource : ResourceHash) : Prop :=
  ∃ rest, behind resourceLead (stripEnd line) = some rest ∧ readResource upper rest = some resource

variable {upper}

theorem scanResources_spec {lines left : List (List Char)} {found : List ResourceHash} :
    scanResources upper lines = some (found, left) ↔
      ∃ written, lines = written ++ left ∧ List.Forall₂ (Reads upper) written found.reverse ∧
        ∀ line ∈ left.head?, behind resourceLead (stripEnd line) = none := by
  induction lines generalizing found left with
  | nil =>
    rw [scanResources, Option.some.injEq, Prod.mk.injEq]
    constructor
    · rintro ⟨rfl, rfl⟩
      exact ⟨[], rfl, List.Forall₂.nil, by simp⟩
    · rintro ⟨written, empty, reads, _⟩
      obtain ⟨rfl, rfl⟩ := append_eq_nil_iff.mp empty.symm
      exact ⟨(reverse_eq_nil_iff.mp (forall₂_nil_left_iff.mp reads)).symm, rfl⟩
  | cons line above ih =>
    rw [scanResources]
    constructor
    · intro scanned
      split at scanned
      · next other =>
        rw [Option.some.injEq, Prod.mk.injEq] at scanned
        obtain ⟨rfl, rfl⟩ := scanned
        refine ⟨[], rfl, List.Forall₂.nil, ?_⟩
        intro one held
        rw [head?_cons, Option.mem_some_iff] at held
        exact held ▸ other
      · next rest leads =>
        split at scanned
        · cases scanned
        · next resource read =>
          rw [Option.map_eq_some_iff] at scanned
          obtain ⟨⟨found', left'⟩, later, same⟩ := scanned
          cases same
          obtain ⟨written, rfl, reads, stops⟩ := ih.mp later
          refine ⟨line :: written, rfl, ?_, stops⟩
          rw [reverse_append, reverse_singleton, singleton_append]
          exact List.Forall₂.cons ⟨rest, leads, read⟩ reads
    · rintro ⟨written, spelled, reads, stops⟩
      cases written with
      | nil =>
        rw [nil_append] at spelled
        rw [← spelled, head?_cons] at stops
        rw [stops line rfl, ← spelled, reverse_eq_nil_iff.mp (forall₂_nil_left_iff.mp reads)]
      | cons one written =>
        rw [cons_append, List.cons.injEq] at spelled
        obtain ⟨rfl, rfl⟩ := spelled
        obtain ⟨resource, backwards, ⟨rest, leads, read⟩, later, turned⟩ := forall₂_cons_left_iff.mp reads
        have whole : found = backwards.reverse ++ [resource] := by
          rw [← reverse_reverse found, turned, reverse_cons]
        have scanned := (@ih left backwards.reverse).mpr ⟨written, rfl, by rwa [reverse_reverse], stops⟩
        rw [leads]
        dsimp only
        rw [read]
        dsimp only
        rw [scanned, whole, Option.map_some]

variable (upper)

/-- The parts of a file whose commitment is accepted -/
structure Commitment (sideEffectClass : List Char) (resources : List ResourceHash) where
  first : List Char
  above : List (List Char)
  side : List Char
  written : List (List Char)
  fence : List Char
  body : List (List Char)
  opens : isFence first = true
  inside : ∀ line ∈ above ++ side :: written, isFence line = false
  closes : isFence fence = true
  leads : behind sideEffectLead (stripEnd side) = some sideEffectClass
  known : sideEffectClass ∈ sideEffectClasses
  reads : List.Forall₂ (Reads upper) written resources
  sorted : resources = sortedBy ResourceHash.key resources.dedup
  cut : Lines endsLine (first :: ((above ++ side :: written) ++ fence :: body))
  long : 4 ≤ (first :: ((above ++ side :: written) ++ fence :: body)).length

end

section
variable {upper : Points → Points} {sideEffectClass : List Char} {resources : List ResourceHash}

def Commitment.lines (commitment : Commitment upper sideEffectClass resources) : List (List Char) :=
  commitment.first :: ((commitment.above ++ commitment.side :: commitment.written) ++ commitment.fence :: commitment.body)

def Commitment.canonical (commitment : Commitment upper sideEffectClass resources) : List (List Char) :=
  commitment.first :: (commitment.above ++ commitment.fence :: commitment.body)

section
variable (commitment : Commitment upper sideEffectClass resources)
include commitment

theorem Commitment.framed :
    Framed commitment.lines commitment.first (commitment.above ++ commitment.side :: commitment.written) commitment.fence commitment.body :=
  ⟨rfl, commitment.opens, commitment.inside, commitment.closes⟩

theorem Commitment.framedCanonical :
    Framed commitment.canonical commitment.first commitment.above commitment.fence commitment.body :=
  ⟨rfl, commitment.opens, fun line member => commitment.inside line (mem_append_left _ member), commitment.closes⟩

theorem Commitment.stops : behind resourceLead (stripEnd commitment.side) = none := by
  rw [behind_eq_some.mp commitment.leads]
  exact behind_resourceLead_side sideEffectClass

theorem Commitment.scanned :
    scanResources upper (commitment.above ++ commitment.side :: commitment.written).reverse =
      some (resources, commitment.side :: commitment.above.reverse) := by
  apply scanResources_spec.mpr
  refine ⟨commitment.written.reverse, by simp, forall₂_reverse_iff.mpr commitment.reads, ?_⟩
  intro line held
  rw [head?_cons, Option.mem_some_iff] at held
  exact held ▸ commitment.stops

end

theorem parseRenderedSkillPrimary_spec {content canonical : Bytes} :
    parseRenderedSkillPrimary upper content = some (canonical, sideEffectClass, resources) ↔
      ∃ commitment : Commitment upper sideEffectClass resources,
        content = encodeUtf8 commitment.lines.flatten ∧ canonical = encodeUtf8 commitment.canonical.flatten := by
  constructor
  · intro accepted
    rw [parseRenderedSkillPrimary] at accepted
    split at accepted
    · cases accepted
    next text decoded =>
    dsimp only at accepted
    split at accepted
    · cases accepted
    next header =>
    rw [not_or, Nat.not_lt, Bool.not_eq_false] at header
    split at accepted
    · cases accepted
    next index found =>
    obtain ⟨first, front, fence, body, framed, rfl⟩ := framed_of_index header.2 found
    rw [framed.take, framed.drop, tail_cons] at accepted
    split at accepted
    · cases accepted
    · cases accepted
    next resources' side above scanned =>
    split at accepted
    · cases accepted
    next class' leads =>
    split at accepted
    · cases accepted
    next known =>
    split at accepted
    · cases accepted
    next sorted =>
    rw [Decidable.not_not] at known sorted
    rw [Option.some.injEq, Prod.mk.injEq, Prod.mk.injEq] at accepted
    obtain ⟨rest, rfl, rfl⟩ := accepted
    obtain ⟨written, backwards, reads, stops⟩ := scanResources_spec.mp scanned
    have spelled : front = above.reverse ++ side :: written.reverse := by
      rw [← reverse_reverse front, backwards]
      simp
    have lines : cutLines endsLine text = first :: ((above.reverse ++ side :: written.reverse) ++ fence :: body) := by
      rw [framed.spelled, spelled]
    have whole := cutLines_flatten endsLine text
    rw [lines] at whole
    refine ⟨⟨first, above.reverse, side, written.reverse, fence, body, framed.opens, ?_, framed.closes, leads, known, ?_, sorted, ?_, ?_⟩, ?_, ?_⟩
    · exact spelled ▸ framed.inside
    · exact forall₂_reverse_iff.mp (by rwa [reverse_reverse])
    · rw [Lines, whole, lines]
    · rw [← lines]
      exact header.1
    · show content = encodeUtf8 (first :: ((above.reverse ++ side :: written.reverse) ++ fence :: body)).flatten
      rw [whole, encodeUtf8_decodeUtf8 decoded]
    · show canonical = encodeUtf8 (first :: (above.reverse ++ fence :: body)).flatten
      rw [← rest, lines]
      rfl
  · rintro ⟨commitment, rfl, rfl⟩
    have same : cutLines endsLine commitment.lines.flatten = commitment.lines := commitment.cut
    have header : ¬ (commitment.lines.length < 4 ∨ true = false) := by
      rintro (less | other)
      · exact absurd commitment.long (Nat.not_le.mpr less)
      · cases other
    rw [parseRenderedSkillPrimary, decodeUtf8_encodeUtf8]
    dsimp only
    rw [same, commitment.framed.head, if_neg header, commitment.framed.index]
    dsimp only
    rw [commitment.framed.take, commitment.framed.drop, tail_cons, commitment.scanned]
    dsimp only
    rw [commitment.leads]
    dsimp only
    rw [if_neg (not_not_intro commitment.known), if_neg (not_not_intro commitment.sorted), reverse_reverse]
    rfl

end

theorem injectAdvisoryComment_framed {lines front body : List (List Char)} {first fence : List Char} (cut : Lines endsLine lines)
    (framed : Framed lines first front fence body) (sideEffectClass : List Char) (resources : List ResourceHash) :
    injectAdvisoryComment (encodeUtf8 lines.flatten) sideEffectClass resources =
      if lines.length < 4 then .error "Canonical skill must start with YAML frontmatter"
      else .ok (encodeUtf8 (first :: (front ++ advisories (newlineOf lines) sideEffectClass resources ++ fence :: body)).flatten) := by
  have same : cutLines endsLine lines.flatten = lines := cut
  rw [injectAdvisoryComment, decodeUtf8_encodeUtf8]
  dsimp only
  rw [same, framed.head, framed.index]
  by_cases short : lines.length < 4
  · rw [if_pos (Or.inl short), if_pos short]
  · have header : ¬ (lines.length < 4 ∨ true = false) := by
      rintro (less | other)
      · exact short less
      · cases other
    rw [if_neg header, if_neg short]
    dsimp only
    rw [framed.take, framed.drop, cons_append, cons_append]

/-! Lines put in and taken out -/

theorem isFence_head {fence : List Char} (closes : isFence fence = true) : fence.head? = some '-' := by
  have stripped : stripEnd fence = ['-', '-', '-'] := beq_iff_eq.mp closes
  rw [← stripEnd_append_lineEnd fence, stripped]
  rfl

section
variable {first fence : List Char} {front inserted body : List (List Char)}

theorem lines_removed (cut : Lines endsLine (first :: ((front ++ inserted) ++ fence :: body))) (closes : isFence fence = true) :
    Lines endsLine (first :: (front ++ fence :: body)) := by
  rw [append_assoc] at cut
  obtain ⟨before, behind, closed⟩ := @Lines.split endsLine (first :: front) (inserted ++ fence :: body) cut
  refine before.append behind.split.2.1 fun filled => (closed filled (by simp)).congr ?_
  rw [flatten_cons, head?_append, isFence_head closes, Option.some_or]
  decide

/-- Lines with a number sign in front and a line feed at their end are cut where they were put in. -/
theorem lines_inserted (cut : Lines endsLine (first :: (front ++ fence :: body))) (single : ∀ line ∈ inserted, cutLines endsLine line = [line])
    (fed : ∀ line ∈ inserted, line.getLast? = some '\n') (solid : ∀ line ∈ inserted, line.head? = some '#') :
    Lines endsLine (first :: ((front ++ inserted) ++ fence :: body)) := by
  obtain ⟨before, behind, closed⟩ := @Lines.split endsLine (first :: front) (fence :: body) cut
  obtain ⟨between, closing⟩ := lines_of_fed single fed rfl
  cases inserted with
  | nil => rwa [append_nil]
  | cons line rest =>
    have later := between.append behind (closing _)
    rw [append_assoc]
    refine before.append later fun filled => (closed filled (cons_ne_nil fence body)).congr ?_
    rw [cons_append, flatten_cons, head?_append, solid line mem_cons_self, Option.some_or]
    decide

theorem lines_advised {newline sideEffectClass : List Char} {resources : List ResourceHash} (cut : Lines endsLine (first :: (front ++ fence :: body)))
    (ending : newline = ['\r', '\n'] ∨ newline = ['\n']) (known : sideEffectClass ∈ sideEffectClasses)
    (storable : ∀ resource ∈ resources, Storable resource) :
    Lines endsLine (first :: ((front ++ advisories newline sideEffectClass resources) ++ fence :: body)) := by
  apply lines_inserted cut
  · intro line member
    obtain ⟨rest, rfl, visible⟩ := advisory_text known storable member
    exact (written_cut visible ending).1
  · intro line member
    obtain ⟨rest, rfl, visible⟩ := advisory_text known storable member
    exact (written_cut visible ending).2
  · intro line member
    obtain ⟨rest, rfl, _⟩ := advisory_text known storable member
    rfl

end

/-! Resource lines -/

theorem validateRelativePath_eq {upper : Points → Points} {path path' : Points} (valid : validateRelativePath upper path = .ok path') : path = path' := by
  unfold validateRelativePath at valid
  split at valid
  · cases valid
  split at valid
  · cases valid
  split at valid
  · cases valid
  split at valid
  · cases valid
  split at valid
  · cases valid
  · cases valid
    rfl

theorem readResource_spec {upper : Points → Points} {rest : List Char} {resource : ResourceHash} :
    readResource upper rest = some resource ↔ ∃ encoded, rest = resource.2 ++ ' ' :: encoded ∧ isDigest resource.2 = true ∧
      loadsPoints encoded = some resource.1 ∧ validateRelativePath upper resource.1 = .ok resource.1 := by
  constructor
  · intro read
    unfold readResource at read
    split at read
    · cases read
    · next blank encoded held =>
      split at read
      · next valid =>
        split at read
        · cases read
        · next path loaded =>
          split at read
          · cases read
          · next path' checked =>
            cases read
            have same := validateRelativePath_eq checked
            subst same
            have stopped : blank = ' ' := by
              have first := @head_dropWhile_not _ (· != ' ') rest (by rw [held]; exact cons_ne_nil _ _)
              simp only [held, head_cons, bne_eq_false_iff_eq] at first
              exact first
            refine ⟨encoded, ?_, valid, loaded, checked⟩
            calc rest = rest.takeWhile (· != ' ') ++ rest.dropWhile (· != ' ') := takeWhile_append_dropWhile.symm
              _ = rest.takeWhile (· != ' ') ++ ' ' :: encoded := by rw [held, stopped]
      · cases read
  · rintro ⟨encoded, rfl, valid, loaded, checked⟩
    have solid : ∀ c ∈ resource.2, (c != ' ') = true := fun c member => bne_iff_ne.mpr fun blank => (isDigest_spec valid).2 (blank ▸ member)
    have taken : (resource.2 ++ ' ' :: encoded).takeWhile (· != ' ') = resource.2 := by
      rw [takeWhile_append_of_pos solid, takeWhile_cons_of_neg (by decide), append_nil]
    have dropped : (resource.2 ++ ' ' :: encoded).dropWhile (· != ' ') = ' ' :: encoded := by
      rw [dropWhile_append_of_pos solid, dropWhile_cons_of_neg (by decide)]
    unfold readResource
    rw [dropped, taken]
    dsimp only
    rw [if_pos valid, loaded]
    dsimp only
    rw [checked]

def encodedPath (line : List Char) : List Char := (((stripEnd line).drop resourceLead.length).dropWhile (· != ' ')).tail

section
variable {upper : Points → Points} {line newline : List Char} {resource : ResourceHash}

theorem Reads.spec (reads : Reads upper line resource) :
    stripEnd line = resourceLead ++ (resource.2 ++ ' ' :: encodedPath line) ∧ loadsPoints (encodedPath line) = some resource.1 ∧
      Storable resource := by
  obtain ⟨rest, leads, read⟩ := reads
  obtain ⟨encoded, rfl, valid, loaded, _⟩ := readResource_spec.mp read
  have spelled := behind_eq_some.mp leads
  have solid : ∀ c ∈ resource.2, (c != ' ') = true := fun c member => bne_iff_ne.mpr fun blank => (isDigest_spec valid).2 (blank ▸ member)
  have path : encodedPath line = encoded := by
    rw [encodedPath, spelled, drop_left, dropWhile_append_of_pos solid, dropWhile_cons_of_neg (by decide), tail_cons]
  rw [path]
  exact ⟨spelled, loaded, valid, loadsPoints_bounds loaded⟩

theorem Reads.written_iff (reads : Reads upper line resource) (ending : newline = ['\r', '\n'] ∨ newline = ['\n']) :
    resourceLine newline resource = line ↔ lineEnd line = newline ∧ encodedPath line = dumpsPoints resource.1 := by
  obtain ⟨stripped, _, storable⟩ := reads.spec
  have whole : resourceText resource = resourceLead ++ (resource.2 ++ ' ' :: dumpsPoints resource.1) := append_assoc _ _ _
  constructor
  · intro same
    obtain ⟨text, ends⟩ := written_strip (resourceText_visible storable) (by rw [whole]; exact cons_ne_nil _ _) ending
    rw [← resourceLine_eq, same] at text ends
    refine ⟨ends, ?_⟩
    have bodies := stripped.symm.trans (text.trans whole)
    exact (List.cons.inj (append_cancel_left (append_cancel_left bodies))).2
  · rintro ⟨ends, path⟩
    rw [resourceLine_eq, whole, ← path, ← stripped, ← ends, stripEnd_append_lineEnd]

theorem sideEffectLine_iff {sideEffectClass : List Char} (leads : behind sideEffectLead (stripEnd line) = some sideEffectClass)
    (known : sideEffectClass ∈ sideEffectClasses) (ending : newline = ['\r', '\n'] ∨ newline = ['\n']) :
    sideEffectLine newline sideEffectClass = line ↔ lineEnd line = newline := by
  have stripped := behind_eq_some.mp leads
  constructor
  · intro same
    have ends := (written_strip (sideEffectLead_visible.append (sideEffectClasses_visible known)) (cons_ne_nil _ _) ending).2
    have whole : sideEffectLead ++ sideEffectClass ++ newline = line := same
    rwa [whole] at ends
  · intro ends
    rw [sideEffectLine, ← stripped, ← ends, stripEnd_append_lineEnd]

end

/-! What is rendered -/

theorem key_injective {one two : ResourceHash} (same : one.key = two.key) : one = two := toLex.injective same

theorem sortedBy_sortedBy (resources : List ResourceHash) :
    sortedBy ResourceHash.key (sortedBy ResourceHash.key resources) = sortedBy ResourceHash.key resources :=
  sortedBy_congr (sortedBy_perm ResourceHash.key resources) fun _ _ _ _ same => key_injective same

theorem lines_injective {one two : List (List Char)} (first : Lines endsLine one) (second : Lines endsLine two)
    (same : encodeUtf8 one.flatten = encodeUtf8 two.flatten) : one = two := by
  rw [← first, ← second, encodeUtf8_injective same]

section
variable {upper : Points → Points} {sideEffectClass : List Char} {resources : List ResourceHash}

theorem reads_storable {written : List (List Char)} (reads : List.Forall₂ (Reads upper) written resources) :
    ∀ resource ∈ resources, Storable resource := by
  induction reads with
  | nil => exact forall_mem_nil _
  | cons read _ ih =>
    intro resource member
    cases mem_cons.mp member with
    | inl same => exact same ▸ read.spec.2.2
    | inr inside => exact ih resource inside

theorem Commitment.ordered (commitment : Commitment upper sideEffectClass resources) : sortedBy ResourceHash.key resources = resources := by
  have sorted := sortedBy_sortedBy resources.dedup
  rwa [← commitment.sorted] at sorted

/-- An accepted file is the rendering of what is read from it where its commitment is spelled as the renderer spells it. -/
theorem Commitment.rendered_iff (commitment : Commitment upper sideEffectClass resources) :
    renderSkillPrimary (encodeUtf8 commitment.canonical.flatten) sideEffectClass resources = .ok (encodeUtf8 commitment.lines.flatten) ↔
      4 ≤ commitment.canonical.length ∧
        advisories (newlineOf commitment.lines) sideEffectClass resources = commitment.side :: commitment.written := by
  have cut : Lines endsLine commitment.canonical := lines_removed commitment.cut commitment.closes
  have newline : newlineOf commitment.canonical = newlineOf commitment.lines :=
    commitment.framedCanonical.newline.trans commitment.framed.newline.symm
  rw [renderSkillPrimary, commitment.ordered, injectAdvisoryComment_framed cut commitment.framedCanonical, newline]
  by_cases short : commitment.canonical.length < 4
  · rw [if_pos short]
    constructor
    · intro impossible
      cases impossible
    · intro both
      exact absurd both.1 (Nat.not_le.mpr short)
  · rw [if_neg short, Except.ok.injEq]
    constructor
    · intro same
      have lines := lines_injective (lines_advised cut (newlineOf_cases _) commitment.known (reads_storable commitment.reads)) commitment.cut same
      rw [List.cons.injEq, append_cancel_right_eq, append_cancel_left_eq] at lines
      exact ⟨Nat.not_lt.mp short, lines.2⟩
    · rintro ⟨_, same⟩
      rw [same]
      rfl

end

/-! The spelling of a commitment -/

def isResourceLine (line : List Char) : Bool := (behind resourceLead (stripEnd line)).isSome

def commitmentLines (lines : List (List Char)) : List (List Char) :=
  let above := (lines.take ((delimiterIndex lines).getD 0)).tail.reverse
  above.take ((above.takeWhile isResourceLine).length + 1)

/-- Four lines stand around the commitment, its lines end as the first line does, and its paths are spelled as `json.dumps` spells them. -/
structure Spelled (lines : List (List Char)) : Prop where
  long : (commitmentLines lines).length + 4 ≤ lines.length
  ends : ∀ line ∈ commitmentLines lines, lineEnd line = newlineOf lines
  paths : ∀ line ∈ commitmentLines lines, isResourceLine line = true →
    ∀ path, loadsPoints (encodedPath line) = some path → encodedPath line = dumpsPoints path

def SpelledAsRendered (content : Bytes) : Prop := ∃ text, decodeUtf8 content = some text ∧ Spelled (cutLines endsLine text)

section
variable {upper : Points → Points} {sideEffectClass newline : List Char} {resources : List ResourceHash} {written : List (List Char)}

theorem written_resources (reads : List.Forall₂ (Reads upper) written resources) : ∀ line ∈ written, isResourceLine line = true := by
  induction reads with
  | nil => exact forall_mem_nil _
  | cons read _ ih =>
    intro line member
    cases mem_cons.mp member with
    | inl same =>
      obtain ⟨rest, leads, _⟩ := read
      rw [same, isResourceLine, leads, Option.isSome_some]
    | inr inside => exact ih line inside

theorem written_iff (reads : List.Forall₂ (Reads upper) written resources) (ending : newline = ['\r', '\n'] ∨ newline = ['\n']) :
    resources.map (resourceLine newline) = written ↔
      ∀ line ∈ written, lineEnd line = newline ∧ ∀ path, loadsPoints (encodedPath line) = some path → encodedPath line = dumpsPoints path := by
  induction reads with
  | nil => simp
  | cons read _ ih =>
    obtain ⟨_, loaded, _⟩ := read.spec
    rw [map_cons, List.cons.injEq, ih, read.written_iff ending, forall_mem_cons, loaded]
    simp only [Option.some.injEq, forall_eq']

theorem Commitment.lines_of (commitment : Commitment upper sideEffectClass resources) :
    commitmentLines commitment.lines = commitment.written.reverse ++ [commitment.side] := by
  have above : (commitment.above ++ commitment.side :: commitment.written).reverse =
      commitment.written.reverse ++ commitment.side :: commitment.above.reverse := by simp
  have taken : (commitment.written.reverse ++ commitment.side :: commitment.above.reverse).takeWhile isResourceLine = commitment.written.reverse := by
    rw [takeWhile_append_of_pos fun line member => written_resources commitment.reads line (mem_reverse.mp member),
      takeWhile_cons_of_neg (by rw [isResourceLine, commitment.stops]; decide), append_nil]
  rw [commitmentLines, commitment.framed.index, Option.getD_some, commitment.framed.take, tail_cons, above, taken, take_length_add_append, take_succ_cons, take_zero]

theorem Commitment.spelled_iff (commitment : Commitment upper sideEffectClass resources) :
    Spelled commitment.lines ↔ 4 ≤ commitment.canonical.length ∧
      advisories (newlineOf commitment.lines) sideEffectClass resources = commitment.side :: commitment.written := by
  have lengths : commitment.lines.length = (commitmentLines commitment.lines).length + commitment.canonical.length := by
    rw [commitment.lines_of, Commitment.lines, Commitment.canonical]
    simp only [length_cons, length_append, length_reverse, length_nil]
    omega
  have members : ∀ line, line ∈ commitmentLines commitment.lines ↔ line ∈ commitment.written ∨ line = commitment.side := by
    intro line
    rw [commitment.lines_of, mem_append, mem_reverse, mem_singleton]
  rw [advisories, List.cons.injEq, sideEffectLine_iff commitment.leads commitment.known (newlineOf_cases _),
    written_iff commitment.reads (newlineOf_cases _)]
  constructor
  · intro spelled
    refine ⟨by have := spelled.long; omega, spelled.ends _ ((members _).mpr (Or.inr rfl)), ?_⟩
    intro line member
    have held := (members line).mpr (Or.inl member)
    exact ⟨spelled.ends line held, spelled.paths line held (written_resources commitment.reads line member)⟩
  · rintro ⟨long, side, written⟩
    refine ⟨by omega, ?_, ?_⟩
    · intro line held
      cases (members line).mp held with
      | inl member => exact (written line member).1
      | inr same => exact same ▸ side
    · intro line held resource
      cases (members line).mp held with
      | inl member => exact (written line member).2
      | inr same =>
        rw [same, isResourceLine, commitment.stops] at resource
        cases resource

end

/-! The codec -/

def HasFrontmatter (content : Bytes) : Prop :=
  ∃ text, decodeUtf8 content = some text ∧ 4 ≤ (cutLines endsLine text).length ∧ (cutLines endsLine text).head?.any isFence = true ∧
    (delimiterIndex (cutLines endsLine text)).isSome = true

theorem HasFrontmatter.framed {content : Bytes} (held : HasFrontmatter content) :
    ∃ lines first front fence body, content = encodeUtf8 lines.flatten ∧ Lines endsLine lines ∧ 4 ≤ lines.length ∧
      Framed lines first front fence body := by
  obtain ⟨text, decoded, long, head, closed⟩ := held
  obtain ⟨index, found⟩ := Option.isSome_iff_exists.mp closed
  obtain ⟨first, front, fence, body, framed, _⟩ := framed_of_index head found
  exact ⟨cutLines endsLine text, first, front, fence, body, by rw [cutLines_flatten, encodeUtf8_decodeUtf8 decoded], lines_cutLines text, long, framed⟩

def Resources (upper : Points → Points) (resources : List ResourceHash) : Prop :=
  ∀ resource ∈ resources, validateRelativePath upper resource.1 = .ok resource.1 ∧ Storable resource

section
variable {upper : Points → Points} {newline : List Char} {resource : ResourceHash}

theorem resourceLine_reads (valid : validateRelativePath upper resource.1 = .ok resource.1) (storable : Storable resource)
    (ending : newline = ['\r', '\n'] ∨ newline = ['\n']) : Reads upper (resourceLine newline resource) resource ↔ Unpaired resource.1 := by
  have whole : resourceText resource = resourceLead ++ (resource.2 ++ ' ' :: dumpsPoints resource.1) := append_assoc _ _ _
  have loaded := loadsPoints_dumpsPoints storable.2
  constructor
  · intro reads
    have path := ((reads.written_iff ending).mp rfl).2
    have read := reads.spec.2.1
    rw [path, loaded, Option.some.injEq] at read
    exact (joinPairs_eq_iff resource.1).mp read
  · intro unpaired
    rw [(joinPairs_eq_iff resource.1).mpr unpaired] at loaded
    have stripped := (written_strip (resourceText_visible storable) (by rw [whole]; exact cons_ne_nil _ _) ending).1
    rw [← resourceLine_eq] at stripped
    exact ⟨_, behind_eq_some.mpr (stripped.trans whole), readResource_spec.mpr ⟨_, rfl, storable.1, loaded, valid⟩⟩

end

section
variable {upper : Points → Points} {sideEffectClass : List Char} {resources : List ResourceHash}

theorem parse_rendered_iff {canonical : Bytes} (frontmatter : HasFrontmatter canonical) (known : sideEffectClass ∈ sideEffectClasses)
    (valid : Resources upper resources) (distinct : (resources.map Prod.fst).Nodup) :
    ∃ rendered, renderSkillPrimary canonical sideEffectClass resources = .ok rendered ∧
      (parseRenderedSkillPrimary upper rendered = some (canonical, sideEffectClass, sortedBy ResourceHash.key resources) ↔
        ∀ resource ∈ resources, Unpaired resource.1) := by
  obtain ⟨lines, first, front, fence, body, rfl, cut, long, framed⟩ := frontmatter.framed
  have spelled := framed.spelled
  subst spelled
  have permuted : (sortedBy ResourceHash.key resources).Perm resources := sortedBy_perm ResourceHash.key resources
  have storable : ∀ resource ∈ sortedBy ResourceHash.key resources, Storable resource :=
    fun resource member => (valid resource (mem_sortedBy.mp member)).2
  rw [renderSkillPrimary, injectAdvisoryComment_framed cut framed, if_neg (Nat.not_lt.mpr long)]
  refine ⟨_, rfl, ?_⟩
  rw [parseRenderedSkillPrimary_spec]
  have ending := newlineOf_cases (first :: (front ++ fence :: body))
  generalize newlineOf (first :: (front ++ fence :: body)) = newline at ending ⊢
  have advised := lines_advised cut ending known storable
  have inside : ∀ line ∈ front ++ advisories newline sideEffectClass (sortedBy ResourceHash.key resources),
      isFence line = false := by
    intro line member
    cases mem_append.mp member with
    | inl held => exact framed.inside line held
    | inr held =>
      obtain ⟨rest, rfl, visible⟩ := advisory_text known storable held
      rw [isFence, (written_strip visible (cons_ne_nil _ _) ending).1]
      rfl
  constructor
  · rintro ⟨commitment, same, _⟩ resource member
    have equal := lines_injective advised commitment.cut same
    have rendered : Framed commitment.lines first (front ++ advisories newline sideEffectClass (sortedBy ResourceHash.key resources)) fence body :=
      ⟨equal.symm, framed.opens, inside, framed.closes⟩
    have frames := rendered.unique commitment.framed
    have written : commitment.written = (sortedBy ResourceHash.key resources).map (resourceLine newline) := by
      have lengths : (front ++ [sideEffectLine newline sideEffectClass]).length = (commitment.above ++ [commitment.side]).length := by
        have whole := congrArg List.length frames.2.1
        have same := commitment.reads.length_eq
        simp only [advisories, length_append, length_cons, length_map] at whole
        simp only [length_append, length_cons, length_nil]
        omega
      have split := frames.2.1
      rw [advisories, append_cons, append_cons commitment.above] at split
      exact (append_inj split lengths).2.symm
    have reads := commitment.reads
    rw [written, forall₂_map_left_iff, forall₂_same] at reads
    have found := valid resource member
    exact (resourceLine_reads found.1 found.2 ending).mp (reads resource (mem_sortedBy.mpr member))
  · intro unpaired
    have reads : List.Forall₂ (Reads upper) ((sortedBy ResourceHash.key resources).map (resourceLine newline))
        (sortedBy ResourceHash.key resources) := by
      rw [forall₂_map_left_iff, forall₂_same]
      intro resource member
      have found := valid resource (mem_sortedBy.mp member)
      exact (resourceLine_reads found.1 found.2 ending).mpr (unpaired resource (mem_sortedBy.mp member))
    have single : (sortedBy ResourceHash.key resources).dedup = sortedBy ResourceHash.key resources :=
      (permuted.nodup_iff.mpr (List.Nodup.of_map Prod.fst distinct)).dedup
    have leads : behind sideEffectLead (stripEnd (sideEffectLine newline sideEffectClass)) = some sideEffectClass := by
      rw [sideEffectLine, (written_strip (sideEffectLead_visible.append (sideEffectClasses_visible known)) (cons_ne_nil _ _) ending).1]
      exact behind_eq_some.mpr rfl
    have longer : 4 ≤ (first :: ((front ++ advisories newline sideEffectClass
        (sortedBy ResourceHash.key resources)) ++ fence :: body)).length := by
      simp only [length_cons, length_append] at long ⊢
      omega
    exact ⟨⟨first, front, _, _, fence, body, framed.opens, inside, framed.closes, leads, known, reads,
      by rw [single, sortedBy_sortedBy], advised, longer⟩, rfl, rfl⟩

end

/-- What is rendered is read back where no surrogate pair stands in a path as two code points; what is accepted was rendered from what it is
read as where its commitment is spelled as the renderer spells it. -/
theorem rendered_skill_iff (upper : Points → Points) :
    (∀ canonical sideEffectClass resources, HasFrontmatter canonical → sideEffectClass ∈ sideEffectClasses → Resources upper resources →
      (resources.map Prod.fst).Nodup →
      ∃ rendered, renderSkillPrimary canonical sideEffectClass resources = .ok rendered ∧
        (parseRenderedSkillPrimary upper rendered = some (canonical, sideEffectClass, sortedBy ResourceHash.key resources) ↔
          ∀ resource ∈ resources, Unpaired resource.1)) ∧
    (∀ content canonical sideEffectClass resources, parseRenderedSkillPrimary upper content = some (canonical, sideEffectClass, resources) →
      (renderSkillPrimary canonical sideEffectClass resources = .ok content ↔ SpelledAsRendered content)) := by
  constructor
  · intro canonical sideEffectClass resources frontmatter known valid distinct
    exact parse_rendered_iff frontmatter known valid distinct
  · intro content canonical sideEffectClass resources accepted
    obtain ⟨commitment, rfl, rfl⟩ := parseRenderedSkillPrimary_spec.mp accepted
    have same : cutLines endsLine commitment.lines.flatten = commitment.lines := commitment.cut
    have spelled : SpelledAsRendered (encodeUtf8 commitment.lines.flatten) ↔ Spelled commitment.lines := by
      rw [SpelledAsRendered, decodeUtf8_encodeUtf8]
      simp only [Option.some.injEq, exists_eq_left', same]
    rw [spelled, commitment.spelled_iff, commitment.rendered_iff]

/-- `str.upper` on ASCII -/
def asciiUpper (text : Points) : Points := text.map fun code => if 97 ≤ code ∧ code ≤ 122 then code - 32 else code

def sampleDigest : List Char := "sha256:0123456789abcdef0123456789abcdef0123456789abcdef0123456789abcdef".toList

def sampleText : List Char := "---\nname: notes\n---\nbody\n".toList

def sampleResource : ResourceHash := (pointsOf "a", sampleDigest)

theorem rendered_skill_sample :
    ∃ rendered, renderSkillPrimary (encodeUtf8 sampleText) "read_only".toList [sampleResource] = .ok rendered ∧
      (parseRenderedSkillPrimary asciiUpper rendered = some (encodeUtf8 sampleText, "read_only".toList, sortedBy ResourceHash.key [sampleResource]) ↔
        ∀ resource ∈ [sampleResource], Unpaired resource.1) := by
  have frontmatter : HasFrontmatter (encodeUtf8 sampleText) := ⟨sampleText, decodeUtf8_encodeUtf8 sampleText, by decide, by decide, by decide⟩
  have valid : Resources asciiUpper [sampleResource] := by
    intro resource member
    rw [List.mem_singleton.mp member]
    exact ⟨rfl, by decide, by decide⟩
  exact (rendered_skill_iff asciiUpper).1 (encodeUtf8 sampleText) "read_only".toList [sampleResource] frontmatter (by decide) valid (by simp)

/-- The path `a`, spelled with an escape -/
def escapedLine : List Char := resourceLead ++ sampleDigest ++ " \"\\u0061\"\n".toList

def escapedSkill : Commitment asciiUpper "read_only".toList [sampleResource] where
  first := "---\n".toList
  above := ["name: notes\n".toList]
  side := "# workctx-side-effect-class: read_only\n".toList
  written := [escapedLine]
  fence := "---\n".toList
  body := ["body\n".toList]
  opens := by decide
  inside := by decide
  closes := by decide
  leads := by decide
  known := by decide
  reads := List.Forall₂.cons ⟨sampleDigest ++ " \"\\u0061\"".toList, by decide, by rfl⟩ List.Forall₂.nil
  sorted := by simp [sortedBy]
  cut := by unfold Lines; decide
  long := by decide

/-- A file that is accepted and was not rendered from what is read. -/
theorem escaped_path_accepted : ¬ ∀ content canonical sideEffectClass resources,
    parseRenderedSkillPrimary asciiUpper content = some (canonical, sideEffectClass, resources) →
      renderSkillPrimary canonical sideEffectClass resources = .ok content := by
  intro rendered
  have accepted := parseRenderedSkillPrimary_spec.mpr ⟨escapedSkill, rfl, rfl⟩
  have advised := (escapedSkill.rendered_iff.mp (rendered _ _ _ _ accepted)).2
  exact absurd advised (by decide)

end Workctx.Adapters
