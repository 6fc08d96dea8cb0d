import Workctx.Leases.Adapter

/-! Takeovers, heartbeats and releases that nobody comes between spare the records of the others. -/

namespace Workctx.Leases
open Workctx.Concurrent List

section
variable (site : Site)

/-- The owner's record is at the lock path, or the owner released it, or it was taken over after it was judged stale. -/
def Held (nonce : Nat) (root : Root) : Prop :=
  (∃ file, root.lookup .lock = some file ∧ file.nonce = some nonce) ∨ (∃ old, .removed nonce old ∈ root.history) ∨
    ∃ judgement judged moved, .archived judgement judged moved ∈ root.history ∧ moved.nonce = some nonce ∧
      (inspectAdapterLock site judgement judged).stale = true

def Proper (root : Root) : Change → Prop
  | .acquired nonce => Held site nonce root
  | .archived judgement judged moved => (inspectAdapterLock site judgement judged).stale = true ∧
    moved.identity = judged.identity ∧ moved.content = judged.content
  | .replaced nonce old => ∀ file, old = some file → file.nonce = some nonce
  | .removed nonce old => old.nonce = some nonce

/-- A takeover archives the record it judged stale, a heartbeat replaces and a release removes the owner's own, and the
record of an owner stays until it is released or taken over. -/
def Fenced (root : Root) : Prop := ∀ change ∈ root.history, Proper site root change

/-- From the last look of a process at the lock path to its rename or removal there nobody changes what is there. -/
def Undisturbed : Note → Root → Root → Prop
  | .plain, _, _ => True
  | .bound version, before, _ => before.version = version

def undisturbed : Note → Root → Root → Bool
  | .plain, _, _ => true
  | .bound version, before, _ => before.version == version

/-- The files with names are known ones, and a file holds what it was created for once it is written. -/
structure Sound (root : Root) : Prop where
  fenced : Fenced site root
  named : ∀ path number, root.names path = some (.made number) → number < root.next
  written : ∀ number < root.next, (root.objects (.made number)).content = .empty ∨
    (root.objects (.made number)).content = root.intended (.made number)

structure Stays (before after : Root) : Prop where
  version : before.version ≤ after.version
  same : after.version = before.version → after.lookup .lock = before.lookup .lock
  next : before.next ≤ after.next
  intended : ∀ number < before.next, after.intended (.made number) = before.intended (.made number)
  filled : ∀ number < before.next, (before.objects (.made number)).content = before.intended (.made number) →
    (after.objects (.made number)).content = after.intended (.made number)
  held : ∀ nonce, Sound site before → Held site nonce before → Held site nonce after
  sound : Sound site before → Sound site after

end

section
variable {site : Site} {root before after : Root} {path : Path}

theorem Stays.refl (root : Root) : Stays site root root :=
  ⟨Nat.le_refl _, fun _ => rfl, Nat.le_refl _, fun _ _ => rfl, fun _ _ filled => filled, fun _ _ held => held, id⟩

theorem Stays.trans {one two three : Root} (first : Stays site one two) (second : Stays site two three) : Stays site one three where
  version := Nat.le_trans first.version second.version
  same := by
    intro unchanged
    have middle : two.version = one.version := by
      have := first.version
      have := second.version
      omega
    rw [second.same (unchanged.trans middle.symm), first.same middle]
  next := Nat.le_trans first.next second.next
  intended := by
    intro number known
    rw [second.intended number (Nat.lt_of_lt_of_le known first.next), first.intended number known]
  filled := fun number known filled =>
    second.filled number (Nat.lt_of_lt_of_le known first.next) (first.filled number known filled)
  held := fun nonce sound held => second.held nonce (first.sound sound) (first.held nonce sound held)
  sound := fun sound => second.sound (first.sound sound)

def discipline (site : Site) : Discipline Root Note where
  allowed := Undisturbed
  sound := Sound site
  step := Stays site
  stays := Stays site
  still := Stays.refl
  related := id
  trans := Stays.trans
  kept := Stays.sound

/-! Steps. -/

/-- What an entry says stays proper where the owners keep what they hold. -/
theorem Proper.later {change : Change} (held : ∀ nonce, Held site nonce before → Held site nonce after)
    (proper : Proper site before change) : Proper site after change := by
  cases change with
  | acquired nonce => exact held nonce proper
  | archived judgement judged moved => exact proper
  | replaced nonce old => exact proper
  | removed nonce old => exact proper

theorem Fenced.later (fenced : Fenced site before) (same : after.history = before.history)
    (held : ∀ nonce, Held site nonce before → Held site nonce after) : Fenced site after := by
  intro change member
  rw [same] at member
  exact (fenced change member).later held

theorem Fenced.extend (fenced : Fenced site before) {change : Change} (same : after.history = change :: before.history)
    (held : ∀ nonce, Held site nonce before → Held site nonce after) (proper : Proper site after change) : Fenced site after := by
  intro entry member
  rw [same] at member
  rcases mem_cons.mp member with new | old
  · rw [new]
    exact proper
  · exact (fenced entry old).later held

theorem Root.lookup_link_other {other : Path} (handle : Option Handle) (apart : other ≠ path) :
    (root.link path handle).lookup other = root.lookup other := by
  unfold Root.lookup Root.link
  dsimp only
  rw [Function.update_of_ne apart]

section
variable (sound : Sound site root)
include sound

theorem Sound.lookup_create (content : Content) (file : LockFile) :
    (root.create content file).lookup path = root.lookup path := by
  unfold Root.lookup Root.create
  dsimp only
  cases named : root.names path with
  | none => rfl
  | some handle =>
    have other : handle ≠ .made root.next := by
      intro same
      have := sound.named path root.next (same ▸ named)
      omega
    simp only [Option.map_some]
    rw [Function.update_of_ne other]

theorem Sound.create {content : Content} {file : LockFile}
    (fits : file.content = .empty ∨ file.content = content) : Stays site root (root.create content file) := by
  have lock : (root.create content file).lookup .lock = root.lookup .lock := sound.lookup_create content file
  have held : ∀ nonce, Held site nonce root → Held site nonce (root.create content file) := by
    intro nonce held
    unfold Held at held ⊢
    rw [lock]
    exact held
  have next : (root.create content file).next = root.next + 1 := rfl
  have other : ∀ number < root.next, Handle.made number ≠ .made root.next := by
    intro number known same
    cases same
    omega
  refine ⟨Nat.le_refl _, fun _ => lock, by omega, ?_, ?_, fun nonce _ => held nonce, fun _ => ?_⟩
  · intro number known
    exact Function.update_of_ne (other number known) _ _
  · intro number known filled
    unfold Root.create
    simp only [Function.update_of_ne (other number known)]
    exact filled
  · refine ⟨sound.fenced.later rfl held, ?_, ?_⟩
    · intro path number named
      have := sound.named path number named
      omega
    · intro number known
      by_cases same : number = root.next
      · subst same
        unfold Root.create
        simp only [Function.update_self]
        exact fits
      · have earlier : number < root.next := by omega
        unfold Root.create
        simp only [Function.update_of_ne (other number earlier)]
        exact sound.written number earlier

/-- A name elsewhere than at the lock path is given to a known file or taken away. -/
theorem Sound.link_archive {stamp : Int} {evidence : Evidence} {handle : Option Handle}
    (known : ∀ number, handle = some (.made number) → number < root.next) :
    Stays site root (root.link (.archive stamp evidence) handle) := by
  have lock : (root.link (.archive stamp evidence) handle).lookup .lock = root.lookup .lock :=
    Root.lookup_link_other handle (by simp)
  have held : ∀ nonce, Held site nonce root → Held site nonce (root.link (.archive stamp evidence) handle) := by
    intro nonce held
    unfold Held at held ⊢
    rw [lock]
    exact held
  refine ⟨Nat.le_refl _, fun _ => lock, Nat.le_refl _, fun _ _ => rfl, fun _ _ filled => filled, fun nonce _ => held nonce,
    fun _ => ?_⟩
  refine ⟨sound.fenced.later rfl held, ?_, sound.written⟩
  intro path number named
  by_cases same : path = .archive stamp evidence
  · subst same
    unfold Root.link at named
    simp only [Function.update_self] at named
    exact known number named
  · unfold Root.link at named
    simp only [Function.update_of_ne same] at named
    exact sound.named path number named

/-- Another file or none is given the lock path, which is logged. -/
theorem Sound.change (handle : Option Handle) (change : Change)
    (known : ∀ number, handle = some (.made number) → number < root.next)
    (proper : Proper site { root.link .lock handle with history := change :: root.history } change)
    (held : ∀ nonce, Held site nonce root → Held site nonce { root.link .lock handle with history := change :: root.history }) :
    Stays site root { root.link .lock handle with history := change :: root.history } := by
  have version : (root.link .lock handle).version = root.version + 1 := rfl
  refine ⟨?_, ?_, Nat.le_refl _, fun _ _ => rfl, fun _ _ filled => filled, fun nonce _ => held nonce, fun _ =>
    ⟨sound.fenced.extend rfl held proper, ?_, sound.written⟩⟩
  · change root.version ≤ (root.link .lock handle).version
    omega
  · intro unchanged
    change (root.link .lock handle).version = root.version at unchanged
    omega
  · intro path number named
    by_cases same : path = .lock
    · subst same
      change Function.update root.names .lock handle .lock = some (.made number) at named
      rw [Function.update_self] at named
      exact known number named
    · change Function.update root.names .lock handle path = some (.made number) at named
      rw [Function.update_of_ne same] at named
      exact sound.named path number named

variable {handle : Handle}

theorem Sound.rename_archive {stamp : Int} {evidence : Evidence} {judgement : Judgement}
    {judged : LockFile} (there : root.names .lock = some handle) (stale : (inspectAdapterLock site judgement judged).stale = true)
    (same : (root.objects handle).identity = judged.identity ∧ (root.objects handle).content = judged.content) :
    Stays site root { (root.link (.archive stamp evidence) (some handle)).link .lock none with
      history := .archived judgement judged (root.objects handle) :: root.history } := by
  have linked : Stays site root (root.link (.archive stamp evidence) (some handle)) := by
    apply sound.link_archive
    intro number made
    cases made
    exact sound.named .lock number there
  have file : (root.link (.archive stamp evidence) (some handle)).lookup .lock = some (root.objects handle) := by
    rw [Root.lookup_link_other _ (by simp)]
    unfold Root.lookup
    rw [there]
    rfl
  apply linked.trans
  apply (linked.sound sound).change none (.archived judgement judged (root.objects handle))
  · intro number none
    cases none
  · exact ⟨stale, same⟩
  · intro nonce held
    rcases held with ⟨found, there, own⟩ | ⟨old, gone⟩ | ⟨other, before, moved, gone, own, was⟩
    · rw [file] at there
      cases there
      exact .inr (.inr ⟨judgement, judged, _, mem_cons_self, own, stale⟩)
    · exact .inr (.inl ⟨old, mem_cons_of_mem _ gone⟩)
    · exact .inr (.inr ⟨other, before, moved, mem_cons_of_mem _ gone, own, was⟩)

theorem Sound.rename_lock {nonce number : Nat} (made : handle = .made number)
    (known : number < root.next) (own : (root.objects handle).nonce = some nonce)
    (old : ∀ file, root.lookup .lock = some file → file.nonce = some nonce) :
    Stays site root { root.link .lock (some handle) with history := .replaced nonce (root.lookup .lock) :: root.history } := by
  apply sound.change (some handle) (.replaced nonce (root.lookup .lock))
  · intro other same
    cases made.symm.trans (Option.some.inj same)
    exact known
  · exact old
  · intro other held
    rcases held with ⟨file, found, its⟩ | ⟨file, gone⟩ | ⟨judgement, judged, moved, gone, its, was⟩
    · have same : other = nonce := Option.some.inj (its.symm.trans (old file found))
      subst same
      refine .inl ⟨root.objects handle, ?_, own⟩
      change (Function.update root.names .lock (some handle) .lock).map root.objects = some (root.objects handle)
      rw [Function.update_self]
      rfl
    · exact .inr (.inl ⟨file, mem_cons_of_mem _ gone⟩)
    · exact .inr (.inr ⟨judgement, judged, moved, mem_cons_of_mem _ gone, its, was⟩)

theorem Sound.remove_lock {nonce : Nat} {file : LockFile} (there : root.lookup .lock = some file)
    (own : file.nonce = some nonce) :
    Stays site root { root.link .lock none with history := .removed nonce file :: root.history } := by
  apply sound.change none (.removed nonce file)
  · intro number none
    cases none
  · exact own
  · intro other held
    rcases held with ⟨found, at_, its⟩ | ⟨old, gone⟩ | ⟨judgement, judged, moved, gone, its, was⟩
    · rw [there] at at_
      cases at_
      have same : other = nonce := Option.some.inj (its.symm.trans own)
      subst same
      exact .inr (.inl ⟨file, mem_cons_self⟩)
    · exact .inr (.inl ⟨old, mem_cons_of_mem _ gone⟩)
    · exact .inr (.inr ⟨judgement, judged, moved, mem_cons_of_mem _ gone, its, was⟩)

theorem Sound.log {nonce : Nat} (own : Held site nonce root) :
    Stays site root { root with history := .acquired nonce :: root.history } := by
  have held : ∀ nonce', Held site nonce' root → Held site nonce' { root with history := .acquired nonce :: root.history } := by
    intro other held
    rcases held with there | ⟨old, gone⟩ | ⟨judgement, judged, moved, gone, its, was⟩
    · exact .inl there
    · exact .inr (.inl ⟨old, mem_cons_of_mem _ gone⟩)
    · exact .inr (.inr ⟨judgement, judged, moved, mem_cons_of_mem _ gone, its, was⟩)
  refine ⟨Nat.le_refl _, fun _ => rfl, Nat.le_refl _, fun _ _ => rfl, fun _ _ filled => filled, fun nonce _ => held nonce,
    fun _ => ⟨sound.fenced.extend rfl held (held nonce own), sound.named, sound.written⟩⟩

theorem Sound.claim {number : Nat} (made : handle = .made number)
    (known : number < root.next) (absent : root.names .lock = none) : Stays site root (root.link .lock (some handle)) := by
  have version : (root.link .lock (some handle)).version = root.version + 1 := rfl
  have nothing : root.lookup .lock = none := by
    unfold Root.lookup
    rw [absent]
    rfl
  have held : ∀ nonce, Held site nonce root → Held site nonce (root.link .lock (some handle)) := by
    intro nonce held
    rcases held with ⟨file, found, _⟩ | gone
    · rw [nothing] at found
      cases found
    · exact .inr gone
  refine ⟨by omega, by omega, Nat.le_refl _, fun _ _ => rfl, fun _ _ filled => filled, fun nonce _ => held nonce, fun _ =>
    ⟨sound.fenced.later rfl held, ?_, sound.written⟩⟩
  intro path other named
  by_cases same : path = .lock
  · subst same
    unfold Root.link at named
    simp only [Function.update_self] at named
    cases made.symm.trans (Option.some.inj named)
    exact known
  · unfold Root.link at named
    simp only [Function.update_of_ne same] at named
    exact sound.named path other named

theorem Sound.write {number : Nat} {content : Content} (modified : Int)
    (made : handle = .made number) (known : number < root.next) (meant : root.intended handle = content) :
    Stays site root { root with
      objects := Function.update root.objects handle ⟨(root.objects handle).identity, content, modified⟩
      version := if root.names .lock = some handle then root.version + 1 else root.version } := by
  subst made
  have other : ∀ path, root.names path ≠ some (.made number) →
      (root.names path).map (Function.update root.objects (.made number) ⟨(root.objects (.made number)).identity, content, modified⟩) =
        root.lookup path := by
    intro path apart
    unfold Root.lookup
    cases named : root.names path with
    | none => rfl
    | some handle =>
      have different : handle ≠ .made number := by
        intro same
        exact apart (same ▸ named)
      simp only [Option.map_some]
      rw [Function.update_of_ne different]
  have held : ∀ nonce, Held site nonce root → Held site nonce { root with
      objects := Function.update root.objects (.made number) ⟨(root.objects (.made number)).identity, content, modified⟩
      version := if root.names .lock = some (.made number) then root.version + 1 else root.version } := by
    intro nonce held
    rcases held with ⟨file, found, own⟩ | gone
    · by_cases written : root.names .lock = some (.made number)
      · -- A record there is the one that is written once more.
        unfold Root.lookup at found
        rw [written] at found
        cases found
        rcases sound.written number known with empty | full
        · unfold LockFile.nonce at own
          rw [empty] at own
          cases own
        · refine .inl ⟨⟨(root.objects (.made number)).identity, content, modified⟩, ?_, ?_⟩
          · unfold Root.lookup
            dsimp only
            rw [written]
            simp
          · unfold LockFile.nonce at own ⊢
            rw [full, meant] at own
            exact own
      · exact .inl ⟨file, (other .lock written).trans found, own⟩
    · exact .inr gone
  have different : ∀ object, object ≠ number → Handle.made object ≠ .made number := by
    intro object apart same
    cases same
    exact apart rfl
  refine ⟨?_, ?_, Nat.le_refl _, fun _ _ => rfl, ?_, fun nonce _ => held nonce, fun _ =>
    ⟨sound.fenced.later rfl held, sound.named, ?_⟩⟩
  · dsimp only
    split <;> omega
  · intro unchanged
    dsimp only at unchanged
    apply other .lock
    intro written
    rw [if_pos written] at unchanged
    omega
  · intro object there filled
    by_cases same : object = number
    · subst same
      simp only [Function.update_self]
      exact meant.symm
    · simp only [Function.update_of_ne (different object same)]
      exact filled
  · intro object there
    by_cases same : object = number
    · subst same
      simp only [Function.update_self]
      exact .inr meant.symm
    · simp only [Function.update_of_ne (different object same)]
      exact sound.written object there

end

end

/-! Clients. -/

section
variable {site : Site} {start root after : Root} {path : Path} {α : Type}

abbrev Behaves (site : Site) (client : LockClient α) (start : Root) (post : α → Root → Prop) : Prop :=
  (discipline site).Behaves client start post

def Saw (site : Site) (seen : Option LockFile × Nat) (root : Root) : Prop :=
  ∃ moment, seen = (moment.lookup .lock, moment.version) ∧ Sound site moment ∧ Stays site moment root

variable {seen : Option LockFile × Nat} {stamp : Int} {lock : AdapterLock}

theorem Saw.later (saw : Saw site seen root) (stays : Stays site root after) : Saw site seen after := by
  obtain ⟨moment, same, sound, before⟩ := saw
  exact ⟨moment, same, sound, before.trans stays⟩

theorem Saw.still (saw : Saw site seen root) (same : root.version = seen.2) :
    root.lookup .lock = seen.1 := by
  obtain ⟨moment, equal, _, stays⟩ := saw
  rw [equal] at same ⊢
  exact stays.same same

theorem inspectLock_behaves : Behaves site (inspectFile .lock) start fun seen root => Saw site seen root ∧ Stays site start root := by
  apply behaves_observe
  intro state later sound stays further
  exact ⟨⟨state, rfl, stays.sound sound, further⟩, stays.trans further⟩

theorem inspectFile_behaves : Behaves site (inspectFile path) start fun _ root => Stays site start root := behaves_look

def Created (handle : Handle) (content : Content) (root : Root) : Prop :=
  ∃ number, handle = .made number ∧ number < root.next ∧ root.intended handle = content

variable {content : Content} {evidence : Evidence}

theorem Created.later {handle : Handle} (created : Created handle content root) (stays : Stays site root after) :
    Created handle content after := by
  obtain ⟨number, made, known, meant⟩ := created
  refine ⟨number, made, Nat.lt_of_lt_of_le known stays.next, ?_⟩
  subst made
  exact (stays.intended number known).trans meant

theorem Sound.created {file : LockFile} : Created (.made root.next) content (root.create content file) := by
  refine ⟨root.next, rfl, Nat.lt_succ_self _, ?_⟩
  change Function.update root.intended (.made root.next) content (.made root.next) = content
  rw [Function.update_self]

theorem openExclusive_behaves :
    Behaves site (openExclusive site path content) start fun handle root => Created handle content root := by
  apply behaves_transact
  intro state handle after later sound stays opened _
  split at opened
  · cases opened
  · next absent =>
    cases opened
    have created : Stays site state (state.create content ⟨site.identity state.next, .empty, site.createdNs state.next⟩) :=
      sound.create (.inl rfl)
    have made : Created (.made state.next) content (state.create content ⟨site.identity state.next, .empty, site.createdNs state.next⟩) :=
      Sound.created
    have linked : Stays site (state.create content ⟨site.identity state.next, .empty, site.createdNs state.next⟩)
        ((state.create content ⟨site.identity state.next, .empty, site.createdNs state.next⟩).link path (some (.made state.next))) := by
      cases path with
      | lock => exact (created.sound sound).claim rfl (Nat.lt_succ_self _) absent
      | archive stamp evidence =>
        apply (created.sound sound).link_archive
        intro number same
        cases same
        exact Nat.lt_succ_self _
    exact ⟨created.trans linked, fun further => (made.later linked).later further⟩

theorem writeDescriptor_behaves {handle : Handle} (created : Created handle content start) :
    Behaves site (writeDescriptor site handle content) start fun _ root => Stays site start root := by
  apply behaves_act
  intro state sound stays _
  obtain ⟨number, made, known, meant⟩ := created.later stays
  have step := sound.write (site.writtenNs handle) made known meant
  exact ⟨step, behaves_ret fun later _ further => (stays.trans step).trans further⟩

theorem writeExclusive_behaves :
    Behaves site (writeExclusive site path content) start fun file root =>
      file.content = content ∧ (path = .lock → ∀ nonce, file.nonce = some nonce → Held site nonce root) := by
  apply behaves_bind openExclusive_behaves
  intro handle state _ created
  apply behaves_bind behaves_look
  intro opened state' _ stays
  apply behaves_bind inspectFile_behaves
  intro linked state'' _ stays'
  split
  · exact behaves_raise
  · apply behaves_bind behaves_ensure
    intro _ third _ tested
    apply behaves_bind (writeDescriptor_behaves (((created.later stays).later stays').later tested.2))
    intro _ fourth sound _
    have seen : Behaves site (inspectFile path) fourth fun seen root => ∀ file, seen.1 = some file →
        path = .lock → ∀ nonce, file.nonce = some nonce → Held site nonce root := by
      apply behaves_observe
      intro moment later sound stays further file found same nonce own
      subst same
      exact further.held nonce (stays.sound sound) (.inl ⟨file, found, own⟩)
    apply behaves_bind seen
    intro snapshot fifth soundFifth holds
    split
    · exact behaves_raise
    · next file found =>
      apply behaves_bind behaves_ensure
      intro _ sixth soundSixth both
      apply behaves_ret
      intro last soundLast further
      refine ⟨by simpa using both.1, fun same nonce own => ?_⟩
      have first := both.2.held nonce soundFifth (holds file found same nonce own)
      exact further.held nonce soundSixth first

theorem sameSnapshot_some {left : Option LockFile} {file : LockFile} (same : sameSnapshot left (some file) = true) :
    ∃ found, left = some found ∧ found.identity = file.identity ∧ found.content = file.content := by
  unfold sameSnapshot at same
  cases left with
  | none => simp at same
  | some found =>
    simp only [Option.map_some, beq_iff_eq, Option.some.injEq, Prod.mk.injEq] at same
    exact ⟨found, rfl, same⟩

theorem LockFile.nonce_congr {one two : LockFile} (same : one.content = two.content) : one.nonce = two.nonce := by
  unfold LockFile.nonce
  rw [same]

/-! Takeovers. -/

theorem unlinkArchive_behaves {expected : LockFile} :
    Behaves site (unlink (.archive stamp evidence) expected fun _ => []) start fun _ _ => True := by
  apply behaves_bind inspectFile_behaves
  intro observed _ _ _
  apply behaves_bind behaves_ensure
  intro _ _ _ _
  apply behaves_bind inspectFile_behaves
  intro current _ _ _
  apply behaves_bind behaves_ensure
  intro _ _ _ _
  apply behaves_transact
  intro state value after later sound _ removed _
  split at removed
  · cases removed
  · cases removed
    have step : Stays site state (state.link (.archive stamp evidence) none) := by
      apply sound.link_archive
      intro number none
      cases none
    exact ⟨step, fun _ => trivial⟩

theorem archiveBound_behaves {judgement : Judgement} {judged source reservation : LockFile}
    (stale : (inspectAdapterLock site judgement judged).stale = true) (same : sameSnapshot (some source) (some judged) = true) :
    Behaves site (archiveBound (.archive stamp evidence) judgement judged source reservation) start fun _ _ => True := by
  apply behaves_bind inspectLock_behaves
  intro seen first _ looked
  apply behaves_bind inspectFile_behaves
  intro target second _ stays
  apply behaves_bind behaves_ensure
  intro _ third _ tested
  apply behaves_bind behaves_ensure
  intro _ fourth _ reserved
  have saw : Saw site seen fourth := ((looked.1.later stays).later tested.2).later reserved.2
  have renamed : Behaves site (renameToArchive (.archive stamp evidence) judgement judged seen.2) fourth fun _ _ => True := by
    apply behaves_transact
    intro state value after later sound further moved bound
    split at moved
    · cases moved
    · next handle there =>
      cases moved
      have found := (saw.later further).still bound
      obtain ⟨file, its, identity, content⟩ := sameSnapshot_some tested.1
      obtain ⟨_, equal, before, bytes⟩ := sameSnapshot_some same
      cases equal
      rw [its] at found
      unfold Root.lookup at found
      rw [there] at found
      have object : state.objects handle = file := Option.some.inj found
      refine ⟨sound.rename_archive there stale ?_, fun _ => trivial⟩
      rw [object]
      exact ⟨identity.trans before, content.trans bytes⟩
  apply behaves_bind renamed
  intro _ _ _ _
  apply behaves_bind inspectFile_behaves
  intro result _ _ _
  exact behaves_ensure.weaken fun _ _ _ _ => trivial

theorem giveUpReservation_behaves {reservation : LockFile} {error : LockError} :
    Behaves site (giveUpReservation (.archive stamp evidence) reservation error) start fun _ _ => True := by
  apply behaves_bind inspectFile_behaves
  intro current _ _ _
  split
  · apply behaves_bind unlinkArchive_behaves
    intro _ _ _ _
    exact behaves_raise
  · exact behaves_raise

theorem move_behaves {judgement : Judgement} {judged : LockFile}
    (stale : (inspectAdapterLock site judgement judged).stale = true) :
    Behaves site (move site (.archive stamp evidence) judgement judged) start fun _ _ => True := by
  apply behaves_bind inspectFile_behaves
  intro source _ _ _
  split
  · exact behaves_raise
  · apply behaves_bind behaves_ensure
    intro _ _ _ tested
    apply behaves_bind inspectFile_behaves
    intro target _ _ _
    apply behaves_bind behaves_ensure
    intro _ _ _ _
    apply behaves_bind writeExclusive_behaves
    intro reservation _ _ _
    exact behaves_handle (archiveBound_behaves stale tested.1) (fun _ _ => id) fun _ _ _ => giveUpReservation_behaves

theorem takeOver_behaves {caller : Caller} {attempt : Nat} : Behaves site (takeOver site caller attempt) start fun _ _ => True := by
  apply behaves_bind inspectFile_behaves
  intro found _ _ _
  split
  · exact behaves_raise
  · next snapshot _ =>
    dsimp only
    split
    · exact behaves_raise
    · split
      · exact behaves_raise
      · split
        · exact behaves_raise
        · next stale =>
          apply behaves_handle (move_behaves (by simpa using stale)) (fun _ _ => id)
          intro error _ _
          split
          · exact behaves_ret fun _ _ _ => trivial
          · exact behaves_ret fun _ _ _ => trivial
          · exact behaves_raise

/-! The lock. -/

/-- The snapshot is of a record with the nonce of the lock. -/
def AdapterLock.Owns (lock : AdapterLock) : Prop := lock.snapshot.nonce = some lock.metadata.nonce

theorem claimLock_behaves {metadata : LockMetadata} :
    Behaves site (claimLock site metadata) start fun claimed root => ∀ snapshot, claimed = some snapshot →
      snapshot.nonce = some metadata.nonce ∧ Held site metadata.nonce root := by
  have claimed : Behaves site (do
      let snapshot ← writeExclusive site .lock (.record metadata)
      .ret (some snapshot)) start fun claimed root => ∀ snapshot, claimed = some snapshot →
        snapshot.nonce = some metadata.nonce ∧ Held site metadata.nonce root := by
    apply behaves_bind writeExclusive_behaves
    intro file state _ written
    apply behaves_ret
    intro later sound stays snapshot same
    cases same
    have own : file.nonce = some metadata.nonce := by
      unfold LockFile.nonce
      rw [written.1]
    exact ⟨own, stays.held metadata.nonce sound (written.2 rfl _ own)⟩
  apply behaves_handle claimed (fun _ _ => id)
  intro error _ _
  split
  · apply behaves_ret
    intro later _ _ snapshot same
    cases same
  · exact behaves_raise

theorem acquireAttempts_behaves {caller : Caller} (attempts : Nat) :
    Behaves site (acquireAttempts site caller attempts) start fun lock root => lock.Owns ∧ Held site lock.metadata.nonce root := by
  induction attempts generalizing start with
  | zero => exact behaves_raise
  | succ attempts ih =>
    have drawn : Behaves site drawNonce start fun _ _ => True := by
      apply behaves_act
      intro state sound stays _
      have step : Stays site state { state with drawn := state.drawn + 1 } :=
        ⟨Nat.le_refl _, fun _ => rfl, Nat.le_refl _, fun _ _ => rfl, fun _ _ filled => filled, fun _ _ held => held, fun sound =>
          ⟨sound.fenced, sound.named, sound.written⟩⟩
      exact ⟨step, behaves_ret fun _ _ _ => trivial⟩
    apply behaves_bind drawn
    intro nonce _ _ _
    apply behaves_bind claimLock_behaves
    intro claimed _ _ holds
    cases claimed with
    | some snapshot =>
      apply behaves_ret
      intro later sound stays
      obtain ⟨own, held⟩ := holds snapshot rfl
      exact ⟨own, stays.held _ sound held⟩
    | none =>
      apply behaves_bind takeOver_behaves
      intro _ _ _ _
      exact ih

theorem verify_behaves : Behaves site (verify lock) start fun _ _ => True := by
  apply behaves_bind behaves_ensure
  intro _ _ _ _
  apply behaves_bind inspectFile_behaves
  intro current _ _ _
  split
  · exact behaves_raise
  · apply behaves_bind behaves_ensure
    intro _ _ _ _
    split
    · exact behaves_raise
    · exact behaves_ensure.weaken fun _ _ _ _ => trivial

def Filled (handle : Handle) (content : Content) (root : Root) : Prop :=
  Created handle content root ∧ (root.objects handle).content = content

theorem Filled.later {handle : Handle} (filled : Filled handle content root) (stays : Stays site root after) :
    Filled handle content after := by
  refine ⟨filled.1.later stays, ?_⟩
  obtain ⟨⟨number, made, known, meant⟩, full⟩ := filled
  subst made
  rw [stays.filled number known (full.trans meant.symm), stays.intended number known]
  exact meant

theorem stageHeartbeat_behaves {updated : LockMetadata} :
    Behaves site (stageHeartbeat site updated) start fun staged root =>
      Filled staged.1 (.record updated) root ∧ staged.2.content = .record updated := by
  apply behaves_act
  intro state sound stays _
  refine ⟨sound.create (.inr rfl), behaves_ret fun later _ further => ⟨Filled.later ⟨Sound.created, ?_⟩ further, rfl⟩⟩
  unfold Root.create
  simp only [Function.update_self]

theorem renameToLock_behaves {staged : Handle} {updated : LockMetadata}
    (filled : Filled staged (.record updated) start) (saw : Saw site seen start)
    (own : ∀ file, seen.1 = some file → file.nonce = some updated.nonce) :
    Behaves site (renameToLock staged updated.nonce seen.2) start fun _ _ => True := by
  apply behaves_act
  intro state sound stays bound
  obtain ⟨⟨number, made, known, _⟩, full⟩ := filled.later stays
  have found := (saw.later stays).still bound
  have nonce : (state.objects staged).nonce = some updated.nonce := by
    unfold LockFile.nonce
    rw [full]
  exact ⟨sound.rename_lock made known nonce fun file there => own file (found.symm.trans there),
    behaves_ret fun _ _ _ => trivial⟩

theorem heartbeat_behaves {now : Int} (owns : lock.Owns) :
    Behaves site (heartbeat site lock now) start fun later _ => later.Owns := by
  apply behaves_bind verify_behaves
  intro _ _ _ _
  apply behaves_bind stageHeartbeat_behaves
  intro staged _ _ written
  apply behaves_bind inspectFile_behaves
  intro target _ _ one
  apply behaves_bind behaves_ensure
  intro _ _ _ two
  apply behaves_bind inspectLock_behaves
  intro current _ _ looked
  apply behaves_bind behaves_ensure
  intro _ state _ tested
  have filled := (((written.1.later one).later two.2).later looked.2).later tested.2
  have own : ∀ file, current.1 = some file → file.nonce = some lock.metadata.nonce := by
    intro file there
    obtain ⟨found, same, _, content⟩ := sameSnapshot_some tested.1
    cases there.symm.trans same
    exact (LockFile.nonce_congr content).trans owns
  apply behaves_bind (renameToLock_behaves filled (looked.1.later tested.2) own)
  intro _ _ _ _
  apply behaves_bind inspectFile_behaves
  intro result _ _ _
  split
  · exact behaves_raise
  · next snapshot _ =>
    apply behaves_bind behaves_ensure
    intro _ _ _ final
    apply behaves_ret
    intro later _ _
    obtain ⟨found, same, _, content⟩ := sameSnapshot_some final.1
    cases same
    change snapshot.nonce = some lock.metadata.nonce
    unfold LockFile.nonce
    rw [content, written.2]

theorem release_behaves (owns : lock.Owns) :
    Behaves site (release lock) start fun later _ => later.Owns := by
  unfold release
  split
  · exact behaves_ret fun _ _ _ => owns
  · apply behaves_bind verify_behaves
    intro _ state _ _
    have removed : Behaves site (unlink .lock lock.snapshot fun old => [.removed lock.metadata.nonce old]) state fun _ _ => True := by
      apply behaves_bind inspectFile_behaves
      intro observed _ _ _
      apply behaves_bind behaves_ensure
      intro _ _ _ _
      apply behaves_bind inspectLock_behaves
      intro current _ _ looked
      apply behaves_bind behaves_ensure
      intro _ _ _ tested
      apply behaves_transact
      intro root value after later sound stays gone bound
      have found := ((looked.1.later tested.2).later stays).still bound
      obtain ⟨file, same, _, content⟩ := sameSnapshot_some tested.1
      rw [same] at found
      rw [found] at gone
      cases gone
      exact ⟨sound.remove_lock found ((LockFile.nonce_congr content).trans owns), fun _ => trivial⟩
    apply behaves_bind removed
    intro _ _ _ _
    exact behaves_ret fun _ _ _ => owns

/-! Sessions. -/

theorem perform_behaves (owns : lock.Owns) (use : Use) :
    Behaves site (use.perform site lock) start fun later _ => later.Owns := by
  cases use with
  | verify =>
    apply behaves_bind verify_behaves
    intro _ _ _ _
    exact behaves_ret fun _ _ _ => owns
  | heartbeat now => exact heartbeat_behaves owns
  | release => exact release_behaves owns

theorem performAll_behaves (owns : lock.Owns) (uses : List Use) :
    Behaves site (performAll site lock uses) start fun _ _ => True := by
  induction uses generalizing lock start with
  | nil => exact behaves_ret fun _ _ _ => trivial
  | cons use rest ih =>
    have used : Behaves site ((use.perform site lock).handle fun _ => (.ret lock : LockClient AdapterLock)) start
        fun later _ => later.Owns :=
      behaves_handle (perform_behaves owns use) (fun _ _ => id) fun _ _ _ => behaves_ret fun _ _ _ => owns
    apply behaves_bind used
    intro later _ _ still
    exact ih still

theorem session_behaves {caller : Caller} {uses : List Use} : Behaves site (session site caller uses) start fun _ _ => True := by
  apply behaves_bind (acquireAttempts_behaves 8)
  intro lock state there holds
  have logged : Behaves site (Client.act .plain (fun root : Root =>
      { root with history := .acquired lock.metadata.nonce :: root.history }) fun _ => (.ret () : LockClient Unit)) state
        fun _ _ => True := by
    apply behaves_act
    intro root sound stays _
    have own : Held site lock.metadata.nonce root := stays.held _ there holds.2
    have step := Sound.log sound own
    exact ⟨step, behaves_ret fun _ _ _ => trivial⟩
  apply behaves_bind logged
  intro _ _ _ _
  exact performAll_behaves holds.1 uses

theorem undisturbed_of_test (note : Note) (before after : Root) (passed : undisturbed note before after = true) :
    Undisturbed note before after := by
  cases note with
  | plain => trivial
  | bound version => exact beq_iff_eq.mp passed

variable {ι : Type} [DecidableEq ι]

theorem Root.start_sound (files : Path → Option LockFile) (drawn : Nat) : Sound site (Root.start files drawn) where
  fenced := by
    intro change member
    cases member
  named := by
    intro path number named
    unfold Root.start at named
    cases file : files path <;> simp [file] at named
  written := by
    intro number known
    exact absurd known (Nat.not_lt_zero number)

/-- Sessions of any number of processes, in any order of their file steps, that nobody comes between keep the lock fenced. -/
theorem undisturbed_fenced (site : Site) (files : Path → Option LockFile) (drawn : Nat) (callers : ι → Caller × List Use)
    (schedule : List ι) (meets : (sessions site callers (Root.start files drawn)).Meets Undisturbed schedule) :
    Fenced site ((sessions site callers (Root.start files drawn)).run schedule).state := by
  have sound : Sound site (Root.start files drawn) := Root.start_sound files drawn
  have behaves : ∀ i, (discipline site).Behaves ((sessions site callers (Root.start files drawn)).clients i)
      (Root.start files drawn) fun _ _ => True := fun i => session_behaves
  exact ((Discipline.run sound behaves meets).sound sound).fenced

end

/-! A record of a process that is gone, and two processes that come upon it. -/

namespace Sample

def site : Site := ⟨fun number => number + 10, fun _ => 0, fun _ => 0, id, id⟩

def gone : LockMetadata := ⟨1, "host", "before", "1", 0, 0, 0⟩

def files : Path → Option LockFile
  | .lock => some ⟨1, .record gone, 0⟩
  | .archive _ _ => none

def caller (now : Int) (pid : Nat) : Caller := ⟨pid, "host", "session", "1", now, 1000, fun _ other => other != 1⟩

def callers : Bool → Caller × List Use
  | false => (caller 100 2, [.heartbeat 150, .verify, .release])
  | true => (caller 200 3, [.release])

def schedule (before between : Nat) : List Bool :=
  List.replicate before false ++ List.replicate between true ++ List.replicate 40 false

/-- A takeover that archived another record than the one it judged. -/
def misplaced (root : Root) : Bool :=
  root.history.any fun
    | .archived _ judged moved => judged.content != moved.content
    | _ => false

theorem misplaced_unfenced {root : Root} (found : misplaced root = true) : ¬Fenced site root := by
  intro fenced
  obtain ⟨change, member, wrong⟩ := any_eq_true.mp found
  cases change with
  | archived judgement judged moved =>
    have proper := fenced _ member
    have apart : judged.content ≠ moved.content := by simpa using wrong
    exact apart proper.2.2.symm
  | acquired nonce => cases wrong
  | replaced nonce old => cases wrong
  | removed nonce old => cases wrong

end Sample

/-- The second process takes the lock over between the last look of the first and its rename. -/
theorem takeover_of_fresh_lock : ¬∀ (site : Site) (files : Path → Option LockFile) (drawn : Nat) (callers : Bool → Caller × List Use)
    (schedule : List Bool), Fenced site ((sessions site callers (Root.start files drawn)).run schedule).state := by
  intro fenced
  have found : Sample.misplaced ((sessions Sample.site Sample.callers (Root.start Sample.files 1)).run (Sample.schedule 12 21)).state =
      true := by decide +kernel
  exact Sample.misplaced_unfenced found (fenced Sample.site Sample.files 1 Sample.callers (Sample.schedule 12 21))

/-- The first process uses its lock and releases it before the second one comes. -/
theorem undisturbed_fenced_sample :
    (((sessions Sample.site Sample.callers (Root.start Sample.files 1)).run (Sample.schedule 50 30)).state.history.length = 6) ∧
      Fenced Sample.site ((sessions Sample.site Sample.callers (Root.start Sample.files 1)).run (Sample.schedule 50 30)).state := by
  have meets : (sessions Sample.site Sample.callers (Root.start Sample.files 1)).Meets Undisturbed (Sample.schedule 50 30) := by
    apply Pool.Meets.of_admits undisturbed_of_test
    decide +kernel
  exact ⟨by decide +kernel, undisturbed_fenced Sample.site Sample.files 1 Sample.callers (Sample.schedule 50 30) meets⟩

end Workctx.Leases
