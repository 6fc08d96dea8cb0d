import Workctx.Locking.Tickets

/-! What a contender does with the entries of the others, and what a scan of the staging directory
says of them. -/

namespace Workctx.Locking
open Workctx.Concurrent

section
variable (process : Nat → Process) (nonce : Nat) {α : Type}

/-- From the state it knows the client keeps what a contender guarantees, and its values meet the
postcondition. -/
def Behaves (client : GuardClient α) (post : α → GuardWorld → Prop) (known : GuardWorld) : Prop :=
  client.Keeps (fun _ before _ => Prompt process before) (Rely process nonce) (Fair process nonce)
    (fun result state => (Gone process known nonce → Gone process state nonce) ∧
      ∀ value, result = .ok value → post value state) known

def Saw (first last : GuardWorld) (seen : GuardWorld → Prop) : Prop :=
  ∃ state, Rely process nonce first state ∧ Rely process nonce state last ∧ seen state

def Erasable (known : GuardWorld) (name : GuardName) : Prop :=
  ∀ state, Rely process nonce known state → Fair process nonce state { state with files := state.files.erase name }

def Hidden (kind : Kind) (other : Nat) (world : GuardWorld) : Prop :=
  Retired process world kind other ∨ ∀ ticket, ¬Written world kind other ticket

def Content (kind : Kind) (metadata : GuardMetadata) (world : GuardWorld) : Prop :=
  ∃ file, world.files.get (.entry kind metadata.nonce) = some file ∧ file.metadata = some metadata

/-- What a scan says of the states between its beginning and its end. -/
structure Scan (kind : Kind) (first last : GuardWorld) (entries : List GuardMetadata) : Prop where
  rely : Rely process nonce first last
  found : ∀ entry ∈ entries, Saw process nonce first last (Content kind entry)
  hidden : ∀ other, (∃ entry ∈ entries, entry.nonce = other) ∨ Saw process nonce first last (Hidden process kind other)

end

section
variable {process : Nat → Process} {nonce : Nat} {α β : Type} {known : GuardWorld} {post post' : α → GuardWorld → Prop}
  {mid : β → GuardWorld → Prop}

/-! Rules. -/

theorem Behaves.ret {value : α} (done : ∀ state, Rely process nonce known state → post value state) :
    Behaves process nonce (.ret value) post known := by
  intro state step
  refine ⟨step.gone nonce, ?_⟩
  intro result same
  cases same
  exact done state step

theorem Behaves.raise {error : LockError} : Behaves process nonce (.raise error) post known :=
  fun _ step => ⟨step.gone nonce, nofun⟩

theorem Behaves.since {client : GuardClient α} {start : GuardWorld} (gone : Gone process start nonce → Gone process known nonce)
    (behaves : Behaves process nonce client post known) :
    client.Keeps (fun _ before _ => Prompt process before) (Rely process nonce) (Fair process nonce)
      (fun result state => (Gone process start nonce → Gone process state nonce) ∧
        ∀ value, result = .ok value → post value state) known :=
  Client.Keeps.weaken behaves fun _ _ met => ⟨fun absent => met.1 (gone absent), met.2⟩

theorem Behaves.bind {first : GuardClient β} {next : β → GuardClient α} (one : Behaves process nonce first mid known)
    (two : ∀ value state, mid value state → Behaves process nonce (next value) post state) :
    Behaves process nonce (first >>= next) post known := by
  apply Client.Keeps.bind (Rely.refl nonce) one
  · exact fun value state met => (two value state (met.2 value rfl)).since met.1
  · exact fun error state met => ⟨met.1, nofun⟩

theorem Behaves.weaken {client : GuardClient α} (behaves : Behaves process nonce client post known)
    (weaker : ∀ value state, post value state → post' value state) : Behaves process nonce client post' known :=
  Client.Keeps.weaken behaves fun _ state met => ⟨met.1, fun value same => weaker value state (met.2 value same)⟩

theorem Behaves.handle {body : GuardClient α} {handler : LockError → GuardClient α}
    (one : Behaves process nonce body post known)
    (failed : ∀ error state, (Gone process known nonce → Gone process state nonce) →
      Behaves process nonce (handler error) post state) :
    Behaves process nonce (body.handle handler) post known := by
  apply Client.Keeps.handle (Rely.refl nonce) one
  · intro value state met
    refine ⟨met.1, ?_⟩
    intro result same
    cases same
    exact met.2 value rfl
  · exact fun error state met => (failed error state met.1).since met.1

theorem Behaves.perform {action : GuardWorld → α × GuardWorld}
    (done : ∀ state, Rely process nonce known state → Prompt process state → state.alive (process nonce) = true →
      Fair process nonce state (action state).2 ∧
        ∀ later, Rely process nonce (action state).2 later → post (action state).1 later) :
    Behaves process nonce (perform (process nonce) action) post known := by
  intro state step prompt
  dsimp only
  by_cases running : state.alive (process nonce) = true
  · rw [if_pos running, if_pos running]
    obtain ⟨fair, met⟩ := done state step prompt running
    refine ⟨fair, ?_⟩
    apply Behaves.since fun absent => fair.gone nonce (step.gone nonce absent)
    exact Behaves.ret met
  · rw [if_neg running, if_neg running]
    refine ⟨Fair.refl nonce state, ?_⟩
    exact Behaves.since (step.gone nonce) Behaves.raise

theorem Behaves.look {view : GuardWorld → α}
    (done : ∀ state, Rely process nonce known state → Prompt process state →
      ∀ later, Rely process nonce state later → post (view state) later) :
    Behaves process nonce (look (process nonce) view) post known := by
  apply Behaves.perform
  intro state step prompt _
  exact ⟨Fair.refl nonce state, done state step prompt⟩

theorem Behaves.ensure {test : Bool} {error : LockError} :
    Behaves process nonce (Client.ensure test error) (fun _ state => test = true ∧ Rely process nonce known state) known := by
  cases test with
  | true => exact Behaves.ret fun state step => ⟨rfl, step⟩
  | false => exact Behaves.raise

/-! What was seen. -/

section
variable {first last ending : GuardWorld} {seen : GuardWorld → Prop} {kind : Kind} {entries : List GuardMetadata}

theorem Saw.now (here : seen first) (step : Rely process nonce first last) : Saw process nonce first last seen :=
  ⟨first, Rely.refl nonce first, step, here⟩

theorem Saw.later (saw : Saw process nonce first last seen) (step : Rely process nonce last ending) :
    Saw process nonce first ending seen := by
  obtain ⟨state, before, after, here⟩ := saw
  exact ⟨state, before, after.trans step, here⟩

theorem Saw.earlier (step : Rely process nonce first last) (saw : Saw process nonce last ending seen) :
    Saw process nonce first ending seen := by
  obtain ⟨state, before, after, here⟩ := saw
  exact ⟨state, step.trans before, after, here⟩

theorem Scan.later (scan : Scan process nonce kind first last entries) (step : Rely process nonce last ending) :
    Scan process nonce kind first ending entries where
  rely := scan.rely.trans step
  found := fun entry member => (scan.found entry member).later step
  hidden := by
    intro other
    rcases scan.hidden other with there | hidden
    · exact .inl there
    · exact .inr (hidden.later step)

theorem Erasable.later {name : GuardName} (erasable : Erasable process nonce first name) (step : Rely process nonce first last) :
    Erasable process nonce last name := fun state further => erasable state (step.trans further)

theorem Erasable.retired {other : Nat} (retired : Retired process first kind other) :
    Erasable process nonce first (.entry kind other) := fun _ step => Fair.erased (step.retired retired)

theorem Erasable.cancellation {other : Nat} : Erasable process nonce first (.cancelled kind other) :=
  fun _ _ => Fair.erasedCancellation

/-- A step of one's own that changes only files is one that the contender may rely on as well. -/
theorem Fair.own {files : Directory GuardName GuardFile} (fair : Fair process nonce first { first with files := files }) :
    Rely process nonce first { first with files := files } where
  sound := fair.sound
  clock := fair.clock
  gone := fair.gone
  holding := fair.holding
  stage := rfl
  behind := fun _ _ _ _ => .inl

end

/-! Files. -/

section
variable {name : GuardName} {kind : Kind} {other : Nat}

theorem readSnapshot_behaves :
    Behaves process nonce (readSnapshot (process nonce) name) (fun result state => Rely process nonce known state ∧
      ∀ found, result = some found →
        Saw process nonce known state fun world => Prompt process world ∧ world.files.get name = found) known := by
  apply Behaves.look
  intro state step prompt later further
  refine ⟨step.trans further, ?_⟩
  intro found same
  split at same
  · cases same
  · cases same
    exact ⟨state, step, further, prompt, rfl⟩

theorem readGuardSnapshotWithRetry_behaves (attempts : Nat) :
    Behaves process nonce (readGuardSnapshotWithRetry (process nonce) name attempts) (fun result state =>
      Rely process nonce known state ∧ ∀ found, result = some found →
        Saw process nonce known state fun world => world.files.get name = found) known := by
  induction attempts generalizing known with
  | zero => exact Behaves.ret fun state step => ⟨step, nofun⟩
  | succ attempts ih =>
    apply Behaves.bind readSnapshot_behaves
    intro snapshot state seen
    cases snapshot with
    | none =>
      apply ih.weaken
      intro result later further
      refine ⟨seen.1.trans further.1, ?_⟩
      exact fun found same => (further.2 found same).earlier seen.1
    | some found =>
      apply Behaves.ret
      intro later further
      refine ⟨seen.1.trans further, ?_⟩
      intro found' same
      cases same
      obtain ⟨world, before, after, _, here⟩ := seen.2 found rfl
      exact ⟨world, before, after.trans further, here⟩

theorem readGuardSnapshot_behaves :
    Behaves process nonce (readGuardSnapshot (process nonce) name) (fun result state =>
      Rely process nonce known state ∧ Saw process nonce known state fun world => world.files.get name = result) known := by
  apply Behaves.bind (readGuardSnapshotWithRetry_behaves _)
  intro snapshot state seen
  cases snapshot with
  | none => exact Behaves.raise
  | some found =>
    apply Behaves.ret
    intro later further
    exact ⟨seen.1.trans further, (seen.2 found rfl).later further⟩

theorem unlink_behaves (erasable : Erasable process nonce known name) :
    Behaves process nonce (unlink (process nonce) name) (fun _ state => Rely process nonce known state) known := by
  apply Behaves.perform
  intro state step _ _
  split
  · exact ⟨Fair.refl nonce state, fun later further => step.trans further⟩
  · split
    · exact ⟨Fair.refl nonce state, fun later further => step.trans further⟩
    · have fair := erasable state step
      exact ⟨fair, fun later further => (step.trans fair.own).trans further⟩

theorem unlinkWithRetry_behaves (attempts : Nat) (erasable : Erasable process nonce known name) :
    Behaves process nonce (unlinkWithRetry (process nonce) name attempts) (fun _ state => Rely process nonce known state)
      known := by
  induction attempts generalizing known with
  | zero => exact Behaves.ret fun state step => step
  | succ attempts ih =>
    apply Behaves.bind (unlink_behaves erasable)
    intro unlinked state step
    have again : Behaves process nonce (unlinkWithRetry (process nonce) name attempts)
        (fun _ later => Rely process nonce known later) state := by
      apply (ih (erasable.later step)).weaken
      exact fun _ later further => step.trans further
    cases unlinked with
    | refused => exact again
    | removed => exact Behaves.ret fun later further => step.trans further
    | missing => exact Behaves.ret fun later further => step.trans further

theorem unlinkIfUnchanged_behaves {expected : GuardFile}
    (erasable : ∀ state, Rely process nonce known state → Prompt process state → state.files.get name = some expected →
      Erasable process nonce state name) :
    Behaves process nonce (unlinkIfUnchanged (process nonce) name expected) (fun _ state => Rely process nonce known state)
      known := by
  apply Behaves.bind readSnapshot_behaves
  intro snapshot state seen
  cases snapshot with
  | none => exact Behaves.raise
  | some current =>
    dsimp only
    split
    · next same =>
      obtain ⟨world, before, after, prompt, here⟩ := seen.2 current rfl
      have removable := (erasable world before prompt (here.trans same)).later after
      apply Behaves.bind (unlink_behaves removable)
      intro unlinked later step
      cases unlinked with
      | removed => exact Behaves.ret fun last further => (seen.1.trans step).trans further
      | missing => exact Behaves.ret fun last further => (seen.1.trans step).trans further
      | refused => exact Behaves.raise
    · exact Behaves.ret fun later step => seen.1.trans step

theorem unlinkGuardSnapshotWithRetry_behaves {expected : GuardFile} (attempts : Nat) (erasable : Erasable process nonce known name) :
    Behaves process nonce (unlinkGuardSnapshotWithRetry (process nonce) name expected attempts)
      (fun _ state => Rely process nonce known state) known := by
  induction attempts generalizing known with
  | zero => exact Behaves.ret fun state step => step
  | succ attempts ih =>
    apply Behaves.bind readGuardSnapshot_behaves
    intro current state seen
    cases current with
    | none => exact Behaves.ret fun later step => seen.1.trans step
    | some found =>
      dsimp only
      split
      · apply Behaves.bind (unlink_behaves (erasable.later seen.1))
        intro unlinked later step
        have after := seen.1.trans step
        cases unlinked with
        | removed => exact Behaves.ret fun last further => after.trans further
        | missing => exact Behaves.ret fun last further => after.trans further
        | refused =>
          apply (ih (erasable.later after)).weaken
          exact fun _ last further => after.trans further
      · exact Behaves.raise

/-! Entries. -/

theorem now_behaves : Behaves process nonce (look (process nonce) GuardWorld.now)
    (fun now state => Rely process nonce known state ∧ now ≤ state.now) known :=
  Behaves.look fun _ step _ _ further => ⟨step.trans further, further.clock⟩

variable {snapshot : GuardFile} {metadata : GuardMetadata}

theorem discardCancellation_behaves {message : String} :
    Behaves process nonce (discardCancellation (process nonce) (.cancelled kind other) snapshot message)
      (fun result state => Rely process nonce known state ∧ result = false) known := by
  have discarded : Behaves process nonce (discardStaleCancellation (process nonce) (.cancelled kind other) snapshot)
      (fun _ state => Rely process nonce known state) known := by
    apply Behaves.bind now_behaves
    rintro now state ⟨step, _⟩
    split
    · apply (unlinkIfUnchanged_behaves fun _ _ _ _ => Erasable.cancellation).weaken
      exact fun _ later further => step.trans further
    · exact Behaves.ret fun later further => step.trans further
  apply Behaves.bind discarded
  intro value state step
  apply Behaves.bind Behaves.ensure
  intro _ later further
  exact Behaves.ret fun last more => ⟨(step.trans further.2).trans more, rfl⟩

theorem removeCancelled_behaves {entry cancellation : GuardFile} (retired : Retired process known kind other) :
    Behaves process nonce (removeCancelled (process nonce) kind other entry cancellation)
      (fun result state => Rely process nonce known state ∧ result = true) known := by
  apply Behaves.bind (unlinkGuardSnapshotWithRetry_behaves guardAttempts (Erasable.retired retired))
  intro removed state step
  cases removed with
  | false => exact Behaves.ret fun later further => ⟨step.trans further, rfl⟩
  | true =>
    apply Behaves.bind (unlinkGuardSnapshotWithRetry_behaves guardAttempts Erasable.cancellation)
    intro _ later further
    exact Behaves.ret fun last more => ⟨(step.trans further).trans more, rfl⟩

theorem guardEntryIsCancelled_behaves {entry : GuardFile} (sound : Sound process known) :
    Behaves process nonce (guardEntryIsCancelled (process nonce) kind other entry metadata)
      (fun result state => Rely process nonce known state ∧ (result = true → Retired process state kind other)) known := by
  apply Behaves.bind readGuardSnapshot_behaves
  intro snapshot state seen
  obtain ⟨step, world, before, after, here⟩ := seen
  have kept : ∀ message file, Behaves process nonce (discardCancellation (process nonce) (.cancelled kind other) file message)
      (fun result later => Rely process nonce known later ∧ (result = true → Retired process later kind other)) state := by
    intro message file
    apply discardCancellation_behaves.weaken
    intro value later further
    refine ⟨step.trans further.1, ?_⟩
    rw [further.2]
    nofun
  cases snapshot with
  | none => exact Behaves.ret fun later further => ⟨step.trans further, nofun⟩
  | some found =>
    have retired : Retired process world kind other := by
      by_contra still
      have absent := (before.sound sound other).uncancelled kind still
      rw [here] at absent
      cases absent
    dsimp only
    split
    · exact kept malformedCancellation found
    · split
      · apply (removeCancelled_behaves (after.retired retired)).weaken
        intro value later further
        exact ⟨step.trans further.1, fun _ => further.1.retired (after.retired retired)⟩
      · exact kept foreignCancellation found

theorem metadata_of_decode {world : GuardWorld} {file : GuardFile} (sound : Sound process world)
    (found : world.files.get (.entry kind other) = some file) : decodeEntry kind other file = file.metadata := by
  unfold decodeEntry
  cases content : file.metadata with
  | none => rfl
  | some metadata => exact if_pos ((sound other).contents kind file metadata found content).1

theorem readMalformed_behaves (sound : Sound process known)
    (malformed : decodeEntry kind other snapshot = none) :
    Behaves process nonce (readMalformed (process nonce) kind other snapshot)
      (fun result state => Rely process nonce known state ∧ result = none) known := by
  apply Behaves.bind now_behaves
  intro now state read
  split
  · next old =>
    have erasable : ∀ later, Rely process nonce state later → Prompt process later →
        later.files.get (.entry kind other) = some snapshot → Erasable process nonce later (.entry kind other) := by
      intro later further prompt here
      have empty : snapshot.metadata = none := by
        rw [← metadata_of_decode ((read.1.trans further).sound sound) here]
        exact malformed
      apply Erasable.retired
      left
      left
      cases running : later.alive (process other) with
      | false => rfl
      | true =>
        have recent := prompt kind other snapshot here empty running
        have clock := further.clock
        omega
    apply Behaves.bind (unlinkIfUnchanged_behaves erasable)
    intro _ later further
    exact Behaves.ret fun last more => ⟨(read.1.trans further).trans more, rfl⟩
  · exact Behaves.raise

theorem running_behaves (host : metadata.hostname = (process nonce).hostname)
    (owns : Owns process kind other metadata) :
    Behaves process nonce (look (process nonce) fun world => world.alive ⟨(process nonce).hostname, metadata.pid⟩)
      (fun running state => Rely process nonce known state ∧ (running = false → Retired process state kind other)) known := by
  apply Behaves.look
  intro state step _ later further
  refine ⟨step.trans further, ?_⟩
  intro stopped
  apply further.retired
  left
  left
  rw [host.symm, owns.2.1, owns.2.2] at stopped
  exact stopped

theorem readOwned_behaves (owns : Owns process kind other metadata) :
    Behaves process nonce (readOwned (process nonce) nonce kind other snapshot metadata)
      (fun result state => Rely process nonce known state ∧
        (result = some metadata ∨ result = none ∧ Retired process state kind other)) known := by
  unfold readOwned
  split
  · next foreign =>
    apply Behaves.bind (running_behaves foreign.2 owns)
    intro running state read
    cases running with
    | true => exact Behaves.ret fun later further => ⟨read.1.trans further, .inl rfl⟩
    | false =>
      have retired := read.2 rfl
      apply Behaves.bind (unlinkIfUnchanged_behaves fun later further _ _ => Erasable.retired (further.retired retired))
      intro _ later further
      apply Behaves.ret
      intro last more
      exact ⟨(read.1.trans further).trans more, .inr ⟨rfl, (further.trans more).retired retired⟩⟩
  · exact Behaves.ret fun state step => ⟨step, .inl rfl⟩

theorem readGuardEntry_behaves (sound : Sound process known) :
    Behaves process nonce (readGuardEntry (process nonce) nonce kind other) (fun result state =>
      Rely process nonce known state ∧ (∀ metadata, result = some metadata → metadata.nonce = other ∧
        Saw process nonce known state (Content kind metadata)) ∧
      (result = none → Saw process nonce known state (Hidden process kind other))) known := by
  apply Behaves.bind readGuardSnapshot_behaves
  intro found state seen
  obtain ⟨step, world, before, after, here⟩ := seen
  have soundThen := before.sound sound
  cases found with
  | none =>
    apply Behaves.ret
    intro later further
    refine ⟨step.trans further, nofun, fun _ => ⟨world, before, after.trans further, .inr ?_⟩⟩
    rintro ticket ⟨file, metadata, found, _⟩
    rw [here] at found
    cases found
  | some snapshot =>
    have decoded := metadata_of_decode soundThen here
    dsimp only
    split
    · next malformed =>
      apply (readMalformed_behaves (step.sound sound) malformed).weaken
      intro value later further
      refine ⟨step.trans further.1, ?_, ?_⟩
      · intro metadata same
        rw [further.2] at same
        cases same
      · intro _
        refine ⟨world, before, after.trans further.1, .inr ?_⟩
        rintro ticket ⟨file, metadata, found, written, _⟩
        rw [here] at found
        cases found
        rw [← decoded, malformed] at written
        cases written
    · next metadata content =>
      have written : snapshot.metadata = some metadata := decoded.symm.trans content
      have owns := (soundThen other).contents kind snapshot metadata here written
      apply Behaves.bind (guardEntryIsCancelled_behaves (step.sound sound))
      intro cancelled later read
      cases cancelled with
      | true =>
        apply Behaves.ret
        intro last further
        refine ⟨(step.trans read.1).trans further, nofun, fun _ => ?_⟩
        exact ⟨later, step.trans read.1, further, .inl (read.2 rfl)⟩
      | false =>
        apply (readOwned_behaves owns).weaken
        intro result last ended
        refine ⟨(step.trans read.1).trans ended.1, ?_, ?_⟩
        · intro other' same
          rcases ended.2 with kept | ⟨absent, _⟩
          · rw [kept] at same
            cases same
            refine ⟨owns.named, world, before, (after.trans read.1).trans ended.1, snapshot, ?_, written⟩
            rw [owns.named]
            exact here
          · rw [absent] at same
            cases same
        · intro absent
          rcases ended.2 with kept | ⟨_, retired⟩
          · rw [kept] at absent
            cases absent
          · exact ⟨last, (step.trans read.1).trans ended.1, Rely.refl nonce last, .inl retired⟩

theorem readEach_behaves (sound : Sound process known) (names : List Nat) :
    Behaves process nonce (readEach (process nonce) nonce kind names) (fun result state =>
      Rely process nonce known state ∧ (∀ entry ∈ result, Saw process nonce known state (Content kind entry)) ∧
      ∀ other ∈ names, (∃ entry ∈ result, entry.nonce = other) ∨
        Saw process nonce known state (Hidden process kind other)) known := by
  induction names generalizing known with
  | nil => exact Behaves.ret fun state step => ⟨step, nofun, nofun⟩
  | cons name rest ih =>
    apply Behaves.bind (readGuardEntry_behaves sound)
    intro entry state one
    apply Behaves.bind (ih (one.1.sound sound))
    intro entries later others
    apply Behaves.ret
    intro last further
    obtain ⟨step, found, hidden⟩ := one
    obtain ⟨more, contents, passed⟩ := others
    refine ⟨(step.trans more).trans further, ?_, ?_⟩
    · intro found' member
      rcases List.mem_append.mp member with here | there
      · exact ((found found' (Option.mem_toList.mp here)).2.later more).later further
      · exact ((contents found' there).earlier step).later further
    · intro other member
      rcases List.mem_cons.mp member with here | there
      · subst here
        cases entry with
        | none => exact .inr (((hidden rfl).later more).later further)
        | some metadata =>
          left
          exact ⟨metadata, List.mem_append_left _ (Option.mem_toList.mpr rfl), (found metadata rfl).1⟩
      · rcases passed other there with ⟨entry', member', same⟩ | saw
        · exact .inl ⟨entry', List.mem_append_right _ member', same⟩
        · exact .inr ((saw.earlier step).later further)

theorem hidden_of_unlisted {world : GuardWorld} (absent : other ∉ namesOf kind world.files) : Hidden process kind other world := by
  right
  rintro ticket ⟨file, metadata, found, _⟩
  apply absent
  apply List.mem_filterMap.mpr
  exact ⟨_, Directory.mem_of_get found, if_pos rfl⟩

theorem listEntries_behaves {began : GuardWorld → Stage}
    (begins : ∀ state, Rely process nonce known state → state.alive (process nonce) = true →
      Fair process nonce state (state.mark nonce (began state))) :
    Behaves process nonce (listEntries (process nonce) nonce kind began) (fun result state =>
      ∃ start, Rely process nonce known start ∧ start.alive (process nonce) = true ∧
        Rely process nonce (start.mark nonce (began start)) state ∧
        ∀ other, other ∈ result ∨ Saw process nonce (start.mark nonce (began start)) state (Hidden process kind other))
      known := by
  have begin_ : Behaves process nonce (perform (process nonce) fun world => (namesOf kind world.files, world.mark nonce (began world)))
      (fun names state => ∃ start, Rely process nonce known start ∧ start.alive (process nonce) = true ∧
        Rely process nonce (start.mark nonce (began start)) state ∧ names = namesOf kind start.files) known := by
    apply Behaves.perform
    intro start step _ running
    exact ⟨begins start step running, fun later further => ⟨start, step, running, further, rfl⟩⟩
  apply Behaves.bind begin_
  rintro names state ⟨start, step, running, after, same⟩
  apply Behaves.look
  intro second further _ later more
  refine ⟨start, step, running, (after.trans further).trans more, ?_⟩
  intro other
  rw [List.mem_mergeSort, List.mem_filter]
  by_cases there : other ∈ namesOf kind second.files
  · by_cases before : other ∈ namesOf kind start.files
    · left
      refine ⟨there, ?_⟩
      rw [same, List.contains_iff_mem.mpr before]
      rfl
    · right
      have absent : Hidden process kind other (start.mark nonce (began start)) := hidden_of_unlisted before
      exact Saw.now absent ((after.trans further).trans more)
  · right
    exact ⟨second, after.trans further, more, hidden_of_unlisted there⟩

theorem readGuardEntries_behaves {began : GuardWorld → Stage} (sound : Sound process known)
    (begins : ∀ state, Rely process nonce known state → state.alive (process nonce) = true →
      Fair process nonce state (state.mark nonce (began state))) :
    Behaves process nonce (readGuardEntries (process nonce) nonce kind began) (fun entries state =>
      ∃ start, Rely process nonce known start ∧ start.alive (process nonce) = true ∧
        Scan process nonce kind (start.mark nonce (began start)) state entries) known := by
  apply Behaves.bind (listEntries_behaves begins)
  rintro names state ⟨start, step, running, after, listed⟩
  have soundThen := after.sound ((begins start step running).sound (step.sound sound))
  apply (readEach_behaves soundThen names).weaken
  rintro entries last ⟨further, contents, passed⟩
  refine ⟨start, step, running, after.trans further, ?_, ?_⟩
  · exact fun entry member => (contents entry member).earlier after
  · intro other
    rcases listed other with member | saw
    · rcases passed other member with there | saw
      · exact .inl there
      · exact .inr (saw.earlier after)
    · exact .inr (saw.later further)

end
end
end Workctx.Locking
