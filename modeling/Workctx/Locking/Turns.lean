import Workctx.Locking.Scans

/-! A contender that has entered comes before all the others: the acquisition of the guard and its
release keep the order of the contenders, in every interleaving and whichever processes stop. -/

namespace Workctx.Locking
open Workctx.Concurrent

section
variable {process : Nat → Process} {nonce : Nat} {α β : Type} {known first last : GuardWorld} {post : α → GuardWorld → Prop}
  {kind : Kind} {other ticket : Nat} {entries : List GuardMetadata}

/-! What a scan says of the order. -/

theorem Scan.ticket_of_mem (scan : Scan process nonce .ticket first last entries) (sound : Sound process first)
    (held : Holding first other ticket) {entry : GuardMetadata} (member : entry ∈ entries) (named : entry.nonce = other) :
    entry.ticket = ticket ∨ Gone process last other := by
  obtain ⟨world, before, after, file, found, content⟩ := scan.found entry member
  rw [named] at found
  by_cases absent : Gone process world other
  · exact .inr (after.gone other absent)
  · rcases before.holding other ticket held with still | gone
    · obtain ⟨file', metadata, found', content', same⟩ := (before.sound sound other).holding ticket absent still
      rw [found] at found'
      cases found'
      rw [content] at content'
      cases content'
      exact .inl same
    · exact absurd gone absent

theorem Scan.reads (scan : Scan process nonce .ticket first last entries) (sound : Sound process first)
    (held : Holding first other ticket) :
    (∃ entry ∈ entries, entry.nonce = other ∧ entry.ticket = ticket) ∨ Gone process last other := by
  rcases scan.hidden other with ⟨entry, member, named⟩ | ⟨world, before, after, hidden⟩
  · rcases scan.ticket_of_mem sound held member named with same | absent
    · exact .inl ⟨entry, member, named, same⟩
    · exact .inr absent
  · right
    apply after.gone other
    by_contra here
    rcases hidden with (absent | ⟨wrong, _⟩) | unwritten
    · exact here absent
    · cases wrong
    · rcases before.holding other ticket held with still | absent
      · exact unwritten ticket ((before.sound sound other).holding ticket here still)
      · exact here absent

/-- When nobody is found to draw a ticket, the others come behind the published one, or hold theirs. -/
theorem Scan.announcements (scan : Scan process nonce .choosing first last []) (sound : Sound process first)
    (held : Holding first nonce ticket) (apart : other ≠ nonce) :
    Behind process last nonce ticket other ∨ (∃ number, Holding last other number) ∨ Gone process last nonce := by
  have later : ∀ world, Rely process nonce first world → Rely process nonce world last → Behind process world nonce ticket other →
      Behind process last nonce ticket other ∨ Gone process last nonce := by
    intro world before after behind
    apply after.behind ticket other apart _ behind
    unfold Holding
    rw [before.stage]
    exact held
  rcases scan.hidden other with ⟨entry, member, _⟩ | ⟨world, before, after, hidden⟩
  · cases member
  · have soundThen := before.sound sound other
    by_cases absent : Gone process world other
    · exact .inl (.inl (after.gone other absent))
    have holds : (∃ number, Holding world other number) →
        Behind process last nonce ticket other ∨ (∃ number, Holding last other number) ∨ Gone process last nonce := by
      rintro ⟨number, holds⟩
      rcases after.holding other number holds with still | gone
      · exact .inr (.inl ⟨number, still⟩)
      · exact .inl (.inl gone)
    have behind : Behind process world nonce ticket other →
        Behind process last nonce ticket other ∨ (∃ number, Holding last other number) ∨ Gone process last nonce := by
      intro behind
      rcases later world before after behind with still | gone
      · exact .inl still
      · exact .inr (.inr gone)
    rcases hidden with (gone | ⟨_, holding⟩) | unwritten
    · exact absurd gone absent
    · exact holds holding
    · have silent : ¬Announcing (world.stage other) := fun announcing => unwritten 0 (soundThen.announced absent announcing)
      cases stage : world.stage other with
      | before => exact behind (.inr (by rw [stage]; trivial))
      | created => exact behind (.inr (by rw [stage]; trivial))
      | left => exact behind (.inr (by rw [stage]; trivial))
      | published number => exact holds ⟨number, .inl stage⟩
      | inside number => exact holds ⟨number, .inr stage⟩
      | announced =>
        rw [stage] at silent
        exact absurd trivial silent
      | numbering floor =>
        rw [stage] at silent
        exact absurd trivial silent
      | ticketed number =>
        rw [stage] at silent
        exact absurd trivial silent

theorem smallest_spec {entry : GuardMetadata} (found : smallest entries = some entry) :
    entry ∈ entries ∧ ∀ other ∈ entries, entry.ticket < other.ticket ∨ entry.ticket = other.ticket ∧ entry.nonce ≤ other.nonce := by
  induction entries generalizing entry with
  | nil => cases found
  | cons head rest ih =>
    unfold smallest at found
    cases below : smallest rest with
    | none =>
      rw [below] at found
      cases found
      have empty : rest = [] := by
        cases rest with
        | nil => rfl
        | cons next others =>
          unfold smallest at below
          split at below
          · cases below
          · split at below <;> cases below
      rw [empty]
      refine ⟨List.mem_singleton_self _, ?_⟩
      intro other member
      rw [List.mem_singleton.mp member]
      exact .inr ⟨rfl, Nat.le_refl _⟩
    | some least =>
      rw [below] at found
      obtain ⟨member, order⟩ := ih below
      dsimp only at found
      split at found
      · next less =>
        cases found
        refine ⟨List.mem_cons_of_mem _ member, ?_⟩
        intro other among
        rcases List.mem_cons.mp among with here | there
        · rw [here]
          omega
        · exact order other there
      · next less =>
        cases found
        refine ⟨List.mem_cons_self, ?_⟩
        intro other among
        rcases List.mem_cons.mp among with here | there
        · rw [here]
          exact .inr ⟨rfl, Nat.le_refl _⟩
        · have above := order other there
          omega

theorem Scan.turn (scan : Scan process nonce .ticket first last entries) (sound : Sound process first)
    (held : Holding first nonce ticket) (mine : (smallest entries).map GuardMetadata.nonce = some nonce)
    (others : ∀ other, other ≠ nonce →
      Behind process first nonce ticket other ∨ (∃ number, Holding first other number) ∨ Gone process first nonce) :
    (∀ other, other ≠ nonce → Behind process last nonce ticket other) ∨ Gone process last nonce := by
  by_cases absent : Gone process last nonce
  · exact .inr absent
  left
  intro other apart
  obtain ⟨least, found, named⟩ := Option.map_eq_some_iff.mp mine
  obtain ⟨member, order⟩ := smallest_spec found
  have number : least.ticket = ticket := (scan.ticket_of_mem sound held member named).resolve_right absent
  rcases others other apart with behind | ⟨theirs, holds⟩ | gone
  · exact (scan.rely.behind ticket other apart held behind).resolve_right absent
  · rcases scan.reads sound holds with ⟨entry, among, name, same⟩ | gone
    · rcases scan.rely.holding other theirs holds with still | gone
      · have less : ticket < theirs ∨ ticket = theirs ∧ nonce < other := by
          have above := order entry among
          rw [number, named, name, same] at above
          omega
        right
        rcases still with here | here
        · rw [here]
          exact less
        · rw [here]
          exact less
      · exact .inl gone
    · exact .inl gone
  · exact absurd (scan.rely.gone nonce gone) absent

/-! The steps of a contender. -/

theorem mark_stage_fair (state : GuardWorld) : Fair process nonce state (state.mark nonce (state.stage nonce)) := by
  rw [mark_stage]
  exact Fair.refl nonce state

theorem awaitTurn_behaves (attempts : Nat) (sound : Sound process known) (start : known.stage nonce = .published ticket) :
    Behaves process nonce (awaitTurn (process nonce) nonce attempts) (fun _ state => Rely process nonce known state ∧
      ((∀ other, other ≠ nonce → Behind process state nonce ticket other) ∨ Gone process state nonce)) known := by
  induction attempts generalizing known with
  | zero => exact Behaves.raise
  | succ attempts ih =>
    apply Behaves.bind (readGuardEntries_behaves sound fun state _ _ => mark_stage_fair state)
    rintro choosing state ⟨one, first, _, announcements⟩
    rw [mark_stage] at announcements
    have until_ := first.trans announcements.rely
    apply Behaves.bind (readGuardEntries_behaves (until_.sound sound) fun state _ _ => mark_stage_fair state)
    rintro tickets later ⟨two, second, _, scan⟩
    rw [mark_stage] at scan
    have whole := (until_.trans second).trans scan.rely
    apply Behaves.bind Behaves.ensure
    rintro _ last ⟨_, further⟩
    split
    · next turn =>
      have empty : choosing = [] := List.isEmpty_iff.mp turn.1
      rw [empty] at announcements
      have heldThen : Holding one nonce ticket := .inl (first.stage.trans start)
      have held : Holding two nonce ticket := .inl ((until_.trans second).stage.trans start)
      have passed : (∀ other, other ≠ nonce → Behind process later nonce ticket other) ∨ Gone process later nonce := by
        apply scan.turn ((until_.trans second).sound sound) held turn.2
        intro other apart
        rcases announcements.announcements (first.sound sound) heldThen apart with behind | ⟨number, holds⟩ | absent
        · rcases second.behind ticket other apart (.inl (until_.stage.trans start)) behind with still | absent
          · exact .inl still
          · exact .inr (.inr absent)
        · rcases second.holding other number holds with still | absent
          · exact .inr (.inl ⟨number, still⟩)
          · exact .inl (.inl absent)
        · exact .inr (.inr (second.gone nonce absent))
      apply Behaves.ret
      intro ending more
      have onward := further.trans more
      refine ⟨whole.trans onward, ?_⟩
      by_cases absent : Gone process ending nonce
      · exact .inr absent
      · left
        intro other apart
        have behind := passed.resolve_right (fun gone => absent (onward.gone nonce gone)) other apart
        exact (onward.behind ticket other apart (.inl (whole.stage.trans start)) behind).resolve_right absent
    · apply (ih ((whole.trans further).sound sound) ((whole.trans further).stage.trans start)).weaken
      rintro _ ending ⟨more, turn⟩
      exact ⟨(whole.trans further).trans more, turn⟩

variable {name : GuardName} {metadata : GuardMetadata}

theorem open_behaves {created : Stage → Stage}
    (creates : ∀ state, Rely process nonce known state → state.alive (process nonce) = true →
      Fair process nonce state
        ({ state with files := state.files.put name ⟨none, state.now⟩ }.mark nonce (created (state.stage nonce)))) :
    Behaves process nonce
      (perform (process nonce) fun world =>
        match world.files.get name with
        | some _ => (false, world)
        | none => (true, { world with files := world.files.put name ⟨none, world.now⟩ }.mark nonce (created (world.stage nonce))))
      (fun opened state => match opened with
        | false => Rely process nonce known state
        | true => ∃ start, Rely process nonce known start ∧ start.alive (process nonce) = true ∧
          Rely process nonce
            ({ start with files := start.files.put name ⟨none, start.now⟩ }.mark nonce (created (start.stage nonce))) state)
      known := by
  apply Behaves.perform
  intro state step _ running
  split
  · exact ⟨Fair.refl nonce state, fun later further => step.trans further⟩
  · exact ⟨creates state step running, fun later further => ⟨state, step, running, further⟩⟩

theorem fill_behaves {written : Stage → Stage}
    (fills : ∀ state, Rely process nonce known state → state.alive (process nonce) = true →
      Fair process nonce state ((state.fill name metadata).mark nonce (written (state.stage nonce)))) :
    Behaves process nonce
      (perform (process nonce) fun world =>
        if world.diskFull then (false, world.mark nonce .left)
        else (true, (world.fill name metadata).mark nonce (written (world.stage nonce))))
      (fun filled state => match filled with
        | false => Gone process state nonce
        | true => (Sound process known → Sound process state) ∧ state.stage nonce = written (known.stage nonce) ∧
          ∀ other, Gone process known other → Gone process state other)
      known := by
  apply Behaves.perform
  intro state step _ running
  split
  · refine ⟨Fair.leave, ?_⟩
    intro later further
    apply further.gone
    exact .inr (Function.update_self ..)
  · have filled := fills state step running
    refine ⟨filled, ?_⟩
    intro later further
    refine ⟨fun sound => further.sound (filled.sound (step.sound sound)), ?_, ?_⟩
    · rw [further.stage, ← step.stage]
      exact Function.update_self ..
    · exact fun other absent => further.gone other (filled.gone other (step.gone other absent))

theorem writeExclusive_behaves {created written : Stage → Stage}
    (creates : ∀ state, Rely process nonce known state → state.alive (process nonce) = true →
      Fair process nonce state
        ({ state with files := state.files.put name ⟨none, state.now⟩ }.mark nonce (created (state.stage nonce))))
    (fills : ∀ start state, Rely process nonce known start →
      Rely process nonce ({ start with files := start.files.put name ⟨none, start.now⟩ }.mark nonce (created (start.stage nonce))) state →
      start.alive (process nonce) = true → state.alive (process nonce) = true →
      Fair process nonce state ((state.fill name metadata).mark nonce (written (state.stage nonce))))
    (erasable : ∀ state, Gone process state nonce → Erasable process nonce state name) :
    Behaves process nonce (writeExclusive (process nonce) nonce name metadata created written) (fun result state =>
      match result with
      | none => Rely process nonce known state
      | some _ => (Sound process known → Sound process state) ∧
        state.stage nonce = written (created (known.stage nonce)) ∧
        ∀ other, Gone process known other → Gone process state other) known := by
  apply Behaves.bind (open_behaves creates)
  · intro opened state ended
    cases opened with
    | false => exact Behaves.ret fun later further => Rely.trans ended further
    | true =>
      obtain ⟨start, step, running, after⟩ := ended
      have fairly := creates start step running
      have here : state.stage nonce = created (known.stage nonce) := by
        rw [after.stage, ← step.stage]
        exact Function.update_self ..
      apply Behaves.bind (fill_behaves fun later further alive => fills start later step (after.trans further) running alive)
      intro filled later ended
      cases filled with
      | false =>
        apply Behaves.bind (unlink_behaves (erasable later ended))
        exact fun _ _ _ => Behaves.raise
      | true =>
        apply Behaves.ret
        intro last more
        refine ⟨fun sound => more.sound (ended.1 (after.sound (fairly.sound (step.sound sound)))), ?_, ?_⟩
        · rw [more.stage, ended.2.1, here]
        · exact fun other absent => more.gone other (ended.2.2 other (after.gone other (fairly.gone other (step.gone other absent))))

/-- The directory and the stage behind the release of an entry. -/
structure Released (process : Nat → Process) (nonce : Nat) (before after : GuardWorld) : Prop where
  sound : Sound process before → Sound process after
  stage : after.stage nonce = before.stage nonce
  gone : ∀ other, Gone process before other → Gone process after other

theorem Rely.released (step : Rely process nonce first last) : Released process nonce first last := ⟨step.sound, step.stage, step.gone⟩

theorem Released.trans {ending : GuardWorld} (one : Released process nonce first last) (two : Released process nonce last ending) :
    Released process nonce first ending where
  sound := fun sound => two.sound (one.sound sound)
  stage := two.stage.trans one.stage
  gone := fun other absent => two.gone other (one.gone other absent)

theorem cancel_fair {state : GuardWorld} {file : GuardFile} (retired : Retired process state kind nonce) :
    Fair process nonce state
      ({ state with files := state.files.put (.cancelled kind nonce) file }.mark nonce (state.stage nonce)) := by
  have fair : Fair process nonce state { state with files := state.files.put (.cancelled kind nonce) file } := Fair.cancelled retired
  rw [← @mark_stage nonce { state with files := state.files.put (.cancelled kind nonce) file }] at fair
  exact fair

theorem publishGuardCancellation_behaves (retired : Retired process known kind nonce) :
    Behaves process nonce (publishGuardCancellation (process nonce) nonce kind metadata)
      (fun _ state => Released process nonce known state) known := by
  have creates : ∀ state, Rely process nonce known state → state.alive (process nonce) = true → Fair process nonce state
      ({ state with files := state.files.put (.cancelled kind nonce) ⟨none, state.now⟩ }.mark nonce (id (state.stage nonce))) := by
    intro state step _
    exact cancel_fair (step.retired retired)
  apply Behaves.bind (writeExclusive_behaves creates _ fun _ _ => Erasable.cancellation)
  · intro written state ended
    cases written with
    | some value =>
      apply Behaves.ret
      intro later further
      exact Released.trans ⟨ended.1, ended.2.1, ended.2.2⟩ further.released
    | none =>
      apply Behaves.bind readGuardSnapshot_behaves
      intro snapshot later read
      apply Behaves.ensure.weaken
      rintro _ last ⟨_, further⟩
      exact ((Rely.trans ended read.1).trans further).released
  · intro start state step after running _
    have gone := creates start step running
    have still : Retired process state kind nonce :=
      after.retired (retired_mono gone.gone gone.holding (step.retired retired))
    unfold GuardWorld.fill
    split
    · exact mark_stage_fair state
    · exact cancel_fair still

theorem releaseMutationGuard_behaves (retired : Retired process known kind nonce) :
    Behaves process nonce (releaseMutationGuard (process nonce) nonce kind metadata)
      (fun _ state => Released process nonce known state) known := by
  have publish : ∀ state, Rely process nonce known state →
      Behaves process nonce (publishGuardCancellation (process nonce) nonce kind metadata)
        (fun _ later => Released process nonce known later) state := by
    intro state step
    apply (publishGuardCancellation_behaves (step.retired retired)).weaken
    exact fun _ later released => step.released.trans released
  apply Behaves.bind (readGuardSnapshotWithRetry_behaves _)
  rintro snapshot state ⟨step, _⟩
  cases snapshot with
  | none => exact publish state step
  | some found =>
    cases found with
    | none => exact Behaves.raise
    | some file =>
      dsimp only
      split
      · exact Behaves.raise
      · split
        · apply Behaves.bind (unlinkWithRetry_behaves _ (Erasable.retired (step.retired retired)))
          intro unlinked later further
          cases unlinked with
          | refused => exact publish later (step.trans further)
          | removed => exact Behaves.ret fun last more => ((step.trans further).trans more).released
          | missing => exact Behaves.ret fun last more => ((step.trans further).trans more).released
        · exact Behaves.raise

theorem leave_behaves : Behaves process nonce (leave (process nonce) nonce) (fun _ state => Gone process state nonce) known := by
  apply Behaves.perform
  intro state _ _ _
  refine ⟨Fair.leave, ?_⟩
  intro later further
  apply further.gone
  exact .inr (Function.update_self ..)

theorem releaseAll_behaves (entries : List (Kind × GuardMetadata)) (gone : Gone process known nonce) :
    Behaves process nonce (abandon.releaseAll (process nonce) nonce entries) (fun _ state => Gone process state nonce) known := by
  induction entries generalizing known with
  | nil => exact Behaves.ret fun state step => step.gone nonce gone
  | cons entry rest ih =>
    have quiet : Behaves process nonce (releaseQuietly (process nonce) nonce entry.1 entry.2)
        (fun _ state => Gone process state nonce) known := by
      apply Behaves.handle
      · apply (releaseMutationGuard_behaves (.inl gone)).weaken
        exact fun _ state released => released.gone nonce gone
      · intro error state absent
        cases error with
        | held message => exact Behaves.ret fun later step => step.gone nonce (absent gone)
        | lock message => exact Behaves.ret fun later step => step.gone nonce (absent gone)
        | os => exact Behaves.raise
        | stopped => exact Behaves.raise
    apply Behaves.bind quiet
    exact fun _ state absent => ih absent

theorem abandon_behaves {entries : List (Kind × GuardMetadata)} {error : LockError} :
    Behaves process nonce (abandon (process nonce) nonce entries error) post known := by
  apply Behaves.bind leave_behaves
  intro _ state absent
  apply Behaves.bind (releaseAll_behaves entries absent)
  exact fun _ _ _ => Behaves.raise

/-! The acquisition. -/

theorem le_foldl_max (numbers : List Nat) (first : Nat) :
    first ≤ numbers.foldl max first ∧ ∀ number ∈ numbers, number ≤ numbers.foldl max first := by
  induction numbers generalizing first with
  | nil => exact ⟨Nat.le_refl _, nofun⟩
  | cons head rest ih =>
    obtain ⟨above, rest_⟩ := ih (max first head)
    refine ⟨Nat.le_trans (Nat.le_max_left _ _) above, ?_⟩
    intro number member
    rcases List.mem_cons.mp member with same | there
    · rw [same]
      exact Nat.le_trans (Nat.le_max_right _ _) above
    · exact rest_ number there

structure Drawn (process : Nat → Process) (nonce ticket : Nat) (floor : Nat → Option Nat) (world : GuardWorld) : Prop where
  sound : Sound process world
  stage : world.stage nonce = .numbering floor
  positive : 1 ≤ ticket
  larger : ∀ other number, floor other = some number → number < ticket ∨ Gone process world other

theorem drawTicket_behaves (sound : Sound process known) (start : known.stage nonce = .before)
    (owns : Owns process .choosing nonce metadata) :
    Behaves process nonce (drawTicket (process nonce) nonce process metadata)
      (fun ticket state => ∃ floor, Drawn process nonce ticket floor state) known := by
  have written : Behaves process nonce
      (writeExclusive (process nonce) nonce (.entry .choosing nonce) metadata (fun _ => .created) fun _ => .announced) _ known :=
    writeExclusive_behaves (fun state step _ => Fair.create (step.stage.trans start))
    (fun _ state _ after _ running => Fair.announce (after.stage.trans (Function.update_self ..)) running owns)
    (fun _ absent => Erasable.retired (.inl absent))
  apply Behaves.bind written
  intro result state ended
  cases result with
  | none =>
    apply Behaves.bind Behaves.ensure
    rintro _ _ ⟨absent, _⟩
    cases absent
  | some value =>
    obtain ⟨soundThen, stage, _⟩ := ended
    apply Behaves.bind Behaves.ensure
    rintro _ announced ⟨_, step⟩
    have begins : ∀ later, Rely process nonce announced later → later.alive (process nonce) = true →
        Fair process nonce later (later.mark nonce (drawing process later)) :=
      fun later further running => Fair.number ((step.trans further).stage.trans stage) running
    have soundly := step.sound (soundThen sound)
    apply Behaves.bind (readGuardEntries_behaves soundly begins)
    rintro tickets last ⟨later, further, running, scan⟩
    have soundLater := (begins later further running).sound (further.sound soundly)
    apply Behaves.ret
    intro ending more
    have seen := scan.later more
    refine ⟨publishedTickets process later, seen.rely.sound soundLater, ?_, Nat.le_add_left _ _, ?_⟩
    · rw [seen.rely.stage]
      exact Function.update_self ..
    · intro other number published
      have apart : other ≠ nonce := by
        rintro rfl
        unfold publishedTickets at published
        rw [further.stage, step.stage, stage] at published
        cases published
      have held : Holding (later.mark nonce (drawing process later)) other number := by
        have there : (later.mark nonce (drawing process later)).stage other = later.stage other := Function.update_of_ne apart ..
        unfold Holding
        rw [there]
        unfold publishedTickets at published
        split at published
        · next found =>
          split at published
          · cases published
            exact .inl found
          · cases published
        · next found =>
          split at published
          · cases published
            exact .inr found
          · cases published
        · cases published
      rcases seen.reads soundLater held with ⟨entry, member, _, same⟩ | absent
      · left
        rw [← same]
        apply Nat.lt_succ_of_le
        exact (le_foldl_max (tickets.map GuardMetadata.ticket) 0).2 _ (List.mem_map_of_mem member)
      · exact .inr absent

theorem takeTurn_behaves {floor : Nat → Option Nat} (drawn : Drawn process nonce ticket floor known)
    (owns : Owns process .choosing nonce metadata) :
    Behaves process nonce (takeTurn (process nonce) nonce metadata ticket) (fun _ state =>
      state.stage nonce = .published ticket ∧
        ((∀ other, other ≠ nonce → Behind process state nonce ticket other) ∨ Gone process state nonce)) known := by
  have numbered : Owns process .ticket nonce { metadata with ticket := ticket } := by
    refine ⟨?_, owns.2⟩
    exact Bool.and_eq_true_iff.mpr ⟨(Bool.and_eq_true_iff.mp owns.1).1, decide_eq_true drawn.positive⟩
  have larger : ∀ state, Rely process nonce known state → ∀ other number, floor other = some number →
      number < ticket ∨ Gone process state other := by
    intro state step other number published
    rcases drawn.larger other number published with less | absent
    · exact .inl less
    · exact .inr (step.gone other absent)
  have written : Behaves process nonce (writeExclusive (process nonce) nonce (.entry .ticket nonce)
      { metadata with ticket := ticket } (fun _ => .ticketed ticket) fun _ => .published ticket) _ known :=
    writeExclusive_behaves (fun state step running => Fair.draw (step.stage.trans drawn.stage) running (larger state step))
    (fun _ state _ after _ running => Fair.publish (after.stage.trans (Function.update_self ..)) running numbered rfl)
    (fun _ absent => Erasable.retired (.inl absent))
  apply Behaves.bind written
  intro result state ended
  cases result with
  | none =>
    apply Behaves.bind Behaves.ensure
    rintro _ _ ⟨absent, _⟩
    cases absent
  | some value =>
    obtain ⟨soundThen, stage, _⟩ := ended
    apply Behaves.bind Behaves.ensure
    rintro _ published ⟨_, step⟩
    have retired : Retired process published .choosing nonce := .inr ⟨rfl, ticket, .inl (step.stage.trans stage)⟩
    apply Behaves.bind (releaseMutationGuard_behaves retired)
    intro _ waiting released
    have here : waiting.stage nonce = .published ticket := (released.stage.trans step.stage).trans stage
    apply (awaitTurn_behaves guardAttempts (released.sound (step.sound (soundThen drawn.sound))) here).weaken
    rintro _ last ⟨further, turn⟩
    exact ⟨further.stage.trans here, turn⟩

theorem acquireMutationGuard_behaves (sound : Sound process known) (start : known.stage nonce = .before) :
    Behaves process nonce (acquireMutationGuard (process nonce) nonce process) (fun metadata state =>
      state.stage nonce = .published metadata.ticket ∧
        ((∀ other, other ≠ nonce → Behind process state nonce metadata.ticket other) ∨ Gone process state nonce)) known := by
  apply Behaves.bind now_behaves
  rintro acquiredAt state ⟨step, _⟩
  have owns : Owns process .choosing nonce ⟨(process nonce).pid, (process nonce).hostname, acquiredAt, nonce, 0⟩ :=
    ⟨Bool.and_eq_true_iff.mpr ⟨beq_self_eq_true nonce, rfl⟩, rfl, rfl⟩
  have drawn := drawTicket_behaves (step.sound sound) (step.stage.trans start) owns
  apply Behaves.bind (drawn.handle fun _ _ _ => abandon_behaves)
  rintro ticket later ⟨floor, ticketed⟩
  have turn := takeTurn_behaves ticketed owns
  apply Behaves.bind (turn.handle fun _ _ _ => abandon_behaves)
  rintro _ waiting ⟨here, order⟩
  apply Behaves.ret
  intro last further
  refine ⟨further.stage.trans here, ?_⟩
  rcases order with behind | absent
  · by_cases gone : Gone process last nonce
    · exact .inr gone
    · left
      intro other apart
      exact (further.behind ticket other apart (.inl here) (behind other apart)).resolve_right gone
  · exact .inr (further.gone nonce absent)

theorem guarded_behaves (sound : Sound process known) (start : known.stage nonce = .before) :
    Behaves process nonce (guarded (process nonce) nonce process) (fun _ _ => True) known := by
  apply Behaves.bind (acquireMutationGuard_behaves sound start)
  rintro metadata state ⟨here, order⟩
  have enters : Behaves process nonce
      (perform (process nonce) fun world => ((), world.mark nonce (.inside metadata.ticket))) (fun _ _ => True) state := by
    apply Behaves.perform
    intro later step _ running
    refine ⟨?_, fun _ _ => trivial⟩
    have published := step.stage.trans here
    have still : ¬Gone process later nonce := not_gone running (by rw [published]; nofun)
    apply Fair.enter published running
    intro other apart
    have behind := order.resolve_right (fun absent => still (step.gone nonce absent)) other apart
    exact (step.behind _ other apart (.inl here) behind).resolve_right still
  apply Behaves.bind enters
  intro _ inside _
  apply Behaves.bind leave_behaves
  intro _ left_ absent
  apply (releaseMutationGuard_behaves (.inl absent)).weaken
  exact fun _ _ _ => trivial

end

/-! Runs. -/

section
variable {process : Nat → Process} {world : GuardWorld}

def Enters (process : Nat → Process) (world : GuardWorld) (nonce : Nat) : Prop :=
  (∃ ticket, world.stage nonce = .inside ticket) ∧ world.alive (process nonce) = true

theorem Sound.exclusive (sound : Sound process world) {one other : Nat} (first : Enters process world one)
    (second : Enters process world other) : one = other := by
  by_contra apart
  obtain ⟨⟨ticket, here⟩, running⟩ := first
  obtain ⟨⟨number, there⟩, alive⟩ := second
  have stays : ¬Gone process world one := not_gone running (by rw [here]; nofun)
  have stays' : ¬Gone process world other := not_gone alive (by rw [there]; nofun)
  rcases (sound one).inside ticket stays here other (fun same => apart same.symm) with absent | behind
  · exact stays' absent
  rcases (sound other).inside number stays' there one apart with absent | ahead
  · exact stays absent
  rw [there] at behind
  rw [here] at ahead
  change ticket < number ∨ ticket = number ∧ one < other at behind
  change number < ticket ∨ number = ticket ∧ other < one at ahead
  omega

theorem sound_of_fresh (empty : world.files = []) (fresh : ∀ nonce, world.stage nonce = .before) : Sound process world := by
  intro nonce
  have absent : ∀ name, world.files.get name = none := by
    intro name
    rw [empty]
    rfl
  have free := free_of_stage (fresh nonce) fun _ => ⟨nofun, nofun⟩
  refine ⟨?_, fun kind _ => absent _, ?_, ?_, ?_, ?_, ?_⟩
  · intro kind file metadata found
    rw [absent] at found
    cases found
  · intro _ created
    rw [fresh] at created
    cases created
  · intro _ announced
    rw [fresh] at announced
    cases announced
  · intro ticket _ ticketed
    rw [fresh] at ticketed
    cases ticketed
  · exact fun ticket _ held => absurd held (free ticket)
  · exact fun ticket _ inside => absurd (.inr inside) (free ticket)

def Preserves (process : Nat → Process) (before after : GuardWorld) : Prop := Sound process before → Sound process after

/-- For any assignment of processes to contenders and in every course of their file steps, in which
processes stop and time passes, at most one contender whose process runs is inside. -/
theorem guard_excludes (process : Nat → Process) (world : GuardWorld) (empty : world.files = [])
    (fresh : ∀ nonce, world.stage nonce = .before) (moves : List (Pool.Move Nat GuardWorld))
    (obeys : (contenders process world).Obeys (fun _ before _ => Prompt process before) Surroundings moves) (one other : Nat)
    (first : Enters process ((contenders process world).course moves).state one)
    (second : Enters process ((contenders process world).course moves).state other) : one = other := by
  have sound : Sound process world := sound_of_fresh empty fresh
  have compatible : Pool.Compatible (Rely process) (Fair process) :=
    ⟨fun nonce world => Rely.refl nonce world, fun _ => Rely.trans, fun _ _ apart _ _ fair => fair.rely apart.symm⟩
  have keeps : (contenders process world).Keeps (fun _ before _ => Prompt process before) (Rely process) (Fair process)
      (fun nonce result state => (Gone process world nonce → Gone process state nonce) ∧
        ∀ value, result = .ok value → True) :=
    fun nonce => guarded_behaves sound (fresh nonce)
  have around : ∀ nonce before after, Surroundings before after → Rely process nonce before after :=
    fun nonce _ _ around => around.rely nonce
  have implied : ∀ nonce before after, Fair process nonce before after → Preserves process before after :=
    fun _ _ _ fair => fair.sound
  have changed : ∀ before after, Surroundings before after → Preserves process before after :=
    fun before after around => (around.rely 0).sound
  have soundly := (Pool.Keeps.course compatible around keeps (fun _ => id) (fun first second sound => second (first sound))
    implied changed obeys).2
  exact (soundly sound).exclusive first second

/-! One contender enters, and another one draws its ticket. -/

def sampleProcess (nonce : Nat) : Process := ⟨"host", nonce + 1⟩

def sampleWorld : GuardWorld := ⟨[], 0, fun _ => true, fun _ => false, fun _ => false, false, fun _ => .before⟩

def sampleTurns : List Nat := List.replicate 16 0 ++ List.replicate 5 1

def sampleTest (_ : Unit) (before _ : GuardWorld) : Bool := before.now == 0

theorem prompt_of_start (process : Nat → Process) {world : GuardWorld} (start : world.now = 0) : Prompt process world := by
  intro kind nonce file _ _ _
  rw [start, Nat.zero_sub]
  exact Nat.zero_le _

theorem sampleTurns_obey : (contenders sampleProcess sampleWorld).Obeys (fun _ before _ => Prompt sampleProcess before)
    Surroundings (sampleTurns.map .take) := by
  have passed : (contenders sampleProcess sampleWorld).admits sampleTest sampleTurns = true := by decide +kernel
  apply Pool.Meets.obeys
  apply Pool.Meets.of_admits _ passed
  intro note before after tested
  exact prompt_of_start sampleProcess (eq_of_beq tested)

def sampleInside (world : GuardWorld) (nonce : Nat) : Bool :=
  (match world.stage nonce with
    | .inside _ => true
    | _ => false) && world.alive (sampleProcess nonce)

theorem sample_enters : Enters sampleProcess ((contenders sampleProcess sampleWorld).course (sampleTurns.map .take)).state 0 := by
  have inside : sampleInside ((contenders sampleProcess sampleWorld).course (sampleTurns.map .take)).state 0 = true := by
    decide +kernel
  obtain ⟨entered, running⟩ := Bool.and_eq_true_iff.mp inside
  refine ⟨?_, running⟩
  split at entered
  · next ticket found => exact ⟨ticket, found⟩
  · cases entered

theorem guard_excludes_sample : Enters sampleProcess
      ((contenders sampleProcess sampleWorld).course (sampleTurns.map .take)).state 0 ∧ 0 = 0 :=
  ⟨sample_enters, guard_excludes sampleProcess sampleWorld rfl (fun _ => rfl) _ sampleTurns_obey 0 0 sample_enters sample_enters⟩

end
end Workctx.Locking
