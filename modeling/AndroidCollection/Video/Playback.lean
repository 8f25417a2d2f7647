import AndroidCollection.Video.ListVideoManager

/-!
# The playing status and the player

The manager is to make only calls which its player allows, to let no exception
out but its refusal of a null surface, and to have a status which agrees with
the player. A step ends so unless it plays without a surface, plays the current
url on a player which cannot be started, plays a url which the player does not
accept, or seeks or starts the player when that is not allowed.

`Ends` gives the rules for the statements of a method: a call is one obligation,
and what follows is ended from the player which it leaves.
-/

namespace AndroidCollection.Video

open Java Android

/-- The status says what the player does. -/
structure Agrees (manager : ListVideoManager) : Prop where
  playing : manager.currStatus = .STATUS_PLAYING → manager.mMediaPlayer = some .started
  paused : manager.currStatus = .STATUS_PAUSE → manager.mMediaPlayer = some .paused
  preparing : manager.currStatus = .STATUS_PREPARE → manager.mMediaPlayer = some .preparing

/-- The calls of a step are allowed, it throws nothing but the refusal of an argument, and its
fields satisfy a condition afterwards. -/
structure Ends (post : ListVideoManager → Prop) (step : ListVideoManager × Output) : Prop where
  legal : MediaPlayer.protocol.AllLegal step.2.calls
  handled : step.2.thrown = none ∨ step.2.thrown = some .illegalArgument
  after : post step.1

def PlaybackSound (self : ListVideoManager) (input : Input) : Prop :=
  Ends Agrees (react self input)

/-- The player can be started and seeked. -/
def Ready (self : ListVideoManager) : Prop :=
  ∃ player, self.mMediaPlayer = some player ∧ player.isReady = true

/-- The steps which keep the status and the player together. -/
def PlaybackSafe (self : ListVideoManager) : Input → Prop
  | .play url source =>
      self.currStatus = .STATUS_IDLE ∨ self.currStatus = .STATUS_PAUSE → url.getD [] ≠ [] →
        self.mSurfaceStack ≠ [] ∧
          (url = self.mCurrPlayUrl → Ready self) ∧
          (url ≠ self.mCurrPlayUrl → source = .accepted)
  | .onResume => Ready self
  | .onPrepared => self.mMediaPlayer = some .preparing ∨ Ready self
  | _ => True

/-- The status agrees with a player which is there and has not failed. -/
structure InStep (manager : ListVideoManager) : Prop where
  agrees : Agrees manager
  intact : ∃ player, manager.mMediaPlayer = some player ∧ player ≠ .error

/-! ## Rules for the statements of a method -/

variable {post : ListVideoManager → Prop} {self : ListVideoManager} {player : MediaPlayer}

theorem ends_silent (output : Output) (quiet : output.calls = []) (returns : output.thrown = none) :
    Ends post (self, output) ↔ post self := by
  constructor
  · exact fun ends => ends.after
  · exact fun holds => ⟨by simp [quiet], Or.inl returns, holds⟩

theorem ends_drive (reference : self.mMediaPlayer = some player) (method : MediaPlayer.Method) :
    Ends post (self.drive [(method, true)]) ↔
      player.allows method = true ∧
        post { self with mMediaPlayer := some (player.perform method) } := by
  constructor
  · intro ends
    have made := MediaPlayer.protocol.mem_invokeAll_cons self.mMediaPlayer method true []
    have permitted : MediaPlayer.protocol.allows player method = true := by
      have legal := ends.legal _ made
      rwa [reference, CallProtocol.legal_some] at legal
    have after := ends.after
    simp only [ListVideoManager.drive, reference, CallProtocol.invokeAll_single permitted] at after
    exact ⟨permitted, after⟩
  · rintro ⟨permitted, after⟩
    have invocations := CallProtocol.invokeAll_single
      (show MediaPlayer.protocol.allows player method = true from permitted) true
    simp only [ListVideoManager.drive, reference, invocations]
    exact ⟨by simpa using CallProtocol.legal_some.mpr permitted, Or.inl rfl, after⟩

theorem ends_andThen {step : ListVideoManager × Output}
    {next : ListVideoManager → ListVideoManager × Output} (returns : step.2.thrown = none) :
    Ends post (andThen step next) ↔
      MediaPlayer.protocol.AllLegal step.2.calls ∧ Ends post (next step.1) := by
  simp only [andThen, returns]
  constructor
  · rintro ⟨legal, handled, after⟩
    rw [CallProtocol.allLegal_append] at legal
    exact ⟨legal.1, legal.2, handled, after⟩
  · rintro ⟨first, legal, handled, after⟩
    exact ⟨CallProtocol.allLegal_append.mpr ⟨first, legal⟩, handled, after⟩

/-- A condition which each part of a method keeps is kept by both. -/
theorem Ends.andThen {step : ListVideoManager × Output}
    {next : ListVideoManager → ListVideoManager × Output} (first : Ends post step)
    (rest : ∀ after, post after → Ends post (next after)) : Ends post (andThen step next) := by
  cases outcome : step.2.thrown with
  | none =>
      rw [ends_andThen outcome]
      exact ⟨first.legal, rest step.1 first.after⟩
  | some exception =>
      have ended : Video.andThen step next = step := by simp only [Video.andThen, outcome]
      rwa [ended]

/-- A call is allowed, and the rest is ended with the player it leaves. -/
theorem ends_drive_andThen (reference : self.mMediaPlayer = some player)
    (method : MediaPlayer.Method) {next : ListVideoManager → ListVideoManager × Output} :
    Ends post (andThen (self.drive [(method, true)]) next) ↔
      player.allows method = true ∧
        Ends post (next { self with mMediaPlayer := some (player.perform method) }) := by
  by_cases permitted : MediaPlayer.protocol.allows player method = true
  · have driven : self.drive [(method, true)] =
        ({ self with mMediaPlayer := some (player.perform method) },
          { calls := [⟨some player, method⟩] }) := by
      simp only [ListVideoManager.drive, reference, CallProtocol.invokeAll_single permitted]
      rfl
    rw [driven, ends_andThen rfl]
    have legal := CallProtocol.legal_some.mpr permitted
    exact and_congr_left fun _ => ⟨fun _ => permitted, fun _ => by simpa using legal⟩
  · have refused : ¬MediaPlayer.protocol.Legal ⟨some player, method⟩ := fun legal =>
      permitted (CallProtocol.legal_some.mp legal)
    have unfinished : (MediaPlayer.protocol.invokeAll self.mMediaPlayer
        [(method, true)]).completed = false := by
      rw [reference]
      exact CallProtocol.completed_of_not_legal refused
    have thrown : andThen (self.drive [(method, true)]) next = self.drive [(method, true)] := by
      simp [andThen, ListVideoManager.drive, unfinished]
    rw [thrown, ends_drive reference]
    exact iff_of_false (fun ends => permitted ends.1) fun ends => permitted ends.1

/-! ## The methods -/

theorem agrees_idle (idle : self.currStatus = .STATUS_IDLE) : Agrees self := by
  constructor <;> intro status <;> rw [idle] at status <;> cases status

/-- An idle status needs no more than a player which has not failed. -/
theorem inStep_idle (reference : self.mMediaPlayer = some player) (intact : player ≠ .error)
    (idle : self.currStatus = .STATUS_IDLE) : InStep self :=
  ⟨agrees_idle idle, player, reference, intact⟩

theorem inStep_of_unchanged {other : ListVideoManager} (inStep : InStep self)
    (status : other.currStatus = self.currStatus)
    (reference : other.mMediaPlayer = self.mMediaPlayer) : InStep other := by
  rcases inStep with ⟨⟨playing, paused, preparing⟩, intact⟩
  rw [← status, ← reference] at playing paused preparing
  rw [← reference] at intact
  exact ⟨⟨playing, paused, preparing⟩, intact⟩

theorem ready_of_reference (reference : self.mMediaPlayer = some player) :
    Ready self ↔ player.isReady = true := by
  simp [Ready, reference]

theorem inStep_started (playing : self.currStatus = .STATUS_PLAYING)
    (reference : self.mMediaPlayer = some .started) : InStep self := by
  refine ⟨⟨fun _ => reference, ?_, ?_⟩, .started, reference, by decide⟩
  · intro status
    rw [playing] at status
    cases status
  · intro status
    rw [playing] at status
    cases status

/-- Starting succeeds exactly on a player which is ready. -/
theorem start_ends_iff (reference : self.mMediaPlayer = some player)
    (weaker : ∀ after, InStep after → post after) :
    Ends post self.start ↔ player.isReady = true := by
  rw [ListVideoManager.start, ends_drive_andThen reference, player.allows_start]
  apply and_iff_left
  rw [ends_silent _ rfl rfl]
  exact weaker _ (inStep_started rfl rfl)

/-- The calls which prepare a new url are allowed on any player, and the last which is reached
leaves it preparing or idle. -/
theorem prepare_ends_iff (reference : self.mMediaPlayer = some player) (url : JString)
    (source : SourceOutcome) (weaker : ∀ after, InStep after → post after)
    (stronger : ∀ after, post after → Agrees after) :
    Ends post (self.prepare url source) ↔ source = .accepted := by
  have computed : MediaPlayer.protocol.afterAll player
      [(.reset, true), (.setDataSource url, source = SourceOutcome.accepted),
        (.setAudioStreamType STREAM_MUSIC, true), (.prepareAsync, true)] =
      some (if source = SourceOutcome.accepted then .preparing else .idle) := by
    cases source <;> rfl
  rcases CallProtocol.invokeAll_of_afterAll computed with ⟨legal, last, completed⟩
  simp only [ListVideoManager.prepare, ListVideoManager.drive, reference]
  constructor
  · intro ends
    have status := (stronger _ ends.after).preparing rfl
    rw [last] at status
    by_contra refused
    rw [if_neg refused] at status
    cases status
  · rintro rfl
    refine ⟨legal, Or.inl ?_, weaker _ ?_⟩
    · rw [completed]
      rfl
    · refine ⟨⟨?_, ?_, fun _ => last⟩, .preparing, last, by decide⟩
      · intro status
        cases status
      · intro status
        cases status

theorem play_ends_iff (inStep : InStep self) (url : Option JString) (source : SourceOutcome)
    (weaker : ∀ after, InStep after → post after)
    (stronger : ∀ after, post after → Agrees after) :
    Ends post (self.play url source) ↔ PlaybackSafe self (.play url source) := by
  rcases inStep.intact with ⟨player, reference, intact⟩
  have present : self.getMediaPlayer = self := by
    rw [ListVideoManager.getMediaPlayer, reference]
  have unchanged : Ends post (self, {}) := (ends_silent _ rfl rfl).mpr (weaker _ inStep)
  unfold ListVideoManager.play
  split
  · next busy =>
      refine iff_of_true unchanged ?_
      rintro (idle | paused)
      · exact absurd idle busy.1
      · exact absurd paused busy.2
  · next waiting =>
      split
      · next blank => exact iff_of_true unchanged fun _ given => absurd blank given
      · next given =>
          have plays : self.currStatus = .STATUS_IDLE ∨ self.currStatus = .STATUS_PAUSE := by
            rwa [ne_eq, ne_eq, ← not_or, not_not] at waiting
          have condition : PlaybackSafe self (.play url source) ↔
              self.mSurfaceStack ≠ [] ∧ (url = self.mCurrPlayUrl → Ready self) ∧
                (url ≠ self.mCurrPlayUrl → source = .accepted) :=
            ⟨fun safe => safe plays given, fun safe _ _ => safe⟩
          rw [condition, present]
          dsimp only
          cases stack : self.mSurfaceStack with
          | nil =>
              refine iff_of_false ?_ fun safe => safe.1 rfl
              rintro ⟨-, handled, -⟩
              rcases handled with handled | handled <;> cases handled
          | cons surface others =>
              dsimp only
              rw [ends_drive_andThen reference, and_iff_right (player.allows_setSurface _),
                and_iff_right (List.cons_ne_nil _ _)]
              split
              · next current =>
                  rw [start_ends_iff rfl weaker, ready_of_reference reference]
                  change player.isReady = true ↔ _
                  exact ⟨fun ready => ⟨fun _ => ready, fun other => absurd current other⟩,
                    fun safe => safe.1 current⟩
              · next other =>
                  rw [prepare_ends_iff rfl _ source weaker stronger]
                  exact ⟨fun accepted => ⟨fun current => absurd current other, fun _ => accepted⟩,
                    fun safe => safe.2 other⟩

theorem onPrepared_ends_iff (inStep : InStep self) (weaker : ∀ after, InStep after → post after) :
    Ends post self.onPrepared ↔ PlaybackSafe self .onPrepared := by
  rcases inStep.intact with ⟨player, reference, intact⟩
  have moved : self.mMediaPlayer.map .whenPrepared = some player.whenPrepared := by
    rw [reference]
    rfl
  rw [ListVideoManager.onPrepared, start_ends_iff moved weaker, PlaybackSafe,
    ready_of_reference reference, reference]
  cases player <;> simp [MediaPlayer.whenPrepared, MediaPlayer.isReady]

theorem onResume_ends_iff (inStep : InStep self) (weaker : ∀ after, InStep after → post after) :
    Ends post self.onResume ↔ PlaybackSafe self .onResume := by
  rcases inStep.intact with ⟨player, reference, intact⟩
  have present : self.mMediaPlayer ≠ none := by simp [reference]
  rw [ListVideoManager.onResume, if_pos present, ends_drive_andThen reference,
    player.allows_seekTo, PlaybackSafe, ready_of_reference reference]
  apply and_iff_left
  rw [ends_silent _ rfl rfl]
  exact weaker _ (inStep_of_unchanged inStep rfl reference.symm)

theorem stop_ends (inStep : InStep self) : Ends InStep self.stop := by
  unfold ListVideoManager.stop
  split
  · next active =>
      obtain ⟨player, reference, permitted⟩ : ∃ player, self.mMediaPlayer = some player ∧
          player.allows .stop = true := by
        rcases active.2 with playing | paused
        · exact ⟨.started, inStep.agrees.playing playing, rfl⟩
        · exact ⟨.paused, inStep.agrees.paused paused, rfl⟩
      rw [ends_drive_andThen reference, ends_silent _ rfl rfl]
      refine ⟨permitted, inStep_idle rfl ?_ rfl⟩
      simp [MediaPlayer.perform]
  · exact (ends_silent _ rfl rfl).mpr inStep

theorem pause_ends (inStep : InStep self) : Ends InStep self.pause := by
  unfold ListVideoManager.pause
  split
  · next active =>
      rw [ends_drive_andThen (inStep.agrees.playing active.2), ends_silent _ rfl rfl]
      refine ⟨rfl, ⟨?_, fun _ => rfl, ?_⟩, .paused, rfl, by decide⟩
      · intro status
        cases status
      · intro status
        cases status
  · exact (ends_silent _ rfl rfl).mpr inStep

/-- A reset is allowed in every state, the error state too. -/
theorem reset_ends (reference : self.mMediaPlayer = some player) : Ends InStep self.reset := by
  have present : self.mMediaPlayer ≠ none := by simp [reference]
  have cleared : { self with mCurrPlayUrl := none, currStatus := .STATUS_IDLE }.mMediaPlayer =
      some player := reference
  rw [ListVideoManager.reset, if_pos present, ends_drive cleared]
  exact ⟨player.allows_reset, inStep_idle rfl (by simp [MediaPlayer.perform]) rfl⟩

/-- A player which is playing is stopped and reset; any other is left as it is. -/
theorem halt_ends (inStep : InStep self) (idle : self.currStatus = .STATUS_IDLE) :
    Ends InStep self.halt := by
  rcases inStep.intact with ⟨player, reference, intact⟩
  have present : self.mMediaPlayer ≠ none := by simp [reference]
  rw [ListVideoManager.halt, if_pos present, ends_drive_andThen reference]
  refine ⟨(MediaPlayer.allows_of_ne_error intact).1, ?_⟩
  split
  · next playing =>
      obtain ⟨legal, last, completed⟩ : _ ∧ _ ∧ _ := CallProtocol.invokeAll_of_afterAll
        (show MediaPlayer.protocol.afterAll .started [(.stop, true), (.reset, true)] =
          some .idle from rfl)
      rw [← playing] at legal last completed
      refine ⟨legal, Or.inl (if_pos completed), inStep_idle last (by decide) idle⟩
  · exact (ends_silent _ rfl rfl).mpr (inStep_idle rfl intact idle)

theorem release_ends (inStep : InStep self) : Ends InStep self.release := by
  rcases inStep.intact with ⟨player, reference, intact⟩
  apply Ends.andThen
  · exact halt_ends (inStep_idle reference intact rfl) rfl
  · intro after kept
    exact (ends_silent _ rfl rfl).mpr (inStep_of_unchanged kept rfl rfl)

theorem onPause_ends (inStep : InStep self) (position : ℤ) :
    Ends InStep (self.onPause position) := by
  rcases inStep.intact with ⟨player, reference, intact⟩
  have present : self.mMediaPlayer ≠ none := by simp [reference]
  rw [ListVideoManager.onPause, if_pos present]
  apply (pause_ends inStep).andThen
  intro after kept
  rcases kept.intact with ⟨current, currentReference, currentIntact⟩
  rw [ends_drive_andThen currentReference, ends_silent _ rfl rfl]
  refine ⟨(MediaPlayer.allows_of_ne_error currentIntact).2, ?_⟩
  exact inStep_of_unchanged kept rfl currentReference.symm

theorem reset_notify_ends (reference : self.mMediaPlayer = some player) (status : Status) :
    Ends InStep (andThen self.reset fun after => (after, after.notifyMediaStatus status)) :=
  (reset_ends reference).andThen fun _ kept => (ends_silent _ rfl rfl).mpr kept

theorem setSurface_ends (inStep : InStep self) (surface surfaceTexture : Option Ref) :
    Ends InStep (self.setSurface surface surfaceTexture) := by
  cases surface with
  | none => exact ⟨by simp [ListVideoManager.setSurface], Or.inr rfl, inStep⟩
  | some surface =>
      exact (ends_silent _ rfl rfl).mpr (inStep_of_unchanged inStep rfl rfl)

/-! ## One step and a run -/

/-- As long as the status agrees with the player, a step is sound exactly when it is safe, and
then they agree again. -/
theorem react_ends_iff (inStep : InStep self) (input : Input)
    (weaker : ∀ after, InStep after → post after)
    (stronger : ∀ after, post after → Agrees after) :
    Ends post (react self input) ↔ PlaybackSafe self input := by
  have kept : Ends InStep (react self input) → Ends post (react self input) :=
    fun ends => ⟨ends.legal, ends.handled, weaker _ ends.after⟩
  rcases inStep.intact with ⟨player, reference, intact⟩
  cases input with
  | play url source => exact play_ends_iff inStep url source weaker stronger
  | onPrepared => exact onPrepared_ends_iff inStep weaker
  | onResume => exact onResume_ends_iff inStep weaker
  | setSurface surface surfaceTexture =>
      exact iff_of_true (kept (setSurface_ends inStep surface surfaceTexture)) trivial
  | stop => exact iff_of_true (kept (stop_ends inStep)) trivial
  | pause => exact iff_of_true (kept (pause_ends inStep)) trivial
  | reset => exact iff_of_true (kept (reset_ends reference)) trivial
  | release => exact iff_of_true (kept (release_ends inStep)) trivial
  | onPause position => exact iff_of_true (kept (onPause_ends inStep position)) trivial
  | onCompletion =>
      have moved : self.mMediaPlayer.map .whenCompleted = some player.whenCompleted := by
        rw [reference]
        rfl
      exact iff_of_true (kept (reset_notify_ends moved _)) trivial
  | onError =>
      have moved : (self.mMediaPlayer.map fun _ => MediaPlayer.error) = some .error := by
        rw [reference]
        rfl
      exact iff_of_true (kept (reset_notify_ends moved _)) trivial
  | removeListener onPlayCallback =>
      refine iff_of_true (kept ((ends_silent _ rfl rfl).mpr ?_)) trivial
      exact inStep_of_unchanged inStep rfl rfl
  | addListener onPlayCallback =>
      refine iff_of_true (kept ((ends_silent _ rfl rfl).mpr ?_)) trivial
      exact inStep_of_unchanged inStep rfl rfl

/-- In every run, all steps are sound exactly when all are safe. -/
theorem playbackSound_iff (inputs : List Input) :
    Machine.Every react PlaybackSound initial inputs ↔
      Machine.Every react PlaybackSafe initial inputs := by
  apply Machine.every_iff_of_invariant InStep
  · intro self input inStep
    exact react_ends_iff inStep input (fun _ kept => kept.agrees) (fun _ agrees => agrees)
  · intro self input inStep safe
    exact ((react_ends_iff inStep input (fun _ kept => kept)
      (fun _ kept => kept.agrees)).mpr safe).after
  · exact inStep_idle rfl (by decide) rfl

/-- A video is played and stopped, and then the same one is played again. -/
theorem replay_not_sound :
    ¬Machine.Every react PlaybackSound initial
      [.setSurface (some 1) none, .play (some (ascii ['a'])) .accepted, .onPrepared, .stop,
        .play (some (ascii ['a'])) .accepted] := by
  intro every
  have replay := every [.setSurface (some 1) none, .play (some (ascii ['a'])) .accepted,
    .onPrepared, .stop] (.play (some (ascii ['a'])) .accepted) [] rfl
  have legal := replay.legal ⟨some .stopped, .start⟩ (by decide)
  rw [CallProtocol.legal_some] at legal
  cases legal

end AndroidCollection.Video
