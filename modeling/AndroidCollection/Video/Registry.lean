import AndroidCollection.Lib.Counter
import AndroidCollection.Video.ListVideoManager

/-!
# Surfaces and listeners

What the manager has been given is kept in two stacks and a list. Playing leaves
them alone: surfaces come and go by `setSurface` and `release` only, listeners by
`addListener` and `removeListener`.

The two stacks are meant to be parallel. They are as long as no surface is given
again while it is in its stack, since the texture is then pushed a second time.

The two listener methods have each other's bodies. A listener is told of a status
when its removals outnumber its additions over some last part of the run.
-/

namespace AndroidCollection.Video

open Java Android

/-! ## What playing leaves alone -/

/-- The fields for what the manager has been given. -/
def ListVideoManager.registry (self : ListVideoManager) :
    List Ref × List (Option Ref) × List Ref :=
  (self.mSurfaceStack, self.mSurfaceTextureStack, self.mOnPlayCallbackList)

section Frame

variable (self : ListVideoManager)

@[simp]
theorem registry_drive (methods : List (MediaPlayer.Method × Bool)) :
    (self.drive methods).1.registry = self.registry :=
  rfl

theorem registry_andThen (step : ListVideoManager × Output)
    {next : ListVideoManager → ListVideoManager × Output}
    (kept : ∀ after, (next after).1.registry = after.registry) :
    (andThen step next).1.registry = step.1.registry := by
  simp only [andThen]
  split
  · rfl
  · exact kept step.1

@[simp]
theorem registry_start : self.start.1.registry = self.registry :=
  registry_andThen _ fun _ => rfl

@[simp]
theorem registry_getMediaPlayer : self.getMediaPlayer.registry = self.registry := by
  simp only [ListVideoManager.getMediaPlayer]
  split <;> rfl

theorem registry_play (url : Option JString) (source : SourceOutcome) :
    (self.play url source).1.registry = self.registry := by
  simp only [ListVideoManager.play]
  split
  · rfl
  · split
    · rfl
    · split
      · exact registry_getMediaPlayer self
      · apply (registry_andThen _ _).trans
        · simp
        · intro after
          split
          · exact registry_start after
          · rfl

theorem registry_stop : self.stop.1.registry = self.registry := by
  simp only [ListVideoManager.stop]
  split
  · exact registry_andThen _ fun _ => rfl
  · rfl

theorem registry_pause : self.pause.1.registry = self.registry := by
  simp only [ListVideoManager.pause]
  split
  · exact registry_andThen _ fun _ => rfl
  · rfl

theorem registry_reset : self.reset.1.registry = self.registry := by
  simp only [ListVideoManager.reset]
  split <;> rfl

theorem registry_halt : self.halt.1.registry = self.registry := by
  simp only [ListVideoManager.halt]
  split
  · apply registry_andThen
    intro after
    split <;> rfl
  · rfl

theorem registry_onResume : self.onResume.1.registry = self.registry := by
  simp only [ListVideoManager.onResume]
  split
  · exact registry_andThen _ fun _ => rfl
  · rfl

theorem registry_onPause (position : ℤ) : (self.onPause position).1.registry = self.registry := by
  simp only [ListVideoManager.onPause]
  split
  · apply (registry_andThen _ _).trans (registry_pause self)
    intro after
    exact registry_andThen _ fun _ => rfl
  · rfl

/-- A release takes the tops of both stacks, or ends with an exception before it takes either. -/
theorem registry_release :
    self.release.1.registry = self.registry ∨
      self.release.1.registry =
        (self.mSurfaceStack.tail, self.mSurfaceTextureStack.tail, self.mOnPlayCallbackList) := by
  have halted := registry_halt { self with mCurrPlayUrl := none, currStatus := .STATUS_IDLE }
  simp only [ListVideoManager.registry, Prod.mk.injEq] at halted
  simp only [ListVideoManager.release, andThen]
  split
  · left
    simp [ListVideoManager.registry, halted]
  · right
    simp [ListVideoManager.registry, halted]

end Frame

/-- The inputs which change neither the stacks nor the list. -/
def Input.isPlaying : Input → Bool
  | .setSurface _ _ | .release | .removeListener _ | .addListener _ => false
  | _ => true

theorem registry_react_of_isPlaying (self : ListVideoManager) (input : Input)
    (playing : input.isPlaying = true) : (react self input).1.registry = self.registry := by
  cases input with
  | setSurface | release | removeListener | addListener => cases playing
  | play url source => exact registry_play self url source
  | stop => exact registry_stop self
  | pause => exact registry_pause self
  | reset => exact registry_reset self
  | onResume => exact registry_onResume self
  | onPause position => exact registry_onPause self position
  | onPrepared => exact registry_start _
  | onCompletion | onError =>
      apply (registry_andThen _ _).trans (registry_reset _)
      exact fun _ => rfl

/-! ## Surfaces and their textures -/

variable {self : ListVideoManager}

/-- The stacks are parallel: each surface lies as deep as its own texture. -/
structure Paired (own : Ref → Option Ref) (manager : ListVideoManager) : Prop where
  height : manager.mSurfaceStack.length = manager.mSurfaceTextureStack.length
  texture : ∀ (i : ℕ) surface, manager.mSurfaceStack[i]? = some surface →
    manager.mSurfaceTextureStack[i]? = some (own surface)

/-- A surface is given with its own texture. -/
def WithOwnTexture (own : Ref → Option Ref) : Input → Prop
  | .setSurface (some surface) surfaceTexture => surfaceTexture = own surface
  | _ => True

/-- A surface is not given again while it is in its stack. -/
def GivesNew (self : ListVideoManager) : Input → Prop
  | .setSurface (some surface) _ => surface ∉ self.mSurfaceStack
  | _ => True

theorem paired_iff (own : Ref → Option Ref) :
    Paired own self ↔ self.mSurfaceTextureStack = self.mSurfaceStack.map own := by
  constructor
  · rintro ⟨height, texture⟩
    apply List.ext_getElem?
    intro i
    rw [List.getElem?_map]
    cases found : self.mSurfaceStack[i]? with
    | some surface => exact texture i surface found
    | none =>
        rw [List.getElem?_eq_none_iff, height] at found
        exact List.getElem?_eq_none_iff.2 found
  · intro parallel
    constructor
    · simp [parallel]
    · intro i surface found
      simp [parallel, found]

theorem paired_of_registry {other : ListVideoManager} (own : Ref → Option Ref)
    (paired : Paired own self) (kept : other.registry = self.registry) : Paired own other := by
  rw [paired_iff] at paired ⊢
  simp only [ListVideoManager.registry, Prod.mk.injEq] at kept
  rw [kept.1, kept.2.1, paired]

theorem paired_setSurface_iff (own : Ref → Option Ref) (paired : Paired own self) (surface : Ref) :
    Paired own (self.setSurface (some surface) (own surface)).1 ↔
      surface ∉ self.mSurfaceStack := by
  rw [paired_iff] at paired ⊢
  simp only [ListVideoManager.setSurface, paired]
  split
  · next again =>
      apply iff_of_false
      · intro same
        have lengths := congrArg List.length same
        simp at lengths
      · exact not_not_intro again
  · next new => simp [new]

theorem paired_release (own : Ref → Option Ref) (paired : Paired own self) :
    Paired own self.release.1 := by
  rcases registry_release self with kept | popped
  · exact paired_of_registry own paired kept
  · rw [paired_iff] at paired ⊢
    simp only [ListVideoManager.registry, Prod.mk.injEq] at popped
    rw [popped.1, popped.2.1, paired, List.map_tail]

theorem paired_react_iff (own : Ref → Option Ref) (paired : Paired own self) (input : Input)
    (owned : WithOwnTexture own input) :
    Paired own (react self input).1 ↔ GivesNew self input := by
  cases input with
  | setSurface surface surfaceTexture =>
      cases surface with
      | none => exact iff_of_true paired trivial
      | some surface =>
          cases owned
          exact paired_setSurface_iff own paired surface
  | release => exact iff_of_true (paired_release own paired) trivial
  | removeListener | addListener =>
      apply iff_of_true _ trivial
      exact ⟨paired.height, paired.texture⟩
  | play | stop | pause | reset | onResume | onPause | onPrepared | onCompletion | onError =>
      apply iff_of_true _ trivial
      apply paired_of_registry own paired
      apply registry_react_of_isPlaying
      rfl

/-- When each surface comes with its own texture, the stacks are parallel throughout a run exactly
when no surface is given again while it is in its stack. -/
theorem paired_throughout_iff (own : Ref → Option Ref) (inputs : List Input)
    (owned : ∀ input ∈ inputs, WithOwnTexture own input) :
    Machine.Throughout react (Paired own) initial inputs ↔
      Machine.Every react GivesNew initial inputs := by
  apply Machine.throughout_iff_every_of_mem fun _ => True
  · intro self input member _ paired
    exact paired_react_iff own paired input (owned input member)
  · exact fun _ _ _ _ _ => trivial
  · trivial
  · exact (paired_iff own).2 rfl

/-- Two surfaces are given and released again. -/
theorem paired_throughout_iff_twoSurfaces :
    Machine.Throughout react (Paired some) initial
        [.setSurface (some 1) (some 1), .setSurface (some 2) (some 2), .release, .release] ↔
      Machine.Every react GivesNew initial
        [.setSurface (some 1) (some 1), .setSurface (some 2) (some 2), .release, .release] := by
  apply paired_throughout_iff
  simp [WithOwnTexture]

/-- A surface which is given twice has two textures. -/
theorem repeated_surface_not_paired :
    (∀ input ∈ [Input.setSurface (some 1) (some 1), .setSurface (some 1) (some 1)],
        WithOwnTexture some input) ∧
      ¬Machine.Throughout react (Paired some) initial
        [.setSurface (some 1) (some 1), .setSurface (some 1) (some 1)] := by
  refine ⟨by simp [WithOwnTexture], ?_⟩
  intro throughout
  have paired := throughout [.setSurface (some 1) (some 1), .setSurface (some 1) (some 1)] [] rfl
  have heights := paired.height
  revert heights
  decide

/-! ## Listeners -/

/-- The listener has been added, and not removed since. -/
def Registered (inputs : List Input) (listener : Ref) : Prop :=
  ∃ before later, inputs = before ++ .addListener listener :: later ∧
    .removeListener listener ∉ later

def isRemoval (listener : Ref) : Input → Bool
  | .removeListener onPlayCallback => onPlayCallback = listener
  | _ => false

def isAddition (listener : Ref) : Input → Bool
  | .addListener onPlayCallback => onPlayCallback = listener
  | _ => false

/-- What is notified is one status, to all listeners of a list. -/
def NotifiesAll (listeners : List Ref) (output : Output) : Prop :=
  output.notified = [] ∨
    ∃ status, output.notified = listeners.map fun callback => (callback, status)

section Notified

variable {listeners : List Ref} {step : ListVideoManager × Output}
  {next : ListVideoManager → ListVideoManager × Output}

theorem notifiesAll_andThen (quiet : step.2.notified = [])
    (rest : NotifiesAll listeners (next step.1).2) :
    NotifiesAll listeners (andThen step next).2 := by
  simp only [andThen]
  split
  · exact Or.inl quiet
  · simpa [NotifiesAll, quiet] using rest

theorem notifiesAll_andThen_quiet (first : NotifiesAll listeners step.2)
    (quiet : (next step.1).2.notified = []) : NotifiesAll listeners (andThen step next).2 := by
  simp only [andThen]
  split
  · exact first
  · simpa [NotifiesAll, quiet] using first

theorem quiet_andThen (first : step.2.notified = [])
    (rest : ∀ after, (next after).2.notified = []) : (andThen step next).2.notified = [] := by
  simp only [andThen]
  split
  · exact first
  · simp [first, rest]

end Notified

/-! These methods notify nobody. -/

theorem quiet_reset (self : ListVideoManager) : self.reset.2.notified = [] := by
  simp only [ListVideoManager.reset]
  split <;> rfl

theorem quiet_stop (self : ListVideoManager) : self.stop.2.notified = [] := by
  simp only [ListVideoManager.stop]
  split
  · exact quiet_andThen rfl fun _ => rfl
  · rfl

theorem quiet_halt (self : ListVideoManager) : self.halt.2.notified = [] := by
  simp only [ListVideoManager.halt]
  split
  · apply quiet_andThen rfl
    intro after
    split <;> rfl
  · rfl

theorem quiet_release (self : ListVideoManager) : self.release.2.notified = [] :=
  quiet_andThen (quiet_halt _) fun _ => rfl

theorem quiet_onResume (self : ListVideoManager) : self.onResume.2.notified = [] := by
  simp only [ListVideoManager.onResume]
  split
  · exact quiet_andThen rfl fun _ => rfl
  · rfl

theorem quiet_setSurface (self : ListVideoManager) (surface : Option Ref)
    (surfaceTexture : Option Ref) : (self.setSurface surface surfaceTexture).2.notified = [] := by
  cases surface <;> rfl

theorem notifiesAll_start (self : ListVideoManager) :
    NotifiesAll self.mOnPlayCallbackList self.start.2 :=
  notifiesAll_andThen rfl (Or.inr ⟨.STATUS_PLAYING, rfl⟩)

theorem notifiesAll_pause (self : ListVideoManager) :
    NotifiesAll self.mOnPlayCallbackList self.pause.2 := by
  simp only [ListVideoManager.pause]
  split
  · exact notifiesAll_andThen rfl (Or.inr ⟨.STATUS_PAUSE, rfl⟩)
  · exact Or.inl rfl

theorem notifiesAll_reset_andThen (self : ListVideoManager) (status : Status) :
    NotifiesAll self.mOnPlayCallbackList
      (andThen self.reset fun after => (after, after.notifyMediaStatus status)).2 := by
  have kept := registry_reset self
  simp only [ListVideoManager.registry, Prod.mk.injEq] at kept
  apply notifiesAll_andThen (quiet_reset self)
  · right
    exact ⟨status, by simp [ListVideoManager.notifyMediaStatus, kept]⟩

theorem notifiesAll_play (self : ListVideoManager) (url : Option JString)
    (source : SourceOutcome) : NotifiesAll self.mOnPlayCallbackList (self.play url source).2 := by
  have kept := registry_getMediaPlayer self
  simp only [ListVideoManager.registry, Prod.mk.injEq] at kept
  simp only [ListVideoManager.play]
  split
  · exact Or.inl rfl
  · split
    · exact Or.inl rfl
    · split
      · exact Or.inl rfl
      · apply notifiesAll_andThen rfl
        split
        · rw [← kept.2.2]
          exact notifiesAll_start _
        · exact Or.inl rfl

theorem notifiesAll_onPause (self : ListVideoManager) (position : ℤ) :
    NotifiesAll self.mOnPlayCallbackList (self.onPause position).2 := by
  simp only [ListVideoManager.onPause]
  split
  · apply notifiesAll_andThen_quiet (notifiesAll_pause self)
    exact quiet_andThen rfl fun _ => rfl
  · exact Or.inl rfl

/-- A step notifies the listeners which it finds, and of one status. -/
theorem notifiesAll_react (self : ListVideoManager) (input : Input) :
    NotifiesAll self.mOnPlayCallbackList (react self input).2 := by
  cases input with
  | play url source => exact notifiesAll_play self url source
  | setSurface surface surfaceTexture => exact Or.inl (quiet_setSurface self surface _)
  | stop => exact Or.inl (quiet_stop self)
  | pause => exact notifiesAll_pause self
  | reset => exact Or.inl (quiet_reset self)
  | release => exact Or.inl (quiet_release self)
  | onResume => exact Or.inl (quiet_onResume self)
  | onPause position => exact notifiesAll_onPause self position
  | onPrepared => exact notifiesAll_start _
  | onCompletion | onError => exact notifiesAll_reset_andThen _ _
  | removeListener | addListener => exact Or.inl rfl

/-! ### What a run makes of the list -/

theorem listeners_react (self : ListVideoManager) (input : Input) :
    (react self input).1.mOnPlayCallbackList =
      match input with
      | .removeListener listener => self.mOnPlayCallbackList ++ [listener]
      | .addListener listener => self.mOnPlayCallbackList.erase listener
      | _ => self.mOnPlayCallbackList := by
  have kept := fun playing =>
    congrArg (fun registry => registry.2.2) (registry_react_of_isPlaying self input playing)
  cases input with
  | removeListener | addListener => rfl
  | setSurface surface => cases surface <;> rfl
  | release =>
      rcases registry_release self with kept | popped
      · exact congrArg (fun registry => registry.2.2) kept
      · exact congrArg (fun registry => registry.2.2) popped
  | play | stop | pause | reset | onResume | onPause | onPrepared | onCompletion | onError =>
      exact kept rfl

/-- A listener is in the list as often as the counter of its removals says, which its additions
lower. -/
theorem count_listeners (inputs : List Input) (listener : Ref) :
    (Machine.after react initial inputs).mOnPlayCallbackList.count listener =
      Counter.count (isRemoval listener) (isAddition listener) inputs := by
  induction inputs using List.reverseRecOn with
  | nil => rfl
  | append_singleton inputs input ih =>
      have counted : Counter.count (isRemoval listener) (isAddition listener) (inputs ++ [input]) =
          if isRemoval listener input then
            Counter.count (isRemoval listener) (isAddition listener) inputs + 1
          else if isAddition listener input then
            Counter.count (isRemoval listener) (isAddition listener) inputs - 1
          else Counter.count (isRemoval listener) (isAddition listener) inputs := by
        simp [Counter.count]
      rw [Machine.after_append, Machine.after_cons, Machine.after_nil, listeners_react, counted,
        ← ih]
      cases input with
      | removeListener other =>
          by_cases same : other = listener
          · simp [same, isRemoval]
          · simp [same, isRemoval, isAddition]
      | addListener other =>
          by_cases same : other = listener
          · simp [same, isRemoval, isAddition]
          · simp [isRemoval, isAddition, same, List.count_erase_of_ne (Ne.symm same)]
      | _ => rfl

theorem mem_notified_iff (inputs : List Input) (status : Status) (listener : Ref) :
    (listener, status) ∈ ((Machine.after react initial inputs).notifyMediaStatus status).notified ↔
      Counter.Surplus (isRemoval listener) (isAddition listener) 0 inputs := by
  have exclusive : ∀ input,
      isRemoval listener input = true → isAddition listener input = false := by
    intro input removal
    cases input <;> first | rfl | cases removal
  have surplus := Counter.lt_count_iff exclusive inputs 0
  rw [← count_listeners, List.count_pos_iff] at surplus
  simpa [ListVideoManager.notifyMediaStatus] using surplus

/-! ### The registered listeners -/

/-- A notification, whatever its status, reaches exactly the registered listeners. -/
def NotifiesRegistered (inputs : List Input) : Prop :=
  ∀ status listener,
    (listener, status) ∈ ((Machine.after react initial inputs).notifyMediaStatus status).notified ↔
      Registered inputs listener

/-- Each listener named in a call was added last, and over some final part of the run its removals
outnumber its additions. -/
def AddedLastAndOutnumbered (inputs : List Input) : Prop :=
  ∀ listener, .addListener listener ∈ inputs ∨ .removeListener listener ∈ inputs →
    Registered inputs listener ∧ Counter.Surplus (isRemoval listener) (isAddition listener) 0 inputs

theorem mem_of_registered {inputs : List Input} {listener : Ref}
    (registered : Registered inputs listener) : .addListener listener ∈ inputs := by
  rcases registered with ⟨before, later, rfl, _⟩
  simp

theorem mem_of_surplus {inputs : List Input} {listener : Ref} {bound : ℕ}
    (surplus : Counter.Surplus (isRemoval listener) (isAddition listener) bound inputs) :
    .removeListener listener ∈ inputs := by
  rcases surplus with ⟨before, final, rfl, exceeds⟩
  have positive : 0 < final.countP (isRemoval listener) := by omega
  rcases List.countP_pos_iff.1 positive with ⟨input, member, removal⟩
  cases input with
  | removeListener other =>
      have same : other = listener := by simpa [isRemoval] using removal
      subst same
      exact List.mem_append_right before member
  | _ => cases removal

/-- What is not about the listener keeps it registered. -/
theorem Registered.concat {inputs : List Input} {listener : Ref}
    (registered : Registered inputs listener) {input : Input}
    (other : input ≠ .removeListener listener) : Registered (inputs ++ [input]) listener := by
  rcases registered with ⟨before, later, rfl, kept⟩
  refine ⟨before, later ++ [input], by simp, ?_⟩
  simpa using ⟨kept, other.symm⟩

/-- The last call which names a listener has added it or has removed it. -/
theorem registered_or_surplus {inputs : List Input} {listener : Ref}
    (named : .addListener listener ∈ inputs ∨ .removeListener listener ∈ inputs) :
    Registered inputs listener ∨
      Counter.Surplus (isRemoval listener) (isAddition listener) 0 inputs := by
  induction inputs using List.reverseRecOn with
  | nil => simp at named
  | append_singleton inputs input ih =>
      by_cases added : input = .addListener listener
      · left
        exact ⟨inputs, [], by rw [added], by simp⟩
      · by_cases removed : input = .removeListener listener
        · right
          refine ⟨inputs, [input], rfl, ?_⟩
          simp [removed, isRemoval, isAddition]
        · have earlier : .addListener listener ∈ inputs ∨ .removeListener listener ∈ inputs := by
            simpa [Ne.symm added, Ne.symm removed] using named
          have neither : isRemoval listener input = false ∧ isAddition listener input = false := by
            cases input <;> simp_all [isRemoval, isAddition]
          rcases ih earlier with registered | surplus
          · exact Or.inl (registered.concat removed)
          · right
            rw [Counter.surplus_concat_iff]
            simpa [Counter.Surplus, neither] using surplus

/-- After every run, a notification of any status reaches exactly the listeners added and not
removed since, if and only if each listener named in the run was added last and has a surplus of
removals over some final part of it. -/
theorem notifiesRegistered_iff (inputs : List Input) :
    NotifiesRegistered inputs ↔ AddedLastAndOutnumbered inputs := by
  simp only [NotifiesRegistered, mem_notified_iff]
  constructor
  · intro reaches listener named
    have agree := reaches .STATUS_IDLE listener
    rcases registered_or_surplus named with registered | surplus
    · exact ⟨registered, agree.2 registered⟩
    · exact ⟨agree.1 surplus, surplus⟩
  · intro condition status listener
    constructor
    · intro surplus
      exact (condition listener (Or.inr (mem_of_surplus surplus))).1
    · intro registered
      exact (condition listener (Or.inl (mem_of_registered registered))).2

/-- A listener which is added is not told that the video is playing. -/
theorem added_not_notified : ¬NotifiesRegistered [.addListener 1] := by
  intro reaches
  have reached := (reaches .STATUS_PLAYING 1).2 ⟨[], [], rfl, by simp⟩
  revert reached
  decide

/-- Notifications reach the registered listeners throughout a run only if the run names none: the
first call already leaves an added listener out, or a removed one in. -/
theorem notifiesRegistered_throughout_iff (inputs : List Input) :
    (∀ done rest, inputs = done ++ rest → NotifiesRegistered done) ↔
      ∀ listener, .addListener listener ∉ inputs ∧ .removeListener listener ∉ inputs := by
  constructor
  · intro throughout
    induction inputs using List.reverseRecOn with
    | nil => simp
    | append_singleton inputs input ih =>
        have unnamed := ih fun done rest split =>
          throughout done (rest ++ [input]) (by rw [split, List.append_assoc])
        have last := (notifiesRegistered_iff _).1 (throughout (inputs ++ [input]) [] (by simp))
        intro listener
        rw [← not_or]
        intro named
        have both := last listener named
        have added := mem_of_registered both.1
        have removed := mem_of_surplus both.2
        simp only [List.mem_append, (unnamed listener).1, (unnamed listener).2, false_or,
          List.mem_singleton] at added removed
        cases added.trans removed.symm
  · rintro unnamed done rest rfl
    rw [notifiesRegistered_iff]
    intro listener named
    have absent := unnamed listener
    simp only [List.mem_append, not_or] at absent
    exact absurd named (not_or.2 ⟨absent.1.1, absent.2.1⟩)

end AndroidCollection.Video
