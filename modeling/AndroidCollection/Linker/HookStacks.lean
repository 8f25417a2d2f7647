import AndroidCollection.Linker.Hooks
import Mathlib.Tactic.Common

/-!
# Stacks of hooks

Each slot has a stack of hooks. Whoever hooks a slot pushes onto its stack, and whoever
unhooks it takes the oldest occurrence of a hook away. While the stack is empty the slot has
its original content; else it points to a trampoline whose run list is the original function
with the stack after it. A thread which has loaded the id of a trampoline gets to the
original function of the slot, whatever happens to the slot meanwhile.
-/

universe u v

namespace AndroidCollection.Linker

variable {φ : Type u} {τ : Type v}

/-- The hooks of each slot, the oldest one first, and the slots which could not be written
when they were hooked. -/
structure HookStacks (φ : Type u) where
  stack : Address → List (Pointer φ)
  unpatched : Address → Bool

namespace HookStacks

variable [DecidableEq φ]

omit [DecidableEq φ] in
def empty : HookStacks φ where
  stack _ := []
  unpatched _ := false

def apply (image : HookStacks φ) : LinkerEvent φ → HookStacks φ
  | .hooked address hook =>
      { image with
        stack := Function.update image.stack address (image.stack address ++ [hook]) }
  | .unhooked address hook =>
      let rest := (image.stack address).erase hook
      { stack := Function.update image.stack address rest
        unpatched :=
          if rest = [] then Function.update image.unpatched address false else image.unpatched }
  | .unpatched address =>
      { image with unpatched := Function.update image.unpatched address true }

def after (events : List (LinkerEvent φ)) : HookStacks φ :=
  events.foldl apply empty

theorem after_append_singleton (events : List (LinkerEvent φ)) (event : LinkerEvent φ) :
    after (events ++ [event]) = (after events).apply event := by
  simp [after]

end HookStacks

def Modification.address : Modification φ → Option Address
  | .idle => none
  | .patching address _ | .restoring address _ | .forgetting address _ => some address

theorem Modification.address_ne {modification : Modification φ} (idle : modification = .idle)
    (address : Address) : modification.address ≠ some address := by
  rw [idle]
  simp [Modification.address]

/-- The info of a slot which is hooked. -/
def Globals.Hooked (globals : Globals φ) (address : Address) (index : ℕ)
    (info : InternalHookInfo φ) : Prop :=
  globals.hooksByGotAddress address = some index ∧ globals.infos[index]? = some info

/-- What the infos say about the stacks. -/
structure Globals.Represents (original : Address → Pointer φ) (globals : Globals φ)
    (stack : Address → List (Pointer φ)) : Prop where
  fits : globals.infos.length < 2 ^ 32
  nextId : globals.nextId = UInt32.ofNat (globals.infos.length + 1)
  byId : ∀ id index, globals.hooksById id = some index ↔
    index < globals.infos.length ∧ id = UInt32.ofNat (index + 1)
  id_eq : ∀ index info, globals.infos[index]? = some info → info.id = UInt32.ofNat (index + 1)
  byGot : ∀ address index, globals.hooksByGotAddress address = some index →
    ∃ info, globals.infos[index]? = some info ∧ info.gotAddress = address
  hooks : ∀ index info, globals.infos[index]? = some info →
    info.hooks = original info.gotAddress ::
      if globals.hooksByGotAddress info.gotAddress = some index then stack info.gotAddress else []
  bare : ∀ address, globals.hooksByGotAddress address = none → stack address = []
  valid : ∀ address index, globals.hooksByGotAddress address = some index →
    address ≠ 0 ∧ original address ≠ .null
  present : ∀ address, .null ∉ stack address

namespace Globals

variable {original : Address → Pointer φ} {globals : Globals φ}
  {stack : Address → List (Pointer φ)} {address : Address} {index : ℕ}
  {info : InternalHookInfo φ}

theorem represents_init : (init : Globals φ).Represents original fun _ => [] where
  fits := by simp [init]
  nextId := rfl
  byId := by simp [init]
  id_eq := by simp [init]
  byGot := by simp [init]
  hooks := by simp [init]
  bare := by simp
  valid := by simp [init]
  present := by simp

namespace Represents

theorem exists_hooked (represents : globals.Represents original stack)
    (hooked : globals.hooksByGotAddress address = some index) :
    ∃ info, globals.Hooked address index info ∧ info.gotAddress = address ∧
      info.hooks = original address :: stack address := by
  rcases represents.byGot address index hooked with ⟨info, found, same⟩
  refine ⟨info, ⟨hooked, found⟩, same, ?_⟩
  rw [represents.hooks index info found, same, if_pos hooked]

/-- An id leads to the run list of its info. -/
theorem getRunList_eq (represents : globals.Represents original stack)
    (found : globals.infos[index]? = some info) : globals.getRunList info.id = info.hooks := by
  have known : globals.hooksById info.id = some index :=
    (represents.byId _ _).2 ⟨(List.getElem?_eq_some_iff.1 found).1, represents.id_eq _ _ found⟩
  simp [getRunList, known, found]

end Represents

theorem getElem?_setHooks (change : List (Pointer φ) → List (Pointer φ)) (other : ℕ) :
    (globals.setHooks index change).infos[other]? = (globals.infos[other]?).map fun info =>
      if index = other then { info with hooks := change info.hooks } else info := by
  simp only [Globals.setHooks, List.getElem?_modify]
  split <;> rfl

/-- A change of the run list of one slot. -/
theorem Represents.setHooks (represents : globals.Represents original stack)
    (hooked : globals.Hooked address index info) {later : List (Pointer φ)}
    {change : List (Pointer φ) → List (Pointer φ)}
    (changes : change (original address :: stack address) = original address :: later)
    (present : .null ∉ later) :
    (globals.setHooks index change).Represents original (Function.update stack address later) := by
  have lengths : (globals.setHooks index change).infos.length = globals.infos.length := by
    simp [Globals.setHooks]
  have found := hooked.2
  rcases represents.exists_hooked hooked.1 with ⟨own, ⟨_, foundOwn⟩, ownAddress, ownHooks⟩
  obtain rfl : own = info := Option.some.inj (foundOwn.symm.trans found)
  refine ⟨by rw [lengths]; exact represents.fits, by rw [lengths]; exact represents.nextId, ?_, ?_,
    ?_, ?_, ?_, represents.valid, fun other => ?_⟩
  · intro id other
    rw [lengths]
    exact represents.byId id other
  · intro other changed isChanged
    rw [getElem?_setHooks] at isChanged
    rcases Option.map_eq_some_iff.1 isChanged with ⟨before, foundBefore, rfl⟩
    have id := represents.id_eq other before foundBefore
    split <;> exact id
  · intro otherAddress other hookedOther
    rcases represents.byGot otherAddress other hookedOther with ⟨before, foundBefore, same⟩
    refine ⟨if index = other then { before with hooks := change before.hooks } else before, ?_, ?_⟩
    · rw [getElem?_setHooks, foundBefore]
      rfl
    · split <;> exact same
  · intro other changed isChanged
    rw [getElem?_setHooks] at isChanged
    rcases Option.map_eq_some_iff.1 isChanged with ⟨before, foundBefore, rfl⟩
    by_cases here : index = other
    · subst here
      obtain rfl : before = own := Option.some.inj (foundBefore.symm.trans found)
      rw [if_pos rfl]
      simp only [ownAddress, ownHooks, changes]
      rw [if_pos (show (globals.setHooks index change).hooksByGotAddress address = some index from
        hooked.1), Function.update_self]
    · rw [if_neg here, represents.hooks other before foundBefore]
      congr 1
      by_cases atAddress : before.gotAddress = address
      · have isNot : globals.hooksByGotAddress before.gotAddress ≠ some other := by
          rw [atAddress, hooked.1]
          exact fun same => here (Option.some.inj same)
        rw [if_neg isNot, if_neg (show (globals.setHooks index change).hooksByGotAddress
          before.gotAddress ≠ some other from isNot)]
      · rw [Function.update_of_ne atAddress]
        rfl
  · intro otherAddress notHooked
    have different : otherAddress ≠ address := by
      rintro rfl
      cases hooked.1.symm.trans notHooked
    rw [Function.update_of_ne different]
    exact represents.bare otherAddress notHooked
  · by_cases same : other = address
    · rwa [same, Function.update_self]
    · rw [Function.update_of_ne same]
      exact represents.present other

/-! ## Adding -/

/-- The infos with a new one. -/
def push (globals : Globals φ) (address : Address) (hooks : List (Pointer φ)) : Globals φ where
  infos := globals.infos ++ [⟨globals.nextId, address, hooks⟩]
  hooksById := emplace globals.hooksById globals.nextId globals.infos.length
  hooksByGotAddress := emplace globals.hooksByGotAddress address globals.infos.length
  nextId := globals.nextId + 1

theorem add_cases [DecidableEq φ] (globals : Globals φ) (info : HookInfo φ) :
    globals.add info = (.wrongHookInfo, info, globals) ∨
    (∃ index, globals.hooksByGotAddress info.gotAddress = some index ∧
      info.newFunction ≠ .null ∧ globals.add info =
        (.alreadyHookedAppended, info, globals.setHooks index (· ++ [info.newFunction]))) ∨
    globals.hooksByGotAddress info.gotAddress = none ∧ info.previousFunction ≠ .null ∧
      info.newFunction ≠ .null ∧ info.gotAddress ≠ 0 ∧
      globals.add info = (.newHook, { info with outId := globals.nextId },
        globals.push info.gotAddress [info.previousFunction, info.newFunction]) := by
  unfold add
  split
  · exact Or.inl rfl
  · next valid =>
      simp only [not_or] at valid
      split
      · next index hooked => exact Or.inr (Or.inl ⟨index, hooked, valid.2.1, rfl⟩)
      · next bare => exact Or.inr (Or.inr ⟨bare, valid.1, valid.2.1, valid.2.2, rfl⟩)

theorem nextId_unused (represents : globals.Represents original stack) :
    globals.hooksById globals.nextId = none := by
  cases known : globals.hooksById globals.nextId with
  | none => rfl
  | some index =>
      rcases (represents.byId _ _).1 known with ⟨small, same⟩
      have fits := represents.fits
      rw [represents.nextId] at same
      have nats := congrArg UInt32.toNat same
      rw [UInt32.toNat_ofNat', UInt32.toNat_ofNat',
        Nat.mod_eq_of_lt (by omega : index + 1 < 2 ^ 32)] at nats
      by_cases wraps : globals.infos.length + 1 < 2 ^ 32
      · rw [Nat.mod_eq_of_lt wraps] at nats
        omega
      · rw [show globals.infos.length + 1 = 2 ^ 32 by omega, Nat.mod_self] at nats
        omega

theorem Represents.push [DecidableEq φ] (represents : globals.Represents original stack)
    (fits : globals.infos.length + 1 < 2 ^ 32)
    (notHooked : globals.hooksByGotAddress address = none) (valid : address ≠ 0)
    (present : original address ≠ .null) {hook : Pointer φ} (given : hook ≠ .null) :
    (globals.push address [original address, hook]).Represents original
      (Function.update stack address (stack address ++ [hook])) := by
  have byId : (globals.push address [original address, hook]).hooksById =
      Function.update globals.hooksById globals.nextId (some globals.infos.length) := by
    simp [Globals.push, emplace, nextId_unused represents]
  have byGot : (globals.push address [original address, hook]).hooksByGotAddress =
      Function.update globals.hooksByGotAddress address (some globals.infos.length) := by
    simp [Globals.push, emplace, notHooked]
  have get (index : ℕ) (info : InternalHookInfo φ) :
      (globals.push address [original address, hook]).infos[index]? = some info ↔
        globals.infos[index]? = some info ∨ index = globals.infos.length ∧
          info = ⟨globals.nextId, address, [original address, hook]⟩ := by
    simp only [Globals.push, List.getElem?_append]
    split
    · next small =>
        refine ⟨Or.inl, fun found => found.resolve_right fun new => ?_⟩
        omega
    · next large =>
        have none : globals.infos[index]? = Option.none := List.getElem?_eq_none (by omega)
        rw [none, List.getElem?_singleton]
        constructor
        · intro found
          split at found
          · exact Or.inr ⟨by omega, (Option.some.inj found).symm⟩
          · cases found
        · rintro (found | ⟨same, rfl⟩)
          · cases found
          · rw [if_pos (by omega)]
  have length : (globals.push address [original address, hook]).infos.length =
      globals.infos.length + 1 := by
    simp [Globals.push]
  have bareStack := represents.bare address notHooked
  refine ⟨by rwa [length], ?_, ?_, ?_, ?_, ?_, ?_, ?_, fun other => ?_⟩
  · rw [length, UInt32.ofNat_add (globals.infos.length + 1) 1, ← represents.nextId]
    rfl
  · intro id index
    rw [byId, length]
    by_cases same : id = globals.nextId
    · subst same
      rw [Function.update_self, Option.some.injEq, represents.nextId]
      constructor
      · rintro rfl
        exact ⟨by omega, rfl⟩
      · rintro ⟨small, same⟩
        have nats := congrArg UInt32.toNat same
        rw [UInt32.toNat_ofNat', UInt32.toNat_ofNat', Nat.mod_eq_of_lt fits,
          Nat.mod_eq_of_lt (by omega)] at nats
        omega
    · rw [Function.update_of_ne same, represents.byId]
      constructor
      · rintro ⟨small, rfl⟩
        exact ⟨by omega, rfl⟩
      · rintro ⟨small, rfl⟩
        refine ⟨?_, rfl⟩
        rw [represents.nextId] at same
        have different : index ≠ globals.infos.length := by
          rintro rfl
          exact same rfl
        omega
  · intro index info found
    rcases (get index info).1 found with before | ⟨rfl, rfl⟩
    · exact represents.id_eq index info before
    · exact represents.nextId
  · intro other index hooked
    rw [byGot] at hooked
    by_cases same : other = address
    · subst same
      rw [Function.update_self] at hooked
      exact ⟨_, (get _ _).2 (Or.inr ⟨(Option.some.inj hooked).symm, rfl⟩), rfl⟩
    · rw [Function.update_of_ne same] at hooked
      rcases represents.byGot other index hooked with ⟨info, found, sameAddress⟩
      exact ⟨info, (get _ _).2 (Or.inl found), sameAddress⟩
  · intro index info found
    rw [byGot]
    rcases (get index info).1 found with before | ⟨rfl, rfl⟩
    · have small := (List.getElem?_eq_some_iff.1 before).1
      rw [represents.hooks index info before]
      by_cases same : info.gotAddress = address
      · rw [same, notHooked, Function.update_self, if_neg (by simp), if_neg]
        intro isNew
        have := Option.some.inj isNew
        omega
      · rw [Function.update_of_ne same, Function.update_of_ne same]
    · simp [bareStack]
  · intro other bare
    rw [byGot] at bare
    have different : other ≠ address := by
      rintro rfl
      simp at bare
    rw [Function.update_of_ne different] at bare ⊢
    exact represents.bare other bare
  · intro other index hooked
    rw [byGot] at hooked
    by_cases same : other = address
    · subst same
      exact ⟨valid, present⟩
    · rw [Function.update_of_ne same] at hooked
      exact represents.valid other index hooked
  · by_cases same : other = address
    · rw [same, Function.update_self, bareStack]
      simpa using given.symm
    · rw [Function.update_of_ne same]
      exact represents.present other

/-! ## Removing -/

variable [DecidableEq φ]

/-- What `remove` does with a hook of a slot, which is not its original function. -/
theorem Represents.remove_cases (represents : globals.Represents original stack)
    (hook : Pointer φ) (nonempty : ∀ index, globals.hooksByGotAddress address = some index →
      stack address ≠ []) :
    (∃ info, globals.remove ⟨0, address, hook, .null⟩ = (.wrongHookInfo, info, globals)) ∨
    ∃ index info, globals.Hooked address index info ∧ hook ∈ stack address ∧
      hook ≠ original address ∧
      globals.remove ⟨0, address, hook, .null⟩ =
        (if (stack address).erase hook = [] then .removedTrivial else .removedStillHooked,
          ⟨0, address, hook, original address⟩,
          globals.setHooks index fun _ => original address :: (stack address).erase hook) := by
  unfold remove
  split
  · exact Or.inl ⟨_, rfl⟩
  · split
    · exact Or.inl ⟨_, rfl⟩
    · next index hookedIndex =>
        rcases represents.exists_hooked hookedIndex with ⟨info, hooked, _, hooks⟩
        rw [hooked.2]
        have notOne : info.hooks.length ≠ 1 := by
          simpa [hooks] using nonempty index hookedIndex
        simp only [hooks, List.head?_cons, Option.some.injEq] at notOne ⊢
        rw [if_neg notOne]
        split
        · exact Or.inl ⟨_, rfl⟩
        · next member =>
            split
            · exact Or.inl ⟨_, rfl⟩
            · next notOriginal =>
                right
                have different : hook ≠ original address := Ne.symm notOriginal
                have inStack : hook ∈ stack address :=
                  (List.mem_cons.1 (not_not.1 member)).resolve_left different
                refine ⟨index, info, hooked, inStack, different, ?_⟩
                rw [List.erase_cons_tail (by simpa using notOriginal)]
                simp

/-- A hook of a slot is removed. -/
theorem Represents.remove_eq (represents : globals.Represents original stack)
    {hook : Pointer φ} (hooked : globals.hooksByGotAddress address = some index)
    (member : hook ∈ stack address) (different : hook ≠ original address) :
    globals.remove ⟨0, address, hook, .null⟩ =
      (if (stack address).erase hook = [] then .removedTrivial else .removedStillHooked,
        ⟨0, address, hook, original address⟩,
        globals.setHooks index fun _ => original address :: (stack address).erase hook) := by
  rcases represents.exists_hooked hooked with ⟨info, ⟨_, found⟩, _, hooks⟩
  have given : hook ≠ .null := fun isNull => represents.present address (isNull ▸ member)
  have valid := (represents.valid address index hooked).1
  have notOne : (stack address).length ≠ 0 := by
    rw [ne_eq, List.length_eq_zero_iff]
    exact List.ne_nil_of_mem member
  unfold remove
  simp [given, valid, hooked, found, hooks, notOne, member, Ne.symm different,
    -List.length_erase_of_mem]

/-- The last entry of a slot is its original function, and goes with the slot. -/
theorem Represents.remove_original (represents : globals.Represents original stack)
    (hooked : globals.hooksByGotAddress address = some index) (none : stack address = []) :
    ∃ info, globals.remove ⟨0, address, original address, .null⟩ = (.removedFully, info,
      { globals with
        hooksByGotAddress := Function.update globals.hooksByGotAddress address Option.none }) := by
  rcases represents.exists_hooked hooked with ⟨info, ⟨_, found⟩, _, hooks⟩
  rcases represents.valid address index hooked with ⟨valid, present⟩
  rw [none] at hooks
  unfold remove
  simp [valid, present, hooked, found, hooks]

omit [DecidableEq φ] in
theorem Represents.forget (represents : globals.Represents original stack)
    (none : stack address = []) :
    Represents original { globals with
      hooksByGotAddress := Function.update globals.hooksByGotAddress address Option.none }
        stack where
  fits := represents.fits
  nextId := represents.nextId
  byId := represents.byId
  id_eq := represents.id_eq
  byGot other index hooked := by
    by_cases same : other = address
    · subst same
      simp at hooked
    · exact represents.byGot other index (by simpa [same] using hooked)
  hooks index info found := by
    rw [represents.hooks index info found]
    by_cases same : info.gotAddress = address
    · simp [same, none]
    · simp [same]
  bare other bare := by
    by_cases same : other = address
    · rw [same, none]
    · exact represents.bare other (by simpa [same] using bare)
  valid other index hooked := by
    by_cases same : other = address
    · subst same
      simp at hooked
    · exact represents.valid other index (by simpa [same] using hooked)
  present := represents.present

end Globals

/-! ## Processes -/

namespace Globals

variable {globals : Globals φ} {address : Address} {index : ℕ} {info : InternalHookInfo φ}
  {id : HookId}

/-- The id was made for the slot. -/
def Known (globals : Globals φ) (id : HookId) (slot : Address) : Prop :=
  ∃ (index : ℕ) (info : InternalHookInfo φ), globals.infos[index]? = some info ∧ info.id = id ∧
    info.gotAddress = slot

theorem Known.setHooks {slot : Address} (known : globals.Known id slot)
    (change : List (Pointer φ) → List (Pointer φ)) :
    (globals.setHooks index change).Known id slot := by
  rcases known with ⟨other, info, found, sameId, sameSlot⟩
  refine ⟨other, _, by rw [getElem?_setHooks, found]; rfl, ?_, ?_⟩
  · split <;> exact sameId
  · split <;> exact sameSlot

theorem Known.push {slot : Address} (known : globals.Known id slot)
    {hooks : List (Pointer φ)} : (globals.push address hooks).Known id slot := by
  rcases known with ⟨other, info, found, same⟩
  refine ⟨other, info, ?_, same⟩
  rw [Globals.push, List.getElem?_append_left (List.getElem?_eq_some_iff.1 found).1, found]

/-- A change of a run list leaves the ids. -/
theorem Hooked.of_setHooks {change : List (Pointer φ) → List (Pointer φ)} {other : ℕ}
    (hooked : (globals.setHooks index change).Hooked address other info) :
    ∃ before, globals.Hooked address other before ∧ before.id = info.id := by
  rcases hooked with ⟨isHooked, found⟩
  rw [getElem?_setHooks] at found
  rcases Option.map_eq_some_iff.1 found with ⟨before, foundBefore, rfl⟩
  refine ⟨before, ⟨isHooked, foundBefore⟩, ?_⟩
  split <;> rfl

end Globals

namespace HookStacks

def Modifies (original got : Address → Pointer φ) (globals : Globals φ) (image : HookStacks φ) :
    Modification φ → Prop
  | .idle => True
  | .patching address id =>
      (∃ index info, globals.Hooked address index info ∧ id = info.id) ∧
        image.stack address ≠ [] ∧ got address = original address ∧
        image.unpatched address = false
  | .restoring address content =>
      (∃ index info, globals.Hooked address index info ∧
        (got address = original address ∨ got address = .trampoline info.id)) ∧
          content = original address ∧ image.stack address = [] ∧
            image.unpatched address = false
  | .forgetting address content =>
      (∃ index, globals.hooksByGotAddress address = some index) ∧ content = original address ∧
        image.stack address = [] ∧ image.unpatched address = false ∧
        got address = original address

end HookStacks

/-- The stacks say what the slots and the run lists contain. -/
structure Process.Represents (original : Address → Pointer φ) (process : Process φ τ)
    (image : HookStacks φ) : Prop where
  globals : process.globals.Represents original image.stack
  bare : ∀ address, process.globals.hooksByGotAddress address = none →
    process.got address = original address ∧ image.unpatched address = false
  settled : ∀ address index info, process.globals.Hooked address index info →
    process.modification.address ≠ some address → image.stack address ≠ [] ∧
      process.got address =
        if image.unpatched address then original address else .trampoline info.id
  modifies : image.Modifies original process.got process.globals process.modification
  alive : process.aborted ≠ some .emptyRunList ∧ process.aborted ≠ some .slotModified
  entering : ∀ thread entering, process.entering thread = some entering →
    process.globals.Known entering.id entering.slot
  frames : ∀ thread, ∀ frame ∈ process.hookStack thread, ∃ slot,
    process.globals.Known frame.id slot ∧ frame.runList.head? = some (original slot)

namespace Process

variable {original : Address → Pointer φ} {process : Process φ τ} {image : HookStacks φ}
  {address : Address} {hook : Pointer φ}

theorem represents_init : (init original : Process φ τ).Represents original .empty where
  globals := Globals.represents_init
  bare _ _ := ⟨rfl, rfl⟩
  settled _ _ _ hooked := by
    cases hooked.1
  modifies := trivial
  alive := ⟨nofun, nofun⟩
  entering := nofun
  frames := nofun

namespace Represents

theorem nonempty (represents : process.Represents original image)
    (idle : process.modification = .idle) (index : ℕ)
    (hooked : process.globals.hooksByGotAddress address = some index) :
    image.stack address ≠ [] := by
  rcases represents.globals.exists_hooked hooked with ⟨info, isHooked, _⟩
  exact (represents.settled address index info isHooked (Modification.address_ne idle address)).1

/-- The run list of a slot changes. -/
theorem setHooks (represents : process.Represents original image)
    (idle : process.modification = .idle) {index : ℕ} {info : InternalHookInfo φ}
    (hooked : process.globals.Hooked address index info) (later : List (Pointer φ))
    (change : List (Pointer φ) → List (Pointer φ))
    (changes : change (original address :: image.stack address) = original address :: later)
    (present : .null ∉ later) {modification : Modification φ} {unpatched : Address → Bool}
    (settled : later ≠ [] ∧ modification = .idle ∧ unpatched = image.unpatched ∨
      later = [] ∧ modification = .restoring address (original address) ∧
        unpatched = Function.update image.unpatched address false) :
    Represents original { process with
      globals := process.globals.setHooks index change
      modification := modification }
        ⟨Function.update image.stack address later, unpatched⟩ where
  globals := represents.globals.setHooks hooked changes present
  bare other bare := by
    have different : other ≠ address := by
      rintro rfl
      cases hooked.1.symm.trans bare
    rcases represents.bare other bare with ⟨content, patched⟩
    refine ⟨content, ?_⟩
    rcases settled with ⟨_, _, rfl⟩ | ⟨_, _, rfl⟩
    · exact patched
    · simpa [different] using patched
  settled other otherIndex otherInfo otherHooked notModified := by
    rcases otherHooked.of_setHooks with ⟨before, hookedBefore, sameId⟩
    have was := represents.settled other otherIndex before hookedBefore
      (Modification.address_ne idle other)
    rw [sameId] at was
    by_cases same : other = address
    · subst same
      rcases settled with ⟨some, rfl, rfl⟩ | ⟨_, rfl, _⟩
      · exact ⟨by simpa using some, was.2⟩
      · exact absurd rfl notModified
    · rcases settled with ⟨_, _, rfl⟩ | ⟨_, _, rfl⟩
      · exact ⟨by simpa [same] using was.1, was.2⟩
      · exact ⟨by simpa [same] using was.1, by simpa [same] using was.2⟩
  modifies := by
    rcases settled with ⟨_, rfl, rfl⟩ | ⟨none, rfl, rfl⟩
    · trivial
    · have was := (represents.settled address index info hooked
        (Modification.address_ne idle address)).2
      have content : process.got address = original address ∨
          process.got address = .trampoline info.id := by
        split at was
        · exact Or.inl was
        · exact Or.inr was
      refine ⟨⟨index, _, ⟨hooked.1, by rw [Globals.getElem?_setHooks, hooked.2]; rfl⟩, ?_⟩, rfl,
        by simpa using none, by simp⟩
      simpa using content
  alive := represents.alive
  entering thread entering isEntering :=
    (represents.entering thread entering isEntering).setHooks change
  frames thread frame member := by
    rcases represents.frames thread frame member with ⟨slot, known, head⟩
    exact ⟨slot, known.setHooks change, head⟩

theorem push [DecidableEq φ] (represents : process.Represents original image)
    (idle : process.modification = .idle) (fits : process.globals.infos.length + 1 < 2 ^ 32)
    (bare : process.globals.hooksByGotAddress address = none) (valid : address ≠ 0)
    (present : original address ≠ .null) {hook : Pointer φ} (given : hook ≠ .null) :
    Represents original { process with
      globals := process.globals.push address [original address, hook]
      modification := .patching address process.globals.nextId }
        ⟨Function.update image.stack address (image.stack address ++ [hook]),
          image.unpatched⟩ := by
  have byGot : (process.globals.push address [original address, hook]).hooksByGotAddress =
      Function.update process.globals.hooksByGotAddress address
        (some process.globals.infos.length) := by
    simp [Globals.push, Globals.emplace, bare]
  have globals := represents.globals.push fits bare valid present given
  have new : (process.globals.push address [original address, hook]).Hooked address
      process.globals.infos.length
        ⟨process.globals.nextId, address, [original address, hook]⟩ :=
    ⟨by rw [byGot, Function.update_self], by simp [Globals.push]⟩
  rcases represents.bare address bare with ⟨content, patched⟩
  refine ⟨globals, fun other notHooked => ?_, ?_, ?_, represents.alive, ?_, ?_⟩
  · change (process.globals.push address [original address, hook]).hooksByGotAddress other = none
      at notHooked
    rw [byGot] at notHooked
    have different : other ≠ address := by
      rintro rfl
      simp at notHooked
    exact represents.bare other (by simpa [different] using notHooked)
  · rintro other index info ⟨hooked, found⟩ notModified
    have different : other ≠ address := by
      rintro rfl
      exact notModified rfl
    change (process.globals.push address [original address, hook]).hooksByGotAddress other =
      some index at hooked
    rw [byGot, Function.update_of_ne different] at hooked
    rcases represents.globals.exists_hooked hooked with ⟨before, isHooked, _⟩
    have small := (List.getElem?_eq_some_iff.1 isHooked.2).1
    have same : info = before := by
      rw [Globals.push, List.getElem?_append_left small] at found
      exact Option.some.inj (found.symm.trans isHooked.2)
    rw [same]
    have was := represents.settled other index before isHooked
      (Modification.address_ne idle other)
    exact ⟨by simpa [different] using was.1, was.2⟩
  · exact ⟨⟨_, _, new, rfl⟩, by simp, content, patched⟩
  · intro thread entering isEntering
    exact (represents.entering thread entering isEntering).push
  · intro thread frame member
    rcases represents.frames thread frame member with ⟨slot, known, head⟩
    exact ⟨slot, known.push, head⟩

/-- The slot of a new hook is written, or is not. -/
theorem patched (represents : process.Represents original image) {id : HookId}
    (patching : process.modification = .patching address id) (writes : Bool) :
    Represents original { process with
      got := if writes then Function.update process.got address (.trampoline id)
        else process.got
      modification := .idle }
        ⟨image.stack, if writes then image.unpatched
          else Function.update image.unpatched address true⟩ := by
  have modifies := represents.modifies
  rw [patching] at modifies
  rcases modifies with ⟨⟨index, info, hooked, rfl⟩, some, content, isPatched⟩
  refine ⟨represents.globals, fun other bare => ?_,
    fun other otherIndex otherInfo otherHooked _ => ?_, trivial, represents.alive,
    represents.entering, represents.frames⟩
  · have different : other ≠ address := by
      rintro rfl
      cases hooked.1.symm.trans bare
    have was := represents.bare other bare
    cases writes
    · exact ⟨was.1, by simpa [different] using was.2⟩
    · exact ⟨by simpa [different] using was.1, was.2⟩
  · by_cases same : other = address
    · subst same
      cases hooked.1.symm.trans otherHooked.1
      cases hooked.2.symm.trans otherHooked.2
      cases writes
      · exact ⟨some, by simpa using content⟩
      · exact ⟨some, by simp [isPatched]⟩
    · have was := represents.settled other otherIndex otherInfo otherHooked
        (by rw [patching]; exact fun isSame => same (Option.some.inj isSame).symm)
      cases writes
      · exact ⟨was.1, by simpa [same] using was.2⟩
      · exact ⟨was.1, by simpa [same] using was.2⟩

theorem restored (represents : process.Represents original image) {content : Pointer φ}
    (restoring : process.modification = .restoring address content) :
    Represents original { process with
      got := Function.update process.got address content
      modification := .forgetting address content } image := by
  have modifies := represents.modifies
  rw [restoring] at modifies
  rcases modifies with ⟨⟨index, info, ⟨hooked, _⟩, _⟩, rfl, none, isPatched⟩
  refine ⟨represents.globals, fun other bare => ?_,
    fun other otherIndex otherInfo otherHooked notModified => ?_,
    ⟨⟨index, hooked⟩, rfl, none, isPatched, Function.update_self ..⟩, represents.alive,
    represents.entering, represents.frames⟩
  · have different : other ≠ address := by
      rintro rfl
      cases hooked.symm.trans bare
    simpa [different] using represents.bare other bare
  · have different : other ≠ address := by
      rintro rfl
      exact notModified rfl
    have was := represents.settled other otherIndex otherInfo otherHooked
      (by rw [restoring]; exact notModified)
    simpa [different] using was

theorem forgotten (represents : process.Represents original image) {content : Pointer φ}
    (forgetting : process.modification = .forgetting address content) :
    Represents original { process with
      globals := { process.globals with
        hooksByGotAddress := Function.update process.globals.hooksByGotAddress address none }
      modification := .idle } image := by
  have modifies := represents.modifies
  rw [forgetting] at modifies
  rcases modifies with ⟨_, rfl, empty, isPatched, content⟩
  refine ⟨represents.globals.forget empty, fun other bare => ?_,
    fun other otherIndex otherInfo otherHooked _ => ?_, trivial, represents.alive,
    represents.entering, represents.frames⟩
  · by_cases same : other = address
    · subst same
      exact ⟨content, isPatched⟩
    · exact represents.bare other (by simpa [same] using bare)
  · have different : other ≠ address := by
      rintro rfl
      exact absurd otherHooked.1 (by simp)
    refine represents.settled other otherIndex otherInfo ⟨?_, otherHooked.2⟩ ?_
    · simpa [different] using otherHooked.1
    · rw [forgetting]
      exact fun same => different (Option.some.inj same).symm

theorem aborted (represents : process.Represents original image) {reason : Abort}
    (notEmpty : reason ≠ .emptyRunList) (notModified : reason ≠ .slotModified) :
    (process.abort reason).Represents original image :=
  ⟨represents.globals, represents.bare, represents.settled, represents.modifies,
    ⟨fun same => notEmpty (Option.some.inj same), fun same => notModified (Option.some.inj same)⟩,
    represents.entering, represents.frames⟩

variable [DecidableEq φ]

theorem hookSlot (represents : process.Represents original image)
    (idle : process.modification = .idle) (hook : Pointer φ)
    (fits : (process.hook address hook).2.globals.infos.length < 2 ^ 32) :
    (process.hook address hook).2.Represents original
      ((process.hook address hook).1.elim image image.apply) := by
  unfold Process.hook at fits ⊢
  rcases process.globals.add_cases ⟨0, address, hook, process.got address⟩ with
    wrong | ⟨index, hooked, given, appended⟩ | ⟨bare, present, given, valid, new⟩
  · rw [wrong]
    exact represents
  · rw [appended]
    rcases represents.globals.exists_hooked hooked with ⟨info, isHooked, _⟩
    have after := represents.setHooks idle isHooked (image.stack address ++ [hook])
      (· ++ [hook]) (by simp) (by simpa [represents.globals.present] using Ne.symm given)
      (Or.inl ⟨by simp, rfl, rfl⟩)
    simpa [HookStacks.apply, ← idle] using after
  · rw [new] at fits ⊢
    have content := (represents.bare address bare).1
    simp only [content] at present fits ⊢
    simp only [Globals.push, List.length_append, List.length_singleton] at fits
    exact represents.push idle fits bare valid present given

theorem unhook (represents : process.Represents original image)
    (idle : process.modification = .idle) (hook : Pointer φ) :
    (process.unhook address hook).2.Represents original
      ((process.unhook address hook).1.elim image image.apply) := by
  unfold Process.unhook
  split
  · rcases represents.globals.remove_cases hook fun index => represents.nonempty idle index with
      ⟨info, wrong⟩ | ⟨index, info, hooked, member, _, removed⟩
    · rw [wrong]
      exact represents
    · rw [removed]
      by_cases empty : (image.stack address).erase hook = []
      · have after := represents.setHooks idle hooked [] (fun _ => [original address]) rfl (by simp)
          (Or.inr ⟨rfl, rfl, rfl⟩)
        simpa [HookStacks.apply, empty] using after
      · have after := represents.setHooks idle hooked ((image.stack address).erase hook)
          (fun _ => original address :: (image.stack address).erase hook) rfl
          (fun isNull => represents.globals.present address (List.mem_of_mem_erase isNull))
          (Or.inl ⟨empty, rfl, rfl⟩)
        simpa [HookStacks.apply, empty, ← idle] using after
  · exact represents

theorem modify (represents : process.Represents original image) {writes : Bool}
    {label : Option (LinkerEvent φ)} {next : Process φ τ}
    (modified : process.modify writes = some (label, next)) :
    next.Represents original (label.elim image image.apply) := by
  unfold Process.modify at modified
  split at modified
  · cases modified
  · next address id patching =>
      cases writes <;> cases modified
      · exact represents.patched patching false
      · exact represents.patched patching true
  · next address content restoring =>
      cases writes <;> cases modified
      · exact represents.aborted nofun nofun
      · exact represents.restored restoring
  · next address content forgetting =>
      have modifies := represents.modifies
      rw [forgetting] at modifies
      rcases modifies with ⟨⟨index, hooked⟩, rfl, empty, _⟩
      rcases represents.globals.remove_original hooked empty with ⟨info, removed⟩
      rw [removed] at modified
      cases modified
      exact represents.forgotten forgetting

omit [DecidableEq φ] in
/-- The run list of an id which a thread has loaded begins with the original function. -/
theorem getRunList_eq (represents : process.Represents original image) {id : HookId}
    {slot : Address} (known : process.globals.Known id slot) :
    process.globals.getRunList id = original slot :: image.stack slot ∨
      process.globals.getRunList id = [original slot] := by
  rcases known with ⟨index, info, found, rfl, rfl⟩
  rw [represents.globals.getRunList_eq found, represents.globals.hooks index info found]
  split
  · exact Or.inl rfl
  · exact Or.inr rfl

omit [DecidableEq φ] in
/-- The trampoline in a slot was made for it. -/
theorem known_of_got (represents : process.Represents original image)
    (plain : ∀ slot id, original slot ≠ .trampoline id) {id : HookId} {slot : Address}
    (loaded : process.got slot = .trampoline id) : process.globals.Known id slot := by
  cases isHooked : process.globals.hooksByGotAddress slot with
  | none => exact absurd ((represents.bare slot isHooked).1.symm.trans loaded) (plain slot id)
  | some index =>
      rcases represents.globals.exists_hooked isHooked with ⟨info, hooked, same, _⟩
      have content : process.got slot = original slot ∨
          process.got slot = .trampoline info.id := by
        by_cases modified : process.modification.address = some slot
        · have modifies := represents.modifies
          cases modification : process.modification <;> rw [modification] at modified modifies <;>
            cases modified
          · exact Or.inl modifies.2.2.1
          · rcases modifies with ⟨⟨_, _, hookedAlso, content⟩, _⟩
            cases hooked.1.symm.trans hookedAlso.1
            cases hooked.2.symm.trans hookedAlso.2
            exact content
          · exact Or.inl modifies.2.2.2.2
        · have was := (represents.settled slot index info hooked modified).2
          split at was
          · exact Or.inl was
          · exact Or.inr was
      rcases content with content | content
      · exact absurd (content.symm.trans loaded) (plain slot id)
      · cases content.symm.trans loaded
        exact ⟨index, info, hooked.2, rfl, same⟩

theorem react [DecidableEq τ] (represents : process.Represents original image)
    (plain : ∀ slot id, original slot ≠ .trampoline id)
    {input : LinkerInput φ τ} {label : Option (LinkerEvent φ)} {next : Process φ τ}
    (reacts : process.react input = some (label, next)) (fits : IdsFit next) :
    next.Represents original (label.elim image image.apply) := by
  cases input with
  | hook address hook =>
      simp only [Process.react, Option.ite_none_right_eq_some, Option.some.injEq] at reacts
      rcases reacts with ⟨⟨_, idle⟩, same⟩
      obtain ⟨rfl, rfl⟩ := Prod.ext_iff.1 same
      exact represents.hookSlot idle hook fits
  | unhook address hook =>
      simp only [Process.react, Option.ite_none_right_eq_some, Option.some.injEq] at reacts
      rcases reacts with ⟨⟨_, idle⟩, same⟩
      obtain ⟨rfl, rfl⟩ := Prod.ext_iff.1 same
      exact represents.unhook idle hook
  | modify writes =>
      simp only [Process.react, Option.ite_none_right_eq_some] at reacts
      exact represents.modify reacts.2
  | call thread slot returnAddress =>
      simp only [Process.react, Option.ite_none_right_eq_some] at reacts
      rcases reacts with ⟨_, reacts⟩
      split at reacts
      · next id loaded =>
          cases reacts
          refine ⟨represents.globals, represents.bare, represents.settled, represents.modifies,
            represents.alive, fun other entering isEntering => ?_, represents.frames⟩
          by_cases same : other = thread
          · subst same
            obtain rfl : _ = entering := by simpa using isEntering
            exact represents.known_of_got plain loaded
          · exact represents.entering other entering (by simpa [same] using isEntering)
      · cases reacts
        exact represents
  | push thread =>
      simp only [Process.react, Option.ite_none_right_eq_some] at reacts
      rcases Option.map_eq_some_iff.1 reacts.2 with ⟨pushed, isPushed, same⟩
      cases same
      unfold pushHookStack at isPushed
      split at isPushed
      · cases isPushed
      · next entering isEntering =>
          have known := represents.entering thread entering isEntering
          have runList := represents.getRunList_eq known
          split at isPushed
          · next empty => simp [empty] at runList
          · next first rest isRunList =>
              cases isPushed
              refine ⟨represents.globals, represents.bare, represents.settled, represents.modifies,
                represents.alive, fun other entering isEntering => ?_, fun other frame member => ?_⟩
              · by_cases same : other = thread
                · subst same
                  simp at isEntering
                · exact represents.entering other entering (by simpa [same] using isEntering)
              · by_cases same : other = thread
                · subst same
                  simp only [Function.update_self] at member
                  rcases List.mem_cons.1 member with rfl | before
                  · refine ⟨entering.slot, known, ?_⟩
                    rcases runList with isList | isList <;>
                      rw [isRunList] at isList <;> cases isList <;> rfl
                  · exact represents.frames other frame before
                · exact represents.frames other frame (by simpa [same] using member)
  | previous thread hook =>
      simp only [Process.react, Option.ite_none_right_eq_some, Option.some.injEq] at reacts
      rcases reacts with ⟨_, same⟩
      cases same
      unfold getPreviousFromHook
      split
      · exact represents.aborted nofun nofun
      · split
        · next reason previous =>
            unfold previousFromHook at previous
            split at previous <;> cases previous
            · exact represents.aborted nofun nofun
            · exact represents.aborted nofun nofun
        · exact represents
  | pop thread =>
      simp only [Process.react] at reacts
      split at reacts
      · cases reacts
      · next info rest stacked =>
          rw [Option.ite_none_right_eq_some] at reacts
          rcases reacts with ⟨_, same⟩
          cases same
          refine ⟨represents.globals, represents.bare, represents.settled, represents.modifies,
            represents.alive, represents.entering, fun other frame member => ?_⟩
          by_cases same : other = thread
          · subst same
            simp only [Function.update_self] at member
            exact represents.frames other frame (by rw [stacked]; exact .tail _ member)
          · exact represents.frames other frame (by simpa [same] using member)

end Represents

end Process

/-! ## Runs -/

section Runs

variable [DecidableEq φ] [DecidableEq τ] {original : Address → Pointer φ}
  {process : Process φ τ} {events : List (LinkerEvent φ)}

theorem represents_of_run (plain : ∀ slot id, original slot ≠ .trampoline id)
    (run : (linkerSystem φ τ original).Run (.init original) events process) :
    process.Represents original (HookStacks.after events) := by
  induction run with
  | refl => exact Process.represents_init
  | own _ step ih =>
      rcases step with ⟨⟨input, reacts⟩, fits⟩
      exact ih.react plain reacts fits
  | labelled _ step ih =>
      rcases step with ⟨⟨input, reacts⟩, fits⟩
      rw [HookStacks.after_append_singleton]
      exact ih.react plain reacts fits

/-- After any hooking and unhooking, a slot without hooks has its original content, and every
other slot points to a trampoline which runs the original function and all hooks of the slot,
unless the slot could not be written when it was first hooked. -/
theorem slot_of_run (plain : ∀ slot id, original slot ≠ .trampoline id)
    (run : (linkerSystem φ τ original).Run (.init original) events process)
    (idle : process.modification = .idle) (address : Address) :
    if (HookStacks.after events).stack address = [] then
      process.globals.isHooked address = false ∧ process.got address = original address
    else if (HookStacks.after events).unpatched address then
      process.globals.isHooked address = true ∧ process.got address = original address
    else
      ∃ id, process.got address = .trampoline id ∧ process.globals.getRunList id =
        original address :: (HookStacks.after events).stack address := by
  have represents := represents_of_run plain run
  cases isHooked : process.globals.hooksByGotAddress address with
  | none =>
      rw [if_pos (represents.globals.bare address isHooked)]
      exact ⟨by rw [Globals.isHooked, isHooked]; rfl, (represents.bare address isHooked).1⟩
  | some index =>
      rcases represents.globals.exists_hooked isHooked with ⟨info, hooked, _, hooks⟩
      rcases represents.settled address index info hooked (Modification.address_ne idle address)
        with ⟨nonempty, content⟩
      rw [if_neg nonempty]
      split
      · next unpatched =>
          rw [if_pos unpatched] at content
          exact ⟨by rw [Globals.isHooked, isHooked]; rfl, content⟩
      · next patched =>
          rw [if_neg patched] at content
          exact ⟨info.id, content, by rw [represents.globals.getRunList_eq hooked.2, hooks]⟩

/-- The older one of two hooks has gone. -/
theorem slot_of_run_newerLeft :
    ∃ (process : Process ℕ Unit) (events : List (LinkerEvent ℕ)),
      (linkerSystem ℕ Unit fun _ => .function 0).Run (.init fun _ => .function 0) events process ∧
      process.modification = .idle ∧ ∃ id, process.got 8 = .trampoline id ∧
        process.globals.getRunList id = [.function 0, .function 2] := by
  rcases (@realizes_linkerSystem ℕ Unit _ _ fun _ => .function 0).exists_run
    (.init fun _ => .function 0)
    [.hook 8 (.function 1), .modify true, .hook 8 (.function 2), .unhook 8 (.function 1)]
    (fun events process => process.modification = .idle ∧
      (HookStacks.after events).stack 8 = [.function 2] ∧
      (HookStacks.after events).unpatched 8 = false)
    (by decide) with ⟨events, process, run, idle, stack, patched⟩
  refine ⟨process, events, run, idle, ?_⟩
  have slot := slot_of_run (by simp) run idle 8
  rwa [if_neg (by simp [stack]), if_neg (by simp [patched]), stack] at slot

/-- A thread which has loaded a trampoline finds a run list, also when the slot is unhooked or
hooked meanwhile: that of the slot, or its original function alone. -/
theorem runList_of_entering (plain : ∀ slot id, original slot ≠ .trampoline id)
    (run : (linkerSystem φ τ original).Run (.init original) events process) :
    process.aborted ≠ some .emptyRunList ∧ process.aborted ≠ some .slotModified ∧
      ∀ thread entering, process.entering thread = some entering →
        process.globals.getRunList entering.id =
          original entering.slot :: (HookStacks.after events).stack entering.slot ∨
        process.globals.getRunList entering.id = [original entering.slot] := by
  have represents := represents_of_run plain run
  exact ⟨represents.alive.1, represents.alive.2, fun thread entering isEntering =>
    represents.getRunList_eq (represents.entering thread entering isEntering)⟩

/-- The slot is unhooked before the thread has looked up its run list. -/
theorem runList_of_entering_unhooked :
    ∃ (process : Process ℕ Unit) (events : List (LinkerEvent ℕ)),
      (linkerSystem ℕ Unit fun _ => .function 0).Run (.init fun _ => .function 0) events process ∧
      process.globals.isHooked 8 = false ∧ ∃ entering, process.entering () = some entering ∧
        process.globals.getRunList entering.id = [.function 0] := by
  rcases (@realizes_linkerSystem ℕ Unit _ _ fun _ => .function 0).exists_run
    (.init fun _ => .function 0)
    [.hook 8 (.function 1), .modify true, .call () 8 4, .unhook 8 (.function 1), .modify true,
      .modify true]
    (fun events process => process.globals.isHooked 8 = false ∧
      (HookStacks.after events).stack 8 = [] ∧
      ((process.entering ()).any fun entering => entering.slot = 8))
    (by decide) with ⟨events, process, run, bare, stack, enters⟩
  rcases (Option.any_eq_true _ _).1 enters with ⟨entering, isEntering, same⟩
  have slot : entering.slot = 8 := of_decide_eq_true same
  refine ⟨process, events, run, bare, entering, isEntering, ?_⟩
  have found := (runList_of_entering (by simp) run).2.2 () entering isEntering
  rwa [slot, stack, or_self] at found

end Runs

end AndroidCollection.Linker
