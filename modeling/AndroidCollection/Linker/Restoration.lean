import AndroidCollection.Linker.Libraries
import Mathlib.Data.List.Perm.Basic

/-!
# Hooks which come and go

Whatever `hook_all_libs` hooks, `unhook_all_libs` with the same specifications unhooks: every
slot calls again what it called before, if its hooks are neither its original function nor
were on it before, and if all slots can be written. Hooks of others stay.
-/

universe u v

namespace AndroidCollection.Linker

variable {φ : Type u} {τ : Type v} [DecidableEq φ]

/-! ## Stacks -/

theorem append_diff {base removed : List (Pointer φ)} (added : List (Pointer φ))
    (apart : ∀ hook ∈ removed, hook ∉ base) :
    (base ++ added).diff removed = base ++ added.diff removed := by
  induction removed generalizing added with
  | nil => rfl
  | cons hook rest ih =>
      rw [List.diff_cons, List.diff_cons, List.erase_append_right _ (apart hook (by simp))]
      exact ih _ fun other member => apart other (List.mem_cons_of_mem _ member)

theorem diff_eq_nil_of_sublist {added removed : List (Pointer φ)}
    (sub : added.Sublist removed) : added.diff removed = [] := by
  have self (list : List (Pointer φ)) : list.diff list = [] := by
    induction list with
    | nil => rfl
    | cons hook rest ih => rw [List.diff_cons, List.erase_cons_head, ih]
  exact List.sublist_nil.1 (self removed ▸ sub.diff_right)

namespace HookStacks

/-- Slots are hooked, one after the other. -/
def hookAll (image : HookStacks φ) (pairs : List (Address × Pointer φ)) : HookStacks φ :=
  pairs.foldl (fun image pair => image.apply (.hooked pair.1 pair.2)) image

/-- Hooks which are on their slot are unhooked, one after the other. -/
def unhookAll (image : HookStacks φ) (pairs : List (Address × Pointer φ)) : HookStacks φ :=
  pairs.foldl (fun image pair =>
    if (image.stack pair.1).contains pair.2 then image.apply (.unhooked pair.1 pair.2)
    else image) image

/-- The hooks of a slot among the pairs. -/
def hooksOf (address : Address) (pairs : List (Address × Pointer φ)) : List (Pointer φ) :=
  (pairs.filter fun pair => pair.1 = address).map Prod.snd

omit [DecidableEq φ] in
theorem hooksOf_cons (address : Address) (pair : Address × Pointer φ)
    (rest : List (Address × Pointer φ)) : hooksOf address (pair :: rest) =
      if pair.1 = address then pair.2 :: hooksOf address rest else hooksOf address rest := by
  unfold hooksOf
  by_cases same : pair.1 = address
  · simp [same]
  · simp [same]

theorem stack_hookAll (image : HookStacks φ) (pairs : List (Address × Pointer φ))
    (address : Address) :
    (image.hookAll pairs).stack address = image.stack address ++ hooksOf address pairs := by
  induction pairs generalizing image with
  | nil => simp [hookAll, hooksOf]
  | cons pair rest ih =>
      rw [hookAll, List.foldl_cons, ← hookAll, ih, hooksOf_cons]
      by_cases same : pair.1 = address
      · simp [apply, same]
      · simp [apply, same, Ne.symm same]

theorem unpatched_hookAll (image : HookStacks φ) (pairs : List (Address × Pointer φ)) :
    (image.hookAll pairs).unpatched = image.unpatched := by
  induction pairs generalizing image with
  | nil => rfl
  | cons pair rest ih =>
      rw [hookAll, List.foldl_cons, ← hookAll, ih]
      rfl

theorem stack_unhookAll (image : HookStacks φ) (pairs : List (Address × Pointer φ))
    (address : Address) :
    (image.unhookAll pairs).stack address =
      (image.stack address).diff (hooksOf address pairs) := by
  induction pairs generalizing image with
  | nil => rfl
  | cons pair rest ih =>
      rw [unhookAll, List.foldl_cons, ← unhookAll, ih, hooksOf_cons]
      by_cases same : pair.1 = address
      · rw [if_pos same, List.diff_cons, ← same]
        split
        · simp [apply]
        · next absent => rw [List.erase_of_not_mem (by simpa using absent)]
      · rw [if_neg same]
        split
        · simp [apply, Ne.symm same]
        · rfl

/-- A slot which keeps a hook of its own keeps its mark. -/
theorem unpatched_unhookAll {image : HookStacks φ} {pairs : List (Address × Pointer φ)}
    (base : Address → List (Pointer φ))
    (above : ∀ address, ∃ extra, image.stack address = base address ++ extra)
    (apart : ∀ pair ∈ pairs, pair.2 ∉ base pair.1)
    (clear : ∀ address, base address = [] → image.unpatched address = false) :
    (image.unhookAll pairs).unpatched = image.unpatched := by
  induction pairs generalizing image with
  | nil => rfl
  | cons pair rest ih =>
      rw [unhookAll, List.foldl_cons, ← unhookAll]
      have apartRest : ∀ other ∈ rest, other.2 ∉ base other.1 := fun other member =>
        apart other (List.mem_cons_of_mem _ member)
      split
      · next member =>
          rcases above pair.1 with ⟨extra, isAbove⟩
          have after : (image.stack pair.1).erase pair.2 = base pair.1 ++ extra.erase pair.2 := by
            rw [isAbove, List.erase_append_right _ (apart pair (by simp))]
          have unpatched : (image.apply (.unhooked pair.1 pair.2)).unpatched =
              image.unpatched := by
            simp only [apply]
            split
            · next empty =>
                rw [after] at empty
                have none := clear pair.1 (List.append_eq_nil_iff.1 empty).1
                rw [← none, Function.update_eq_self]
            · rfl
          rw [ih (fun address => ?_) apartRest (by rwa [unpatched]), unpatched]
          by_cases same : address = pair.1
          · exact ⟨extra.erase pair.2, by simp [apply, same, after]⟩
          · rcases above address with ⟨others, isOther⟩
            exact ⟨others, by simpa [apply, same] using isOther⟩
      · exact ih above apartRest clear

theorem hookAll_append (image : HookStacks φ) (front back : List (Address × Pointer φ)) :
    image.hookAll (front ++ back) = (image.hookAll front).hookAll back := by
  simp [hookAll]

theorem unhookAll_cons (image : HookStacks φ) (pair : Address × Pointer φ)
    (rest : List (Address × Pointer φ)) :
    image.unhookAll (pair :: rest) = (image.unhookAll [pair]).unhookAll rest :=
  rfl

theorem unhookAll_append (image : HookStacks φ) (front back : List (Address × Pointer φ)) :
    image.unhookAll (front ++ back) = (image.unhookAll front).unhookAll back := by
  simp [unhookAll]

end HookStacks

/-! ## Slots -/

namespace Process

variable {original : Address → Pointer φ} {process : Process φ τ} {image : HookStacks φ}
  {address : Address}

/-- What nobody modifies at the moment. -/
structure Settled (original : Address → Pointer φ) (process : Process φ τ)
    (image : HookStacks φ) : Prop where
  represents : process.Represents original image
  idle : process.modification = .idle

theorem Settled.patch (settled : process.Settled original image) (platform : Platform φ)
    (hook : Pointer φ) (writes : platform.writes address = true)
    (fits : process.globals.infos.length + 1 < 2 ^ 32) :
    let (code, next) := patchRelocationAddressForHook platform process address hook
    next.Settled original (if code = 0 then image.apply (.hooked address hook) else image) ∧
      next.globals.infos.length ≤ process.globals.infos.length + 1 := by
  rcases settled with ⟨represents, idle⟩
  rw [patchRelocationAddressForHook]
  rcases process.globals.add_cases ⟨0, address, hook, process.got address⟩ with
    wrong | ⟨index, hooked, given, appended⟩ | ⟨bare, present, given, valid, new⟩
  · simp only [wrong]
    split
    · exact ⟨⟨represents, idle⟩, Nat.le_succ _⟩
    · exact ⟨⟨represents, idle⟩, Nat.le_succ _⟩
  · have isHooked : process.globals.isHooked address = true := by
      rw [Globals.isHooked, hooked]
      rfl
    simp only [isHooked, appended, if_true]
    rcases represents.globals.exists_hooked hooked with ⟨info, isInfo, _⟩
    have after := represents.setHooks idle isInfo (image.stack address ++ [hook])
      (· ++ [hook]) (by simp) (by simpa [represents.globals.present] using Ne.symm given)
      (Or.inl ⟨by simp, rfl, rfl⟩)
    refine ⟨⟨by simpa [HookStacks.apply, ← idle] using after, idle⟩, ?_⟩
    simp [Globals.setHooks]
  · have isBare : process.globals.isHooked address = false := by
      rw [Globals.isHooked, bare]
      rfl
    have content := (represents.bare address bare).1
    simp only [isBare, new, unsafePatchRelocationAddress, writes, if_true, Bool.false_eq_true,
      if_false]
    rw [content] at present ⊢
    have patched := (represents.push idle fits bare valid present given).patched rfl true
    refine ⟨⟨by simpa [HookStacks.apply, ← idle] using patched, idle⟩, ?_⟩
    simp [Globals.push]

/-- A hook which is not the original function is unhooked if it is there. -/
theorem Settled.unhookSlot (settled : process.Settled original image) (platform : Platform φ)
    {hook : Pointer φ} (writes : platform.writes address = true)
    (different : hook ≠ original address) :
    ∃ result next, Linker.unhookSlot platform process address hook = some (result, next) ∧
      next.Settled original (image.unhookAll [(address, hook)]) := by
  rcases settled with ⟨represents, idle⟩
  have one : image.unhookAll [(address, hook)] =
      if hook ∈ image.stack address then image.apply (.unhooked address hook) else image := by
    simp [HookStacks.unhookAll]
  rw [one]
  by_cases member : hook ∈ image.stack address
  · rw [if_pos member]
    cases isHooked : process.globals.hooksByGotAddress address with
    | none =>
        rw [represents.globals.bare address isHooked] at member
        cases member
    | some index =>
        rcases represents.globals.exists_hooked isHooked with ⟨info, hooked, _⟩
        rw [Linker.unhookSlot, represents.globals.remove_eq isHooked member different]
        by_cases empty : (image.stack address).erase hook = []
        · have after := (represents.setHooks idle hooked [] (fun _ => [original address]) rfl
            (by simp) (Or.inr ⟨rfl, rfl, rfl⟩)).restored rfl
          rcases after.globals.remove_original isHooked (by simp) with ⟨removed, isRemoved⟩
          have last := after.forgotten rfl
          simp only [empty, if_true, unsafePatchRelocationAddress, writes]
          rw [isRemoved]
          exact ⟨_, _, rfl, by simpa [HookStacks.apply, empty, ← idle] using last, idle⟩
        · have after := represents.setHooks idle hooked ((image.stack address).erase hook)
            (fun _ => original address :: (image.stack address).erase hook) rfl
            (fun isNull => represents.globals.present address (List.mem_of_mem_erase isNull))
            (Or.inl ⟨empty, rfl, rfl⟩)
          simp only [empty, if_false]
          exact ⟨_, _, rfl, by simpa [HookStacks.apply, empty, ← idle] using after, idle⟩
  · rw [if_neg member, Linker.unhookSlot]
    rcases represents.globals.remove_cases hook fun index => represents.nonempty idle index with
      ⟨info, wrong⟩ | ⟨_, _, _, present, _⟩
    · rw [wrong]
      exact ⟨_, _, rfl, represents, idle⟩
    · exact absurd present member

end Process

/-! ## Libraries -/

/-- The slots which a specification names in a library, with its hook. -/
def SharedLib.pairs (lib : SharedLib) (spec : PltHookSpec φ) : List (Address × Pointer φ) :=
  ((lib.slots spec.fnName).getD []).map fun address => (address, spec.hookFn)

def allPairs (libs : List (String × SharedLib)) (specs : List (PltHookSpec φ)) :
    List (Address × Pointer φ) :=
  libs.flatMap fun lib => specs.flatMap lib.2.pairs

section Libraries

variable {original : Address → Pointer φ} {process next last : Process φ τ}
  {image : HookStacks φ} {platform : Platform φ} {specs counted : List (PltHookSpec φ)}
  {front back : List (Address × Pointer φ)}

/-- Some of the pairs have been hooked, in their order. -/
def HookedSome (original : Address → Pointer φ) (process : Process φ τ) (image : HookStacks φ)
    (pairs : List (Address × Pointer φ)) (next : Process φ τ) : Prop :=
  ∃ done, done.Sublist pairs ∧ next.Settled original (image.hookAll done) ∧
    next.globals.infos.length ≤ process.globals.infos.length + pairs.length

omit [DecidableEq φ] in
theorem pairs_of_targets {lib : SharedLib}
    (same : counted.map PltHookSpec.target = specs.map PltHookSpec.target) :
    counted.flatMap lib.pairs = specs.flatMap lib.pairs := by
  have through (specs : List (PltHookSpec φ)) : specs.flatMap lib.pairs =
      (specs.map PltHookSpec.target).flatMap fun target =>
        ((lib.slots target.1).getD []).map fun address => (address, target.2) := by
    rw [List.flatMap_map]
    rfl
  rw [through, same, ← through]

omit [DecidableEq φ] in
theorem allPairs_of_targets {libs : List (String × SharedLib)}
    (same : counted.map PltHookSpec.target = specs.map PltHookSpec.target) :
    allPairs libs counted = allPairs libs specs := by
  simp only [allPairs, pairs_of_targets same]

theorem HookedSome.none (settled : process.Settled original image) :
    HookedSome original process image front process :=
  ⟨[], List.nil_sublist _, settled, Nat.le_add_right ..⟩

theorem hookSlots_hookedSome (settled : process.Settled original image)
    (writes : ∀ address, platform.writes address = true) (spec : PltHookSpec φ)
    (slots : List Address) (failures result : ℕ)
    (fits : process.globals.infos.length + slots.length < 2 ^ 32) :
    HookedSome original process image (slots.map fun address => (address, spec.hookFn))
      (hookSlots platform spec slots failures result process).2.2 := by
  induction slots generalizing failures result process image with
  | nil => exact .none settled
  | cons address rest ih =>
      rw [List.length_cons] at fits
      have step := settled.patch platform spec.hookFn (writes address) (by omega)
      rw [hookSlots]
      split
      · rcases patched : patchRelocationAddressForHook platform process address spec.hookFn with
          ⟨code, next⟩
        rw [patched] at step
        rcases step with ⟨after, grown⟩
        cases code with
        | zero =>
            rcases ih after failures (result + 1) (by omega) with ⟨done, sub, last, length⟩
            refine ⟨(address, spec.hookFn) :: done, sub.cons_cons _, last, ?_⟩
            simp only [List.length_map, List.length_cons] at length ⊢
            omega
        | succ code =>
            rcases ih after (failures + 1) result (by omega) with ⟨done, sub, last, length⟩
            refine ⟨done, sub.cons _, last, ?_⟩
            simp only [List.length_map, List.length_cons] at length ⊢
            omega
      · rcases ih settled (failures + 1) result (by omega) with ⟨done, sub, last, length⟩
        refine ⟨done, sub.cons _, last, ?_⟩
        simp only [List.length_map, List.length_cons] at length ⊢
        omega

/-- What follows on a part goes on from what it left. -/
theorem HookedSome.append (hooked : HookedSome original process image front next)
    (fits : process.globals.infos.length + (front ++ back).length < 2 ^ 32)
    (rest : ∀ {image}, next.Settled original image →
      next.globals.infos.length + back.length < 2 ^ 32 →
        HookedSome original next image back last) :
    HookedSome original process image (front ++ back) last := by
  rcases hooked with ⟨done, sub, settled, length⟩
  rw [List.length_append] at fits
  rcases rest settled (by omega) with ⟨doneBack, subBack, after, lengthBack⟩
  refine ⟨done ++ doneBack, sub.append subBack, ?_, ?_⟩
  · rw [HookStacks.hookAll_append]
    exact after
  · rw [List.length_append]
    omega

theorem hookSingleLib_hookedSome (settled : process.Settled original image)
    (writes : ∀ address, platform.writes address = true) (lib : SharedLib)
    (specs : List (PltHookSpec φ))
    (fits : process.globals.infos.length + (specs.flatMap lib.pairs).length < 2 ^ 32) :
    HookedSome original process image (specs.flatMap lib.pairs)
      (hookSingleLib platform lib specs process).2.2 := by
  induction specs generalizing process image with
  | nil => exact .none settled
  | cons spec rest ih =>
      rw [List.flatMap_cons] at fits ⊢
      rw [hookSingleLib]
      split
      · exact (HookedSome.none settled).append fits ih
      · split
        · exact (HookedSome.none settled).append fits ih
        · next slots present =>
            have own : lib.pairs spec = slots.map fun address => (address, spec.hookFn) := by
              rw [SharedLib.pairs, present]
              rfl
            have room : process.globals.infos.length + slots.length < 2 ^ 32 := by
              rw [own, List.length_append, List.length_map] at fits
              omega
            have hooked := hookSlots_hookedSome settled writes spec slots 0 spec.hookResult room
            rw [← own] at hooked
            exact hooked.append fits ih

theorem hookAllLibs_hookedSome (settled : process.Settled original image)
    (writes : ∀ address, platform.writes address = true) (allowHookingLib : String → Bool)
    (libs : List (String × SharedLib)) (specs : List (PltHookSpec φ))
    (fits : process.globals.infos.length + (allPairs libs specs).length < 2 ^ 32) :
    HookedSome original process image (allPairs libs specs)
      (hookAllLibs platform allowHookingLib libs specs process).2.2 := by
  induction libs generalizing process image specs with
  | nil => exact .none settled
  | cons named libs ih =>
      rcases named with ⟨name, lib⟩
      rw [allPairs, List.flatMap_cons, ← allPairs] at fits ⊢
      dsimp only at fits ⊢
      rw [hookAllLibs]
      split
      · have room : process.globals.infos.length + (specs.flatMap lib.pairs).length < 2 ^ 32 := by
          rw [List.length_append] at fits
          omega
        have same := @targets_hookSingleLib _ τ _ platform lib specs process
        refine (hookSingleLib_hookedSome settled writes lib specs room).append fits ?_
        intro later after more
        rw [← allPairs_of_targets same] at more ⊢
        exact ih after _ more
      · exact (HookedSome.none settled).append fits fun after more => ih after specs more

theorem targets_hookAllLibs (allowHookingLib : String → Bool) (libs : List (String × SharedLib))
    (specs : List (PltHookSpec φ)) (process : Process φ τ) :
    (hookAllLibs platform allowHookingLib libs specs process).2.1.map PltHookSpec.target =
      specs.map PltHookSpec.target := by
  induction libs generalizing specs process with
  | nil => rfl
  | cons named libs ih =>
      rw [hookAllLibs]
      split
      · exact (ih _ _).trans (targets_hookSingleLib specs process)
      · exact ih specs process

/-! ## Unhooking -/

theorem unhookSlots_settled (settled : process.Settled original image)
    (writes : ∀ address, platform.writes address = true) (spec : PltHookSpec φ)
    (slots : List Address) (failures result : ℕ)
    (different : ∀ address ∈ slots, spec.hookFn ≠ original address) :
    ∃ failed total next, unhookSlots platform spec slots failures result process =
        some (failed, total, next) ∧
      next.Settled original
        (image.unhookAll (slots.map fun address => (address, spec.hookFn))) := by
  induction slots generalizing failures result process image with
  | nil => exact ⟨_, _, _, rfl, settled⟩
  | cons address rest ih =>
      have others : ∀ other ∈ rest, spec.hookFn ≠ original other := fun other member =>
        different other (List.mem_cons_of_mem _ member)
      rw [List.map_cons, HookStacks.unhookAll_cons, unhookSlots]
      split
      · rcases settled.unhookSlot platform (writes address)
          (different address (by simp)) with ⟨code, next, unhooked, after⟩
        rw [unhooked]
        cases code
        case removedStillHooked => exact ih after failures (result + 1) others
        case removedTrivial => exact ih after failures (result + 1) others
        all_goals exact ih after (failures + 1) result others
      · next bare =>
          have isNone : process.globals.hooksByGotAddress address = none := by
            simpa [Globals.isHooked] using bare
          have empty := settled.represents.globals.bare address isNone
          have same : image.unhookAll [(address, spec.hookFn)] = image := by
            simp [HookStacks.unhookAll, empty]
          rw [same]
          exact ih settled failures result others

theorem unhookSingleLib_settled (settled : process.Settled original image)
    (writes : ∀ address, platform.writes address = true) (lib : SharedLib)
    (specs : List (PltHookSpec φ))
    (different : ∀ pair ∈ specs.flatMap lib.pairs, pair.2 ≠ original pair.1) :
    ∃ failed counted next, unhookSingleLib platform lib specs process =
        some (failed, counted, next) ∧ counted.map PltHookSpec.target =
          specs.map PltHookSpec.target ∧
      next.Settled original (image.unhookAll (specs.flatMap lib.pairs)) := by
  induction specs generalizing process image with
  | nil => exact ⟨_, _, _, rfl, rfl, settled⟩
  | cons spec rest ih =>
      rw [List.flatMap_cons] at different
      have others : ∀ pair ∈ rest.flatMap lib.pairs, pair.2 ≠ original pair.1 :=
        fun pair member => different pair (List.mem_append_right _ member)
      rw [List.flatMap_cons, HookStacks.unhookAll_append, unhookSingleLib]
      cases present : lib.slots spec.fnName with
      | none =>
          have own : lib.pairs spec = [] := by
            rw [SharedLib.pairs, present]
            rfl
          rcases ih settled others with ⟨failed, counted, next, unhooked, same, after⟩
          rw [own]
          exact ⟨failed, spec :: counted, next, by simp [unhooked], by simp [same], after⟩
      | some slots =>
          have own : lib.pairs spec = slots.map fun address => (address, spec.hookFn) := by
            rw [SharedLib.pairs, present]
            rfl
          have apart : ∀ address ∈ slots, spec.hookFn ≠ original address :=
            fun address member => different (address, spec.hookFn) (List.mem_append_left _
              (own ▸ List.mem_map_of_mem member))
          rcases unhookSlots_settled settled writes spec slots 0 spec.hookResult apart with
            ⟨failed, total, middle, slotsDone, halfway⟩
          rcases ih halfway others with ⟨failures, counted, next, unhooked, same, after⟩
          rw [own]
          refine ⟨failed + failures, { spec with hookResult := total } :: counted, next, ?_, ?_,
            after⟩
          · simp [slotsDone, unhooked]
          · simp [same, PltHookSpec.target]

theorem unhookAllLibs_settled (settled : process.Settled original image)
    (writes : ∀ address, platform.writes address = true) (libs : List (String × SharedLib))
    (specs : List (PltHookSpec φ))
    (different : ∀ pair ∈ allPairs libs specs, pair.2 ≠ original pair.1) :
    ∃ failed counted next, unhookAllLibs platform libs specs process =
        some (failed, counted, next) ∧
      next.Settled original (image.unhookAll (allPairs libs specs)) := by
  induction libs generalizing process image specs with
  | nil => exact ⟨_, _, _, rfl, settled⟩
  | cons named libs ih =>
      rcases named with ⟨name, lib⟩
      rw [allPairs, List.flatMap_cons, ← allPairs] at different ⊢
      rw [HookStacks.unhookAll_append, unhookAllLibs]
      rcases unhookSingleLib_settled settled writes lib specs fun pair member =>
        different pair (List.mem_append_left _ member) with
          ⟨failed, counted, middle, libDone, same, halfway⟩
      rcases ih halfway counted fun pair member => different pair
        (List.mem_append_right _ (allPairs_of_targets same ▸ member)) with
          ⟨failures, all, next, unhooked, after⟩
      rw [allPairs_of_targets same] at after
      exact ⟨failed + failures, all, next, by simp [libDone, unhooked], after⟩

end Libraries

/-! ## What the slots call -/

namespace Process

variable {original : Address → Pointer φ} {process : Process φ τ} {image : HookStacks φ}

omit [DecidableEq φ] in
/-- The run list which a call through a slot finds. -/
def called (process : Process φ τ) (address : Address) : List (Pointer φ) :=
  match process.got address with
  | .trampoline id => process.globals.getRunList id
  | content => [content]

omit [DecidableEq φ] in
theorem Settled.unpatched_eq_false (settled : process.Settled original image) {address : Address}
    (empty : image.stack address = []) : image.unpatched address = false := by
  rcases settled with ⟨represents, idle⟩
  cases isHooked : process.globals.hooksByGotAddress address with
  | none => exact (represents.bare address isHooked).2
  | some index => exact absurd empty (represents.nonempty idle index isHooked)

omit [DecidableEq φ] in
theorem called_of_plain (plain : ∀ slot id, original slot ≠ .trampoline id) {address : Address}
    (content : process.got address = original address) :
    process.called address = [original address] := by
  rw [called, content]
  split
  · next id isTrampoline => exact absurd isTrampoline (plain address id)
  · rfl

omit [DecidableEq φ] in
theorem Settled.called_eq (settled : process.Settled original image)
    (plain : ∀ slot id, original slot ≠ .trampoline id) (address : Address) :
    process.called address =
        (if image.stack address = [] ∨ image.unpatched address then [original address]
          else original address :: image.stack address) ∧
      (process.globals.isHooked address ↔ image.stack address ≠ []) := by
  rcases settled with ⟨represents, idle⟩
  cases isHooked : process.globals.hooksByGotAddress address with
  | none =>
      have empty := represents.globals.bare address isHooked
      rw [if_pos (Or.inl empty), called_of_plain plain (represents.bare address isHooked).1]
      exact ⟨rfl, by simp [Globals.isHooked, isHooked, empty]⟩
  | some index =>
      rcases represents.globals.exists_hooked isHooked with ⟨info, hooked, _, hooks⟩
      rcases represents.settled address index info hooked (Modification.address_ne idle address)
        with ⟨nonempty, content⟩
      refine ⟨?_, by simp [Globals.isHooked, isHooked, nonempty]⟩
      by_cases unpatched : image.unpatched address
      · rw [if_pos unpatched] at content
        rw [if_pos (Or.inr unpatched), called_of_plain plain content]
      · rw [if_neg unpatched] at content
        rw [if_neg (by simp [nonempty, unpatched]), called, content]
        dsimp only
        rw [represents.globals.getRunList_eq hooked.2, hooks]

end Process

/-- Hooks which are hooked in all libraries, and then unhooked by the same specifications, leave
every slot with what it called before. -/
theorem unhookAllLibs_hookAllLibs [DecidableEq τ] {original : Address → Pointer φ}
    {process : Process φ τ} {events : List (LinkerEvent φ)} {platform : Platform φ}
    (plain : ∀ slot id, original slot ≠ .trampoline id)
    (run : (linkerSystem φ τ original).Run (.init original) events process)
    (idle : process.modification = .idle) (writes : ∀ address, platform.writes address = true)
    (allowHookingLib : String → Bool) (libs : List (String × SharedLib))
    (specs : List (PltHookSpec φ))
    (apart : ∀ pair ∈ allPairs libs specs, pair.2 ≠ original pair.1 ∧
      pair.2 ∉ (HookStacks.after events).stack pair.1)
    (fits : process.globals.infos.length + (allPairs libs specs).length < 2 ^ 32) :
    ∃ failed counted last, unhookAllLibs platform libs
        (hookAllLibs platform allowHookingLib libs specs process).2.1
        (hookAllLibs platform allowHookingLib libs specs process).2.2 =
          some (failed, counted, last) ∧
      ∀ address, last.called address = process.called address ∧
        last.globals.isHooked address = process.globals.isHooked address := by
  have before : process.Settled original (HookStacks.after events) :=
    ⟨represents_of_run plain run, idle⟩
  rcases hookAllLibs_hookedSome before writes allowHookingLib libs specs fits with
    ⟨done, sub, between, _⟩
  have targets := @targets_hookAllLibs _ τ _ platform allowHookingLib libs specs process
  have pairs := @allPairs_of_targets _ _ _ libs targets
  rcases unhookAllLibs_settled between writes libs _ (by
    rw [pairs]
    exact fun pair member => (apart pair member).1) with ⟨failed, counted, last, unhooked, after⟩
  rw [pairs] at after
  refine ⟨failed, counted, last, unhooked, fun address => ?_⟩
  have stack : (((HookStacks.after events).hookAll done).unhookAll (allPairs libs specs)).stack
      address = (HookStacks.after events).stack address := by
    have subHooks : (HookStacks.hooksOf address done).Sublist
        (HookStacks.hooksOf address (allPairs libs specs)) := (sub.filter _).map _
    rw [HookStacks.stack_unhookAll, HookStacks.stack_hookAll, append_diff,
      diff_eq_nil_of_sublist subHooks, List.append_nil]
    intro hook member
    rcases List.mem_map.1 member with ⟨pair, isPair, rfl⟩
    rcases List.mem_filter.1 isPair with ⟨isPair, same⟩
    rw [← of_decide_eq_true same]
    exact (apart pair isPair).2
  have unpatched : (((HookStacks.after events).hookAll done).unhookAll
      (allPairs libs specs)).unpatched = (HookStacks.after events).unpatched := by
    rw [HookStacks.unpatched_unhookAll (HookStacks.after events).stack,
      HookStacks.unpatched_hookAll]
    · exact fun other => ⟨_, HookStacks.stack_hookAll ..⟩
    · exact fun pair member => (apart pair member).2
    · intro other empty
      rw [HookStacks.unpatched_hookAll]
      exact before.unpatched_eq_false empty
  have called := after.called_eq plain address
  rw [stack, unpatched] at called
  rcases before.called_eq plain address with ⟨calledBefore, hookedBefore⟩
  exact ⟨called.1.trans calledBefore.symm, Bool.eq_iff_iff.2 (called.2.trans hookedBefore.symm)⟩

/-- One of two slots has a hook of another one all the time. -/
theorem unhookAllLibs_hookAllLibs_besideOther :
    ∃ (process : Process ℕ Unit) (events : List (LinkerEvent ℕ)),
      (linkerSystem ℕ Unit fun _ => .function 0).Run (.init fun _ => .function 0) events process ∧
      process.called 8 = [.function 0, .function 1] ∧
      (let platform : Platform ℕ := ⟨fun _ => true, fun _ => true, fun _ => some "open"⟩
      let libs := [("libc.so", SharedLib.mk fun _ => some [8, 16])]
      let hooked := hookAllLibs platform (fun _ => true) libs [⟨"open", .function 2, 0⟩] process
      hooked.2.2.called 8 = [.function 0, .function 1, .function 2] ∧
        hooked.2.2.called 16 = [.function 0, .function 2] ∧
        ∃ failed counted last, unhookAllLibs platform libs hooked.2.1 hooked.2.2 =
          some (failed, counted, last) ∧
            ∀ address, last.called address = process.called address ∧
              last.globals.isHooked address = process.globals.isHooked address) := by
  rcases (@realizes_linkerSystem ℕ Unit _ _ fun _ => .function 0).exists_run
    (.init fun _ => .function 0)
    [.hook 8 (.function 1), .modify true]
    (fun events process => (process.modification = .idle ∧ process.globals.infos.length = 1 ∧
        (HookStacks.after events).stack 8 = [.function 1] ∧
        (HookStacks.after events).stack 16 = []) ∧
      process.called 8 = [.function 0, .function 1] ∧
      (hookAllLibs ⟨fun _ => true, fun _ => true, fun _ => some "open"⟩ (fun _ => true)
          [("libc.so", ⟨fun _ => some [8, 16]⟩)] [⟨"open", .function 2, 0⟩] process).2.2.called 8 =
        [.function 0, .function 1, .function 2] ∧
      (hookAllLibs ⟨fun _ => true, fun _ => true, fun _ => some "open"⟩ (fun _ => true)
          [("libc.so", ⟨fun _ => some [8, 16]⟩)] [⟨"open", .function 2, 0⟩] process).2.2.called 16 =
        [.function 0, .function 2])
    (by decide) with ⟨events, process, run, ⟨idle, one, first, second⟩, before, both, new⟩
  refine ⟨process, events, run, before, both, new, ?_⟩
  refine unhookAllLibs_hookAllLibs (by simp) run idle ?_ _ _ _ ?_ ?_
  · simp
  · simp [allPairs, SharedLib.pairs, first, second]
  · rw [one]
    decide

end AndroidCollection.Linker
