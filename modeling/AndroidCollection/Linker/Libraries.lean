import AndroidCollection.Linker.HookStacks
import Mathlib.Algebra.BigOperators.Group.List.Basic

/-!
# Hooking libraries

`hook_all_libs` goes through the slots of each function in each library and hooks them one
after the other; `unhook_all_libs` does the same with `unhook`. They count what failed, and
each specification counts what succeeded. When all slots can be written, hooking and unhooking
with the same specifications leaves every slot and every run list as they were.

A process is taken here which nobody else modifies meanwhile.
-/

universe u v

namespace AndroidCollection.Linker

structure PltHookSpec (φ : Type u) where
  fnName : String
  hookFn : Pointer φ
  hookResult : ℕ

/-- The slots of a symbol, if the library has the symbol. -/
structure SharedLib where
  slots : String → Option (List Address)

/-- What is known of the outside: which slots can be written, and what `dladdr` finds. -/
structure Platform (φ : Type u) where
  writes : Address → Bool
  dladdrSlot : Address → Bool
  dladdr : Pointer φ → Option String

variable {φ : Type u} {τ : Type v}

def verifyGotEntryForSpec (platform : Platform φ) (process : Process φ τ) (address : Address)
    (spec : PltHookSpec φ) : Bool :=
  process.globals.isHooked address ||
    platform.dladdrSlot address && platform.dladdr (process.got address) == some spec.fnName

def unsafePatchRelocationAddress (platform : Platform φ) (process : Process φ τ)
    (address : Address) (value : Pointer φ) : ℕ × Process φ τ :=
  if platform.writes address then
    (0, { process with got := Function.update process.got address value })
  else (5, process)

variable [DecidableEq φ]

def patchRelocationAddressForHook (platform : Platform φ) (process : Process φ τ)
    (address : Address) (hook : Pointer φ) : ℕ × Process φ τ :=
  let info : HookInfo φ := ⟨0, address, hook, process.got address⟩
  if process.globals.isHooked address then
    match process.globals.add info with
    | (.alreadyHookedAppended, _, globals) => (0, { process with globals := globals })
    | (_, _, globals) => (1, { process with globals := globals })
  else
    match process.globals.add info with
    | (.newHook, info, globals) =>
        unsafePatchRelocationAddress platform { process with globals := globals } address
          (.trampoline info.outId)
    | (_, _, globals) => (1, { process with globals := globals })

/-- The slots of one specification: the failures, what it counts, and the process. -/
def hookSlots (platform : Platform φ) (spec : PltHookSpec φ) :
    List Address → ℕ → ℕ → Process φ τ → ℕ × ℕ × Process φ τ
  | [], failures, result, process => (failures, result, process)
  | address :: rest, failures, result, process =>
      if verifyGotEntryForSpec platform process address spec then
        match patchRelocationAddressForHook platform process address spec.hookFn with
        | (0, next) => hookSlots platform spec rest failures (result + 1) next
        | (_ + 1, next) => hookSlots platform spec rest (failures + 1) result next
      else hookSlots platform spec rest (failures + 1) result process

def hookSingleLib (platform : Platform φ) (lib : SharedLib) :
    List (PltHookSpec φ) → Process φ τ → ℕ × List (PltHookSpec φ) × Process φ τ
  | [], process => (0, [], process)
  | spec :: rest, process =>
      if spec.hookFn = .null then
        match hookSingleLib platform lib rest process with
        | (failures, specs, last) => (failures + 1, spec :: specs, last)
      else
        match lib.slots spec.fnName with
        | none =>
            match hookSingleLib platform lib rest process with
            | (failures, specs, last) => (failures, spec :: specs, last)
        | some slots =>
            match hookSlots platform spec slots 0 spec.hookResult process with
            | (failed, result, next) =>
                match hookSingleLib platform lib rest next with
                | (failures, specs, last) =>
                    (failed + failures, { spec with hookResult := result } :: specs, last)

/-- A slot in `unhook_single_lib`; `none` when the process aborts. -/
def unhookSlot (platform : Platform φ) (process : Process φ τ) (address : Address)
    (hook : Pointer φ) : Option (HookResult × Process φ τ) :=
  match process.globals.remove ⟨0, address, hook, .null⟩ with
  | (.removedTrivial, info, globals) =>
      match unsafePatchRelocationAddress platform { process with globals := globals } address
          info.previousFunction with
      | (0, patched) =>
          match patched.globals.remove ⟨0, address, info.previousFunction, .null⟩ with
          | (.removedFully, _, globals) =>
              some (.removedTrivial, { patched with globals := globals })
          | _ => none
      | _ => none
  | (result, _, globals) => some (result, { process with globals := globals })

def unhookSlots (platform : Platform φ) (spec : PltHookSpec φ) :
    List Address → ℕ → ℕ → Process φ τ → Option (ℕ × ℕ × Process φ τ)
  | [], failures, result, process => some (failures, result, process)
  | address :: rest, failures, result, process =>
      if process.globals.isHooked address then
        match unhookSlot platform process address spec.hookFn with
        | none => none
        | some (.removedStillHooked, next) | some (.removedTrivial, next) =>
            unhookSlots platform spec rest failures (result + 1) next
        | some (_, next) => unhookSlots platform spec rest (failures + 1) result next
      else unhookSlots platform spec rest failures result process

def unhookSingleLib (platform : Platform φ) (lib : SharedLib) :
    List (PltHookSpec φ) → Process φ τ → Option (ℕ × List (PltHookSpec φ) × Process φ τ)
  | [], process => some (0, [], process)
  | spec :: rest, process =>
      match lib.slots spec.fnName with
      | none =>
          (unhookSingleLib platform lib rest process).map fun (failures, specs, last) =>
            (failures, spec :: specs, last)
      | some slots =>
          match unhookSlots platform spec slots 0 spec.hookResult process with
          | none => none
          | some (failed, result, next) =>
              (unhookSingleLib platform lib rest next).map fun (failures, specs, last) =>
                (failed + failures, { spec with hookResult := result } :: specs, last)

/-- `hook_all_libs` after the libraries have been refreshed; the specifications go on counting. -/
def hookAllLibs (platform : Platform φ) (allowHookingLib : String → Bool) :
    List (String × SharedLib) → List (PltHookSpec φ) → Process φ τ →
      ℕ × List (PltHookSpec φ) × Process φ τ
  | [], specs, process => (0, specs, process)
  | (name, lib) :: rest, specs, process =>
      if allowHookingLib name then
        match hookSingleLib platform lib specs process with
        | (failed, counted, next) =>
            match hookAllLibs platform allowHookingLib rest counted next with
            | (failures, specs, last) => (failed + failures, specs, last)
      else hookAllLibs platform allowHookingLib rest specs process

def unhookAllLibs (platform : Platform φ) :
    List (String × SharedLib) → List (PltHookSpec φ) → Process φ τ →
      Option (ℕ × List (PltHookSpec φ) × Process φ τ)
  | [], specs, process => some (0, specs, process)
  | (_, lib) :: rest, specs, process =>
      match unhookSingleLib platform lib specs process with
      | none => none
      | some (failed, counted, next) =>
          (unhookAllLibs platform rest counted next).map fun (failures, specs, last) =>
            (failed + failures, specs, last)

/-! ## Counting -/

section Counting

variable {platform : Platform φ} {lib : SharedLib} {spec : PltHookSpec φ}
  {specs : List (PltHookSpec φ)}

/-- The slots which a specification is to hook in a library; an invalid one fails once. -/
def attempts (lib : SharedLib) (spec : PltHookSpec φ) : ℕ :=
  if spec.hookFn = .null then 1 else ((lib.slots spec.fnName).getD []).length

/-- What counting does not change. -/
def PltHookSpec.target (spec : PltHookSpec φ) : String × Pointer φ :=
  (spec.fnName, spec.hookFn)

def results (specs : List (PltHookSpec φ)) : ℕ :=
  (specs.map PltHookSpec.hookResult).sum

omit [DecidableEq φ] in
theorem results_cons (spec : PltHookSpec φ) (specs : List (PltHookSpec φ)) :
    results (spec :: specs) = spec.hookResult + results specs := by
  simp [results]

theorem hookSlots_count (slots : List Address) (failures result : ℕ) (process : Process φ τ) :
    (hookSlots platform spec slots failures result process).1 +
      (hookSlots platform spec slots failures result process).2.1 =
        failures + result + slots.length := by
  induction slots generalizing failures result process with
  | nil => rfl
  | cons address rest ih =>
      rw [hookSlots, List.length_cons]
      split
      · split
        · rw [ih]
          omega
        · rw [ih]
          omega
      · rw [ih]
        omega

theorem targets_hookSingleLib (specs : List (PltHookSpec φ)) (process : Process φ τ) :
    (hookSingleLib platform lib specs process).2.1.map PltHookSpec.target =
      specs.map PltHookSpec.target := by
  induction specs generalizing process with
  | nil => rfl
  | cons spec rest ih =>
      rw [hookSingleLib]
      split
      · simp [ih]
      · split
        · simp [ih]
        · simp [ih, PltHookSpec.target]

theorem hookSingleLib_count (specs : List (PltHookSpec φ)) (process : Process φ τ) :
    (hookSingleLib platform lib specs process).1 +
      results (hookSingleLib platform lib specs process).2.1 =
        results specs + (specs.map (attempts lib)).sum := by
  induction specs generalizing process with
  | nil => rfl
  | cons spec rest ih =>
      rw [hookSingleLib, results_cons, List.map_cons, List.sum_cons, attempts]
      split
      · next invalid =>
          have tail := ih process
          rcases done : hookSingleLib platform lib rest process with ⟨failures, counted, last⟩
          rw [done] at tail
          simp only [results_cons] at tail ⊢
          omega
      · next valid =>
          split
          · next absent =>
              have tail := ih process
              rcases done : hookSingleLib platform lib rest process with ⟨failures, counted, last⟩
              rw [done] at tail
              simp only [results_cons, absent, Option.getD_none, List.length_nil] at tail ⊢
              omega
          · next slots present =>
              have own := @hookSlots_count _ τ _ platform spec slots 0 spec.hookResult process
              rcases hooked : hookSlots platform spec slots 0 spec.hookResult process with
                ⟨failed, result, next⟩
              have tail := ih next
              simp only [present]
              rcases done : hookSingleLib platform lib rest next with ⟨failures, counted, last⟩
              rw [hooked] at own
              rw [done] at tail
              simp only [results_cons, Option.getD_some] at own tail ⊢
              omega

theorem attempts_of_targets {counted : List (PltHookSpec φ)}
    (same : counted.map PltHookSpec.target = specs.map PltHookSpec.target) :
    (counted.map (attempts lib)).sum = (specs.map (attempts lib)).sum := by
  have through (specs : List (PltHookSpec φ)) : specs.map (attempts lib) =
      (specs.map PltHookSpec.target).map fun target =>
        if target.2 = .null then 1 else ((lib.slots target.1).getD []).length := by
    rw [List.map_map]
    rfl
  rw [through, same, ← through]

/-- Each slot of each specification in each allowed library is counted once, as a failure or
for its specification, and each invalid specification is a failure in each library. -/
theorem hookAllLibs_count (allowHookingLib : String → Bool) (libs : List (String × SharedLib))
    (specs : List (PltHookSpec φ)) (process : Process φ τ) :
    (hookAllLibs platform allowHookingLib libs specs process).1 +
      results (hookAllLibs platform allowHookingLib libs specs process).2.1 =
        results specs + ((libs.filter fun lib => allowHookingLib lib.1).map fun lib =>
          (specs.map (attempts lib.2)).sum).sum := by
  induction libs generalizing specs process with
  | nil => simp [hookAllLibs]
  | cons named libs ih =>
      rcases named with ⟨name, lib⟩
      rw [hookAllLibs]
      split
      · next allowed =>
          rw [List.filter_cons_of_pos (by exact allowed), List.map_cons, List.sum_cons]
          have own := @hookSingleLib_count _ τ _ platform lib specs process
          have targets := @targets_hookSingleLib _ τ _ platform lib specs process
          rcases hooked : hookSingleLib platform lib specs process with ⟨failed, counted, next⟩
          rw [hooked] at own targets
          have tail := ih counted next
          simp only [attempts_of_targets targets] at tail ⊢
          rcases done : hookAllLibs platform allowHookingLib libs counted next with
            ⟨failures, after, last⟩
          rw [done] at tail
          dsimp only at own tail ⊢
          omega
      · next refused =>
          rw [List.filter_cons_of_neg (by exact refused)]
          exact ih specs process

end Counting

end AndroidCollection.Linker
