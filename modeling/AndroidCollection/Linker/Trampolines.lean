import AndroidCollection.Linker.HookStacks

/-!
# Calls through a trampoline

`push_hook_stack` calls the last of the run list, and each hook calls `CALL_PREV` with itself.
`get_previous_from_hook` looks for the first occurrence of the hook, so what lies between two
occurrences of one hook is skipped. The calls come to the original function at any rate.
-/

universe u

namespace AndroidCollection.Linker

variable {φ : Type u} [DecidableEq φ]

/-- The functions which are called from this one on, when each calls `CALL_PREV` with itself. -/
def callPrevs (runList : List (Pointer φ)) : ℕ → Pointer φ → List (Pointer φ)
  | 0, _ => []
  | steps + 1, function =>
      function ::
        match previousFromHook runList function with
        | .ok previous => callPrevs runList steps previous
        | .error _ => []

/-- The functions which a call through a trampoline calls. -/
def callRunList (runList : List (Pointer φ)) : List (Pointer φ) :=
  match runList.getLast? with
  | none => []
  | some last => callPrevs runList runList.length last

variable {runList : List (Pointer φ)} {function : Pointer φ}

theorem previousFromHook_of_eq {front back : List (Pointer φ)} (notFront : function ∉ front)
    (split : runList = front ++ function :: back) :
    previousFromHook runList function =
      match front.getLast? with
      | none => .error .byOriginal
      | some previous => .ok previous := by
  have found : runList.findIdx? (fun other => decide (other = function)) = some front.length := by
    rw [split, List.findIdx?_append, List.findIdx?_eq_none_iff.2]
    · simp [List.findIdx?_cons]
    · intro other isFront
      exact decide_eq_false fun same => notFront (same ▸ isFront)
  unfold previousFromHook
  rw [found]
  rcases List.eq_nil_or_concat front with rfl | ⟨before, previous, rfl⟩
  · rfl
  · simp [split]

omit [DecidableEq φ] in
/-- The first occurrence of the last element leaves a part of what is in front of it. -/
theorem exists_first (before : List (Pointer φ)) (previous : Pointer φ) :
    ∃ earlier between, before ++ [previous] = earlier ++ previous :: between ∧
      previous ∉ earlier ∧ earlier.Sublist before ∧
      ((before ++ [previous]).Nodup → earlier = before) := by
  rcases List.eq_append_cons_of_mem (show previous ∈ before ++ [previous] by simp) with
    ⟨earlier, between, split, notEarlier⟩
  refine ⟨earlier, between, split, notEarlier, ?_, fun nodup => ?_⟩
  · rcases List.eq_nil_or_concat between with rfl | ⟨inner, final, rfl⟩
    · rw [List.append_cancel_right split]
    · rw [List.concat_eq_append, ← List.cons_append, ← List.append_assoc] at split
      rw [(List.append_inj' split rfl).1]
      exact List.sublist_append_left ..
  · rcases List.eq_nil_or_concat between with rfl | ⟨inner, final, rfl⟩
    · exact (List.append_cancel_right split).symm
    · rw [List.concat_eq_append, ← List.cons_append, ← List.append_assoc] at split
      rcases List.append_inj' split rfl with ⟨rfl, _⟩
      have disjoint := (List.nodup_append.1 nodup).2.2
      exact absurd rfl (disjoint previous (by simp) previous (by simp))

/-- What is called lies in front of the function, in reversed order. -/
theorem callPrevs_spec {front back : List (Pointer φ)} (steps : ℕ) (notFront : function ∉ front)
    (split : runList = front ++ function :: back) (enough : front.length < steps) :
    ∃ called, callPrevs runList steps function = function :: called ∧
      called.Sublist front.reverse ∧ called.Nodup ∧
      (function :: called).getLast? = runList.head? ∧
      (front.Nodup → called = front.reverse) := by
  induction steps generalizing function front back with
  | zero => omega
  | succ steps ih =>
      rw [callPrevs, previousFromHook_of_eq notFront split]
      rcases List.eq_nil_or_concat front with rfl | ⟨before, previous, rfl⟩
      · exact ⟨[], rfl, List.nil_sublist _, List.nodup_nil, by simp [split], fun _ => rfl⟩
      · rw [List.concat_eq_append] at split enough ⊢
        -- The first occurrence of the one before may be further in front.
        rcases exists_first before previous with
          ⟨earlier, between, first, notEarlier, sub, whole⟩
        have splitFirst : runList = earlier ++ previous :: (between ++ function :: back) := by
          rw [split, first, List.append_assoc]
          rfl
        have shorter : earlier.length < steps := by
          have := sub.length_le
          simp only [List.length_append, List.length_singleton] at enough
          omega
        rcases ih notEarlier splitFirst shorter with ⟨called, calls, subCalled, nodup, last, all⟩
        refine ⟨previous :: called, by simp [calls], ?_, ?_, ?_, fun nodupFront => ?_⟩
        · rw [List.reverse_append]
          exact (subCalled.trans sub.reverse).cons_cons _
        · refine List.nodup_cons.2 ⟨fun again => notEarlier ?_, nodup⟩
          exact List.mem_reverse.1 (subCalled.subset again)
        · rwa [List.getLast?_cons_cons]
        · have same := whole nodupFront
          rw [same] at all
          rw [all (List.nodup_append.1 nodupFront).1, List.reverse_append]
          rfl

theorem callRunList_spec (nonempty : runList ≠ []) :
    (callRunList runList).Sublist runList.reverse ∧ (callRunList runList).Nodup ∧
      (callRunList runList).head? = runList.getLast? ∧
      (callRunList runList).getLast? = runList.head? ∧
      (runList.Nodup → callRunList runList = runList.reverse) := by
  rcases List.eq_nil_or_concat runList with rfl | ⟨before, last, rfl⟩
  · exact absurd rfl nonempty
  · rw [List.concat_eq_append]
    rcases exists_first before last with
      ⟨earlier, between, first, notEarlier, sub, whole⟩
    have shorter : earlier.length < (before ++ [last]).length := by
      have := sub.length_le
      rw [List.length_append, List.length_singleton]
      omega
    rcases callPrevs_spec (before ++ [last]).length notEarlier first shorter with
      ⟨called, calls, subCalled, nodup, final, all⟩
    have isCalled : callRunList (before ++ [last]) = last :: called := by
      simp [callRunList, ← calls]
    rw [isCalled]
    refine ⟨?_, ?_, by simp, final, fun nodupAll => ?_⟩
    · rw [List.reverse_append]
      exact (subCalled.trans sub.reverse).cons_cons _
    · refine List.nodup_cons.2 ⟨fun again => notEarlier ?_, nodup⟩
      exact List.mem_reverse.1 (subCalled.subset again)
    · have same := whole nodupAll
      rw [same] at all
      rw [all (List.nodup_append.1 nodupAll).1, List.reverse_append]
      rfl

/-- A call through a trampoline calls each function once at most, the newest hook first and the
original function last. It calls all of them if and only if none of them is in the run list
twice. -/
theorem callRunList_eq_reverse_iff (original : Pointer φ) (hooks : List (Pointer φ)) :
    (callRunList (original :: hooks)).Nodup ∧
      (callRunList (original :: hooks)).Sublist (original :: hooks).reverse ∧
      (callRunList (original :: hooks)).getLast? = some original ∧
      (callRunList (original :: hooks) = (original :: hooks).reverse ↔
        (original :: hooks).Nodup) := by
  rcases callRunList_spec (List.cons_ne_nil original hooks) with ⟨sub, nodup, _, last, all⟩
  refine ⟨nodup, sub, last, fun same => ?_, all⟩
  rw [same] at nodup
  exact (List.reverse_perm _).nodup_iff.1 nodup

/-- A hook which is hooked again hides the one between. -/
example : callRunList [.function 0, .function 1, .function 2, .function 1] =
    [.function 1, (.function 0 : Pointer ℕ)] := by
  decide

end AndroidCollection.Linker
