import Mathlib.Data.List.Perm.Basic
import Mathlib.Tactic.Common

/-!
# Ledgers

A ledger has everything that has come to be owed and everything that has been
paid, both in the order of time. It balances when the two agree up to order, but
for what is still pending; an answer given twice, or to nobody, unbalances it for
good. Whether a step keeps the balance can be told from the step alone.
-/

universe u

structure Ledger (α : Type u) where
  owed : List α
  paid : List α

namespace Ledger

variable {α : Type u}

def empty : Ledger α :=
  ⟨[], []⟩

def record (ledger : Ledger α) (owed paid : List α) : Ledger α :=
  ⟨ledger.owed ++ owed, ledger.paid ++ paid⟩

/-- All that is owed has been paid exactly once or is pending. -/
def Balances (ledger : Ledger α) (pending : List α) : Prop :=
  ledger.owed.Perm (ledger.paid ++ pending)

theorem empty_balances : (empty : Ledger α).Balances [] :=
  List.Perm.nil

theorem Balances.record_iff {ledger : Ledger α} {pending : List α}
    (balances : ledger.Balances pending) (owed paid left : List α) :
    (ledger.record owed paid).Balances left ↔ (pending ++ owed).Perm (paid ++ left) := by
  have before : (ledger.owed ++ owed).Perm (ledger.paid ++ (pending ++ owed)) := by
    rw [← List.append_assoc]
    exact balances.append_right owed
  unfold Balances record
  rw [List.append_assoc]
  constructor
  · intro after
    exact (List.perm_append_left_iff ledger.paid).1 (before.symm.trans after)
  · intro step
    exact before.trans (step.append_left ledger.paid)

end Ledger
