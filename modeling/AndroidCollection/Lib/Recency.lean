import Mathlib.Data.List.Nodup
import Mathlib.Tactic.Common

/-!
# Recency lists

A history of things which are shown and left again, newest event first. Its
recency list has the things which are still standing, the most recently shown
one first. A thing may be shown so that it clears away all others.
-/

universe u

namespace Recency

inductive Event (α : Type u) where
  | shown (thing : α)
  /-- The thing is shown and everything else is cleared away. -/
  | cleared (thing : α)
  | left (thing : α)
deriving DecidableEq, Repr

variable {α : Type u} [DecidableEq α]

def standing : List (Event α) → List α
  | [] => []
  | .shown thing :: earlier => thing :: (standing earlier).erase thing
  | .cleared thing :: _ => [thing]
  | .left thing :: earlier => (standing earlier).erase thing

theorem nodup_standing (history : List (Event α)) : (standing history).Nodup := by
  induction history with
  | nil => exact List.nodup_nil
  | cons event earlier ih =>
      cases event with
      | shown thing => exact List.nodup_cons.2 ⟨ih.not_mem_erase, ih.erase thing⟩
      | cleared thing => exact List.nodup_singleton thing
      | left thing => exact ih.erase thing

end Recency
