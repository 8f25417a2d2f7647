import Mathlib.Data.List.Basic
import Mathlib.Tactic.Common

/-!
# A window on a history

An array of fixed size keeps the latest entries of a history: each new entry is put at
its end after all others have been shifted to the front, where the oldest one drops out.
As long as there are fewer entries, it begins with what it has been filled with.
-/

universe u

namespace SlidingWindow

variable {α : Type u}

/-- The entry is put at the end, and the first one drops out. -/
def push (window : List α) (entry : α) : List α :=
  window.drop 1 ++ [entry]

/-- The window on a history, the newest entry of which comes first. -/
def window (size : ℕ) (fill : α) (history : List α) : List α :=
  ((history ++ List.replicate size fill).take size).reverse

variable {size : ℕ} {fill : α}

theorem window_nil : window size fill [] = List.replicate size fill := by
  simp [window]

theorem push_window (given : 0 < size) (history : List α) (entry : α) :
    push (window size fill history) entry = window size fill (entry :: history) := by
  obtain ⟨others, rfl⟩ : ∃ others, size = others + 1 := ⟨size - 1, by omega⟩
  have long : others < (history ++ List.replicate (others + 1) fill).length := by
    simp
    omega
  rw [push, window, window, List.cons_append, List.take_succ_cons, List.reverse_cons,
    List.take_succ_eq_append_getElem long, List.reverse_append]
  rfl

/-- The first entry of the window is the oldest one, or what it has been filled with. -/
theorem head?_window (given : 0 < size) (history : List α) :
    (window size fill history).head? = some (history.getD (size - 1) fill) := by
  have length : ((history ++ List.replicate size fill).take size).length = size := by simp
  rw [window, List.head?_reverse, List.getLast?_eq_getElem?, length,
    List.getElem?_take_of_lt (by omega), List.getD_eq_getElem?_getD]
  rcases Nat.lt_or_ge (size - 1) history.length with inside | beyond
  · rw [List.getElem?_append_left inside, List.getElem?_eq_getElem inside, Option.getD_some]
  · rw [List.getElem?_append_right beyond, List.getElem?_eq_none beyond, Option.getD_none,
      List.getElem?_replicate_of_lt (by omega)]

end SlidingWindow
