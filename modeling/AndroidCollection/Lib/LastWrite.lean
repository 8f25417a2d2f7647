import Mathlib.Data.List.Basic
import Mathlib.Tactic.Common

/-!
# The last write to each key

Entries are put into a store one after the other, and an entry replaces what the
store has had for its key. In the end the store has the last entry of each key and
what it had before for other keys. Writing the same entries again changes nothing,
and an entry is lost when a later one has its key.
-/

universe u v w

namespace LastWrite

variable {Key : Type u} {Value : Type v} [DecidableEq Key]

def put (store : List (Key × Value)) (entry : Key × Value) : List (Key × Value) :=
  (store.filter fun old => old.1 ≠ entry.1) ++ [entry]

def putAll (store entries : List (Key × Value)) : List (Key × Value) :=
  entries.foldl put store

/-- The entries whose keys do not come later. -/
def lasts : List (Key × Value) → List (Key × Value)
  | [] => []
  | entry :: entries =>
      if entry.1 ∈ entries.map Prod.fst then lasts entries else entry :: lasts entries

/-- What is kept of a store: other keys, or the same ones. -/
def others (store entries : List (Key × Value)) : List (Key × Value) :=
  store.filter fun old => old.1 ∉ entries.map Prod.fst

theorem lasts_sublist (entries : List (Key × Value)) : (lasts entries).Sublist entries := by
  induction entries with
  | nil => exact List.Sublist.slnil
  | cons entry entries ih =>
      simp only [lasts]
      split
      · exact ih.cons entry
      · exact ih.cons_cons entry

theorem others_put (store entries : List (Key × Value)) (entry : Key × Value) :
    others (put store entry) entries =
      others store (entry :: entries) ++
        if entry.1 ∈ entries.map Prod.fst then [] else [entry] := by
  simp only [others, put, List.filter_append, List.filter_filter]
  congr 1
  · apply List.filter_congr
    intro old _
    rw [Bool.eq_iff_iff]
    simp only [List.map_cons, List.mem_cons, Bool.and_eq_true, decide_eq_true_eq, not_or]
    exact and_comm
  · split
    · next later => simpa using later
    · next last => simpa using last

theorem putAll_eq (store entries : List (Key × Value)) :
    putAll store entries = others store entries ++ lasts entries := by
  induction entries generalizing store with
  | nil => simp [putAll, others, lasts]
  | cons entry entries ih =>
      have rest := ih (put store entry)
      rw [others_put, List.append_assoc] at rest
      refine rest.trans (congrArg _ ?_)
      simp only [lasts]
      split <;> rfl

theorem others_lasts (entries : List (Key × Value)) : others (lasts entries) entries = [] := by
  apply List.filter_eq_nil_iff.2
  intro entry member
  simpa using ⟨entry.2, (lasts_sublist entries).mem member⟩

/-- Writing the same entries again changes nothing. -/
theorem putAll_lasts (entries : List (Key × Value)) :
    putAll (lasts entries) entries = lasts entries := by
  rw [putAll_eq, others_lasts, List.nil_append]

theorem putAll_nil (entries : List (Key × Value)) : putAll [] entries = lasts entries := by
  rw [putAll_eq]
  rfl

/-! ## Lost entries -/

variable {Found : Type w} {find : Key × Value → Option Found}

/-- An entry in which something is found has no later one with its key. -/
def NoneLost (find : Key × Value → Option Found) (entries : List (Key × Value)) : Prop :=
  entries.Pairwise fun entry later => (find entry).isSome = true → later.1 ≠ entry.1

theorem length_lasts_le (find : Key × Value → Option Found) (entries : List (Key × Value)) :
    ((lasts entries).filterMap find).length ≤ (entries.filterMap find).length :=
  ((lasts_sublist entries).filterMap find).length_le

theorem filterMap_lasts {entries : List (Key × Value)} (kept : NoneLost find entries) :
    (lasts entries).filterMap find = entries.filterMap find := by
  induction entries with
  | nil => rfl
  | cons entry entries ih =>
      rcases List.pairwise_cons.1 kept with ⟨first, rest⟩
      simp only [lasts]
      split
      · next later =>
          rcases List.mem_map.1 later with ⟨other, member, same⟩
          have nothing : find entry = none := by
            apply Option.not_isSome_iff_eq_none.1
            intro found
            exact first other member found same
          rw [ih rest, List.filterMap_cons_none nothing]
      · rw [List.filterMap_cons, List.filterMap_cons, ih rest]

theorem noneLost_of_length_le {entries : List (Key × Value)}
    (many : (entries.filterMap find).length ≤ ((lasts entries).filterMap find).length) :
    NoneLost find entries := by
  induction entries with
  | nil => exact List.Pairwise.nil
  | cons entry entries ih =>
      have fewer := length_lasts_le find entries
      simp only [lasts] at many
      cases found : find entry with
      | none =>
          rw [List.filterMap_cons_none found] at many
          apply List.Pairwise.cons
          · simp [found]
          · apply ih
            split at many
            · exact many
            · rwa [List.filterMap_cons_none found] at many
      | some value =>
          rw [List.filterMap_cons_some found, List.length_cons] at many
          split at many
          · omega
          · next last =>
              rw [List.filterMap_cons_some found, List.length_cons] at many
              apply List.Pairwise.cons
              · intro later member _ same
                exact last (List.mem_map.2 ⟨later, member, same⟩)
              · exact ih (by omega)

end LastWrite
