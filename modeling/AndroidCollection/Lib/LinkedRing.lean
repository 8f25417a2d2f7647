import Mathlib.Data.List.Basic
import Mathlib.Logic.Function.Basic
import Mathlib.Tactic.Common

/-!
# Rings of linked nodes

A doubly linked list with a sentinel is a ring: `none` is the sentinel and every other node
is `some` node. Following one direction of the links from a node on gives a list of nodes,
and then the sentinel. A node is pushed in front and removed by assigning two links in
each direction; the two directions may be assigned at different times.
-/

universe u

namespace LinkedRing

variable {α : Type u}

/-- The links lead from the node through the list to the sentinel. -/
def Follows (next : Option α → Option α) : Option α → List α → Prop
  | node, [] => next node = none
  | node, first :: rest => next node = some first ∧ Follows next (some first) rest

/-- The backward links lead from the sentinel through the list to the node. -/
def Precedes (prev : Option α → Option α) : Option α → List α → Prop
  | node, [] => prev none = node
  | node, first :: rest => prev (some first) = node ∧ Precedes prev (some first) rest

/-- The last of the list, or the node before it. -/
def lastOf (node : Option α) : List α → Option α
  | [] => node
  | first :: rest => lastOf (some first) rest

variable {next prev other : Option α → Option α} {node : Option α} {list front back : List α}
  {element : α}

theorem lastOf_mem : lastOf node list = node ∨ ∃ last ∈ list, lastOf node list = some last := by
  induction list generalizing node with
  | nil => exact Or.inl rfl
  | cons first rest ih =>
      right
      rcases @ih (some first) with same | ⟨last, member, same⟩
      · exact ⟨first, List.mem_cons_self, same⟩
      · exact ⟨last, List.mem_cons_of_mem _ member, same⟩

theorem lastOf_ne (notNode : node ≠ some element) (notMem : element ∉ list) :
    lastOf node list ≠ some element := by
  rcases @lastOf_mem _ node list with same | ⟨last, member, same⟩
  · rwa [same]
  · rw [same]
    intro isElement
    exact notMem (Option.some.inj isElement ▸ member)

theorem Follows.congr (follows : Follows next node list) (atNode : other node = next node)
    (agree : ∀ member ∈ list, other (some member) = next (some member)) :
    Follows other node list := by
  induction list generalizing node with
  | nil => exact atNode.trans follows
  | cons first rest ih =>
      exact ⟨atNode.trans follows.1, ih follows.2 (agree first List.mem_cons_self)
        fun member isMember => agree member (List.mem_cons_of_mem _ isMember)⟩

theorem Precedes.congr (precedes : Precedes prev node list) (atEnd : other none = prev none)
    (agree : ∀ member ∈ list, other (some member) = prev (some member)) :
    Precedes other node list := by
  induction list generalizing node with
  | nil => exact atEnd.trans precedes
  | cons first rest ih =>
      exact ⟨(agree first List.mem_cons_self).trans precedes.1, ih precedes.2
        fun member isMember => agree member (List.mem_cons_of_mem _ isMember)⟩

theorem Follows.unique (follows : Follows next node front) (alike : Follows next node back) :
    front = back := by
  induction front generalizing node back with
  | nil =>
      cases back with
      | nil => rfl
      | cons first rest => cases follows.symm.trans alike.1
  | cons first rest ih =>
      cases back with
      | nil => cases follows.1.symm.trans alike
      | cons second others =>
          obtain rfl := Option.some.inj (follows.1.symm.trans alike.1)
          rw [ih follows.2 alike.2]

theorem Follows.next_eq (follows : Follows next node list) : next node = list.head? := by
  cases list with
  | nil => exact follows
  | cons first rest => exact follows.1

theorem Follows.drop (follows : Follows next node (front ++ back)) :
    Follows next (lastOf node front) back := by
  induction front generalizing node with
  | nil => exact follows
  | cons first rest ih => exact ih follows.2

/-- The node before an element of the list. -/
theorem Precedes.prev_eq (precedes : Precedes prev node (front ++ element :: back)) :
    prev (some element) = lastOf node front := by
  induction front generalizing node with
  | nil => exact precedes.1
  | cons first rest ih => exact ih precedes.2

section Changes

variable [DecidableEq α]

/-- The links bypass an element. -/
theorem Follows.remove (follows : Follows next node (front ++ element :: back))
    (nodup : (front ++ element :: back).Nodup)
    (notNode : ∀ member ∈ front ++ element :: back, node ≠ some member) :
    Follows (Function.update next (lastOf node front) (next (some element))) node
      (front ++ back) := by
  induction front generalizing node with
  | nil =>
      have notBack : ∀ member ∈ back, some member ≠ node := fun member isMember =>
        (notNode member (List.mem_cons_of_mem _ isMember)).symm
      have rest : Follows next (some element) back := follows.2
      cases back with
      | nil => exact (Function.update_self ..).trans rest
      | cons first later =>
          refine ⟨(Function.update_self ..).trans rest.1, ?_⟩
          refine rest.2.congr (Function.update_of_ne (notBack first List.mem_cons_self) ..) ?_
          intro member isMember
          exact Function.update_of_ne (notBack member (List.mem_cons_of_mem _ isMember)) ..
  | cons first rest ih =>
      rw [List.cons_append, List.nodup_cons] at nodup
      have notFirst : ∀ member ∈ rest ++ element :: back, some first ≠ some member := by
        rintro member isMember same
        exact nodup.1 (Option.some.inj same ▸ isMember)
      have notLast : node ≠ lastOf (some first) rest := by
        rcases @lastOf_mem _ (some first) rest with same | ⟨last, isMember, same⟩
        · rw [same]
          exact notNode first List.mem_cons_self
        · rw [same]
          exact notNode last (List.mem_cons_of_mem _ (List.mem_append_left _ isMember))
      exact ⟨(Function.update_of_ne notLast ..).trans follows.1, ih follows.2 nodup.2 notFirst⟩

/-- The backward links bypass an element. -/
theorem Precedes.remove (precedes : Precedes prev node (front ++ element :: back))
    (nodup : (front ++ element :: back).Nodup) :
    Precedes (Function.update prev back.head? (lastOf node front)) node (front ++ back) := by
  induction front generalizing node with
  | nil =>
      have rest : Precedes prev (some element) back := precedes.2
      cases back with
      | nil => exact Function.update_self ..
      | cons first later =>
          have different : ∀ member ∈ later, some member ≠ (first :: later).head? := by
            rintro member isMember same
            have notLater := (List.nodup_cons.1 (List.nodup_cons.1 nodup).2).1
            exact notLater (Option.some.inj same ▸ isMember)
          refine ⟨Function.update_self .., rest.2.congr ?_ ?_⟩
          · exact Function.update_of_ne (by simp) ..
          · intro member isMember
            exact Function.update_of_ne (different member isMember) ..
  | cons first rest ih =>
      rw [List.cons_append, List.nodup_cons] at nodup
      have different : some first ≠ back.head? := by
        intro same
        rcases List.head?_eq_some_iff.1 same.symm with ⟨later, rfl⟩
        exact nodup.1 (by simp)
      exact ⟨(Function.update_of_ne different ..).trans precedes.1, ih precedes.2 nodup.2⟩

/-- An element in front of the list, after the sentinel. -/
theorem Follows.push (follows : Follows next none list)
    (own : next (some element) = next none) :
    Follows (Function.update next none (some element)) none (element :: list) := by
  refine ⟨Function.update_self .., ?_⟩
  cases list with
  | nil => exact (Function.update_of_ne (by simp) ..).trans (own.trans follows)
  | cons first rest =>
      refine ⟨(Function.update_of_ne (by simp) ..).trans (own.trans follows.1), ?_⟩
      exact follows.2.congr (Function.update_of_ne (by simp) ..)
        fun member _ => Function.update_of_ne (by simp) ..

theorem Precedes.push (precedes : Precedes prev none list) (nodup : (element :: list).Nodup)
    (own : prev (some element) = none) :
    Precedes (Function.update prev list.head? (some element)) none (element :: list) := by
  have different : some element ≠ list.head? := by
    intro same
    rcases List.head?_eq_some_iff.1 same.symm with ⟨later, rfl⟩
    exact (List.nodup_cons.1 nodup).1 List.mem_cons_self
  refine ⟨(Function.update_of_ne different ..).trans own, ?_⟩
  cases list with
  | nil => exact Function.update_self ..
  | cons first rest =>
      have notRest := (List.nodup_cons.1 (List.nodup_cons.1 nodup).2).1
      refine ⟨Function.update_self .., precedes.2.congr (Function.update_of_ne (by simp) ..) ?_⟩
      intro member isMember
      refine Function.update_of_ne ?_ ..
      rintro same
      exact notRest (Option.some.inj same ▸ isMember)

end Changes

/-! ## Rings under change -/

/-- What is being done to a ring: an element has its own links, and then also those which lead
back to it; the links bypass an element, and then also those which lead back. -/
inductive Edit (α : Type u) where
  | whole
  | prepared (element : α)
  | pushed (element : α)
  | bypassed (element : α)
  | removed (element : α)

def Edit.edited : Edit α → Option α
  | .whole => none
  | .prepared element | .pushed element | .bypassed element | .removed element => some element

/-- The links in both directions, and those of the element which comes or goes. -/
def Ring (next prev : Option α → Option α) (list : List α) : Edit α → Prop
  | .whole => Follows next none list ∧ Precedes prev none list
  | .prepared element =>
      Follows next none list ∧ Precedes prev none list ∧ element ∉ list ∧
        next (some element) = list.head? ∧ prev (some element) = none
  | .pushed element =>
      Follows next none list ∧ Precedes prev none (element :: list) ∧ element ∉ list ∧
        next (some element) = list.head?
  | .bypassed element =>
      ∃ front back, list = front ++ back ∧ Follows next none list ∧
        Precedes prev none (front ++ element :: back) ∧ (front ++ element :: back).Nodup ∧
        next (some element) = back.head? ∧ prev (some element) = lastOf none front
  | .removed element =>
      ∃ front back, list = front ++ back ∧ Follows next none list ∧
        Precedes prev none list ∧ element ∉ list ∧ next (some element) = back.head?

namespace Ring

variable {edit : Edit α} {otherPrev : Option α → Option α}

theorem follows (ring : Ring next prev list edit) : Follows next none list := by
  cases edit with
  | whole => exact ring.1
  | prepared => exact ring.1
  | pushed => exact ring.1
  | bypassed =>
      rcases ring with ⟨_, _, _, follows, _⟩
      exact follows
  | removed =>
      rcases ring with ⟨_, _, _, follows, _⟩
      exact follows

theorem bypassed_next (ring : Ring next prev list (.bypassed element)) :
    ∃ front back, list = front ++ back ∧ next (some element) = back.head? := by
  rcases ring with ⟨front, back, split, _, _, _, own, _⟩
  exact ⟨front, back, split, own⟩

theorem removed_next (ring : Ring next prev list (.removed element)) :
    ∃ front back, list = front ++ back ∧ next (some element) = back.head? := by
  rcases ring with ⟨front, back, split, _, _, _, own⟩
  exact ⟨front, back, split, own⟩

theorem whole_of_removed (ring : Ring next prev list (.removed element)) :
    Ring next prev list .whole := by
  rcases ring with ⟨_, _, _, follows, precedes, _⟩
  exact ⟨follows, precedes⟩

/-- An element outside can be changed at will. -/
theorem congr (ring : Ring next prev list edit) (notMem : element ∉ list)
    (notEdited : edit.edited ≠ some element)
    (agree : ∀ node ≠ some element, other node = next node)
    (agreeBack : ∀ node ≠ some element, otherPrev node = prev node) :
    Ring other otherPrev list edit := by
  have different {members : List α} (notMem : element ∉ members) :
      ∀ member ∈ members, some member ≠ some element := by
    rintro member isMember same
    exact notMem (Option.some.inj same ▸ isMember)
  have follows (before : Follows next none list) : Follows other none list :=
    before.congr (agree none (by simp)) fun member isMember =>
      agree _ (different notMem member isMember)
  have precedes {members : List α} (before : Precedes prev none members)
      (notMem : element ∉ members) : Precedes otherPrev none members :=
    before.congr (agreeBack none (by simp)) fun member isMember =>
      agreeBack _ (different notMem member isMember)
  cases edit with
  | whole => exact ⟨follows ring.1, precedes ring.2 notMem⟩
  | prepared edited =>
      rcases ring with ⟨forth, back, outside, own, ownBack⟩
      exact ⟨follows forth, precedes back notMem, outside, (agree _ notEdited).trans own,
        (agreeBack _ notEdited).trans ownBack⟩
  | pushed edited =>
      rcases ring with ⟨forth, back, outside, own⟩
      refine ⟨follows forth, precedes back ?_, outside, (agree _ notEdited).trans own⟩
      exact List.not_mem_cons_of_ne_of_not_mem (fun same => notEdited (congrArg some same.symm))
        notMem
  | bypassed edited =>
      rcases ring with ⟨front, back, rfl, forth, backward, nodup, own, ownBack⟩
      refine ⟨front, back, rfl, follows forth, precedes backward ?_, nodup,
        (agree _ notEdited).trans own, (agreeBack _ notEdited).trans ownBack⟩
      rw [List.perm_middle.mem_iff]
      exact List.not_mem_cons_of_ne_of_not_mem (fun same => notEdited (congrArg some same.symm))
        notMem
  | removed edited =>
      rcases ring with ⟨front, back, rfl, forth, backward, outside, own⟩
      exact ⟨front, back, rfl, follows forth, precedes backward notMem, outside,
        (agree _ notEdited).trans own⟩

variable [DecidableEq α]

theorem prepare (ring : Ring next prev list .whole) (notMem : element ∉ list) :
    Ring (Function.update next (some element) (next none))
      (Function.update prev (some element) none) list (.prepared element) := by
  have kept : Ring (Function.update next (some element) (next none))
      (Function.update prev (some element) none) list .whole :=
    ring.congr notMem (by simp [Edit.edited])
      (fun node different => Function.update_of_ne different ..)
      fun node different => Function.update_of_ne different ..
  refine ⟨kept.1, kept.2, notMem, ?_, Function.update_self ..⟩
  rw [Function.update_self, ring.1.next_eq]

theorem setBack (ring : Ring next prev list (.prepared element)) (nodup : list.Nodup) :
    Ring next (Function.update prev (next (some element)) (some element)) list
      (.pushed element) := by
  rcases ring with ⟨follows, precedes, notMem, own, ownBack⟩
  refine ⟨follows, ?_, notMem, own⟩
  rw [own]
  exact precedes.push (List.nodup_cons.2 ⟨notMem, nodup⟩) ownBack

theorem publish (ring : Ring next prev list (.pushed element)) :
    Ring (Function.update next none (some element)) prev (element :: list) .whole := by
  rcases ring with ⟨follows, precedes, _, own⟩
  exact ⟨follows.push (own.trans follows.next_eq.symm), precedes⟩

theorem bypass (ring : Ring next prev list .whole) (nodup : list.Nodup) (mem : element ∈ list) :
    Ring (Function.update next (prev (some element)) (next (some element))) prev
      (list.erase element) (.bypassed element) := by
  rcases List.append_of_mem mem with ⟨front, back, rfl⟩
  rcases ring with ⟨follows, precedes⟩
  have notFront : element ∉ front := fun isFront =>
    (List.nodup_append.1 nodup).2.2 element isFront element List.mem_cons_self rfl
  have before := precedes.prev_eq
  have after : next (some element) = back.head? := (follows.drop).2.next_eq
  have notBefore : some element ≠ lastOf none front := (lastOf_ne (by simp) notFront).symm
  rw [List.erase_append_right _ notFront, List.erase_cons_head, before]
  exact ⟨front, back, rfl, follows.remove nodup (by simp), precedes, nodup,
    (Function.update_of_ne notBefore ..).trans after, before⟩

theorem unhook (ring : Ring next prev list (.bypassed element)) :
    Ring next (Function.update prev (next (some element)) (prev (some element))) list
      (.removed element) := by
  rcases ring with ⟨front, back, rfl, follows, precedes, nodup, own, ownBack⟩
  refine ⟨front, back, rfl, follows, ?_, ?_, own⟩
  · rw [own, ownBack]
    exact precedes.remove nodup
  · exact (List.nodup_cons.1 (List.perm_middle.nodup_iff.1 nodup)).1

end Ring

/-! ## Walks -/

/-- The nodes from this one to the sentinel. -/
def Walks (next : Option α → Option α) : Option α → List α → Prop
  | node, [] => node = none
  | node, first :: rest => node = some first ∧ Walks next (next (some first)) rest

theorem Follows.walks (follows : Follows next node list) : Walks next (next node) list := by
  induction list generalizing node with
  | nil => exact follows
  | cons first rest ih => exact ⟨follows.1, ih follows.2⟩

theorem Walks.follows {walk : List α} (walks : Walks next (next node) walk) :
    Follows next node walk := by
  induction walk generalizing node with
  | nil => exact walks
  | cons first rest ih => exact ⟨walks.1, ih walks.2⟩

namespace Walks

variable {walk rest : List α}

theorem congr (walks : Walks next node walk)
    (agree : ∀ member ∈ walk, other (some member) = next (some member)) :
    Walks other node walk := by
  induction walk generalizing node with
  | nil => exact walks
  | cons first rest ih =>
      refine ⟨walks.1, ?_⟩
      rw [agree first List.mem_cons_self]
      exact ih walks.2 fun member isMember => agree member (List.mem_cons_of_mem _ isMember)

theorem unique (walks : Walks next node walk) (alike : Walks next node rest) : walk = rest := by
  induction walk generalizing node rest with
  | nil =>
      cases rest with
      | nil => rfl
      | cons => cases (show node = none from walks).symm.trans alike.1
  | cons first later ih =>
      cases rest with
      | nil => cases walks.1.symm.trans (show node = none from alike)
      | cons second others =>
          obtain rfl := Option.some.inj (walks.1.symm.trans alike.1)
          rw [ih walks.2 alike.2]

theorem drop {front back : List α} (walks : Walks next node (front ++ element :: back)) :
    Walks next (some element) (element :: back) := by
  induction front generalizing node with
  | nil => exact ⟨rfl, walks.2⟩
  | cons first rest ih => exact ih walks.2

/-- A walk which comes to an end does not pass a node twice. -/
theorem nodup (walks : Walks next node walk) : walk.Nodup := by
  induction walk generalizing node with
  | nil => exact List.nodup_nil
  | cons first rest ih =>
      refine List.nodup_cons.2 ⟨fun again => ?_, ih walks.2⟩
      rcases List.append_of_mem again with ⟨front, back, rfl⟩
      have whole : Walks next (some first) (first :: (front ++ first :: back)) := ⟨rfl, walks.2⟩
      have same := walks.2.drop.unique whole
      have lengths := congrArg List.length same
      simp only [List.length_cons, List.length_append] at lengths
      omega

variable [DecidableEq α]

/-- Where the walk passes a node which is bypassed, it goes on without it. The node where the
walk begins stays. -/
theorem bypass {before : Option α} (walks : Walks next (some element) (element :: rest))
    {bypassed : α} (link : next before = some bypassed) :
    ∃ later, Walks (Function.update next before (next (some bypassed))) (some element)
        (element :: later) ∧ later.Sublist rest ∧
      ∀ kept : List α, kept.Sublist rest → bypassed ∉ kept → kept.Sublist later := by
  induction rest generalizing element with
  | nil =>
      have isLast : next (some element) = none := walks.2
      have notBefore : some element ≠ before := by
        rintro rfl
        cases link.symm.trans isLast
      refine ⟨[], ⟨rfl, ?_⟩, List.Sublist.refl _, fun kept sub _ => sub⟩
      rw [Function.update_of_ne notBefore]
      exact isLast
  | cons second later ih =>
      by_cases here : some element = before
      · subst here
        obtain rfl := Option.some.inj (link.symm.trans walks.2.1)
        have notLater : element ∉ later := fun again =>
          (List.nodup_cons.1 walks.nodup).1 (List.mem_cons_of_mem _ again)
        refine ⟨later, ⟨rfl, ?_⟩, List.sublist_cons_self .., fun kept sub notKept => ?_⟩
        · rw [Function.update_self]
          refine walks.2.2.congr fun member isMember => Function.update_of_ne ?_ ..
          rintro same
          exact notLater (Option.some.inj same ▸ isMember)
        · cases sub with
          | cons _ sub => exact sub
          | cons_cons => exact absurd List.mem_cons_self notKept
      · have onward : Walks next (some second) (second :: later) := ⟨rfl, walks.2.2⟩
        rcases ih onward with ⟨shorter, walksShorter, sub, keeps⟩
        refine ⟨second :: shorter, ⟨rfl, ?_⟩, sub.cons_cons _, fun kept keptSub notKept => ?_⟩
        · rw [Function.update_of_ne here, walks.2.1]
          exact walksShorter
        · cases keptSub with
          | cons _ keptSub => exact (keeps _ keptSub notKept).cons _
          | cons_cons _ keptSub =>
              refine (keeps _ keptSub fun isKept => ?_).cons_cons _
              exact notKept (List.mem_cons_of_mem _ isKept)

end Walks

end LinkedRing
