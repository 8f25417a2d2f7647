import Mathlib.Data.Set.Card
import Mathlib.Logic.Relation

/-!
# Following a chain

A partial function leads from an element to at most one next one. Whoever follows it
until there is no next one, and does not look where it has been, gets to an end exactly
if no element on the way comes after itself, provided that there are finitely many.
-/

universe u

namespace Chain

variable {α : Type u} (next : α → Option α)

/-- The elements from the given one on, if the fuel is enough for all of them. -/
def walk : ℕ → Option α → Option (List α)
  | _, none => some []
  | 0, some _ => none
  | fuel + 1, some element => (walk fuel (next element)).map (element :: ·)

def Follows (earlier later : α) : Prop :=
  next earlier = some later

/-- No element from the given one on comes after itself. -/
def Acyclic (start : α) : Prop :=
  ∀ element, Relation.ReflTransGen (Follows next) start element →
    ¬Relation.TransGen (Follows next) element element

variable {next}

theorem Acyclic.of_follows {start second : α} (acyclic : Acyclic next start)
    (follows : next start = some second) : Acyclic next second :=
  fun element reached => acyclic element (.head follows reached)

theorem exists_follows_of_transGen {element last : α}
    (later : Relation.TransGen (Follows next) element last) :
    ∃ second, next element = some second ∧
      Relation.ReflTransGen (Follows next) second last := by
  rcases Relation.TransGen.head'_iff.1 later with ⟨second, follows, rest⟩
  exact ⟨second, follows, rest⟩

/-- A walk which has ended has not met an element which comes after itself. -/
theorem acyclic_of_walk {fuel : ℕ} {start : α} {walked : List α}
    (ends : walk next fuel (some start) = some walked) : Acyclic next start := by
  induction fuel generalizing start walked with
  | zero => cases ends
  | succ fuel ih =>
      rcases Option.map_eq_some_iff.1 ends with ⟨later, rest, _⟩
      have fromNext {second : α} (follows : next start = some second) : Acyclic next second := by
        rw [follows] at rest
        exact ih rest
      intro element reached cycle
      rcases Relation.ReflTransGen.cases_head reached with rfl | ⟨second, follows, further⟩
      · rcases exists_follows_of_transGen cycle with ⟨second, follows, back⟩
        exact fromNext follows start back cycle
      · exact fromNext follows element further cycle

/-- What comes after an element gets less from one element to the next. -/
theorem exists_walk_of_acyclic [Finite α] {start : α} (acyclic : Acyclic next start) :
    ∃ fuel walked, walk next fuel (some start) = some walked := by
  induction count : {later | Relation.TransGen (Follows next) start later}.ncard using
    Nat.strongRecOn generalizing start with
  | _ count ih =>
      cases follows : next start with
      | none => exact ⟨1, [start], by simp [walk, follows]⟩
      | some second =>
          have fewer : {later | Relation.TransGen (Follows next) second later} ⊂
              {later | Relation.TransGen (Follows next) start later} := by
            refine ⟨fun later rest => .head follows rest, ?_⟩
            intro all
            exact acyclic second (.single follows) (all (.single follows))
          have less := Set.ncard_lt_ncard fewer (Set.toFinite _)
          rw [count] at less
          rcases ih _ less (acyclic.of_follows follows) rfl with ⟨fuel, walked, ends⟩
          exact ⟨fuel + 1, start :: walked, by simp [walk, follows, ends]⟩

theorem exists_walk_iff [Finite α] (start : α) :
    (∃ fuel walked, walk next fuel (some start) = some walked) ↔ Acyclic next start := by
  constructor
  · rintro ⟨fuel, walked, ends⟩
    exact acyclic_of_walk ends
  · exact exists_walk_of_acyclic

end Chain
