import Mathlib.Data.List.Basic
import Mathlib.Data.List.Find
import Mathlib.Data.List.Perm.Basic

/-!
# Chained hash tables

A table leads from a hash to the first node of a bucket, and from a node to the next node of
its bucket. A lookup walks along the chain until a node passes the test. If the chain holds
the nodes of the bucket, and a node which passes the test is in the bucket, then the lookup finds
what a search through all nodes finds.

The walk has fuel, since the links may lead in a circle; the length of the chain is enough.
-/

universe u v w

variable {α : Type u} {κ : Type v}

/-- The nodes from the first one on, up to one without a next one. -/
def Chained (next : α → Option α) : α → List α → Prop
  | _, [] => False
  | first, node :: rest =>
      node = first ∧
        match next node with
        | none => rest = []
        | some following => Chained next following rest

/-- `none` when the fuel is used up, else the first node which passes the test. -/
def walkChain (next : α → Option α) (test : α → Bool) : ℕ → α → Option (Option α)
  | 0, _ => none
  | fuel + 1, node =>
      if test node then some (some node)
      else
        match next node with
        | none => some none
        | some following => walkChain next test fuel following

theorem walkChain_of_chained {next : α → Option α} {test : α → Bool} {first : α} {list : List α}
    (chained : Chained next first list) {fuel : ℕ} (enough : list.length ≤ fuel) :
    walkChain next test fuel first = some (list.find? test) := by
  induction list generalizing first fuel with
  | nil => exact chained.elim
  | cons node rest ih =>
      rcases chained with ⟨rfl, tail⟩
      cases fuel with
      | zero => simp at enough
      | succ fuel =>
          rw [walkChain, List.find?_cons]
          cases passes : test node with
          | true => simp
          | false =>
              cases following : next node with
              | none =>
                  simp only [following] at tail
                  simp [tail]
              | some after =>
                  simp only [following] at tail
                  simpa using ih tail (by simpa using enough)

structure HashTable (κ : Type v) (α : Type u) where
  start : κ → Option α
  next : α → Option α

namespace HashTable

def lookup (table : HashTable κ α) (test : α → Bool) (fuel : ℕ) (hash : κ) : Option (Option α) :=
  match table.start hash with
  | none => some none
  | some first => walkChain table.next test fuel first

/-- The chain of a hash. -/
def Holds (table : HashTable κ α) (hash : κ) (list : List α) : Prop :=
  match table.start hash with
  | none => list = []
  | some first => Chained table.next first list

variable {table : HashTable κ α} {hash : κ} {list nodes : List α} {test : α → Bool} {fuel : ℕ}

theorem lookup_of_holds (holds : table.Holds hash list) (enough : list.length ≤ fuel) :
    table.lookup test fuel hash = some (list.find? test) := by
  unfold Holds at holds
  unfold lookup
  split at holds
  · simp [holds]
  · exact walkChain_of_chained holds enough

variable {β : Type w} [DecidableEq β] {bucketOf : α → β} {bucket : β}

/-- A node which passes the test is found whatever the other buckets contain. -/
theorem find?_filter_bucket (found : ∀ node ∈ nodes, test node → bucketOf node = bucket) :
    (nodes.filter fun node => bucketOf node = bucket).find? test = nodes.find? test := by
  induction nodes with
  | nil => rfl
  | cons node rest ih =>
      have tail := ih fun other member => found other (List.mem_cons_of_mem _ member)
      by_cases same : bucketOf node = bucket
      · simp [same, List.find?_cons, tail]
      · have fails : test node = false := by
          apply Bool.eq_false_iff.2
          intro passes
          exact same (found node List.mem_cons_self passes)
        simp [same, fails, tail]

/-- In the order of the chain, the first node which passes the test. -/
theorem lookup_eq_find? (holds : table.Holds hash (nodes.filter fun node => bucketOf node = bucket))
    (found : ∀ node ∈ nodes, test node → bucketOf node = bucket) (enough : nodes.length ≤ fuel) :
    table.lookup test fuel hash = some (nodes.find? test) := by
  rw [lookup_of_holds holds (Nat.le_trans (List.length_filter_le _ _) enough),
    find?_filter_bucket found]

/-- When one node at most passes the test, the order of the chain does not matter. -/
theorem lookup_eq_find?_of_perm (holds : table.Holds hash list)
    (perm : list.Perm (nodes.filter fun node => bucketOf node = bucket))
    (found : ∀ node ∈ nodes, test node → bucketOf node = bucket)
    (unique : ∀ node ∈ nodes, ∀ other ∈ nodes, test node → test other → node = other)
    (enough : nodes.length ≤ fuel) :
    table.lookup test fuel hash = some (nodes.find? test) := by
  have length : list.length ≤ fuel := by
    rw [perm.length_eq]
    exact Nat.le_trans (List.length_filter_le _ _) enough
  rw [lookup_of_holds holds length, List.find?_eq_find?_of_perm perm, find?_filter_bucket found]
  rintro node ⟨member, passes⟩ other ⟨otherMember, passesOther⟩
  exact unique node (List.mem_filter.1 (perm.mem_iff.1 member)).1 other
    (List.mem_filter.1 (perm.mem_iff.1 otherMember)).1 passes passesOther

end HashTable
