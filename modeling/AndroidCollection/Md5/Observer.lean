import AndroidCollection.Md5.Digest

/-!
# Digests in the middle of a stream

A digest taken while the kept bytes number 56 or more makes `final` fill up the
buffer and go on at its start, over the kept bytes. The next digest is then
computed from the padding in their place. A digest taken earlier in a block
leaves the object as it was, so digests and updates can be mixed freely as long
as every digest but the last is taken while fewer than 56 bytes are kept.
-/

namespace AndroidCollection.Md5

open Rfc1321

inductive Call where
  | update (input : List UInt8)
  | digest
  | toString

inductive Returned where
  | nothing
  | digest (bytes : List UInt8)
  | string (characters : List Char)
deriving DecidableEq

namespace Call

def input : Call → List UInt8
  | update input => input
  | digest => []
  | toString => []

def Observes : Call → Prop
  | update _ => False
  | digest => True
  | toString => True

/-- What the call should return after the bytes seen so far. -/
def answer (seen : List UInt8) : Call → Returned
  | update _ => .nothing
  | digest => .digest (md5 seen)
  | toString => .string (hex (md5 seen))

end Call

def answers : List UInt8 → List Call → List Returned
  | _, [] => []
  | seen, call :: calls => call.answer seen :: answers (seen ++ call.input) calls

/-- Every digest which another digest follows is taken while fewer than 56 bytes are kept. -/
def Restored : List UInt8 → List Call → Prop
  | _, [] => True
  | seen, call :: calls =>
      (call.Observes → (∃ later ∈ calls, later.Observes) → seen.length % 64 < 56) ∧
        Restored (seen ++ call.input) calls

/-- No call of `update` has to absorb 2^32 bytes or more. -/
def Bounded : List UInt8 → List Call → Prop
  | _, [] => True
  | seen, call :: calls =>
      seen.length % 64 + call.input.length < 2 ^ 32 ∧ Bounded (seen ++ call.input) calls

namespace MD5

def call (m : MD5) : Call → Option (MD5 × Returned)
  | .update input => (m.update input).map fun m => (m, .nothing)
  | .digest => m.digest.map fun (m, bytes) => (m, .digest bytes)
  | .toString => m.toString.map fun (m, characters) => (m, .string characters)

/-- What the calls return, up to one which does not return. -/
def results : MD5 → List Call → List Returned
  | _, [] => []
  | m, call :: calls =>
      match m.call call with
      | none => []
      | some (m, returned) => returned :: results m calls

end MD5

/-- The results are the answers, up to a call of `update` with too many bytes. -/
def ResultsAre (m : MD5) (seen : List UInt8) (calls : List Call) : Prop :=
  (m.results calls).IsPrefix (answers seen calls) ∧
    (Bounded seen calls → m.results calls = answers seen calls)

namespace ResultsAre

variable {m m' : MD5} {seen : List UInt8} {call : Call} {calls : List Call}

theorem nil : ResultsAre m seen [] :=
  ⟨List.nil_prefix, fun _ => rfl⟩

theorem cons (returns : m.call call = some (m', call.answer seen))
    (rest : ResultsAre m' (seen ++ call.input) calls) : ResultsAre m seen (call :: calls) := by
  rw [ResultsAre, MD5.results, returns]
  dsimp only
  refine ⟨(List.prefix_cons_inj _).mpr rest.1, fun bounded => ?_⟩
  rw [answers, rest.2 bounded.2]

theorem stuck (blocked : m.call call = none)
    (long : 2 ^ 32 ≤ seen.length % 64 + call.input.length) :
    ResultsAre m seen (call :: calls) := by
  rw [ResultsAre, MD5.results, blocked]
  dsimp only
  refine ⟨List.nil_prefix, fun bounded => ?_⟩
  exact absurd bounded.1 (by omega)

end ResultsAre

theorem call_update {m : MD5} {seen : List UInt8}
    (counted : m.bitCount = 8 * seen.length % 2 ^ 64) (input : List UInt8) :
    m.call (.update input) =
      if seen.length % 64 + input.length < 2 ^ 32 then some (m.updated input, .nothing)
      else none := by
  rw [MD5.call, MD5.update_eq, MD5.index_toNat_of_bitCount counted]
  split <;> rfl

/-- Updates return as long as the number of the bytes is right. -/
theorem resultsAre_of_updates {m : MD5} {seen : List UInt8} {calls : List Call}
    (counted : m.bitCount = 8 * seen.length % 2 ^ 64)
    (updates : ¬∃ later ∈ calls, later.Observes) : ResultsAre m seen calls := by
  induction calls generalizing m seen with
  | nil => exact ResultsAre.nil
  | cons call calls ih =>
      have others : ¬∃ later ∈ calls, later.Observes := by
        rintro ⟨later, laterMem, observes⟩
        exact updates ⟨later, List.mem_cons_of_mem _ laterMem, observes⟩
      cases call with
      | update input =>
          have returns := call_update counted input
          by_cases fits : seen.length % 64 + input.length < 2 ^ 32
          · rw [if_pos fits] at returns
            refine ResultsAre.cons returns (ih ?_ others)
            rw [m.bitCount_updated input (by omega), counted]
            simp only [Call.input, List.length_append]
            omega
          · rw [if_neg fits] at returns
            exact ResultsAre.stuck returns (Nat.le_of_not_lt fits)
      | digest => exact absurd ⟨_, List.mem_cons_self, trivial⟩ updates
      | toString => exact absurd ⟨_, List.mem_cons_self, trivial⟩ updates

namespace Represents

variable {m : MD5} {seen : List UInt8} {call : Call} {calls : List Call}

theorem call_observes (represents : Represents m seen) (observes : call.Observes) :
    m.call call = some (m.finalized, call.answer seen) ∧ call.input = [] := by
  cases call with
  | update input => exact absurd observes id
  | digest =>
      rw [MD5.call, represents.digest]
      exact ⟨rfl, rfl⟩
  | toString =>
      rw [MD5.call, represents.toString]
      exact ⟨rfl, rfl⟩

theorem resultsAre (represents : Represents m seen) (restored : Restored seen calls) :
    ResultsAre m seen calls := by
  induction calls generalizing m seen with
  | nil => exact ResultsAre.nil
  | cons call calls ih =>
      by_cases observes : call.Observes
      · rcases represents.call_observes observes with ⟨returns, noInput⟩
        have unchanged : seen ++ call.input = seen := by
          rw [noInput, List.append_nil]
        refine ResultsAre.cons returns ?_
        by_cases last : ∃ later ∈ calls, later.Observes
        · refine ih ?_ restored.2
          rw [unchanged]
          exact represents.finalized (restored.1 observes last)
        · refine resultsAre_of_updates ?_ last
          rw [unchanged]
          exact represents.counted
      · cases call with
        | update input =>
            have returns := call_update represents.counted input
            by_cases fits : seen.length % 64 + input.length < 2 ^ 32
            · rw [if_pos fits] at returns
              exact ResultsAre.cons returns (ih (represents.update fits).2 restored.2)
            · rw [if_neg fits] at returns
              exact ResultsAre.stuck returns (Nat.le_of_not_lt fits)
        | digest => exact absurd trivial observes
        | toString => exact absurd trivial observes

end Represents

/-- Since construction or the last reset, every digest which is returned is the MD5 digest of the
bytes passed to `update` before it, and every call returns if no `update` is too long, provided
that every digest which another one follows is taken while fewer than 56 bytes are kept. -/
theorem results_reset (memory : MD5) (calls : List Call) (restored : Restored [] calls) :
    (memory.reset.results calls).IsPrefix (answers [] calls) ∧
      (Bounded [] calls → memory.reset.results calls = answers [] calls) :=
  (Represents.reset memory).resultsAre restored

/-- A digest after three bytes, which another one follows after sixty. -/
theorem results_reset_twice :
    zeroMemory.reset.results
        [.update [1, 2, 3], .digest, .update (List.replicate 57 0), .toString] =
      [.nothing, .digest (md5 [1, 2, 3]), .nothing,
        .string (hex (md5 ([1, 2, 3] ++ List.replicate 57 0)))] :=
  (results_reset zeroMemory
    [.update [1, 2, 3], .digest, .update (List.replicate 57 0), .toString]
    ⟨fun observes => absurd observes id, fun _ _ => by decide, fun observes => absurd observes id,
      fun _ later => absurd later (by simp), trivial⟩).2
    ⟨by decide, by decide, by decide, by decide, trivial⟩

/-- The second of two digests after 56 bytes is wrong. -/
theorem repeated_digest_differs :
    ¬(zeroMemory.reset.results
        [.update (List.replicate 56 0x61), .digest, .digest]).IsPrefix
      (answers [] [.update (List.replicate 56 0x61), .digest, .digest]) := by
  decide +kernel

end AndroidCollection.Md5
