import Mathlib.Computability.RegularExpressions

/-!
# Character classes in regular expressions

A character class is the sum of its letters. The lemmas below read words off an
expression from the front: a class or a literal letter contributes exactly one
symbol, and a counted repetition unfolds one round at a time.
-/

universe u

namespace RegexClass

open RegularExpression

variable {α : Type u}

/-- One letter of the list. -/
def oneOf (letters : List α) : RegularExpression α :=
  letters.foldr (fun letter rest => char letter + rest) 0

variable {letters : List α} {P Q : RegularExpression α} {word : List α}

theorem mem_matches'_oneOf :
    word ∈ (oneOf letters).matches' ↔ ∃ letter ∈ letters, word = [letter] := by
  induction letters with
  | nil => exact iff_of_false (Language.notMem_zero word) (by simp)
  | cons letter letters ih =>
      change word ∈ (char letter + oneOf letters).matches' ↔ _
      rw [matches'_add, Language.mem_add, ih]
      change word = [letter] ∨ _ ↔ _
      simp

theorem mem_matches'_add : word ∈ (P + Q).matches' ↔ word ∈ P.matches' ∨ word ∈ Q.matches' :=
  Language.mem_add _ _ _

theorem mem_matches'_mul :
    word ∈ (P * Q).matches' ↔ ∃ front ∈ P.matches', ∃ back ∈ Q.matches', front ++ back = word :=
  Language.mem_mul

theorem mem_matches'_char_mul {letter : α} :
    word ∈ (char letter * P).matches' ↔ ∃ rest ∈ P.matches', word = letter :: rest := by
  rw [mem_matches'_mul, matches'_char]
  constructor
  · rintro ⟨front, rfl, back, matched, rfl⟩
    exact ⟨back, matched, rfl⟩
  · rintro ⟨rest, matched, rfl⟩
    exact ⟨[letter], rfl, rest, matched, rfl⟩

theorem mem_matches'_oneOf_mul :
    word ∈ (oneOf letters * P).matches' ↔
      ∃ letter ∈ letters, ∃ rest ∈ P.matches', word = letter :: rest := by
  rw [mem_matches'_mul]
  constructor
  · rintro ⟨front, matched, back, backMatched, rfl⟩
    rcases mem_matches'_oneOf.mp matched with ⟨letter, letterMem, rfl⟩
    exact ⟨letter, letterMem, back, backMatched, rfl⟩
  · rintro ⟨letter, letterMem, rest, matched, rfl⟩
    exact ⟨[letter], mem_matches'_oneOf.mpr ⟨letter, letterMem, rfl⟩, rest, matched, rfl⟩

theorem mem_matches'_pow_zero : word ∈ (P ^ 0).matches' ↔ word = [] := by
  rw [matches'_pow, pow_zero, Language.mem_one]

theorem mem_matches'_pow_succ {count : ℕ} :
    word ∈ (P ^ (count + 1)).matches' ↔
      ∃ front ∈ P.matches', ∃ back ∈ (P ^ count).matches', front ++ back = word := by
  rw [matches'_pow, matches'_pow, pow_succ', Language.mem_mul]

theorem mem_matches'_star_oneOf :
    word ∈ (star (oneOf letters)).matches' ↔ ∀ letter ∈ word, letter ∈ letters := by
  change word ∈ KStar.kstar (oneOf letters).matches' ↔ _
  rw [Language.mem_kstar]
  constructor
  · rintro ⟨parts, rfl, matched⟩ letter member
    rcases List.mem_flatten.1 member with ⟨part, partMem, within⟩
    rcases mem_matches'_oneOf.1 (matched part partMem) with ⟨only, onlyMem, rfl⟩
    rwa [List.mem_singleton.1 within]
  · intro all
    refine ⟨word.map fun letter => [letter], ?_, ?_⟩
    · rw [← List.flatMap_def, List.flatMap_singleton']
    · intro part partMem
      rcases List.mem_map.1 partMem with ⟨letter, member, rfl⟩
      exact mem_matches'_oneOf.2 ⟨letter, all letter member, rfl⟩

theorem mem_matches'_optional_char {letter : α} :
    word ∈ (1 + char letter : RegularExpression α).matches' ↔ word = [] ∨ word = [letter] := by
  rw [mem_matches'_add, matches'_epsilon, matches'_char, Language.mem_one]
  exact Iff.rfl

end RegexClass
