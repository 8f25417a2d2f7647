import AndroidCollection.Sign.Canonical

/-!
# When the signed text determines the map

Keys and values are joined without escaping, so a value with a separator in it
can be read as a further pair. Two maps with the same signed text are equal if
the symbols cannot be mistaken when the texts are read from the front, or from
the back.
-/

namespace AndroidCollection.Sign

open Java PairText

namespace HashMap

/-- The map has no null and no entry under the key of the secret. -/
def Plain (map : HashMap) : Prop :=
  ∀ entry ∈ map.entries, ∃ key value, entry = (some key, some value) ∧ key ≠ md5_key

/-- No key contains an equals sign and no value an ampersand. -/
def FrontReadable (map : HashMap) : Prop :=
  ∀ key value, (some key, some value) ∈ map.entries → 0x3D ∉ key ∧ 0x26 ∉ value

/-- No key contains an ampersand and no value an equals sign. -/
def BackReadable (map : HashMap) : Prop :=
  ∀ key value, (some key, some value) ∈ map.entries → 0x26 ∉ key ∧ 0x3D ∉ value

def Equals (map other : HashMap) : Prop :=
  ∀ entry, entry ∈ map.entries ↔ entry ∈ other.entries

end HashMap

theorem encodePair_injective : Function.Injective encodePair := by
  rintro ⟨key, value⟩ ⟨key', value'⟩ same
  rcases Prod.mk.inj same with ⟨keys, values⟩
  exact Prod.ext (modifiedUtf8_injective keys) (modifiedUtf8_injective values)

theorem assignment_mem_modifiedUtf8 (text : JString) : 0x3D ∈ modifiedUtf8 text ↔ 0x3D ∈ text :=
  ascii_mem_modifiedUtf8 (by decide) (by decide) text

theorem separator_mem_modifiedUtf8 (text : JString) : 0x26 ∈ modifiedUtf8 text ↔ 0x26 ∈ text :=
  ascii_mem_modifiedUtf8 (by decide) (by decide) text

section Pairs

variable {map : HashMap} {yielded : List Entry}

theorem eq_secret_or_mem_of_signed {pair : JString × JString} (signed : Signed map pair) :
    pair = (md5_key, used_key) ∨ (some pair.1, some pair.2) ∈ map.entries := by
  unfold Signed at signed
  split at signed
  · rename_i own
    exact Or.inl (Prod.ext own signed)
  · exact Or.inr signed

theorem fromFront_sortedPairs (readable : map.FrontReadable)
    (yields : yielded.Perm (withSecret map).entries) :
    FromFront 0x26 0x3D ((sortedPairs yielded).map encodePair) := by
  intro encoded encodedMem
  rcases List.mem_map.mp encodedMem with ⟨pair, pairMem, rfl⟩
  rw [encodePair, assignment_mem_modifiedUtf8, separator_mem_modifiedUtf8]
  rcases eq_secret_or_mem_of_signed ((mem_sortedPairs yields pair).mp pairMem) with rfl | entryMem
  · decide
  · exact readable _ _ entryMem

theorem fromBack_sortedPairs (readable : map.BackReadable)
    (yields : yielded.Perm (withSecret map).entries) :
    FromBack 0x26 0x3D ((sortedPairs yielded).map encodePair) := by
  intro encoded encodedMem
  rcases List.mem_map.mp encodedMem with ⟨pair, pairMem, rfl⟩
  rw [encodePair, separator_mem_modifiedUtf8, assignment_mem_modifiedUtf8]
  rcases eq_secret_or_mem_of_signed ((mem_sortedPairs yields pair).mp pairMem) with rfl | entryMem
  · decide
  · exact readable _ _ entryMem

theorem mem_entries_iff (plain : map.Plain) (entry : Entry) :
    entry ∈ map.entries ↔
      ∃ pair, Signed map pair ∧ pair.1 ≠ md5_key ∧ entry = (some pair.1, some pair.2) := by
  constructor
  · intro entryMem
    rcases plain entry entryMem with ⟨key, value, rfl, notSecret⟩
    refine ⟨(key, value), ?_, notSecret, rfl⟩
    rw [Signed, if_neg notSecret]
    exact entryMem
  · rintro ⟨pair, signed, notSecret, rfl⟩
    rwa [Signed, if_neg notSecret] at signed

end Pairs

/-- Two plain maps with the same hashed string are equal if both can be read from the front or
both from the back. -/
theorem equals_of_urlStr_eq (map other : HashMap) (plain : map.Plain) (otherPlain : other.Plain)
    (yielded otherYielded : List Entry) (yields : yielded.Perm (withSecret map).entries)
    (otherYields : otherYielded.Perm (withSecret other).entries)
    (readable : (map.FrontReadable ∧ other.FrontReadable) ∨
      (map.BackReadable ∧ other.BackReadable))
    (same : urlStr yielded = urlStr otherYielded) : map.Equals other := by
  rw [urlStr_eq, urlStr_eq] at same
  have encoded : (sortedPairs yielded).map encodePair =
      (sortedPairs otherYielded).map encodePair := by
    rcases readable with ⟨front, otherFront⟩ | ⟨back, otherBack⟩
    · exact pairsText_inj_of_fromFront (fromFront_sortedPairs front yields)
        (fromFront_sortedPairs otherFront otherYields) same
    · exact pairsText_inj_of_fromBack (fromBack_sortedPairs back yields)
        (fromBack_sortedPairs otherBack otherYields) same
  have pairs := encodePair_injective.list_map encoded
  have signed (pair : JString × JString) : Signed map pair ↔ Signed other pair := by
    rw [← mem_sortedPairs yields, ← mem_sortedPairs otherYields, pairs]
  intro entry
  rw [mem_entries_iff plain, mem_entries_iff otherPlain]
  simp only [signed]

def splitMap : HashMap where
  entries := [(some (ascii ['a']), some (ascii ['1'])), (some (ascii ['b']), some (ascii ['2']))]
  nodupKeys := by decide

def swappedMap : HashMap where
  entries := [(some (ascii ['b']), some (ascii ['2'])), (some (ascii ['a']), some (ascii ['1']))]
  nodupKeys := by decide

def joinedMap : HashMap where
  entries := [(some (ascii ['a']), some (ascii ['1', '&', 'b', '=', '2']))]
  nodupKeys := by decide

theorem plain_of_entries {map : HashMap}
    (noNull : ∀ entry ∈ map.entries, entry.1.isSome ∧ entry.2.isSome ∧ entry.1 ≠ some md5_key) :
    map.Plain := by
  rintro ⟨_ | key, _ | value⟩ entryMem
  · exact absurd (noNull _ entryMem).1 (by simp)
  · exact absurd (noNull _ entryMem).1 (by simp)
  · exact absurd (noNull _ entryMem).2.1 (by simp)
  · exact ⟨key, value, rfl, fun same => (noNull _ entryMem).2.2 (congrArg some same)⟩

theorem frontReadable_of_entries {map : HashMap}
    (free : ∀ entry ∈ map.entries, 0x3D ∉ entry.1.getD [] ∧ 0x26 ∉ entry.2.getD []) :
    map.FrontReadable := by
  intro key value entryMem
  exact free _ entryMem

theorem equals_of_urlStr_eq_swappedMap : splitMap.Equals swappedMap :=
  equals_of_urlStr_eq splitMap swappedMap (plain_of_entries (by decide))
    (plain_of_entries (by decide)) (withSecret splitMap).entries (withSecret splitMap).entries
    (List.Perm.refl _) (by decide)
    (Or.inl ⟨frontReadable_of_entries (by decide), frontReadable_of_entries (by decide)⟩) rfl

/-- An ampersand in a value makes two pairs out of one. -/
theorem joinedMap_splitMap_collide :
    joinedMap.Plain ∧ splitMap.Plain ∧
      urlStr (withSecret joinedMap).entries = urlStr (withSecret splitMap).entries ∧
      ¬joinedMap.Equals splitMap := by
  refine ⟨plain_of_entries (by decide), plain_of_entries (by decide), ?_, ?_⟩
  · rw [urlStr_of_sorted (by decide +kernel), urlStr_of_sorted (by decide +kernel)]
    decide +kernel
  · intro equals
    exact absurd ((equals _).mp List.mem_cons_self) (by decide)

end AndroidCollection.Sign
