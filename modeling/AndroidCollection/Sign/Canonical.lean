import AndroidCollection.Lib.PairText
import AndroidCollection.Md5.Digest
import AndroidCollection.Sign.Basic

/-!
# The signed text depends on the contents of the map only

The keys of a map are distinct and their encodings are too, so sorting by key
leaves no freedom: there is exactly one list of the pairs to be signed with
ascending keys, whatever the order in which the iterator yields the entries. The
signed text is the text of that list.
-/

namespace AndroidCollection.Sign

open Java Md5 PairText

/-- The pairs which a map stands for in its signature: those of its entries without null, with the
secret under its own key. -/
def Signed (map : HashMap) (pair : JString × JString) : Prop :=
  if pair.1 = md5_key then pair.2 = used_key else (some pair.1, some pair.2) ∈ map.entries

def encodePair (pair : JString × JString) : List UInt8 × List UInt8 :=
  (modifiedUtf8 pair.1, modifiedUtf8 pair.2)

def Ascending (pairs : List (JString × JString)) : Prop :=
  pairs.Pairwise fun earlier later => modifiedUtf8 earlier.1 < modifiedUtf8 later.1

/-- The text made of the signed pairs of a map in ascending order. -/
def IsSignText (map : HashMap) (text : List UInt8) : Prop :=
  ∃ pairs, Ascending pairs ∧ (∀ pair, pair ∈ pairs ↔ Signed map pair) ∧
    text = pairsText 0x26 0x3D (pairs.map encodePair)

/-! ## Ascending lists -/

theorem Ascending.nodup {pairs : List (JString × JString)} (ascending : Ascending pairs) :
    pairs.Nodup := by
  refine ascending.imp ?_
  rintro earlier later less rfl
  exact List.lt_irrefl _ less

theorem Ascending.eq_of_mem_iff {left right : List (JString × JString)}
    (leftAscending : Ascending left) (rightAscending : Ascending right)
    (same : ∀ pair, pair ∈ left ↔ pair ∈ right) : left = right := by
  have perm : left.Perm right :=
    (List.perm_ext_iff_of_nodup leftAscending.nodup rightAscending.nodup).mpr same
  refine List.Perm.eq_of_pairwise ?_ leftAscending rightAscending perm
  intro earlier later _ _ less greater
  exact absurd greater (List.lt_asymm less)

theorem IsSignText.eq {map : HashMap} {left right : List UInt8} (leftText : IsSignText map left)
    (rightText : IsSignText map right) : left = right := by
  rcases leftText with ⟨leftPairs, leftAscending, leftSigned, rfl⟩
  rcases rightText with ⟨rightPairs, rightAscending, rightSigned, rfl⟩
  rw [leftAscending.eq_of_mem_iff rightAscending fun pair =>
    (leftSigned pair).trans (rightSigned pair).symm]

/-! ## The pairs which the native code reads -/

def readPairs (yielded : List Entry) : List (JString × JString) :=
  yielded.filterMap fun
    | (some key, some value) => some (key, value)
    | _ => none

theorem mem_readPairs (yielded : List Entry) (pair : JString × JString) :
    pair ∈ readPairs yielded ↔ (some pair.1, some pair.2) ∈ yielded := by
  rw [readPairs, List.mem_filterMap]
  constructor
  · rintro ⟨⟨key, value⟩, entryMem, read⟩
    cases key with
    | none => cases read
    | some key =>
        cases value with
        | none => cases read
        | some value =>
            cases read
            exact entryMem
  · intro entryMem
    exact ⟨_, entryMem, rfl⟩

def nativePair (pair : JString × JString) : KeyValue :=
  ⟨modifiedUtf8 pair.1, modifiedUtf8 pair.2⟩

/-- Encoded strings are C strings as they are. -/
theorem cString_modifiedUtf8 (text : JString) :
    cString (modifiedUtf8 text) = modifiedUtf8 text := by
  rw [cString, ← List.append_nil (modifiedUtf8 text), List.takeWhile_append_of_pos]
  · rw [List.takeWhile_nil]
  · intro byte byteMem
    rw [decide_eq_true_iff]
    rintro rfl
    exact zero_notMem_modifiedUtf8 text byteMem

theorem jniGetHashMapInfo_eq (yielded : List Entry) :
    jniGetHashMapInfo yielded = (readPairs yielded).map nativePair := by
  induction yielded with
  | nil => rfl
  | cons entry yielded ih =>
      rcases entry with ⟨_ | key, _ | value⟩
      · exact ih
      · exact ih
      · exact ih
      · rw [jniGetHashMapInfo, ih, cString_modifiedUtf8, cString_modifiedUtf8]
        rfl

def sortedPairs (yielded : List Entry) : List (JString × JString) :=
  (readPairs yielded).mergeSort fun pair other => !(nativePair other).less (nativePair pair)

theorem sort_jniGetHashMapInfo (yielded : List Entry) :
    sort (jniGetHashMapInfo yielded) = (sortedPairs yielded).map nativePair := by
  rw [jniGetHashMapInfo_eq, sort, sortedPairs]
  symm
  apply List.map_mergeSort
  intro pair _ other _
  rfl

theorem map_key_readPairs_sublist (yielded : List Entry) :
    ((readPairs yielded).map fun pair => some pair.1).Sublist (yielded.map Prod.fst) := by
  induction yielded with
  | nil => exact List.Sublist.slnil
  | cons entry yielded ih =>
      rcases entry with ⟨_ | key, _ | value⟩
      · exact ih.cons _
      · exact ih.cons _
      · exact ih.cons _
      · exact ih.cons_cons _

/-- Pairs with distinct keys are in ascending order after the sort. -/
theorem ascending_sortedPairs {yielded : List Entry}
    (nodup : (yielded.map Prod.fst).Nodup) : Ascending (sortedPairs yielded) := by
  have sorted : (sortedPairs yielded).Pairwise fun earlier later =>
      modifiedUtf8 earlier.1 ≤ modifiedUtf8 later.1 := by
    refine (List.pairwise_mergeSort ?_ ?_ (readPairs yielded)).imp ?_
    · intro first second third firstLess secondLess
      rw [KeyValue.not_less_iff] at firstLess secondLess ⊢
      exact List.le_trans firstLess secondLess
    · intro first second
      rw [Bool.or_eq_true, KeyValue.not_less_iff, KeyValue.not_less_iff]
      exact List.le_total _ _
    · intro earlier later less
      exact KeyValue.not_less_iff.mp less
  have distinct : (sortedPairs yielded).Pairwise fun earlier later => earlier.1 ≠ later.1 := by
    have keys : ((sortedPairs yielded).map fun pair => some pair.1).Nodup :=
      ((List.mergeSort_perm (readPairs yielded) _).map _).nodup_iff.mpr
        (nodup.sublist (map_key_readPairs_sublist yielded))
    refine (List.pairwise_map.mp keys).imp ?_
    intro earlier later differ same
    exact differ (congrArg some same)
  refine (sorted.and distinct).imp ?_
  rintro earlier later ⟨notGreater, differ⟩
  by_contra notLess
  exact differ (modifiedUtf8_injective (List.le_antisymm notGreater (List.not_lt.mp notLess)))

/-! ## The text -/

theorem appendPairs_succ (first : ℕ) (urlStr : List UInt8) (pairs : List KeyValue) :
    appendPairs (first + 1) urlStr pairs =
      urlStr ++ pairs.flatMap fun kv => 0x26 :: pairText 0x3D (kv.key, kv.value) := by
  induction pairs generalizing first urlStr with
  | nil => simp [appendPairs]
  | cons kv pairs ih =>
      rw [appendPairs, if_pos (Nat.succ_ne_zero first), ih]
      simp [pairText]

theorem urlStr_eq (yielded : List Entry) :
    urlStr yielded = pairsText 0x26 0x3D ((sortedPairs yielded).map encodePair) := by
  rw [urlStr, sort_jniGetHashMapInfo]
  cases sortedPairs yielded with
  | nil => rfl
  | cons pair pairs =>
      rw [List.map_cons, List.map_cons, appendPairs, appendPairs_succ, pairsText_cons_eq_flatMap,
        List.flatMap_map, List.flatMap_map]
      simp [pairText, nativePair, encodePair]

theorem mem_sortedPairs {map : HashMap} {yielded : List Entry}
    (yields : yielded.Perm (withSecret map).entries) (pair : JString × JString) :
    pair ∈ sortedPairs yielded ↔ Signed map pair := by
  rw [sortedPairs, List.mem_mergeSort, mem_readPairs, yields.mem_iff]
  refine HashMap.mem_putEntries.trans ?_
  simp only [Signed, Option.some.injEq]

theorem isSignText_urlStr {map : HashMap} {yielded : List Entry}
    (yields : yielded.Perm (withSecret map).entries) : IsSignText map (urlStr yielded) := by
  have nodup : (yielded.map Prod.fst).Nodup :=
    (yields.map Prod.fst).nodup_iff.mpr (withSecret map).nodupKeys
  exact ⟨sortedPairs yielded, ascending_sortedPairs nodup, mem_sortedPairs yields,
    urlStr_eq yielded⟩

/-- Pairs which the iterator yields in ascending order are not moved. -/
theorem urlStr_of_sorted {yielded : List Entry}
    (sorted : (jniGetHashMapInfo yielded).Pairwise fun kv kv2 => (!kv2.less kv) = true) :
    urlStr yielded = appendPairs 0 [] (jniGetHashMapInfo yielded) := by
  rw [urlStr, sort, List.mergeSort_of_pairwise sorted]

theorem signMap_eq (memory : MD5) (map : HashMap) (yielded : List Entry)
    (short : (urlStr yielded).length < 2 ^ 32) :
    signMap memory map yielded =
      some (withSecret map, ascii (Rfc1321.hex (Rfc1321.md5 (urlStr yielded)))) := by
  rcases (Represents.reset memory).update (show 0 + (urlStr yielded).length < 2 ^ 32 by omega) with
    ⟨returns, represents⟩
  rw [signMap, MD5.newOfBytes, returns, Option.bind_some, represents.toString]
  rfl

/-- Whatever the order of the iterator, the string which `signMap` hashes is the one sign text of
the map, and the signature is its MD5 string. -/
theorem hashed_iff_isSignText (memory : MD5) (map : HashMap) (yielded : List Entry)
    (yields : yielded.Perm (withSecret map).entries) :
    (∀ text, text = urlStr yielded ↔ IsSignText map text) ∧
      ∀ text, IsSignText map text → text.length < 2 ^ 32 →
        signMap memory map yielded =
          some (withSecret map, ascii (Rfc1321.hex (Rfc1321.md5 text))) := by
  have isText := isSignText_urlStr yields
  refine ⟨fun text => ⟨?_, fun other => other.eq isText⟩, fun text other short => ?_⟩
  · rintro rfl
    exact isText
  · rw [other.eq isText] at short ⊢
    exact signMap_eq memory map yielded short

def sparseMap : HashMap where
  entries := [(none, some (ascii ['x'])), (some (ascii ['b']), none),
    (some (ascii ['a']), some (ascii ['2'])), (some md5_key, some (ascii ['y'])),
    (some (ascii ['z']), some (ascii ['1']))]
  nodupKeys := by decide

theorem hashed_iff_isSignText_sparseMap :
    IsSignText sparseMap (urlStr (withSecret sparseMap).entries.reverse) :=
  ((hashed_iff_isSignText zeroMemory sparseMap (withSecret sparseMap).entries.reverse
    (List.reverse_perm _)).1 _).mp rfl

example : urlStr (withSecret sparseMap).entries =
    utf8Bytes (ascii "a=2&md5_key=b8ac2daa-f7be-46d7-bec6-1e8ed0632292&z=1".toList) := by
  rw [urlStr_of_sorted (by decide +kernel)]
  decide +kernel

end AndroidCollection.Sign
