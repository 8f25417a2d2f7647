import AndroidCollection.Java.Text
import AndroidCollection.Md5.Basic
import Mathlib.Data.List.Nodup

/-!
# The native signature of a parameter map

`signMap` puts the built-in secret into the Java map which it is given, reads the
entries off the iterator of the entry set, sorts them by key and signs the text
which they make up. The order in which the iterator yields the entries is not
part of the map, so the functions which depend on it take the yielded entries as
an argument. The function computes the MD5 string twice and returns the second
one.
-/

namespace AndroidCollection.Sign

open Java Md5

def used_key : JString :=
  ascii "b8ac2daa-f7be-46d7-bec6-1e8ed0632292".toList

/-- The key under which the secret is put into the map. -/
def md5_key : JString :=
  ascii "md5_key".toList

/-- An entry of a Java map; a null key or value is `none`. -/
abbrev Entry := Option JString × Option JString

structure HashMap where
  entries : List Entry
  nodupKeys : (entries.map Prod.fst).Nodup

namespace HashMap

def putEntries (entries : List Entry) (key value : Option JString) : List Entry :=
  if key ∈ entries.map Prod.fst then
    entries.map fun entry => if entry.1 = key then (key, value) else entry
  else entries ++ [(key, value)]

theorem nodup_putEntries {entries : List Entry} (nodup : (entries.map Prod.fst).Nodup)
    (key value : Option JString) : ((putEntries entries key value).map Prod.fst).Nodup := by
  unfold putEntries
  split
  · have sameKeys : (entries.map fun entry => if entry.1 = key then (key, value) else entry).map
        Prod.fst = entries.map Prod.fst := by
      rw [List.map_map]
      apply List.map_congr_left
      intro entry _
      simp only [Function.comp_apply]
      split
      · rename_i same
        exact same.symm
      · rfl
    rwa [sameKeys]
  · rename_i fresh
    rw [List.map_append]
    refine List.nodup_append.mpr ⟨nodup, List.nodup_singleton _, ?_⟩
    rintro other otherMem new newMem rfl
    rw [List.map_singleton, List.mem_singleton] at newMem
    subst newMem
    exact fresh otherMem

theorem mem_putEntries {entries : List Entry} {key value : Option JString} {entry : Entry} :
    entry ∈ putEntries entries key value ↔
      if entry.1 = key then entry.2 = value else entry ∈ entries := by
  rcases entry with ⟨entryKey, entryValue⟩
  unfold putEntries
  by_cases present : key ∈ entries.map Prod.fst
  · rw [if_pos present, List.mem_map]
    by_cases own : entryKey = key
    · subst own
      rw [if_pos rfl]
      constructor
      · rintro ⟨⟨oldKey, oldValue⟩, _, changed⟩
        by_cases same : oldKey = entryKey
        · rw [if_pos same] at changed
          exact (congrArg Prod.snd changed).symm
        · rw [if_neg same] at changed
          exact absurd (congrArg Prod.fst changed) same
      · rintro rfl
        rcases List.mem_map.mp present with ⟨old, oldMem, same⟩
        exact ⟨old, oldMem, if_pos same⟩
    · rw [if_neg own]
      constructor
      · rintro ⟨⟨oldKey, oldValue⟩, oldMem, changed⟩
        by_cases same : oldKey = key
        · rw [if_pos same] at changed
          exact absurd (congrArg Prod.fst changed).symm own
        · rw [if_neg same] at changed
          rwa [← changed]
      · intro entryMem
        exact ⟨_, entryMem, if_neg own⟩
  · rw [if_neg present, List.mem_append, List.mem_singleton, Prod.mk.injEq]
    by_cases own : entryKey = key
    · subst own
      have absent : (entryKey, entryValue) ∉ entries := fun entryMem =>
        present (List.mem_map_of_mem entryMem)
      simp [absent]
    · simp [own]

def put (map : HashMap) (key value : Option JString) : HashMap where
  entries := putEntries map.entries key value
  nodupKeys := nodup_putEntries map.nodupKeys key value

end HashMap

/-- The characters of a C string, which ends before its first zero byte. -/
def cString (bytes : List UInt8) : List UInt8 :=
  bytes.takeWhile (· ≠ 0)

structure KeyValue where
  key : List UInt8
  value : List UInt8
deriving DecidableEq

def KeyValue.less (kv kv2 : KeyValue) : Bool :=
  kv.key < kv2.key

theorem KeyValue.not_less_iff {kv kv2 : KeyValue} : (!kv.less kv2) = true ↔ kv2.key ≤ kv.key := by
  rw [less, Bool.not_eq_true', decide_eq_false_iff_not, List.not_lt]

/-- `jniGetHashMapInfo`: the pairs of the entries which the iterator yields; entries with a null
key or a null value are skipped. -/
def jniGetHashMapInfo : List Entry → List KeyValue
  | [] => []
  | (none, _) :: entries => jniGetHashMapInfo entries
  | (some _, none) :: entries => jniGetHashMapInfo entries
  | (some courseJS, some scoreObj) :: entries =>
      ⟨cString (modifiedUtf8 courseJS), cString (modifiedUtf8 scoreObj)⟩ ::
        jniGetHashMapInfo entries

/-- `list::sort`, which is stable. -/
def sort (keyValueList : List KeyValue) : List KeyValue :=
  keyValueList.mergeSort fun kv kv2 => !kv2.less kv

/-- The loop of `signMap` which appends the pairs to `urlStr`. -/
def appendPairs : ℕ → List UInt8 → List KeyValue → List UInt8
  | _, urlStr, [] => urlStr
  | first, urlStr, kv :: iterator =>
      let urlStr := if first ≠ 0 then urlStr ++ [0x26] else urlStr
      appendPairs (first + 1) (urlStr ++ kv.key ++ [0x3D] ++ kv.value) iterator

/-- The string which `signMap` hashes if the iterator yields these entries. -/
def urlStr (yielded : List Entry) : List UInt8 :=
  appendPairs 0 [] (sort (jniGetHashMapInfo yielded))

def withSecret (map : HashMap) : HashMap :=
  map.put (some md5_key) (some used_key)

/-- `signMap`: the map afterwards and the signature; the iterator of the map with the secret yields
`yielded`, and the digest object lies in `memory`. -/
def signMap (memory : MD5) (map : HashMap) (yielded : List Entry) : Option (HashMap × JString) :=
  (MD5.newOfBytes memory (urlStr yielded)).bind fun md5 =>
    md5.toString.map fun (_, string) => (withSecret map, ascii string)

end AndroidCollection.Sign
