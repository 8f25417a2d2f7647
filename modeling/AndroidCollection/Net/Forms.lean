import AndroidCollection.Lib.PairText
import AndroidCollection.Net.NetUtil
import Mathlib.Algebra.Order.BigOperators.Group.List

/-!
# What the server makes of a form

The server splits the body at the ampersands and each part at its first equals sign,
and decodes keys and values. From `postHttps` it recovers a map whose surrogates are
paired. `postHttp` has decoded the body before, so that the server decodes twice and
takes characters of keys and values for separators: it recovers the map only if no
such character occurs. A percent sign is never recovered, since the entry in which it
would have to stand is longer, and has one itself.
-/

namespace AndroidCollection.Net

open Java PairText

/-! ## Form decoding -/

def formPair (part : JString) : Option (JString × JString) :=
  (URLDecoder.decode (part.takeWhile fun unit => unit ≠ equalsSign)).bind fun key =>
    (URLDecoder.decode ((part.dropWhile fun unit => unit ≠ equalsSign).drop 1)).map fun value =>
      (key, value)

/-- The pairs of the parts, of which empty ones are skipped. -/
def formPairs : List JString → Option (List (JString × JString))
  | [] => some []
  | part :: parts =>
      if part = [] then formPairs parts
      else (formPair part).bind fun pair => (formPairs parts).map fun pairs => pair :: pairs

/-- What a server makes of the body of a form; nothing when it cannot be decoded. -/
def formDecode (body : List UInt8) : Option (List (JString × JString)) :=
  formPairs ((utf8Decode body).splitOn ampersand)

/-! ## The map -/

/-- A map of non-null strings as the argument of `encodeUrl`. -/
def nonNull (entries : List (JString × JString)) : List (Option JString × Option JString) :=
  entries.map fun entry => (some entry.1, some entry.2)

/-- There is no reserved character in the key and the value, but for equals signs in the value. -/
def Unreserved (entry : JString × JString) : Prop :=
  (∀ unit ∈ entry.1,
      unit ≠ ampersand ∧ unit ≠ percentSign ∧ unit ≠ plusSign ∧ unit ≠ equalsSign) ∧
    ∀ unit ∈ entry.2, unit ≠ ampersand ∧ unit ≠ percentSign ∧ unit ≠ plusSign

def Paired (entry : JString × JString) : Prop :=
  surrogatesPaired entry.1 = true ∧ surrogatesPaired entry.2 = true

def FormSafe (entries : List (JString × JString)) : Prop :=
  ∀ entry ∈ entries, Paired entry ∧ Unreserved entry

/-! ## The texts -/

/-- The entry with both texts changed. -/
def mapBoth (change : JString → JString) (entry : JString × JString) : JString × JString :=
  (change entry.1, change entry.2)

abbrev formText (pairs : List (JString × JString)) : JString :=
  pairsText ampersand equalsSign pairs

theorem appendEntries_nonNull (entry : JString × JString) (entries : List (JString × JString)) :
    appendEntries (nonNull (entry :: entries)) =
      formText ((entry :: entries).map (mapBoth URLEncoder.encode)) ++ [ampersand] := by
  induction entries generalizing entry with
  | nil => simp [nonNull, appendEntries, pairText, mapBoth]
  | cons next entries ih =>
      have rest := ih next
      simp only [nonNull, List.map_cons, appendEntries] at rest ⊢
      rw [rest]
      simp [pairText, mapBoth]

theorem encodeUrl_nonNull (entries : List (JString × JString)) :
    encodeUrl (nonNull entries) = formText (entries.map (mapBoth URLEncoder.encode)) := by
  cases entries with
  | nil => rfl
  | cons entry entries => simp [encodeUrl, appendEntries_nonNull]

/-- Decoding a form at once takes the encoding off the entries. -/
theorem decode_formText (entries : List (JString × JString)) :
    URLDecoder.decode (formText (entries.map (mapBoth URLEncoder.encode))) =
      some (formText (entries.map (mapBoth replaceLone))) := by
  induction entries with
  | nil => rfl
  | cons entry entries ih =>
      cases entries with
      | nil =>
          simp only [List.map_cons, List.map_nil, pairsText_singleton, pairText, mapBoth]
          rw [URLDecoder.decode_encode_append _ (by decide), URLDecoder.decode_encode]
          rfl
      | cons next entries =>
          simp only [List.map_cons, pairsText_cons_cons, pairText, mapBoth, List.append_assoc,
            List.cons_append] at ih ⊢
          rw [URLDecoder.decode_encode_append _ (by decide),
            URLDecoder.decode_encode_append _ (by decide), ih]
          rfl

theorem replaceLone_formText (pairs : List (JString × JString)) :
    replaceLone (formText pairs) = formText (pairs.map (mapBoth replaceLone)) := by
  induction pairs with
  | nil => rfl
  | cons pair pairs ih =>
      cases pairs with
      | nil =>
          simp only [List.map_cons, List.map_nil, pairsText_singleton, pairText, mapBoth]
          exact replaceLone_append_cons (by decide) pair.1 pair.2
      | cons next pairs =>
          simp only [List.map_cons, pairsText_cons_cons, pairText, mapBoth, List.append_assoc,
            List.cons_append] at ih ⊢
          rw [replaceLone_append_cons (by decide), replaceLone_append_cons (by decide), ih]

/-! ## Entries without separators -/

theorem formPair_pairText {pair : JString × JString} (key : equalsSign ∉ pair.1) :
    formPair (pairText equalsSign pair) =
      (URLDecoder.decode pair.1).bind fun key =>
        (URLDecoder.decode pair.2).map fun value => (key, value) := by
  have whole : ∀ unit ∈ pair.1, decide (unit ≠ equalsSign) = true := by
    intro unit member
    apply decide_eq_true
    rintro rfl
    exact key member
  simp only [formPair, pairText, List.takeWhile_append_of_pos whole,
    List.dropWhile_append_of_pos whole]
  simp

theorem formPairs_map {entries : List (JString × JString)}
    {written value : JString × JString → JString × JString}
    (reads : ∀ entry ∈ entries,
      formPair (pairText equalsSign (written entry)) = some (value entry)) :
    formPairs ((entries.map written).map (pairText equalsSign)) = some (entries.map value) := by
  induction entries with
  | nil => rfl
  | cons entry entries ih =>
      have first := reads entry List.mem_cons_self
      have later := ih fun other member => reads other (List.mem_cons_of_mem _ member)
      have given : pairText equalsSign (written entry) ≠ [] := by simp [pairText]
      simp only [List.map_cons, formPairs, if_neg given, first, later]
      rfl

theorem formPairs_formText {entries : List (JString × JString)}
    {written value : JString × JString → JString × JString}
    (free : ∀ entry ∈ entries, (ampersand ∉ (written entry).1 ∧ equalsSign ∉ (written entry).1) ∧
      ampersand ∉ (written entry).2)
    (reads : ∀ entry ∈ entries, URLDecoder.decode (written entry).1 = some (value entry).1 ∧
      URLDecoder.decode (written entry).2 = some (value entry).2) :
    formPairs ((formText (entries.map written)).splitOn ampersand) = some (entries.map value) := by
  rcases eq_or_ne entries [] with rfl | given
  · rfl
  · rw [splitOn_pairsText (by simpa using given)]
    · apply formPairs_map
      intro entry member
      rw [formPair_pairText (free entry member).1.2, (reads entry member).1,
        (reads entry member).2]
      rfl
    · intro pair member
      rcases List.mem_map.1 member with ⟨entry, isEntry, rfl⟩
      have other : ampersand ≠ equalsSign := by decide
      simp [pairText, free entry isEntry, other]

/-! ## Splitting at both separators -/

/-- A key and a value, which one equals sign separates. -/
def readPair (part : JString) : Option (JString × JString) :=
  match part.splitOn equalsSign with
  | [key, value] =>
      (URLDecoder.decode key).bind fun key =>
        (URLDecoder.decode value).map fun value => (key, value)
  | _ => none

/-- The entries of a form, of which no part may be anything else; an empty text has no parts. -/
def readForm (text : JString) : Option (List (JString × JString)) :=
  if text = [] then some [] else (text.splitOn ampersand).mapM readPair

theorem readPair_encoded (entry : JString × JString) :
    readPair (pairText equalsSign (mapBoth URLEncoder.encode entry)) =
      some (mapBoth replaceLone entry) := by
  have free : ∀ text, equalsSign ∉ URLEncoder.encode text :=
    fun text member => (URLEncoder.mem_encode member).2.2 rfl
  have parts : (pairText equalsSign (mapBoth URLEncoder.encode entry)).splitOn equalsSign =
      [URLEncoder.encode entry.1, URLEncoder.encode entry.2] := by
    simp [pairText, mapBoth, List.splitOn_append_cons_self,
      List.splitOn_eq_singleton (free entry.1), List.splitOn_eq_singleton (free entry.2)]
  simp only [readPair, parts, URLDecoder.decode_encode]
  rfl

theorem mapM_readPair_encoded (entries : List (JString × JString)) :
    ((entries.map (mapBoth URLEncoder.encode)).map (pairText equalsSign)).mapM readPair =
      some (entries.map (mapBoth replaceLone)) := by
  induction entries with
  | nil => rfl
  | cons entry entries ih =>
      rw [List.map_cons, List.map_cons, List.mapM_cons, readPair_encoded, ih]
      rfl

/-- Every map comes back with its lone surrogates replaced. -/
theorem readForm_encoded (entries : List (JString × JString)) :
    readForm (encodeUrl (nonNull entries)) = some (entries.map (mapBoth replaceLone)) := by
  rw [encodeUrl_nonNull]
  cases entries with
  | nil => rfl
  | cons entry entries =>
      have given : formText ((entry :: entries).map (mapBoth URLEncoder.encode)) ≠ [] :=
        pairsText_cons_ne_nil _ _
      rw [readForm, if_neg given, splitOn_pairsText (by simp), mapM_readPair_encoded]
      intro pair member
      rcases List.mem_map.1 member with ⟨original, _, rfl⟩
      have other : ampersand ≠ equalsSign := by decide
      have free : ∀ text, ampersand ∉ URLEncoder.encode text :=
        fun text member => (URLEncoder.mem_encode member).2.1 rfl
      simp [pairText, mapBoth, other, free]

/-- The decoder inverts the encoder on the text, which it does if surrogates are paired. -/
def Invertible (text : JString) : Prop :=
  URLDecoder.decode (URLEncoder.encode text) = some text

theorem invertible_iff (text : JString) : Invertible text ↔ surrogatesPaired text = true := by
  rw [Invertible, URLDecoder.decode_encode, Option.some.injEq, replaceLone_eq_self_iff]

/-- What `encodeUrl` writes is read as the entries of the map, in their order. -/
theorem readForm_encodeUrl (entries : List (JString × JString))
    (inverse : ∀ entry ∈ entries, Invertible entry.1 ∧ Invertible entry.2) :
    readForm (encodeUrl (nonNull entries)) = some entries := by
  have unchanged : entries.map (mapBoth replaceLone) = entries := by
    apply (List.map_congr_left _).trans (List.map_id entries)
    intro entry member
    rcases inverse entry member with ⟨key, value⟩
    rw [Invertible, URLDecoder.decode_encode, Option.some.injEq] at key value
    rw [mapBoth, key, value]
    rfl
  rw [readForm_encoded, unchanged]

/-- An entry of empty texts, and one of reserved characters and a surrogate pair. -/
theorem readForm_encodeUrl_reserved :
    readForm (encodeUrl (nonNull [([], []), (ascii ['&', '='], [0xD83D, 0xDE00, percentSign])])) =
      some [([], []), (ascii ['&', '='], [0xD83D, 0xDE00, percentSign])] := by
  apply readForm_encodeUrl
  simp only [invertible_iff]
  decide

/-! ## What is recovered has no separators -/

theorem exists_part_of_mem {parts : List JString} {pairs : List (JString × JString)}
    (decodes : formPairs parts = some pairs) {pair : JString × JString} (member : pair ∈ pairs) :
    ∃ part ∈ parts, part ≠ [] ∧ formPair part = some pair := by
  induction parts generalizing pairs with
  | nil =>
      cases decodes
      cases member
  | cons part parts ih =>
      rw [formPairs] at decodes
      split at decodes
      · rcases ih decodes member with ⟨other, within, rest⟩
        exact ⟨other, List.mem_cons_of_mem _ within, rest⟩
      · next given =>
          rcases Option.bind_eq_some_iff.1 decodes with ⟨first, reads, rest⟩
          rcases Option.map_eq_some_iff.1 rest with ⟨later, decodes', rfl⟩
          rcases List.mem_cons.1 member with rfl | below
          · exact ⟨part, List.mem_cons_self, given, reads⟩
          · rcases ih decodes' below with ⟨other, within, rest⟩
            exact ⟨other, List.mem_cons_of_mem _ within, rest⟩

/-- The key and the value of a part before they are decoded. -/
theorem formPair_eq_some {part : JString} {pair : JString × JString}
    (reads : formPair part = some pair) :
    ∃ key value, URLDecoder.decode key = some pair.1 ∧ URLDecoder.decode value = some pair.2 ∧
      key.length + value.length ≤ part.length ∧ equalsSign ∉ key ∧
      ∀ unit, unit ∈ key ∨ unit ∈ value → unit ∈ part := by
  rcases Option.bind_eq_some_iff.1 reads with ⟨first, key, rest⟩
  rcases Option.map_eq_some_iff.1 rest with ⟨second, value, rfl⟩
  refine ⟨_, _, key, value, ?_, ?_, ?_⟩
  · have whole := congrArg List.length
      (List.takeWhile_append_dropWhile (p := fun unit => decide (unit ≠ equalsSign)) (l := part))
    rw [List.length_append] at whole
    rw [List.length_drop]
    omega
  · intro within
    simpa using List.mem_takeWhile_imp within
  · rintro unit (within | within)
    · exact (List.takeWhile_sublist _).mem within
    · exact (List.dropWhile_sublist _).mem (List.mem_of_mem_drop within)

/-- A recovered entry comes from a part of an entry which was written. -/
theorem exists_source {written pairs : List (JString × JString)}
    (decodes : formPairs ((formText written).splitOn ampersand) = some pairs)
    {pair : JString × JString} (member : pair ∈ pairs) :
    ∃ source ∈ written, ∃ key value, URLDecoder.decode key = some pair.1 ∧
      URLDecoder.decode value = some pair.2 ∧
      key.length + value.length ≤ source.1.length + source.2.length + 1 ∧ equalsSign ∉ key ∧
      (∀ unit, unit ∈ key ∨ unit ∈ value →
        unit ≠ ampersand ∧ (unit = equalsSign ∨ unit ∈ source.1 ∨ unit ∈ source.2)) := by
  rcases exists_part_of_mem decodes member with ⟨part, isPart, given, reads⟩
  rcases of_mem_splitOn_pairsText isPart with empty | ⟨source, isSource, within⟩
  · exact absurd empty given
  · rcases formPair_eq_some reads with ⟨key, value, first, second, length, noEquals, inPart⟩
    have inSource := sublist_of_mem_splitOn within
    refine ⟨source, isSource, key, value, first, second, ?_, noEquals, ?_⟩
    · have shorter := inSource.length_le
      simp only [pairText, List.length_append, List.length_cons] at shorter
      omega
    · intro unit here
      have inText := inSource.mem (inPart unit here)
      refine ⟨?_, ?_⟩
      · rintro rfl
        exact notMem_of_mem_splitOn within (inPart _ here)
      · simp only [pairText, List.mem_append, List.mem_cons] at inText
        rcases inText with first | second | third
        · exact Or.inr (Or.inl first)
        · exact Or.inl second
        · exact Or.inr (Or.inr third)

/-- A property which always has a larger example has none in a list. -/
theorem forall_not_of_exists_larger {α : Type} {holds : α → Prop} {size : α → ℕ} {items : List α}
    (climbs : ∀ item ∈ items, holds item →
      ∃ larger ∈ items, holds larger ∧ size item < size larger) :
    ∀ item ∈ items, ¬holds item := by
  intro item member held
  have reaches (bound : ℕ) : ∃ large ∈ items, holds large ∧ bound ≤ size large := by
    induction bound with
    | zero => exact ⟨item, member, held, Nat.zero_le _⟩
    | succ bound ih =>
        rcases ih with ⟨large, isLarge, holdsLarge, atLeast⟩
        rcases climbs large isLarge holdsLarge with ⟨larger, isLarger, holdsLarger, more⟩
        exact ⟨larger, isLarger, holdsLarger, by omega⟩
  rcases reaches ((items.map size).sum + 1) with ⟨large, isLarge, _, atLeast⟩
  have atMost := List.le_sum_of_mem (List.mem_map_of_mem (f := size) isLarge)
  omega

/-- A percent sign which has been decoded was escaped itself. -/
theorem percentSign_mem_of_decode {text decoded : JString}
    (decodes : URLDecoder.decode text = some decoded) (percent : percentSign ∈ decoded) :
    percentSign ∈ text := by
  by_contra absent
  rw [URLDecoder.decode_of_notMem absent, Option.some.injEq] at decodes
  subst decodes
  rcases List.mem_map.1 percent with ⟨unit, member, same⟩
  apply URLDecoder.plain_ne _ (by decide) same
  rintro rfl
  exact absent member

def HasPercent (entry : JString × JString) : Prop :=
  percentSign ∈ entry.1 ∨ percentSign ∈ entry.2

theorem hasPercent_replaceLone (entry : JString × JString) :
    HasPercent (mapBoth replaceLone entry) ↔ HasPercent entry := by
  simp only [HasPercent, mapBoth, mem_replaceLone (show Scalar percentSign by decide)
    (show percentSign ≠ questionMark by decide)]

variable {entries pairs : List (JString × JString)}

/-- An entry with a percent sign which is recovered is shorter than another one. -/
theorem exists_longer
    (decodes : formPairs ((formText (entries.map (mapBoth replaceLone))).splitOn ampersand) =
      some pairs)
    (recovered : ∀ entry ∈ entries, entry ∈ pairs) :
    ∀ entry ∈ entries, HasPercent entry → ∃ longer ∈ entries, HasPercent longer ∧
      entry.1.length + entry.2.length < longer.1.length + longer.2.length := by
  intro entry member percent
  rcases exists_source decodes (recovered entry member) with
    ⟨source, isSource, key, value, first, second, length, _, inSource⟩
  rcases List.mem_map.1 isSource with ⟨longer, isEntry, rfl⟩
  have escaped : percentSign ∈ key ∨ percentSign ∈ value := by
    rcases percent with inKey | inValue
    · exact Or.inl (percentSign_mem_of_decode first inKey)
    · exact Or.inr (percentSign_mem_of_decode second inValue)
  refine ⟨longer, isEntry, ?_, ?_⟩
  · rw [← hasPercent_replaceLone]
    exact (inSource _ escaped).2.resolve_left (by decide)
  · have counted : 0 < key.count percentSign + value.count percentSign := by
      rcases escaped with inKey | inValue
      · have := List.count_pos_iff.2 inKey
        omega
      · have := List.count_pos_iff.2 inValue
        omega
    have firstShorter := URLDecoder.length_decode_le first
    have secondShorter := URLDecoder.length_decode_le second
    simp only [mapBoth, length_replaceLone] at length
    omega

theorem not_hasPercent
    (decodes : formPairs ((formText (entries.map (mapBoth replaceLone))).splitOn ampersand) =
      some pairs)
    (recovered : ∀ entry ∈ entries, entry ∈ pairs) : ∀ entry ∈ entries, ¬HasPercent entry :=
  forall_not_of_exists_larger (exists_longer decodes recovered)

/-- Without percent signs the recovered texts are parts of what was written, with spaces for plus
signs. -/
theorem unreserved_of_recovered
    (decodes : formPairs ((formText (entries.map (mapBoth replaceLone))).splitOn ampersand) =
      some pairs)
    (recovered : ∀ entry ∈ entries, entry ∈ pairs) {entry : JString × JString}
    (member : entry ∈ entries) : Unreserved entry := by
  rcases exists_source decodes (recovered entry member) with
    ⟨source, isSource, key, value, first, second, _, noEquals, inSource⟩
  rcases List.mem_map.1 isSource with ⟨written, isEntry, rfl⟩
  have noPercent (unit : UInt16) (here : unit ∈ key ∨ unit ∈ value) : unit ≠ percentSign := by
    rintro rfl
    apply not_hasPercent decodes recovered written isEntry
    rw [← hasPercent_replaceLone]
    exact (inSource _ here).2.resolve_left (by decide)
  have plainly (text : JString) (part : ∀ unit ∈ text, unit ∈ key ∨ unit ∈ value)
      {decoded : JString} (decodes : URLDecoder.decode text = some decoded) :
      decoded = text.map URLDecoder.plain := by
    rw [URLDecoder.decode_of_notMem fun percent => noPercent _ (part _ percent) rfl] at decodes
    exact (Option.some.inj decodes).symm
  have keyText := plainly key (fun _ => Or.inl) first
  have valueText := plainly value (fun _ => Or.inr) second
  have reserved (unit : UInt16) (here : unit ∈ key ∨ unit ∈ value) :
      URLDecoder.plain unit ≠ ampersand ∧ URLDecoder.plain unit ≠ percentSign ∧
        URLDecoder.plain unit ≠ plusSign :=
    ⟨URLDecoder.plain_ne (inSource unit here).1 (by decide),
      URLDecoder.plain_ne (noPercent unit here) (by decide), URLDecoder.plain_ne_plusSign unit⟩
  rw [Unreserved, keyText, valueText, List.forall_mem_map, List.forall_mem_map]
  constructor
  · intro unit here
    rcases reserved unit (Or.inl here) with ⟨noAmpersand, noPercent, noPlus⟩
    have other : unit ≠ equalsSign := by
      rintro rfl
      exact noEquals here
    exact ⟨noAmpersand, noPercent, noPlus, URLDecoder.plain_ne other (by decide)⟩
  · exact fun unit here => reserved unit (Or.inr here)

/-! ## The two bodies -/

/-- What the server gets to split. -/
theorem formDecode_utf8Bytes (written : List (JString × JString)) :
    formDecode (utf8Bytes (formText written)) =
      formPairs ((formText (written.map (mapBoth replaceLone))).splitOn ampersand) := by
  rw [formDecode, utf8Decode_utf8Bytes, replaceLone_formText]

theorem map_replaceLone_encode (entries : List (JString × JString)) :
    (entries.map (mapBoth URLEncoder.encode)).map (mapBoth replaceLone) =
      entries.map (mapBoth URLEncoder.encode) := by
  simp [mapBoth, Function.comp_def, URLEncoder.replaceLone_encode]

theorem map_replaceLone_replaceLone (entries : List (JString × JString)) :
    (entries.map (mapBoth replaceLone)).map (mapBoth replaceLone) =
      entries.map (mapBoth replaceLone) := by
  simp [mapBoth, Function.comp_def, replaceLone_replaceLone]

/-- From the form itself the server decodes the entries. -/
theorem formDecode_encoded (entries : List (JString × JString)) :
    formDecode (utf8Bytes (formText (entries.map (mapBoth URLEncoder.encode)))) =
      some (entries.map (mapBoth replaceLone)) := by
  rw [formDecode_utf8Bytes, map_replaceLone_encode]
  apply formPairs_formText
  · intro entry _
    refine ⟨⟨?_, ?_⟩, ?_⟩ <;> intro member
    · exact (URLEncoder.mem_encode member).2.1 rfl
    · exact (URLEncoder.mem_encode member).2.2 rfl
    · exact (URLEncoder.mem_encode member).2.1 rfl
  · intro entry _
    exact ⟨URLDecoder.decode_encode entry.1, URLDecoder.decode_encode entry.2⟩

theorem map_replaceLone_of_paired (paired : ∀ entry ∈ entries, Paired entry) :
    entries.map (mapBoth replaceLone) = entries := by
  apply (List.map_congr_left _).trans (List.map_id entries)
  intro entry member
  have texts := paired entry member
  exact Prod.ext ((replaceLone_eq_self_iff _).2 texts.1) ((replaceLone_eq_self_iff _).2 texts.2)

theorem paired_of_recovered
    (recovered : ∀ entry ∈ entries, entry ∈ entries.map (mapBoth replaceLone)) :
    ∀ entry ∈ entries, Paired entry := by
  intro entry member
  rcases List.mem_map.1 (recovered entry member) with ⟨source, _, rfl⟩
  simp only [Paired, mapBoth, ← replaceLone_eq_self_iff, replaceLone_replaceLone, and_self]

theorem decode_replaceLone {text : JString} (percent : percentSign ∉ text)
    (plus : plusSign ∉ text) :
    URLDecoder.decode (replaceLone text) = some (replaceLone text) := by
  rw [URLDecoder.decode_of_notMem, URLDecoder.map_plain_of_notMem]
  · rwa [mem_replaceLone (by decide) (by decide)]
  · rwa [mem_replaceLone (by decide) (by decide)]

/-- From the text which has been decoded before, the server decodes the entries if they have no
reserved characters. -/
theorem formDecode_decoded (unreserved : ∀ entry ∈ entries, Unreserved entry) :
    formDecode (utf8Bytes (formText (entries.map (mapBoth replaceLone)))) =
      some (entries.map (mapBoth replaceLone)) := by
  rw [formDecode_utf8Bytes, map_replaceLone_replaceLone]
  apply formPairs_formText
  · intro entry member
    have free := unreserved entry member
    simp only [mapBoth]
    rw [mem_replaceLone (by decide) (by decide), mem_replaceLone (by decide) (by decide),
      mem_replaceLone (by decide) (by decide)]
    exact ⟨⟨fun here => (free.1 _ here).1 rfl, fun here => (free.1 _ here).2.2.2 rfl⟩,
      fun here => (free.2 _ here).1 rfl⟩
  · intro entry member
    have free := unreserved entry member
    constructor
    · exact decode_replaceLone (fun here => (free.1 _ here).2.1 rfl)
        (fun here => (free.1 _ here).2.2.1 rfl)
    · exact decode_replaceLone (fun here => (free.2 _ here).2.1 rfl)
        (fun here => (free.2 _ here).2.2 rfl)

end AndroidCollection.Net
