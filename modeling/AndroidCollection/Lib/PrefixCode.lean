import Mathlib.Tactic.Common

/-!
# Prefix codes

A code writes a value as bytes and reads it back from the front of a sequence of
bytes, whatever follows. Codes are composed from codes: pairs are written one
after the other, and each item of a list is announced by a byte.
-/

universe u v

structure PrefixCode (α : Type u) where
  write : α → List UInt8
  read : List UInt8 → Option (α × List UInt8)
  read_write : ∀ value rest, read (write value ++ rest) = some (value, rest)

namespace PrefixCode

variable {α : Type u} {β : Type v}

def byte : PrefixCode UInt8 where
  write value := [value]
  read
    | [] => none
    | value :: rest => some (value, rest)
  read_write _ _ := rfl

/-- Two bytes, the higher one first. -/
def unit : PrefixCode UInt16 where
  write value := [UInt8.ofNat (value.toNat / 256), UInt8.ofNat (value.toNat % 256)]
  read
    | high :: low :: rest => some (UInt16.ofNat (high.toNat * 256 + low.toNat), rest)
    | _ => none
  read_write value rest := by
    have bound : value.toNat < 65536 := value.toNat_lt
    have high : value.toNat / 256 % 256 = value.toNat / 256 := Nat.mod_eq_of_lt (by omega)
    have low : value.toNat % 256 % 256 = value.toNat % 256 := Nat.mod_mod _ _
    have whole : value.toNat / 256 * 256 + value.toNat % 256 = value.toNat :=
      Nat.div_add_mod' value.toNat 256
    simp [high, low, whole]

def pair (first : PrefixCode α) (second : PrefixCode β) : PrefixCode (α × β) where
  write value := first.write value.1 ++ second.write value.2
  read bytes :=
    match first.read bytes with
    | none => none
    | some (left, bytes) =>
        match second.read bytes with
        | none => none
        | some (right, rest) => some ((left, right), rest)
  read_write value rest := by
    simp only [List.append_assoc, first.read_write, second.read_write]

section Lists

variable (item : PrefixCode α)

def writeList : List α → List UInt8
  | [] => [0]
  | value :: values => 1 :: item.write value ++ writeList values

/-- Reads at most as many items as the first argument says. -/
def readList : ℕ → List UInt8 → Option (List α × List UInt8)
  | _, [] => none
  | 0, flag :: bytes => if flag = 0 then some ([], bytes) else none
  | most + 1, flag :: bytes =>
      if flag = 0 then some ([], bytes)
      else
        match item.read bytes with
        | none => none
        | some (value, bytes) =>
            match readList most bytes with
            | none => none
            | some (values, rest) => some (value :: values, rest)

theorem length_le_writeList (values : List α) : values.length ≤ (item.writeList values).length := by
  induction values with
  | nil => exact Nat.zero_le _
  | cons value values ih =>
      rw [writeList, List.length_append, List.length_cons, List.length_cons]
      omega

theorem readList_writeList (values : List α) {most : ℕ} (enough : values.length ≤ most)
    (rest : List UInt8) :
    item.readList most (item.writeList values ++ rest) = some (values, rest) := by
  induction values generalizing most with
  | nil => cases most <;> rfl
  | cons value values ih =>
      cases most with
      | zero => cases enough
      | succ most =>
          have fewer : values.length ≤ most := Nat.le_of_succ_le_succ enough
          rw [writeList, List.append_assoc, List.cons_append, readList, if_neg (by decide)]
          simp only [item.read_write, ih fewer]

def list : PrefixCode (List α) where
  write := item.writeList
  read bytes := item.readList bytes.length bytes
  read_write values rest := by
    apply item.readList_writeList
    have fewer := item.length_le_writeList values
    rw [List.length_append]
    omega

end Lists

/-- A value written by itself is read without rest. -/
theorem read_write_nil (code : PrefixCode α) (value : α) :
    code.read (code.write value) = some (value, []) := by
  have read := code.read_write value []
  rwa [List.append_nil] at read

end PrefixCode
