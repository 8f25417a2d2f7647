import AndroidCollection.Java.Text

/-!
# `Base64Util`

`encode` walks over the bytes in groups of three. `decode` reads the ASCII bytes
of its argument and takes the four characters of a group one after the other,
each in a loop of its own which skips bytes outside the alphabet. Every read
advances the index, so the array from the index on is modelled by the list of
the bytes which have not been read; a read at its end throws.
-/

namespace AndroidCollection.Base64

open Java

def base64EncodeChars : List UInt16 :=
  ascii ['A', 'B', 'C', 'D', 'E', 'F', 'G', 'H', 'I', 'J', 'K', 'L',
    'M', 'N', 'O', 'P', 'Q', 'R', 'S', 'T', 'U', 'V', 'W', 'X', 'Y', 'Z', 'a', 'b', 'c', 'd', 'e',
    'f', 'g', 'h', 'i', 'j', 'k', 'l', 'm', 'n', 'o', 'p', 'q', 'r', 's', 't', 'u', 'v', 'w', 'x',
    'y', 'z', '0', '1', '2', '3', '4', '5', '6', '7', '8', '9', '+', '/']

def base64DecodeChars : List ℤ :=
  [-1, -1, -1, -1, -1, -1, -1, -1, -1, -1, -1, -1, -1, -1, -1, -1,
   -1, -1, -1, -1, -1, -1, -1, -1, -1, -1, -1, -1, -1, -1, -1, -1,
   -1, -1, -1, -1, -1, -1, -1, -1, -1, -1, -1, 62, -1, -1, -1, 63,
   52, 53, 54, 55, 56, 57, 58, 59, 60, 61, -1, -1, -1, -1, -1, -1,
   -1, 0, 1, 2, 3, 4, 5, 6, 7, 8, 9, 10, 11, 12, 13, 14,
   15, 16, 17, 18, 19, 20, 21, 22, 23, 24, 25, -1, -1, -1, -1, -1,
   -1, 26, 27, 28, 29, 30, 31, 32, 33, 34, 35, 36, 37, 38, 39, 40,
   41, 42, 43, 44, 45, 46, 47, 48, 49, 50, 51, -1, -1, -1, -1, -1]

def encodeChar (value : ℕ) : UInt16 :=
  base64EncodeChars.getD value 0

def padChar : UInt16 :=
  0x3D

def encode : List UInt8 → JString
  | [] => []
  | [b1] =>
      let b1 := b1.toNat
      [encodeChar (b1 >>> 2), encodeChar ((b1 &&& 0x3) <<< 4), padChar, padChar]
  | [b1, b2] =>
      let b1 := b1.toNat
      let b2 := b2.toNat
      [encodeChar (b1 >>> 2), encodeChar (((b1 &&& 0x03) <<< 4) ||| ((b2 &&& 0xF0) >>> 4)),
        encodeChar ((b2 &&& 0x0F) <<< 2), padChar]
  | b1 :: b2 :: b3 :: data =>
      let b1 := b1.toNat
      let b2 := b2.toNat
      let b3 := b3.toNat
      [encodeChar (b1 >>> 2), encodeChar (((b1 &&& 0x03) <<< 4) ||| ((b2 &&& 0xF0) >>> 4)),
        encodeChar (((b2 &&& 0x0F) <<< 2) ||| ((b3 &&& 0xC0) >>> 6)), encodeChar (b3 &&& 0x3F)] ++
        encode data

/-- A read from `base64DecodeChars`; as an index a byte of 128 or more is negative. -/
def decodeChar (index : UInt8) : Except Throwable ℤ :=
  match base64DecodeChars[index.toNat]? with
  | some value => .ok value
  | none => .error .arrayIndexOutOfBoundsException

/-- The loops for the first and the second character of a group. -/
def scan : List UInt8 → Except Throwable (ℤ × List UInt8)
  | [] => .error .arrayIndexOutOfBoundsException
  | byte :: data =>
      match decodeChar byte with
      | .error thrown => .error thrown
      | .ok b => if data ≠ [] ∧ b = -1 then scan data else .ok (b, data)

/-- The loops for the third and the fourth character of a group, which the padding character
leaves with `none`. -/
def scanPadded : List UInt8 → Except Throwable (Option ℤ × List UInt8)
  | [] => .error .arrayIndexOutOfBoundsException
  | byte :: data =>
      if byte = 61 then .ok (none, data)
      else
        match decodeChar byte with
        | .error thrown => .error thrown
        | .ok b => if data ≠ [] ∧ b = -1 then scanPadded data else .ok (some b, data)

def toChar (value : ℕ) : UInt16 :=
  UInt16.ofNat value

/-- The loop over the groups; a round reads at least one byte, so the number of the bytes bounds the
number of the rounds. -/
def decodeGroups : ℕ → List UInt8 → JString → Except Throwable JString
  | 0, _, sb => .ok sb
  | rounds + 1, data, sb =>
      if data = [] then .ok sb
      else
        match scan data with
        | .error thrown => .error thrown
        | .ok (b1, data) =>
            if b1 = -1 then .ok sb
            else
              match scan data with
              | .error thrown => .error thrown
              | .ok (b2, data) =>
                  if b2 = -1 then .ok sb
                  else
                    let sb := sb ++ [toChar ((b1.toNat <<< 2) ||| ((b2.toNat &&& 0x30) >>> 4))]
                    match scanPadded data with
                    | .error thrown => .error thrown
                    | .ok (none, _) => .ok sb
                    | .ok (some b3, data) =>
                        if b3 = -1 then .ok sb
                        else
                          let sb := sb ++
                            [toChar (((b2.toNat &&& 0x0F) <<< 4) ||| ((b3.toNat &&& 0x3C) >>> 2))]
                          match scanPadded data with
                          | .error thrown => .error thrown
                          | .ok (none, _) => .ok sb
                          | .ok (some b4, data) =>
                              if b4 = -1 then .ok sb
                              else
                                let sb := sb ++ [toChar (((b3.toNat &&& 0x03) <<< 6) ||| b4.toNat)]
                                decodeGroups rounds data sb

/-- `decodePrivate`; both charsets exist, so it never throws `UnsupportedEncodingException`. -/
def decodePrivate (str : JString) : Except Throwable (List UInt8) :=
  let data := asciiBytes str
  match decodeGroups data.length data [] with
  | .error thrown => .error thrown
  | .ok sb => .ok (latin1Bytes sb)

def decode (str : JString) : Except Throwable (List UInt8) :=
  decodePrivate str

end AndroidCollection.Base64
