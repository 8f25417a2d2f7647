import AndroidCollection.Java.Text

/-!
# The two modes of `AESUtil`

Both modes derive a key from a password through a seeded generator. The ECB
functions wrap its encoding in a key specification and return what the cipher
gives; the CBC functions use the generated key itself, discard what the cipher
gives and return an empty array. `Provider` is the platform's part. Its methods
throw only the checked exceptions which they declare, and a generator may give
another key each time unless it is deterministic.
-/

namespace AndroidCollection.Security.AESUtil

open Java

/-- The checked exceptions which the key generator, the cipher and `getBytes` declare. -/
inductive CheckedException where
  | noSuchAlgorithmException
  | noSuchPaddingException
  | unsupportedEncodingException
  | invalidAlgorithmParameterException
  | invalidKeyException
  | illegalBlockSizeException
  | badPaddingException
deriving DecidableEq, Repr

/-- `AES/ECB/PKCS5Padding` and `AES/CBC/PKCS5Padding`. -/
inductive Transformation where
  | ecbPkcs5Padding
  | cbcPkcs5Padding
deriving DecidableEq, Repr

def TRANSFORMATION : Transformation :=
  .ecbPkcs5Padding

def CIPHER_ALGORITHM_CBC : Transformation :=
  .cbcPkcs5Padding

def KEY_SIZE : ℕ :=
  128

def IV : JString :=
  ascii ['1', '2', '3', '4', '5', '6', '7', '8', '9', '0', '1', '2', '3', '4', '5', '6']

/-- AES as the platform provides it. `encrypt` and `decrypt` obtain a cipher, initialise it with
a key and perhaps a vector, and finish with the given bytes. -/
structure Provider where
  SecretKey : Type
  generateKey (keySize : Option ℕ) (seed : List UInt8) (occasion : ℕ) :
    Except CheckedException SecretKey
  getEncoded : SecretKey → List UInt8
  secretKeySpec : List UInt8 → SecretKey
  encrypt (transformation : Transformation) (key : SecretKey) (iv : Option (List UInt8))
    (input : List UInt8) : Except CheckedException (List UInt8)
  decrypt (transformation : Transformation) (key : SecretKey) (iv : Option (List UInt8))
    (input : List UInt8) : Except CheckedException (List UInt8)

/-- What the `catch` clauses of the ECB functions name; `none` stands for their `null`. -/
def orNull : Except CheckedException (List UInt8) →
    Except CheckedException (Option (List UInt8))
  | .ok bytes => .ok (some bytes)
  | .error .invalidAlgorithmParameterException => .error .invalidAlgorithmParameterException
  | .error _ => .ok none

/-- The key of the ECB functions. -/
def ecbKey (provider : Provider) (password : JString) (occasion : ℕ) :
    Except CheckedException provider.SecretKey := do
  let secretKey ← provider.generateKey (some KEY_SIZE) (utf8Bytes password) occasion
  pure (provider.secretKeySpec (provider.getEncoded secretKey))

/-- `encrypt(content, password)`. -/
def encrypt (provider : Provider) (occasion : ℕ) (content password : JString) :
    Except CheckedException (Option (List UInt8)) :=
  orNull do
    let key ← ecbKey provider password occasion
    provider.encrypt TRANSFORMATION key none (utf8Bytes content)

/-- `decrypt(content, password)`. -/
def decrypt (provider : Provider) (occasion : ℕ) (content : List UInt8) (password : JString) :
    Except CheckedException (Option (List UInt8)) :=
  orNull do
    let key ← ecbKey provider password occasion
    provider.decrypt TRANSFORMATION key none content

/-- `encrypt(content, key, iv)`: every declared exception is caught, and the result of the
cipher is not kept. -/
def encryptCbc (provider : Provider) (occasion : ℕ) (content key iv : JString) : List UInt8 :=
  let attempt : Except CheckedException (List UInt8) := do
    let secretKey ← provider.generateKey none (utf8Bytes key) occasion
    provider.encrypt CIPHER_ALGORITHM_CBC secretKey (some (utf8Bytes iv)) (utf8Bytes content)
  match attempt with
  | .ok _ => []
  | .error _ => []

/-- `decrypt(content, key, iv)`. -/
def decryptCbc (provider : Provider) (occasion : ℕ) (content : List UInt8) (key iv : JString) :
    List UInt8 :=
  let attempt : Except CheckedException (List UInt8) := do
    let secretKey ← provider.generateKey none (utf8Bytes key) occasion
    provider.decrypt CIPHER_ALGORITHM_CBC secretKey (some (utf8Bytes iv)) content
  match attempt with
  | .ok _ => []
  | .error _ => []

/-! ## The round trips -/

/-- The seeded generator gives the same key on every occasion. -/
def Deterministic (provider : Provider) (keySize : Option ℕ) (seed : List UInt8)
    (secretKey : provider.SecretKey) : Prop :=
  ∀ occasion, provider.generateKey keySize seed occasion = .ok secretKey

/-- With this key and vector, the cipher decrypts what it made of the input. -/
def Inverts (provider : Provider) (transformation : Transformation) (key : provider.SecretKey)
    (iv : Option (List UInt8)) (input : List UInt8) : Prop :=
  ∃ encrypted, provider.encrypt transformation key iv input = .ok encrypted ∧
    provider.decrypt transformation key iv encrypted = .ok input

section RoundTrips

variable (provider : Provider) (content password key iv : JString)

/-- The ECB pair gives the bytes of the text back, whenever the two calls happen. -/
def EcbRoundTrips : Prop :=
  ∀ encryptOccasion decryptOccasion, ∃ encrypted,
    encrypt provider encryptOccasion content password = .ok (some encrypted) ∧
      decrypt provider decryptOccasion encrypted password = .ok (some (utf8Bytes content))

/-- The CBC pair gives the bytes of the text back, whenever the two calls happen. -/
def CbcRoundTrips : Prop :=
  ∀ encryptOccasion decryptOccasion,
    decryptCbc provider decryptOccasion (encryptCbc provider encryptOccasion content key iv)
      key iv = utf8Bytes content

variable {provider content password key iv}

theorem ecbKey_of_deterministic {secretKey : provider.SecretKey}
    (deterministic : Deterministic provider (some KEY_SIZE) (utf8Bytes password) secretKey)
    (occasion : ℕ) :
    ecbKey provider password occasion =
      .ok (provider.secretKeySpec (provider.getEncoded secretKey)) := by
  rw [ecbKey, deterministic occasion]
  rfl

theorem ecbRoundTrips_of_inverts {secretKey : provider.SecretKey}
    (deterministic : Deterministic provider (some KEY_SIZE) (utf8Bytes password) secretKey)
    (inverts : Inverts provider TRANSFORMATION
      (provider.secretKeySpec (provider.getEncoded secretKey)) none (utf8Bytes content)) :
    EcbRoundTrips provider content password := by
  intro encryptOccasion decryptOccasion
  rcases inverts with ⟨encrypted, produced, recovered⟩
  refine ⟨encrypted, ?_, ?_⟩
  · rw [encrypt, ecbKey_of_deterministic deterministic]
    exact congrArg orNull produced
  · rw [decrypt, ecbKey_of_deterministic deterministic]
    exact congrArg orNull recovered

theorem decryptCbc_eq_nil (occasion : ℕ) (encrypted : List UInt8) :
    decryptCbc provider occasion encrypted key iv = [] := by
  simp only [decryptCbc]
  split <;> rfl

theorem cbcRoundTrips_iff : CbcRoundTrips provider content key iv ↔ content = [] := by
  simp only [CbcRoundTrips, decryptCbc_eq_nil, forall_const, ← utf8Bytes_eq_nil_iff content]
  exact eq_comm

end RoundTrips

/-- The ECB pair inverts itself on every text; the CBC pair only on the empty one. -/
theorem modes_roundTrip (provider : Provider) (content password key iv : JString)
    {secretKey : provider.SecretKey}
    (deterministic : Deterministic provider (some KEY_SIZE) (utf8Bytes password) secretKey)
    (inverts : Inverts provider TRANSFORMATION
      (provider.secretKeySpec (provider.getEncoded secretKey)) none (utf8Bytes content)) :
    EcbRoundTrips provider content password ∧
      (CbcRoundTrips provider content key iv ↔ content = []) :=
  ⟨ecbRoundTrips_of_inverts deterministic inverts, cbcRoundTrips_iff⟩

/-- AES with the key of bytes 0 to 15 and the vector `IV`, on the text `a` alone. -/
def tableProvider : Provider where
  SecretKey := List UInt8
  generateKey _ _ _ := .ok (List.range 16 |>.map UInt8.ofNat)
  getEncoded key := key
  secretKeySpec encoded := encoded
  encrypt transformation _ _ input :=
    if input = [0x61] then
      match transformation with
      | .ecbPkcs5Padding =>
          .ok [254, 18, 52, 134, 80, 139, 14, 181, 3, 168, 70, 131, 136, 239, 88, 18]
      | .cbcPkcs5Padding =>
          .ok [151, 54, 64, 225, 212, 163, 206, 162, 88, 242, 48, 110, 112, 43, 64, 50]
    else
      .error .illegalBlockSizeException
  decrypt transformation _ _ input :=
    match transformation with
    | .ecbPkcs5Padding =>
        if input = [254, 18, 52, 134, 80, 139, 14, 181, 3, 168, 70, 131, 136, 239, 88, 18] then
          .ok [0x61]
        else .error .badPaddingException
    | .cbcPkcs5Padding =>
        if input = [151, 54, 64, 225, 212, 163, 206, 162, 88, 242, 48, 110, 112, 43, 64, 50] then
          .ok [0x61]
        else .error .badPaddingException

theorem inverts_tableProvider (transformation : Transformation) (key : List UInt8)
    (iv : Option (List UInt8)) : Inverts tableProvider transformation key iv [0x61] := by
  cases transformation <;> exact ⟨_, rfl, rfl⟩

theorem modes_roundTrip_letter :
    EcbRoundTrips tableProvider (ascii ['a']) (ascii ['k']) ∧
      (CbcRoundTrips tableProvider (ascii ['a']) (ascii ['k']) IV ↔ ascii ['a'] = []) :=
  modes_roundTrip tableProvider _ _ _ _ (fun _ => rfl)
    (inverts_tableProvider _ _ _)

/-- A cipher which inverts itself in both modes, and a text which the CBC pair loses. -/
theorem cbc_loses_letter :
    ∃ secretKey : tableProvider.SecretKey,
      (utf8Bytes IV).length = 16 ∧
        (∀ keySize seed, Deterministic tableProvider keySize seed secretKey) ∧
        (∀ transformation vector,
          Inverts tableProvider transformation secretKey vector (utf8Bytes (ascii ['a']))) ∧
        ¬CbcRoundTrips tableProvider (ascii ['a']) (ascii ['k']) IV := by
  refine ⟨_, by decide, fun _ _ _ => rfl, fun transformation vector =>
    inverts_tableProvider transformation _ vector, ?_⟩
  simp [cbcRoundTrips_iff, ascii]

end AndroidCollection.Security.AESUtil
