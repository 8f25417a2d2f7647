import AndroidCollection.Java.Text
import AndroidCollection.Lib.Blockwise

/-!
# Segmented RSA

`RSAUtil` cuts long data into blocks and hands each to the platform's cipher.
The sizes of the blocks are static fields: `KEY_SIZE` can be assigned at any
time, while `DECRYPT_BLOCK` and `ENCRYPT_BLOCK` keep the values computed from
its initial value when the class was loaded.

The cryptography itself is a `Provider`, what the Java Cryptography
Architecture offers behind `KeyPairGenerator`, `KeyFactory` and `Cipher`.
`Lawful` collects what RSA with PKCS #1 padding promises of one key pair. The
padding is random, so a cipher sees the number of the call beside the block.

The initial capacity of the output streams is left out, since it does not
affect what they contain, and so are the functions which take base64 strings.
-/

namespace AndroidCollection.Security

open Java

inductive SecurityException where
  | noSuchAlgorithmException
  | invalidParameterException
  | invalidKeyException
  | invalidKeySpecException
  | invalidAlgorithmParameterException
  | noSuchPaddingException
  | illegalBlockSizeException
  | badPaddingException
deriving DecidableEq, Repr

/-- `Cipher.ENCRYPT_MODE` and `Cipher.DECRYPT_MODE`. -/
inductive CipherMode where
  | encrypt
  | decrypt
deriving DecidableEq, Repr

namespace RSAUtil

/-- RSA as the platform provides it. -/
structure Provider where
  PublicKey : Type
  PrivateKey : Type
  genKeyPair (keySize : ℤ) (seed : Option (List UInt8)) :
    Except SecurityException (PublicKey × PrivateKey)
  getEncodedPublic : PublicKey → List UInt8
  getEncodedPrivate : PrivateKey → List UInt8
  generatePublic : List UInt8 → Except SecurityException PublicKey
  generatePrivate : List UInt8 → Except SecurityException PrivateKey
  doFinalPublic (mode : CipherMode) (key : PublicKey) (call : ℕ) (block : List UInt8) :
    Except SecurityException (List UInt8)
  doFinalPrivate (mode : CipherMode) (key : PrivateKey) (call : ℕ) (block : List UInt8) :
    Except SecurityException (List UInt8)

/-- The static fields, with the initialisers which run once when the class is loaded. -/
structure Statics where
  KEY_SIZE : ℤ := 2048
  RESERVE_BYTES : ℤ := 11
  DECRYPT_BLOCK : ℤ := KEY_SIZE / 8
  ENCRYPT_BLOCK : ℤ := DECRYPT_BLOCK - RESERVE_BYTES

def initialStatics : Statics := {}

/-- The assignment `RSAUtil.KEY_SIZE = keySize`. -/
def Statics.assignKeySize (statics : Statics) (keySize : ℤ) : Statics :=
  { statics with KEY_SIZE := keySize }

/-- The inner result is `none` where the code returns `null`. -/
def generateKeyPair (provider : Provider) (statics : Statics) (password : Option JString) :
    Except SecurityException (Option (provider.PublicKey × provider.PrivateKey)) :=
  match provider.genKeyPair statics.KEY_SIZE (password.map utf8Bytes) with
  | .ok keyPair => .ok (some keyPair)
  | .error .noSuchAlgorithmException => .ok none
  | .error exception => .error exception

/-- The loop of the four block functions; it takes at most `bound` rounds. -/
def doFinalBlocks (doFinal : ℕ → List UInt8 → Except SecurityException (List UInt8))
    (blockSize : ℕ) (data : List UInt8) :
    ℕ → ℕ → ℕ → List UInt8 → Except SecurityException (List UInt8)
  | 0, _, _, bos => .ok bos
  | bound + 1, call, offset, bos =>
      if offset < data.length then
        let inputLen :=
          if data.length - offset > blockSize then blockSize else data.length - offset
        match doFinal call ((data.drop offset).take inputLen) with
        | .error exception => .error exception
        | .ok outputBlock =>
            doFinalBlocks doFinal blockSize data bound (call + 1) (offset + blockSize)
              (bos ++ outputBlock)
      else
        .ok bos

variable (provider : Provider) (statics : Statics) (data key : List UInt8)

def encryptWithPublicKeyBlock : Except SecurityException (List UInt8) := do
  let publicKey ← provider.generatePublic key
  doFinalBlocks (provider.doFinalPublic .encrypt publicKey) statics.ENCRYPT_BLOCK.toNat data
    data.length 0 0 []

def encryptWithPrivateKeyBlock : Except SecurityException (List UInt8) := do
  let privateKey ← provider.generatePrivate key
  doFinalBlocks (provider.doFinalPrivate .encrypt privateKey) statics.ENCRYPT_BLOCK.toNat data
    data.length 0 0 []

def decryptWithPublicKeyBlock : Except SecurityException (List UInt8) := do
  let publicKey ← provider.generatePublic key
  doFinalBlocks (provider.doFinalPublic .decrypt publicKey) statics.DECRYPT_BLOCK.toNat data
    data.length 0 0 []

def decryptWithPrivateKeyBlock : Except SecurityException (List UInt8) := do
  let privateKey ← provider.generatePrivate key
  doFinalBlocks (provider.doFinalPrivate .decrypt privateKey) statics.DECRYPT_BLOCK.toNat data
    data.length 0 0 []

/-! ## What the platform promises -/

/-- The length in bytes of the modulus of a key of `keySize` bits. -/
def keyBytes (keySize : ℤ) : ℕ :=
  ((keySize + 7) / 8).toNat

/-- PKCS #1: a block leaves room for eleven bytes of padding, its encryption has the length of
the modulus, and decryption takes it back, whatever the padding was. -/
def Matches (length : ℕ)
    (encrypt decrypt : ℕ → List UInt8 → Except SecurityException (List UInt8)) : Prop :=
  ∀ block : List UInt8, block.length + 11 ≤ length → ∀ call, ∃ encrypted,
    encrypt call block = .ok encrypted ∧ encrypted.length = length ∧
      ∀ decryptCall, decrypt decryptCall encrypted = .ok block

/-- What RSA promises of a key pair whose modulus has `length` bytes. -/
structure Lawful (provider : Provider) (length : ℕ)
    (keyPair : provider.PublicKey × provider.PrivateKey) : Prop where
  publicEncoding :
    provider.generatePublic (provider.getEncodedPublic keyPair.1) = .ok keyPair.1
  privateEncoding :
    provider.generatePrivate (provider.getEncodedPrivate keyPair.2) = .ok keyPair.2
  publicMatches :
    Matches length (provider.doFinalPublic .encrypt keyPair.1)
      (provider.doFinalPrivate .decrypt keyPair.2)
  privateMatches :
    Matches length (provider.doFinalPrivate .encrypt keyPair.2)
      (provider.doFinalPublic .decrypt keyPair.1)

/-- Both pairs of block functions give the data back. -/
def BlocksRoundTrip (provider : Provider) (statics : Statics)
    (keyPair : provider.PublicKey × provider.PrivateKey) (data : List UInt8) : Prop :=
  (∃ encrypted,
      encryptWithPublicKeyBlock provider statics data (provider.getEncodedPublic keyPair.1) =
        .ok encrypted ∧
      decryptWithPrivateKeyBlock provider statics encrypted
        (provider.getEncodedPrivate keyPair.2) = .ok data) ∧
    ∃ encrypted,
      encryptWithPrivateKeyBlock provider statics data (provider.getEncodedPrivate keyPair.2) =
        .ok encrypted ∧
      decryptWithPublicKeyBlock provider statics encrypted
        (provider.getEncodedPublic keyPair.1) = .ok data

/-! ## The loop -/

section Loop

variable {doFinal : ℕ → List UInt8 → Except SecurityException (List UInt8)} {blockSize : ℕ}

theorem take_inputLen (length : ℕ) (rest : List UInt8) (remaining : rest.length = length) :
    rest.take (if length > blockSize then blockSize else length) = rest.take blockSize := by
  split
  · rfl
  · rw [List.take_of_length_le (by omega), List.take_of_length_le (by omega)]

/-- The loop transforms the data block by block. -/
theorem doFinalBlocks_eq (positive : 0 < blockSize) (data : List UInt8)
    (bound call offset : ℕ) (bos : List UInt8) (enough : data.length ≤ offset + bound) :
    doFinalBlocks doFinal blockSize data bound call offset bos =
      (Blockwise.process blockSize doFinal call (data.drop offset)).map (bos ++ ·) := by
  induction bound generalizing call offset bos with
  | zero =>
      have done : data.drop offset = [] := List.drop_eq_nil_of_le (by omega)
      simp [doFinalBlocks, done, Except.map]
  | succ bound ih =>
      rw [doFinalBlocks]
      by_cases more : offset < data.length
      · have nonempty : data.drop offset ≠ [] := by
          simpa only [ne_eq, List.drop_eq_nil_iff, not_le] using more
        rw [if_pos more]
        simp only [take_inputLen _ _ (List.length_drop (i := offset) (l := data))]
        cases first : doFinal call ((data.drop offset).take blockSize) with
        | error exception => rw [Blockwise.process_of_error nonempty first]; rfl
        | ok outputBlock =>
            simp only
            rw [ih _ _ _ (by omega), Blockwise.process_of_ok positive nonempty first,
              List.drop_drop]
            cases Blockwise.process blockSize doFinal (call + 1)
              (data.drop (offset + blockSize)) <;> simp [Except.map]
      · have done : data.drop offset = [] := List.drop_eq_nil_of_le (by omega)
        rw [if_neg more, done]
        simp [Except.map]

theorem doFinalBlocks_zero (positive : 0 < blockSize) (data : List UInt8) :
    doFinalBlocks doFinal blockSize data data.length 0 0 [] =
      Blockwise.process blockSize doFinal 0 data := by
  rw [doFinalBlocks_eq positive data data.length 0 0 [] (by omega), List.drop_zero]
  cases Blockwise.process blockSize doFinal 0 data <;> rfl

end Loop

end RSAUtil

end AndroidCollection.Security
