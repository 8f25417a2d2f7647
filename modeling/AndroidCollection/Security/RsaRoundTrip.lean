import AndroidCollection.Security.Rsa

/-!
# When segmented RSA inverts itself

The block sizes are those of a key of 2048 bits, whatever key is in use. The
loops therefore invert each other for every data exactly when the modulus has
256 bytes; a shorter modulus works as long as the data is one block for it, and
a longer one only for no data at all. The other cases fail with every cipher
which refuses a block of a wrong length, as the padding of PKCS #1 does.
-/

namespace AndroidCollection.Security.RSAUtil

open Java

/-- The data which the fixed block sizes suit, for a modulus of `length` bytes. -/
def Fits (length : ℕ) (data : List UInt8) : Prop :=
  data = [] ∨ length = 256 ∨ length < 256 ∧ data.length + 11 ≤ length

/-- Both loops of a pair of block functions in turn. -/
def LoopsRoundTrip (encrypt decrypt : ℕ → List UInt8 → Except SecurityException (List UInt8))
    (data : List UInt8) : Prop :=
  ∃ encrypted, Blockwise.process 245 encrypt 0 data = .ok encrypted ∧
    Blockwise.process 256 decrypt 0 encrypted = .ok data

section Loops

variable {length : ℕ} {data : List UInt8}
  {encrypt decrypt : ℕ → List UInt8 → Except SecurityException (List UInt8)}

theorem loopsRoundTrip_of_fits (cipher : Matches length encrypt decrypt)
    (fits : Fits length data) : LoopsRoundTrip encrypt decrypt data := by
  rcases fits with rfl | rfl | ⟨shorter, single⟩
  · exact ⟨[], rfl, rfl⟩
  · apply Blockwise.process_process (by omega) (by omega)
    intro block _ short _ call
    exact cipher block (by omega) call
  · rcases Decidable.em (data = []) with rfl | nonempty
    · exact ⟨[], rfl, rfl⟩
    · rcases cipher data single 0 with ⟨encrypted, produced, exact, recovered⟩
      have positive := List.length_pos_iff.mpr nonempty
      refine ⟨encrypted, ?_, ?_⟩
      · rw [Blockwise.process_of_length_le nonempty (by omega), produced]
      · rw [Blockwise.process_of_length_le (List.length_pos_iff.mp (by omega)) (by omega),
          recovered 0]

/-- A cipher which refuses data of a wrong length: more than the padding leaves room for, or an
encrypted block which is not as long as the modulus. -/
def Refuses (length : ℕ)
    (encrypt decrypt : ℕ → List UInt8 → Except SecurityException (List UInt8)) : Prop :=
  (∀ block call, length < block.length + 11 → ∃ exception,
      encrypt call block = .error exception) ∧
    ∀ encrypted call, encrypted.length ≠ length → ∃ exception,
      decrypt call encrypted = .error exception

theorem not_loopsRoundTrip (cipher : Refuses length encrypt decrypt)
    (misfits : ¬Fits length data) : ¬LoopsRoundTrip encrypt decrypt data := by
  rintro ⟨encrypted, produced, recovered⟩
  simp only [Fits, not_or, not_and, not_le] at misfits
  rcases misfits with ⟨nonempty, different, tooLong⟩
  have positive := List.length_pos_iff.mpr nonempty
  rcases Nat.lt_or_ge length 256 with shorter | longer
  · -- the first block of the data does not fit the modulus
    obtain ⟨exception, refused⟩ := cipher.1 (data.take 245) 0 (by
      have := tooLong shorter
      rw [List.length_take]
      omega)
    rw [Blockwise.process_of_error nonempty refused] at produced
    cases produced
  · -- the first 256 bytes are not a whole encrypted block
    have encryptedNonempty : encrypted ≠ [] := by
      rintro rfl
      rw [Blockwise.process_nil] at recovered
      cases recovered
      exact nonempty rfl
    obtain ⟨exception, refused⟩ := cipher.2 (encrypted.take 256) 0 (by
      rw [List.length_take]
      omega)
    rw [Blockwise.process_of_error encryptedNonempty refused] at recovered
    cases recovered

end Loops

/-- With the keys of a lawful pair, the four functions are the loops. -/
theorem blocksRoundTrip_iff_loops {provider : Provider} {length : ℕ}
    {keyPair : provider.PublicKey × provider.PrivateKey}
    (lawful : Lawful provider length keyPair) (keySize : ℤ) (data : List UInt8) :
    BlocksRoundTrip provider (initialStatics.assignKeySize keySize) keyPair data ↔
      LoopsRoundTrip (provider.doFinalPublic .encrypt keyPair.1)
          (provider.doFinalPrivate .decrypt keyPair.2) data ∧
        LoopsRoundTrip (provider.doFinalPrivate .encrypt keyPair.2)
          (provider.doFinalPublic .decrypt keyPair.1) data := by
  have encryptBlock : (initialStatics.assignKeySize keySize).ENCRYPT_BLOCK.toNat = 245 := rfl
  have decryptBlock : (initialStatics.assignKeySize keySize).DECRYPT_BLOCK.toNat = 256 := rfl
  simp only [BlocksRoundTrip, LoopsRoundTrip, encryptWithPublicKeyBlock,
    encryptWithPrivateKeyBlock, decryptWithPublicKeyBlock, decryptWithPrivateKeyBlock,
    lawful.publicEncoding, lawful.privateEncoding, encryptBlock, decryptBlock,
    doFinalBlocks_zero (by omega : 0 < 245), doFinalBlocks_zero (by omega : 0 < 256)]
  rfl

theorem blocksRoundTrip_of_fits {provider : Provider} {keySize : ℤ} {data : List UInt8}
    {keyPair : provider.PublicKey × provider.PrivateKey}
    (lawful : Lawful provider (keyBytes keySize) keyPair) (fits : Fits (keyBytes keySize) data) :
    BlocksRoundTrip provider (initialStatics.assignKeySize keySize) keyPair data := by
  rw [blocksRoundTrip_iff_loops lawful]
  exact ⟨loopsRoundTrip_of_fits lawful.publicMatches fits,
    loopsRoundTrip_of_fits lawful.privateMatches fits⟩

/-- A cipher which refuses wrong lengths makes both pairs of functions fail on all other data. -/
theorem not_blocksRoundTrip {provider : Provider} {keySize : ℤ} {data : List UInt8}
    {keyPair : provider.PublicKey × provider.PrivateKey}
    (lawful : Lawful provider (keyBytes keySize) keyPair)
    (refuses : Refuses (keyBytes keySize) (provider.doFinalPublic .encrypt keyPair.1)
      (provider.doFinalPrivate .decrypt keyPair.2))
    (misfits : ¬Fits (keyBytes keySize) data) :
    ¬BlocksRoundTrip provider (initialStatics.assignKeySize keySize) keyPair data := by
  rw [blocksRoundTrip_iff_loops lawful]
  rintro ⟨publicLoops, _⟩
  exact not_loopsRoundTrip refuses misfits publicLoops

/-! ## A provider which pads -/

/-- The encryption block of PKCS #1. -/
def pkcs1Pad (length : ℕ) (block : List UInt8) : Except SecurityException (List UInt8) :=
  if block.length + 11 ≤ length then
    .ok ([0, 2] ++ List.replicate (length - 3 - block.length) 0xFF ++ 0 :: block)
  else
    .error .illegalBlockSizeException

def pkcs1Unpad (length : ℕ) (encrypted : List UInt8) : Except SecurityException (List UInt8) :=
  if encrypted.length = length then
    .ok (((encrypted.drop 2).dropWhile (· != 0)).drop 1)
  else
    .error .badPaddingException

/-- RSA with the exponent one: the padding is all that happens. -/
def paddingProvider (length : ℕ) : Provider where
  PublicKey := Unit
  PrivateKey := Unit
  genKeyPair _ _ := .ok ((), ())
  getEncodedPublic _ := []
  getEncodedPrivate _ := []
  generatePublic _ := .ok ()
  generatePrivate _ := .ok ()
  doFinalPublic mode _ _ block :=
    match mode with
    | .encrypt => pkcs1Pad length block
    | .decrypt => pkcs1Unpad length block
  doFinalPrivate mode _ _ block :=
    match mode with
    | .encrypt => pkcs1Pad length block
    | .decrypt => pkcs1Unpad length block

theorem dropWhile_padding (count : ℕ) (block : List UInt8) :
    (List.replicate count (0xFF : UInt8) ++ 0 :: block).dropWhile (· != 0) = 0 :: block := by
  induction count with
  | zero => rfl
  | succ count ih => simp [List.replicate_succ, ih]

theorem matches_pkcs1 (length : ℕ) :
    Matches length (fun _ => pkcs1Pad length) (fun _ => pkcs1Unpad length) := by
  intro block short call
  have exact :
      ([0, 2] ++ List.replicate (length - 3 - block.length) 0xFF ++ 0 :: block).length =
        length := by
    simp only [List.length_append, List.length_cons, List.length_nil, List.length_replicate]
    omega
  refine ⟨_, if_pos short, exact, ?_⟩
  intro _
  simp only [pkcs1Unpad, exact, if_true]
  exact congrArg (fun rest => Except.ok (rest.drop 1)) (dropWhile_padding _ block)

theorem lawful_paddingProvider (length : ℕ) : Lawful (paddingProvider length) length ((), ()) :=
  ⟨rfl, rfl, matches_pkcs1 length, matches_pkcs1 length⟩

theorem refuses_paddingProvider (length : ℕ) :
    Refuses length ((paddingProvider length).doFinalPublic .encrypt ())
      ((paddingProvider length).doFinalPrivate .decrypt ()) :=
  ⟨fun _ _ tooLong => ⟨_, if_neg (Nat.not_le.mpr tooLong)⟩,
    fun _ _ different => ⟨_, if_neg different⟩⟩

/-- For every key generated after `KEY_SIZE` was assigned, both pairs of block functions give
the data back exactly when the data fits the block sizes computed at class loading. -/
theorem blockFunctions_invert_iff (keySize : ℤ) (data : List UInt8) :
    (∀ (provider : Provider) (password : Option JString)
        (keyPair : provider.PublicKey × provider.PrivateKey),
        generateKeyPair provider (initialStatics.assignKeySize keySize) password =
            .ok (some keyPair) →
          Lawful provider (keyBytes keySize) keyPair →
          BlocksRoundTrip provider (initialStatics.assignKeySize keySize) keyPair data) ↔
      data = [] ∨ keyBytes keySize = 256 ∨
        keyBytes keySize < 256 ∧ data.length + 11 ≤ keyBytes keySize := by
  constructor
  · intro inverts
    apply Decidable.byContradiction
    intro misfits
    exact not_blocksRoundTrip (lawful_paddingProvider _) (refuses_paddingProvider _) misfits
      (inverts (paddingProvider (keyBytes keySize)) none ((), ()) rfl (lawful_paddingProvider _))
  · intro fits provider _ keyPair _ lawful
    exact blocksRoundTrip_of_fits lawful fits

/-- A key of 1024 bits leaves room for 117 bytes, but the first block has 118. -/
theorem blockFunctions_refuse_118_bytes :
    ∃ (provider : Provider) (keyPair : provider.PublicKey × provider.PrivateKey),
      generateKeyPair provider (initialStatics.assignKeySize 1024) none = .ok (some keyPair) ∧
        Lawful provider (keyBytes 1024) keyPair ∧
        ¬BlocksRoundTrip provider (initialStatics.assignKeySize 1024) keyPair
          (List.replicate 118 0) := by
  refine ⟨paddingProvider (keyBytes 1024), ((), ()), rfl, lawful_paddingProvider _, ?_⟩
  apply not_blocksRoundTrip (lawful_paddingProvider _) (refuses_paddingProvider _)
  simp [Fits, keyBytes]

end AndroidCollection.Security.RSAUtil
