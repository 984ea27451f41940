import Mathlib.Data.List.TakeDrop
import Mathlib.Tactic.Common

/-! # Sealed boxes

A text is sealed for the holder of a private key: the sender draws a key pair of its own, agrees on
a secret with the public key of the holder, derives a key from it and encrypts under that key.  The
box carries the public key of the sender in front, then the nonce, then what was encrypted.

The keys are derived as HKDF does (`hkdf`): a first block is one HMAC of the information and a
counter (`hkdf_block`).  The holder opens every box (`openBox_sealBox`).
-/
namespace SealedBox

abbrev Text := List UInt8

/-- The primitives: key pairs with their agreement, a MAC and an authenticated cipher. -/
structure Suite where
  publicOf : Text → Text
  /-- Private key, public key. -/
  agree : Text → Text → Text
  /-- Key, message. -/
  hmac : Text → Text → Text
  /-- Key, nonce, plaintext, associated data. -/
  encrypt : Text → Text → Text → Text → Text
  /-- Key, nonce, what was encrypted, associated data. -/
  decrypt : Text → Text → Text → Text → Option Text

namespace Suite

/-- The length of public keys and of what the MAC gives. -/
def blockLength : Nat := 32

/-- The length of the nonce of AES-GCM. -/
def nonceLength : Nat := 12

/-- What the primitives are relied on for. -/
structure Lawful (suite : Suite) : Prop where
  publicOf_length : ∀ a, (suite.publicOf a).length = blockLength
  agree_comm : ∀ a b, suite.agree a (suite.publicOf b) = suite.agree b (suite.publicOf a)
  /-- No secret of two key pairs is zero. -/
  agree_nonzero : ∀ a b, (suite.agree a (suite.publicOf b)).any (· ≠ 0) = true
  hmac_length : ∀ key message, (suite.hmac key message).length = blockLength
  decrypt_encrypt : ∀ key nonce plaintext aad,
    suite.decrypt key nonce (suite.encrypt key nonce plaintext aad) aad = some plaintext

variable (suite : Suite)

/-! ## The derivation of keys -/

/-- The blocks of HKDF from a counter on, after the block `last`. -/
def expand (key info : Text) : Nat → UInt8 → Text → Text
  | 0, _, _ => []
  | blocks + 1, counter, last =>
      let block := suite.hmac key (last ++ info ++ [counter])
      block ++ expand key info blocks (counter + 1) block

/-- HKDF: extract, then expand to a length. -/
def hkdf (salt info secret : Text) (length : Nat) : Text :=
  (suite.expand (suite.hmac salt secret) info ((length + blockLength - 1) / blockLength) 1 []).take
    length

variable {suite}

/-- **One block is one MAC.** -/
theorem hkdf_block (h : suite.Lawful) (salt info secret : Text) :
    suite.hkdf salt info secret blockLength = suite.hmac (suite.hmac salt secret) (info ++ [1]) := by
  have hblocks : (blockLength + blockLength - 1) / blockLength = 1 := rfl
  rw [hkdf, hblocks]
  simp only [expand, List.nil_append]
  rw [List.append_nil, List.take_of_length_le (Nat.le_of_eq (h.hmac_length _ _))]

end Suite

/-! ## Boxes -/

/-- How the key of a box is derived: a salt, and an information on the public key of the sender. -/
structure Derivation where
  salt : Text
  info : Text → Text

section Box
variable (suite : Suite) (derivation : Derivation)

/-- The key of a box, of the public key of the sender and the secret. -/
def boxKey (senderPublic secret : Text) : Text :=
  suite.hkdf derivation.salt (derivation.info senderPublic) secret Suite.blockLength

/-- A box for a public key. -/
def sealBox (ephemeral nonce aad recipient plaintext : Text) : Text :=
  suite.publicOf ephemeral ++ nonce ++ suite.encrypt (boxKey suite derivation
    (suite.publicOf ephemeral) (suite.agree ephemeral recipient)) nonce plaintext aad

/-- What the holder of a private key finds in a box. -/
def openBox (holder aad box : Text) : Option Text :=
  let senderPublic := box.take Suite.blockLength
  let nonce := (box.drop Suite.blockLength).take Suite.nonceLength
  suite.decrypt (boxKey suite derivation senderPublic (suite.agree holder senderPublic)) nonce
    (box.drop (Suite.blockLength + Suite.nonceLength)) aad

variable {suite derivation} {ephemeral nonce aad holder plaintext : Text}

/-- **The holder opens every box.** -/
theorem openBox_sealBox (h : suite.Lawful) (hnonce : nonce.length = Suite.nonceLength) :
    openBox suite derivation holder aad
      (sealBox suite derivation ephemeral nonce aad (suite.publicOf holder) plaintext) =
        some plaintext := by
  have hpublic := h.publicOf_length ephemeral
  have hfront : (suite.publicOf ephemeral ++ nonce).length =
      Suite.blockLength + Suite.nonceLength := by
    rw [List.length_append, hpublic, hnonce]
  unfold openBox sealBox
  rw [List.drop_left' hfront]
  simp only [List.append_assoc, List.take_left' hpublic, List.drop_left' hpublic,
    List.take_left' hnonce, h.agree_comm holder ephemeral]
  exact h.decrypt_encrypt _ _ _ _

end Box
end SealedBox
