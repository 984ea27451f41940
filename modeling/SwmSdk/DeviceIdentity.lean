import SwmSdk.Base64Url
import SwmSdk.Types

/-! # The identity of a device

Every SDK makes its identity alike: random bytes give the install id, the install id names a key
of the key store, the public key gives the thumbprint and the device id.  `identity.bin` holds the
install id and the name of the key, one on a line.
-/
namespace SwmSdk
open ByteText

/-- What 16 random bytes are. -/
abbrev RandomBytes := { bytes : Bytes // bytes.length = 16 }

/-- The identity, with the name of its key. -/
structure DeviceIdentity where
  installId : Bytes
  keyName : Bytes
  keyId : Bytes
  keyThumbprint : Bytes
  publicKeySec1 : Bytes
  deviceId : Bytes
  deriving DecidableEq, Repr

/-- `build_key_name`. -/
def buildKeyName (crypto : Crypto) (appId installId : Bytes) : Bytes :=
  ascii "SwmSdk." ++ (crypto.sha256Hex appId).take 12 ++ ascii "." ++ installId

/-- The identity of a public key. -/
def deviceIdentity (crypto : Crypto) (appId installId keyName publicKey : Bytes) :
    DeviceIdentity :=
  let thumbprint := Base64Url.encode (crypto.sha256 publicKey)
  { installId
    keyName
    keyId := ascii "swm-device-" ++ thumbprint.take 22
    keyThumbprint := thumbprint
    publicKeySec1 := publicKey
    deviceId := crypto.sha256Hex (ascii "device_credential_v2\napp_id:" ++ appId ++
      ascii "\ninstall_id:" ++ installId ++ ascii "\nkey_thumbprint:" ++ thumbprint) }

/-- The text of `identity.bin`. -/
def identityMetadata (installId keyName : Bytes) : Bytes :=
  ascii "v2" ++ newline :: (installId ++ newline :: (keyName ++ [newline]))

theorem newline_notMem_hex (bytes : Bytes) : newline ∉ hex bytes := by
  intro hmem
  exact absurd (mem_hex hmem) (by decide)

theorem newline_notMem_keyName (crypto : Crypto) (appId : Bytes) {installId : Bytes}
    (h : newline ∉ installId) : newline ∉ buildKeyName crypto appId installId := by
  have happ : newline ∉ (crypto.sha256Hex appId).take 12 :=
    fun hmem => newline_notMem_hex _ (List.mem_of_mem_take hmem)
  have hhead : newline ∉ ascii "SwmSdk." := by decide
  have hdot : newline ∉ ascii "." := by decide
  simp only [buildKeyName, List.mem_append, not_or]
  exact ⟨⟨⟨hhead, happ⟩, hdot⟩, h⟩

/-- **The lines of the metadata** of an identity. -/
theorem identityMetadata_lines (crypto : Crypto) (appId random : Bytes) :
    (identityMetadata (hex random) (buildKeyName crypto appId (hex random))).splitOn newline =
      [ascii "v2", hex random, buildKeyName crypto appId (hex random), []] := by
  have hid : newline ∉ hex random := newline_notMem_hex random
  rw [identityMetadata, List.splitOn_append_cons_self_of_not_mem (by decide),
    List.splitOn_append_cons_self_of_not_mem hid,
    List.splitOn_append_cons_self_of_not_mem (newline_notMem_keyName crypto appId hid),
    List.splitOn_nil]

/-! Two points of the curve as public keys, and what the app `app` makes of them. -/

/-- The bytes of a hexadecimal text, for the samples. -/
def fromHex (text : String) : Bytes := (unhex (ascii text)).getD []

/-- Random bytes that are all the same. -/
def sampleRandom (b : UInt8) : RandomBytes := ⟨List.replicate 16 b, List.length_replicate⟩

/-- The generator of the curve, a public key. -/
def firstKey : Bytes :=
  fromHex "046b17d1f2e12c4247f8bce6e563a440f277037d812deb33a0f4a13945d898c296" ++
    fromHex "4fe342e2fe1a7f9b8ee7eb4a7c0f9e162bce33576b315ececbb6406837bf51f5"

/-- Twice the generator, another public key. -/
def secondKey : Bytes :=
  fromHex "047cf27b188d034f7e8a52380304b51ac3c08969e277f21b35a60b48fc47669978" ++
    fromHex "07775510db8ed040293d9ac69f7430dbba7dade63ce982299e04b79d227873d1"

/-- The digests of the sample texts. -/
def deviceCrypto : Crypto := listedCrypto [
  (ascii "app", appDigest),
  (firstKey, fromHex "698bea63dc44a344663ff1429aea10842df27b6b991ef25866b2c6c02cdcc5be"),
  (secondKey, fromHex "a9f300eb5960e89133af7362011a1e26f0e2ea2e36dc402a04af6c192b891a8c"),
  (ascii "device_credential_v2\napp_id:app\ninstall_id:01010101010101010101010101010101" ++
    ascii "\nkey_thumbprint:aYvqY9xEo0RmP_FCmuoQhC3ye2uZHvJYZrLGwCzcxb4",
    fromHex "27fc4dbbe07e25540d784b582ee921d29dc7dc52ac38025f75112c878696fd8d"),
  (ascii "device_credential_v2\napp_id:app\ninstall_id:02020202020202020202020202020202" ++
    ascii "\nkey_thumbprint:qfMA61lg6JEzr3NiARoeJvDi6i423EAqBK9sGSuJGow",
    fromHex "f5f2281ccfe807b6e4ac387191268576fb2290b5c43a44eef1e3ca42fe6df573")] []

end SwmSdk
