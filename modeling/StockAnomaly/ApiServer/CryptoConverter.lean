import StockAnomaly.Theory.Aes
import StockAnomaly.Theory.Base64

/-!
# `CryptoConverter`

The KIS keys of a user are stored in AES, block by block with PKCS #5 padding, and in
Base64. What the default charset does to a text is the platform's. A key read back from its
column is the key that was stored, as far as the charset can write it, and the converter
raises exactly when its own key has no length of AES: **`entity_of_column`**. How long a
column gets, and what equal columns and equal starts of columns say about the keys behind
them, is **`columns_of_key`**.
-/

namespace StockAnomaly.ApiServer

open StockAnomaly.Theory

/-- The default charset. -/
structure Platform where
  /-- `text.getBytes()` -/
  getBytes : String → List UInt8
  /-- `new String(bytes)` -/
  newString : List UInt8 → String

structure CryptoConverter where
  secretKeySpec : List UInt8
deriving DecidableEq

/-- The length of the columns `kis_api_key` and `kis_secret_key`. -/
def kisKeyLength : ℕ := 1000

namespace CryptoConverter

/-- The constructor; `none` is the `IllegalArgumentException` of a key that is no Base64 or
empty. -/
def new (secretKey : String) : Option CryptoConverter :=
  (Base64.decode secretKey.toList).bind fun keyBytes => if keyBytes.isEmpty then none else some ⟨keyBytes⟩

/-- AES with the key. -/
def cipher (c : CryptoConverter) : BlockCipher 16 := Aes.cipher c.secretKeySpec

/-- `cipher.init` takes keys of AES only. -/
def validKey (c : CryptoConverter) : Bool :=
  c.secretKeySpec.length == 16 || c.secretKeySpec.length == 24 || c.secretKeySpec.length == 32

/-- The text of a column. -/
def column (J : Platform) (c : CryptoConverter) (text : String) : String :=
  String.ofList (Base64.encode (c.cipher.encipher (J.getBytes text)))

/-- `convertToDatabaseColumn`, with the message of its exception. -/
def convertToDatabaseColumn (J : Platform) (c : CryptoConverter) : Option String → Except String (Option String)
  | none => .ok none
  | some text =>
    if c.validKey then .ok (some (c.column J text)) else .error "Error encrypting column"

/-- `convertToEntityAttribute`, with the message of its exception. -/
def convertToEntityAttribute (J : Platform) (c : CryptoConverter) : Option String → Except String (Option String)
  | none => .ok none
  | some dbData =>
    if c.validKey then
      match (Base64.decode dbData.toList).bind c.cipher.decipher with
      | some bytes => .ok (some (J.newString bytes))
      | none => .error "Error decrypting column"
    else .error "Error decrypting column"

variable (J : Platform) (c : CryptoConverter)

/-- A column is deciphered to the bytes of its text. -/
theorem decipher_column (text : String) :
    (Base64.decode (c.column J text).toList).bind c.cipher.decipher = some (J.getBytes text) := by
  rw [column, String.toList_ofList, Base64.decode_encode]
  exact c.cipher.decipher_encipher (by decide) (by decide) _

/-- **Reading what was stored**: null stays null, and a text comes back as the charset reads
what it has written of it, if the key has a length of AES; with any other key nothing but
null can be stored. -/
theorem entity_of_column (value : Option String) :
    (c.convertToDatabaseColumn J value).bind (c.convertToEntityAttribute J) =
      value.elim (.ok none) fun text =>
        if c.validKey then .ok (some (J.newString (J.getBytes text))) else .error "Error encrypting column" := by
  cases value with
  | none => rfl
  | some text =>
    rw [convertToDatabaseColumn, Option.elim_some]
    by_cases valid : c.validKey
    · rw [if_pos valid, if_pos valid]
      show c.convertToEntityAttribute J (some (c.column J text)) = _
      rw [convertToEntityAttribute, if_pos valid, decipher_column]
    · rw [if_neg valid, if_neg valid]
      rfl

/-- A charset for texts of ASCII. -/
def ascii : Platform where
  getBytes text := text.toList.map fun c => UInt8.ofNat c.toNat
  newString bytes := String.ofList (bytes.map fun b => Char.ofNat b.toNat)

/-- A key of sixteen bytes, and a credential that comes back from its column. -/
theorem entity_of_column_ascii : ∃ c, new "MDEyMzQ1Njc4OWFiY2RlZg==" = some c ∧
    c.convertToDatabaseColumn ascii (some "PSA0b1c2d3e4f5g6h7i8j9") =
      .ok (some "QJj6VYt6j3k6JLNPgEiCaIGSRK5GXZNyumIe17RbQzY=") ∧
    (c.convertToDatabaseColumn ascii (some "PSA0b1c2d3e4f5g6h7i8j9")).bind (c.convertToEntityAttribute ascii) =
      .ok (some "PSA0b1c2d3e4f5g6h7i8j9") := by
  refine ⟨⟨"0123456789abcdef".toList.map fun c => UInt8.ofNat c.toNat⟩, ?_, ?_, ?_⟩
  · decide +kernel
  · decide +kernel
  · exact (entity_of_column ascii _ _).trans (by decide +kernel)

/-- A converter with a key of AES. -/
def ofKey (key : { k : List UInt8 // k.length = 16 ∨ k.length = 24 ∨ k.length = 32 }) : CryptoConverter := ⟨key.1⟩

/-- What the columns of a converter show. -/
structure Columns : Prop where
  /-- Every text can be stored. -/
  stored : ∀ text, c.convertToDatabaseColumn J (some text) = .ok (some (c.column J text))
  length : ∀ text, (c.column J text).length = 4 * ((16 * ((J.getBytes text).length / 16 + 1) + 2) / 3)
  /-- A column takes texts of up to 735 bytes. -/
  fits : ∀ text, (c.column J text).length ≤ kisKeyLength ↔ (J.getBytes text).length ≤ 735
  /-- Texts of the same bytes are seen to be equal, and only those. -/
  equal : ∀ text text', c.column J text = c.column J text' ↔ J.getBytes text = J.getBytes text'
  /-- Texts that start with the same blocks, three at a time, have columns that start alike. -/
  starts : ∀ k text text', (J.getBytes text).take (48 * k) = (J.getBytes text').take (48 * k) →
    48 * k ≤ (J.getBytes text).length → 48 * k ≤ (J.getBytes text').length →
      (c.column J text).toList.take (64 * k) = (c.column J text').toList.take (64 * k)

theorem length_column (text : String) :
    (c.column J text).length = 4 * ((16 * ((J.getBytes text).length / 16 + 1) + 2) / 3) := by
  rw [column, ← String.length_toList, String.toList_ofList, Base64.length_encode,
    BlockCipher.length_encipher _ (by decide)]

theorem column_eq_iff (text text' : String) :
    c.column J text = c.column J text' ↔ J.getBytes text = J.getBytes text' := by
  constructor
  · intro same
    have bytes := c.decipher_column J text
    rw [same, decipher_column] at bytes
    exact (Option.some.inj bytes).symm
  · intro same
    rw [column, column, same]

/-- The first characters of a column are those of the first blocks. -/
theorem take_column {k : ℕ} {text : String} (long : 48 * k ≤ (J.getBytes text).length) :
    (c.column J text).toList.take (64 * k) =
      Base64.encode (BlockCipher.ecb 16 c.cipher.encrypt ((J.getBytes text).take (48 * k))) := by
  have start : ((J.getBytes text).take (48 * k)).length = 48 * k := by
    rw [List.length_take]
    omega
  have aligned : 16 ∣ ((J.getBytes text).take (48 * k)).length := by omega
  have whole := (BlockCipher.ecb_ecb (by decide) c.cipher.length_encrypt
    c.cipher.decrypt_encrypt aligned).1
  have split := c.cipher.encipher_append (by decide) aligned ((J.getBytes text).drop (48 * k))
  rw [List.take_append_drop] at split
  rw [column, String.toList_ofList, split, Base64.encode_append (by omega)]
  apply List.take_left'
  rw [Base64.length_encode]
  omega

/-- **The columns of a valid key**: their length, when they fit, and what they show of the
bytes of the texts behind them. -/
theorem columns_of_key (key : { k : List UInt8 // k.length = 16 ∨ k.length = 24 ∨ k.length = 32 }) :
    Columns J (ofKey key) where
  stored text := by
    have valid : (ofKey key).validKey = true := by
      simpa [validKey, ofKey, or_assoc] using key.2
    rw [convertToDatabaseColumn, if_pos valid]
  length text := (ofKey key).length_column J text
  fits text := by
    rw [length_column, kisKeyLength]
    omega
  equal text text' := (ofKey key).column_eq_iff J text text'
  starts k text text' same long long' := by
    rw [take_column J _ long, take_column J _ long', same]

/-- Two texts that differ after 48 bytes. -/
theorem columns_of_key_ascii :
    ((ofKey ⟨Aes.counting 32, .inr (.inr rfl)⟩).column ascii
        "the first forty-eight bytes of both are the same 1").toList.take 64 =
      ((ofKey ⟨Aes.counting 32, .inr (.inr rfl)⟩).column ascii
        "the first forty-eight bytes of both are the same 2").toList.take 64 ∧
    (ofKey ⟨Aes.counting 32, .inr (.inr rfl)⟩).column ascii
        "the first forty-eight bytes of both are the same 1" ≠
      (ofKey ⟨Aes.counting 32, .inr (.inr rfl)⟩).column ascii
        "the first forty-eight bytes of both are the same 2" := by
  have columns := columns_of_key ascii ⟨Aes.counting 32, .inr (.inr rfl)⟩
  refine ⟨columns.starts 1 _ _ ?_ ?_ ?_, mt (columns.equal _ _).1 ?_⟩ <;> decide +kernel

end CryptoConverter

end StockAnomaly.ApiServer
