import Mathlib.Data.List.Dedup
import Mathlib.Data.List.GetD
import StockAnomaly.Theory.BlockCipher

/-!
# AES

The block cipher with keys of 16, 24 and 32 bytes. A state has four columns of four bytes, and
bytes are added and multiplied in the field of 256 elements. Each transformation of a round has
an inverse, so deciphering undoes enciphering for any round keys (**`decryptState_encryptState`**),
and AES is a block cipher: `Aes.cipher`.
-/

namespace StockAnomaly.Theory.Aes

abbrev Byte := BitVec 8

/-- A column of the state, or a word of the key schedule. -/
structure Word where
  b0 : Byte
  b1 : Byte
  b2 : Byte
  b3 : Byte
deriving DecidableEq

structure State where
  c0 : Word
  c1 : Word
  c2 : Word
  c3 : Word
deriving DecidableEq

def Word.map (f : Byte → Byte) (w : Word) : Word := ⟨f w.b0, f w.b1, f w.b2, f w.b3⟩

def Word.xor (w v : Word) : Word := ⟨w.b0 ^^^ v.b0, w.b1 ^^^ v.b1, w.b2 ^^^ v.b2, w.b3 ^^^ v.b3⟩

def State.map (f : Word → Word) (s : State) : State := ⟨f s.c0, f s.c1, f s.c2, f s.c3⟩

/-! ## The transformations -/

/-- The S-box, by rows of sixteen. -/
def sbox : List Byte := [
    0x63, 0x7c, 0x77, 0x7b, 0xf2, 0x6b, 0x6f, 0xc5, 0x30, 0x01, 0x67, 0x2b, 0xfe, 0xd7, 0xab, 0x76,
    0xca, 0x82, 0xc9, 0x7d, 0xfa, 0x59, 0x47, 0xf0, 0xad, 0xd4, 0xa2, 0xaf, 0x9c, 0xa4, 0x72, 0xc0,
    0xb7, 0xfd, 0x93, 0x26, 0x36, 0x3f, 0xf7, 0xcc, 0x34, 0xa5, 0xe5, 0xf1, 0x71, 0xd8, 0x31, 0x15,
    0x04, 0xc7, 0x23, 0xc3, 0x18, 0x96, 0x05, 0x9a, 0x07, 0x12, 0x80, 0xe2, 0xeb, 0x27, 0xb2, 0x75,
    0x09, 0x83, 0x2c, 0x1a, 0x1b, 0x6e, 0x5a, 0xa0, 0x52, 0x3b, 0xd6, 0xb3, 0x29, 0xe3, 0x2f, 0x84,
    0x53, 0xd1, 0x00, 0xed, 0x20, 0xfc, 0xb1, 0x5b, 0x6a, 0xcb, 0xbe, 0x39, 0x4a, 0x4c, 0x58, 0xcf,
    0xd0, 0xef, 0xaa, 0xfb, 0x43, 0x4d, 0x33, 0x85, 0x45, 0xf9, 0x02, 0x7f, 0x50, 0x3c, 0x9f, 0xa8,
    0x51, 0xa3, 0x40, 0x8f, 0x92, 0x9d, 0x38, 0xf5, 0xbc, 0xb6, 0xda, 0x21, 0x10, 0xff, 0xf3, 0xd2,
    0xcd, 0x0c, 0x13, 0xec, 0x5f, 0x97, 0x44, 0x17, 0xc4, 0xa7, 0x7e, 0x3d, 0x64, 0x5d, 0x19, 0x73,
    0x60, 0x81, 0x4f, 0xdc, 0x22, 0x2a, 0x90, 0x88, 0x46, 0xee, 0xb8, 0x14, 0xde, 0x5e, 0x0b, 0xdb,
    0xe0, 0x32, 0x3a, 0x0a, 0x49, 0x06, 0x24, 0x5c, 0xc2, 0xd3, 0xac, 0x62, 0x91, 0x95, 0xe4, 0x79,
    0xe7, 0xc8, 0x37, 0x6d, 0x8d, 0xd5, 0x4e, 0xa9, 0x6c, 0x56, 0xf4, 0xea, 0x65, 0x7a, 0xae, 0x08,
    0xba, 0x78, 0x25, 0x2e, 0x1c, 0xa6, 0xb4, 0xc6, 0xe8, 0xdd, 0x74, 0x1f, 0x4b, 0xbd, 0x8b, 0x8a,
    0x70, 0x3e, 0xb5, 0x66, 0x48, 0x03, 0xf6, 0x0e, 0x61, 0x35, 0x57, 0xb9, 0x86, 0xc1, 0x1d, 0x9e,
    0xe1, 0xf8, 0x98, 0x11, 0x69, 0xd9, 0x8e, 0x94, 0x9b, 0x1e, 0x87, 0xe9, 0xce, 0x55, 0x28, 0xdf,
    0x8c, 0xa1, 0x89, 0x0d, 0xbf, 0xe6, 0x42, 0x68, 0x41, 0x99, 0x2d, 0x0f, 0xb0, 0x54, 0xbb, 0x16]

def subByte (b : Byte) : Byte := sbox.getD b.toNat 0

/-- The byte whose image it is. -/
def invSubByte (b : Byte) : Byte := BitVec.ofNat 8 (sbox.idxOf b)

def subBytes (s : State) : State := s.map (Word.map subByte)

def invSubBytes (s : State) : State := s.map (Word.map invSubByte)

/-- Row `r` moves by `r` columns. -/
def shiftRows (s : State) : State where
  c0 := ⟨s.c0.b0, s.c1.b1, s.c2.b2, s.c3.b3⟩
  c1 := ⟨s.c1.b0, s.c2.b1, s.c3.b2, s.c0.b3⟩
  c2 := ⟨s.c2.b0, s.c3.b1, s.c0.b2, s.c1.b3⟩
  c3 := ⟨s.c3.b0, s.c0.b1, s.c1.b2, s.c2.b3⟩

def invShiftRows (s : State) : State where
  c0 := ⟨s.c0.b0, s.c3.b1, s.c2.b2, s.c1.b3⟩
  c1 := ⟨s.c1.b0, s.c0.b1, s.c3.b2, s.c2.b3⟩
  c2 := ⟨s.c2.b0, s.c1.b1, s.c0.b2, s.c3.b3⟩
  c3 := ⟨s.c3.b0, s.c2.b1, s.c1.b2, s.c0.b3⟩

/-- Twice a byte in the field. -/
def xtime (b : Byte) : Byte := b <<< 1 ^^^ if b.msb then 0x1b else 0

/-- A byte times a number below 16. -/
def mul (n : ℕ) (b : Byte) : Byte :=
  (if n.testBit 0 then b else 0) ^^^ (if n.testBit 1 then xtime b else 0) ^^^
    (if n.testBit 2 then xtime (xtime b) else 0) ^^^ if n.testBit 3 then xtime (xtime (xtime b)) else 0

/-- The column times a matrix whose rows are the first one, moved on. -/
def circulant (k l m n : ℕ) (w : Word) : Word where
  b0 := mul k w.b0 ^^^ mul l w.b1 ^^^ mul m w.b2 ^^^ mul n w.b3
  b1 := mul n w.b0 ^^^ mul k w.b1 ^^^ mul l w.b2 ^^^ mul m w.b3
  b2 := mul m w.b0 ^^^ mul n w.b1 ^^^ mul k w.b2 ^^^ mul l w.b3
  b3 := mul l w.b0 ^^^ mul m w.b1 ^^^ mul n w.b2 ^^^ mul k w.b3

def mixColumns (s : State) : State := s.map (circulant 2 3 1 1)

def invMixColumns (s : State) : State := s.map (circulant 14 11 13 9)

def addRoundKey (k s : State) : State := ⟨k.c0.xor s.c0, k.c1.xor s.c1, k.c2.xor s.c2, k.c3.xor s.c3⟩

/-! ## The cipher -/

/-- The rounds with these keys; the last one mixes no columns. -/
def encryptRounds : List State → State → State
  | [], s => s
  | [k], s => addRoundKey k (shiftRows (subBytes s))
  | k :: ks, s => encryptRounds ks (addRoundKey k (mixColumns (shiftRows (subBytes s))))

def decryptRounds : List State → State → State
  | [], s => s
  | [k], s => invSubBytes (invShiftRows (addRoundKey k s))
  | k :: ks, s => invSubBytes (invShiftRows (invMixColumns (addRoundKey k (decryptRounds ks s))))

def encryptState : List State → State → State
  | [], s => s
  | k :: ks, s => encryptRounds ks (addRoundKey k s)

def decryptState : List State → State → State
  | [], s => s
  | k :: ks, s => addRoundKey k (decryptRounds ks s)

/-- The round constant of a power of two. -/
def rcon : ℕ → Byte
  | 0 => 1
  | i + 1 => xtime (rcon i)

/-- The word after `words` in the schedule of a key of `nk` words. -/
def nextWord (nk : ℕ) (words : List Word) : Word :=
  let i := words.length
  let temp := words.getD (i - 1) ⟨0, 0, 0, 0⟩
  let temp :=
    if i % nk = 0 then
      (Word.map subByte ⟨temp.b1, temp.b2, temp.b3, temp.b0⟩).xor ⟨rcon (i / nk - 1), 0, 0, 0⟩
    else if 6 < nk ∧ i % nk = 4 then temp.map subByte
    else temp
  (words.getD (i - nk) ⟨0, 0, 0, 0⟩).xor temp

/-- `count` more words of the schedule. -/
def expand (nk : ℕ) : ℕ → List Word → List Word
  | 0, words => words
  | count + 1, words => expand nk count (words ++ [nextWord nk words])

def Word.ofBytes : List UInt8 → Word
  | [a, b, c, d] => ⟨a.toBitVec, b.toBitVec, c.toBitVec, d.toBitVec⟩
  | _ => ⟨0, 0, 0, 0⟩

def Word.toBytes (w : Word) : List UInt8 := [⟨w.b0⟩, ⟨w.b1⟩, ⟨w.b2⟩, ⟨w.b3⟩]

def State.ofWords : List Word → State
  | [a, b, c, d] => ⟨a, b, c, d⟩
  | _ => ⟨⟨0, 0, 0, 0⟩, ⟨0, 0, 0, 0⟩, ⟨0, 0, 0, 0⟩, ⟨0, 0, 0, 0⟩⟩

/-- One round more than the key has words and six, each with four words of the schedule. -/
def roundKeys (key : List UInt8) : List State :=
  let nk := key.length / 4
  let words := (BlockCipher.blocks 4 nk key).map Word.ofBytes
  (BlockCipher.blocks 4 (nk + 7) (expand nk (3 * nk + 28) words)).map State.ofWords

def State.ofBlock (block : List UInt8) : State := .ofWords ((BlockCipher.blocks 4 4 block).map Word.ofBytes)

def State.toBlock (s : State) : List UInt8 := s.c0.toBytes ++ s.c1.toBytes ++ s.c2.toBytes ++ s.c3.toBytes

/-! ## Each transformation has an inverse -/

theorem length_sbox : sbox.length = 256 := by decide +kernel

theorem nodup_sbox : sbox.Nodup := by decide +kernel

theorem invSubByte_subByte (b : Byte) : invSubByte (subByte b) = b := by
  have inside : b.toNat < sbox.length := by
    rw [length_sbox]
    exact b.isLt
  rw [invSubByte, subByte, List.getD_eq_getElem _ _ inside, nodup_sbox.idxOf_getElem]
  rw [BitVec.ofNat_toNat, BitVec.setWidth_eq]

theorem invSubBytes_subBytes (s : State) : invSubBytes (subBytes s) = s := by
  simp only [invSubBytes, subBytes, State.map, Word.map, invSubByte_subByte]

theorem invShiftRows_shiftRows (s : State) : invShiftRows (shiftRows s) = s := rfl

theorem addRoundKey_addRoundKey (k s : State) : addRoundKey k (addRoundKey k s) = s := by
  simp only [addRoundKey, Word.xor, ← BitVec.xor_assoc, BitVec.xor_self, BitVec.zero_xor]

theorem xtime_xor (b c : Byte) : xtime (b ^^^ c) = xtime b ^^^ xtime c := by
  simp only [xtime, BitVec.shiftLeft_xor_distrib, BitVec.msb_xor]
  cases b.msb <;> cases c.msb <;> simp <;> grind

theorem mul_xor (n : ℕ) (b c : Byte) : mul n (b ^^^ c) = mul n b ^^^ mul n c := by
  simp only [mul, xtime_xor]
  split_ifs <;> grind

/-- A row of one matrix times a column of another, and both times a byte. -/
def dot (k l m n k' l' m' n' : ℕ) (b : Byte) : Byte :=
  mul k (mul k' b) ^^^ mul l (mul l' b) ^^^ mul m (mul m' b) ^^^ mul n (mul n' b)

/-- The product of two matrices of this kind is one again. -/
theorem circulant_circulant (k l m n k' l' m' n' : ℕ) (a b c d : Byte) :
    circulant k l m n (circulant k' l' m' n' ⟨a, b, c, d⟩) =
      { b0 := dot k l m n k' n' m' l' a ^^^ dot k l m n l' k' n' m' b ^^^ dot k l m n m' l' k' n' c ^^^
          dot k l m n n' m' l' k' d
        b1 := dot k l m n n' m' l' k' a ^^^ dot k l m n k' n' m' l' b ^^^ dot k l m n l' k' n' m' c ^^^
          dot k l m n m' l' k' n' d
        b2 := dot k l m n m' l' k' n' a ^^^ dot k l m n n' m' l' k' b ^^^ dot k l m n k' n' m' l' c ^^^
          dot k l m n l' k' n' m' d
        b3 := dot k l m n l' k' n' m' a ^^^ dot k l m n m' l' k' n' b ^^^ dot k l m n n' m' l' k' c ^^^
          dot k l m n k' n' m' l' d } := by
  simp only [circulant, mul_xor, dot, Word.mk.injEq]
  refine ⟨?_, ?_, ?_, ?_⟩ <;> ac_rfl

/-- The rows of the two matrices give the matrix that changes nothing. -/
theorem dot_mixColumns (b : Byte) : dot 14 11 13 9 2 1 1 3 b = b ∧ dot 14 11 13 9 3 2 1 1 b = 0 ∧
    dot 14 11 13 9 1 3 2 1 b = 0 ∧ dot 14 11 13 9 1 1 3 2 b = 0 := by
  refine ⟨?_, ?_, ?_, ?_⟩ <;> simp [dot, mul, xtime_xor, Nat.testBit] <;> grind

theorem invMixColumns_mixColumns (s : State) : invMixColumns (mixColumns s) = s := by
  have column (w : Word) : circulant 14 11 13 9 (circulant 2 3 1 1 w) = w := by
    obtain ⟨a, b, c, d⟩ := w
    simp [circulant_circulant, dot_mixColumns]
  simp only [invMixColumns, mixColumns, State.map, column]

/-! ## The cipher has an inverse -/

theorem decryptRounds_encryptRounds (ks : List State) (s : State) : decryptRounds ks (encryptRounds ks s) = s := by
  induction ks generalizing s with
  | nil => rfl
  | cons k ks ih =>
    cases ks with
    | nil =>
      rw [encryptRounds, decryptRounds, addRoundKey_addRoundKey, invShiftRows_shiftRows, invSubBytes_subBytes]
    | cons k' ks =>
      rw [encryptRounds, decryptRounds, ih, addRoundKey_addRoundKey, invMixColumns_mixColumns,
        invShiftRows_shiftRows, invSubBytes_subBytes] <;> nofun

/-- **Deciphering with the same round keys undoes enciphering.** -/
theorem decryptState_encryptState (keys : List State) (s : State) : decryptState keys (encryptState keys s) = s := by
  cases keys with
  | nil => rfl
  | cons k ks => rw [encryptState, decryptState, decryptRounds_encryptRounds, addRoundKey_addRoundKey]

theorem toBlock_ofBlock {block : List UInt8} (length : block.length = 16) :
    (State.ofBlock block).toBlock = block := by
  match block, length with
  | [a, b, c, d, e, f, g, h, i, j, k, l, m, n, o, p], _ => rfl

theorem ofBlock_toBlock (s : State) : State.ofBlock s.toBlock = s := rfl

/-- AES with a key; its length has to be 16, 24 or 32. -/
def cipher (key : List UInt8) : BlockCipher 16 where
  encrypt block := (encryptState (roundKeys key) (.ofBlock block)).toBlock
  decrypt block := (decryptState (roundKeys key) (.ofBlock block)).toBlock
  length_encrypt _ _ := rfl
  decrypt_encrypt block length := by
    rw [ofBlock_toBlock, decryptState_encryptState, toBlock_ofBlock length]

/-- The bytes `0, 1, 2, …`. -/
def counting (length : ℕ) : List UInt8 := (List.range length).map UInt8.ofNat

/-- The blocks that the standard gives for its three keys. -/
example : [16, 24, 32].map (fun length => (cipher (counting length)).encrypt ((counting 16).map (17 * ·))) =
    [[0x69, 0xc4, 0xe0, 0xd8, 0x6a, 0x7b, 0x04, 0x30, 0xd8, 0xcd, 0xb7, 0x80, 0x70, 0xb4, 0xc5, 0x5a],
      [0xdd, 0xa9, 0x7c, 0xa4, 0x86, 0x4c, 0xdf, 0xe0, 0x6e, 0xaf, 0x70, 0xa0, 0xec, 0x0d, 0x71, 0x91],
      [0x8e, 0xa2, 0xb7, 0xca, 0x51, 0x67, 0x45, 0xbf, 0xea, 0xfc, 0x49, 0x90, 0x4b, 0x49, 0x60, 0x89]] := by
  decide +kernel

end StockAnomaly.Theory.Aes
