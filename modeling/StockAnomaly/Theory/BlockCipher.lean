import Mathlib.Data.List.Basic
import Mathlib.Data.Nat.Init

/-!
# Block ciphers in ECB mode with PKCS padding

A block cipher permutes the blocks of `size` bytes. The padding of PKCS #5 and #7 fills the
last block with the number of the bytes it adds, at least one, and ECB mode takes one block
after another. Deciphering undoes enciphering (`decipher_encipher`); equal blocks at the
start of two texts stay equal (`encipher_append`).
-/

namespace StockAnomaly.Theory

/-- A permutation of the blocks of `size` bytes, for a key. -/
structure BlockCipher (size : ℕ) where
  encrypt : List UInt8 → List UInt8
  decrypt : List UInt8 → List UInt8
  length_encrypt : ∀ block, block.length = size → (encrypt block).length = size
  decrypt_encrypt : ∀ block, block.length = size → decrypt (encrypt block) = block

namespace BlockCipher

/-- The first `count` blocks of `size` elements. -/
def blocks {α : Type*} (size : ℕ) : ℕ → List α → List (List α)
  | 0, _ => []
  | count + 1, l => l.take size :: blocks size count (l.drop size)

/-- ECB mode. -/
def ecb (size : ℕ) (f : List UInt8 → List UInt8) (l : List UInt8) : List UInt8 :=
  (blocks size (l.length / size) l).flatMap f

/-- PKCS padding. -/
def pad (size : ℕ) (l : List UInt8) : List UInt8 :=
  l ++ List.replicate (size - l.length % size) (UInt8.ofNat (size - l.length % size))

/-- What is left without the padding, if it is one; nothing is left of nothing. -/
def unpad (size : ℕ) (l : List UInt8) : Option (List UInt8) :=
  match l.getLast? with
  | none => some []
  | some last =>
    let body := l.take (l.length - last.toNat)
    if 1 ≤ last.toNat ∧ last.toNat ≤ size ∧ l = body ++ List.replicate last.toNat last then some body else none

variable {size : ℕ} (C : BlockCipher size)

def encipher (l : List UInt8) : List UInt8 := ecb size C.encrypt (pad size l)

/-- `none` when the length is not that of whole blocks, or the padding is none. -/
def decipher (l : List UInt8) : Option (List UInt8) :=
  if l.length % size = 0 then unpad size (ecb size C.decrypt l) else none

section Blocks

variable {α : Type*} {bs : List (List α)}

theorem length_flatten_blocks (whole : ∀ b ∈ bs, b.length = size) : bs.flatten.length = bs.length * size := by
  induction bs with
  | nil => simp
  | cons b bs ih =>
    rw [List.flatten_cons, List.length_append, whole b List.mem_cons_self,
      ih fun b' mem => whole b' (List.mem_cons_of_mem b mem), List.length_cons, Nat.succ_mul, Nat.add_comm]

theorem blocks_flatten (whole : ∀ b ∈ bs, b.length = size) : blocks size bs.length bs.flatten = bs := by
  induction bs with
  | nil => rfl
  | cons b bs ih =>
    have here := whole b List.mem_cons_self
    rw [List.flatten_cons, List.length_cons, blocks, List.take_left' here, List.drop_left' here,
      ih fun b' mem => whole b' (List.mem_cons_of_mem b mem)]

/-- A text of whole blocks is their concatenation. -/
theorem exists_blocks {count : ℕ} {l : List α} (length : l.length = count * size) :
    ∃ bs : List (List α), bs.flatten = l ∧ ∀ b ∈ bs, b.length = size := by
  induction count generalizing l with
  | zero =>
    rw [Nat.zero_mul, List.length_eq_zero_iff] at length
    exact ⟨[], length.symm, nofun⟩
  | succ count ih =>
    rw [Nat.succ_mul] at length
    obtain ⟨bs, joined, whole⟩ := ih (l := l.drop size) (by rw [List.length_drop]; omega)
    refine ⟨l.take size :: bs, by rw [List.flatten_cons, joined, List.take_append_drop], ?_⟩
    intro b mem
    rcases List.mem_cons.1 mem with rfl | later
    · rw [List.length_take]
      omega
    · exact whole b later

end Blocks

section Ecb

variable {f g : List UInt8 → List UInt8} {bs : List (List UInt8)}

theorem ecb_flatten (pos : 0 < size) (whole : ∀ b ∈ bs, b.length = size) : ecb size f bs.flatten = bs.flatMap f := by
  rw [ecb, length_flatten_blocks whole, Nat.mul_div_cancel _ pos, blocks_flatten whole]

/-- Every text of whole blocks keeps its length, and is found again. -/
theorem ecb_ecb (pos : 0 < size) (length_f : ∀ b, b.length = size → (f b).length = size)
    (inverse : ∀ b, b.length = size → g (f b) = b) {l : List UInt8} (aligned : size ∣ l.length) :
    (ecb size f l).length = l.length ∧ ecb size g (ecb size f l) = l := by
  obtain ⟨count, length⟩ := aligned
  rw [Nat.mul_comm] at length
  obtain ⟨bs, rfl, whole⟩ := exists_blocks length
  have whole' : ∀ b ∈ bs.map f, b.length = size := by
    intro b mem
    obtain ⟨a, there, rfl⟩ := List.mem_map.1 mem
    exact length_f a (whole a there)
  rw [ecb_flatten pos whole, List.flatMap_def]
  constructor
  · rw [length_flatten_blocks whole', List.length_map, length_flatten_blocks whole]
  · rw [ecb_flatten pos whole', List.flatMap_def, List.map_map]
    congr 1
    exact (List.map_congr_left fun b mem => inverse b (whole b mem)).trans (List.map_id _)

/-- Whole blocks at the start are treated apart from the rest. -/
theorem ecb_append (pos : 0 < size) {l l' : List UInt8} (aligned : size ∣ l.length) (aligned' : size ∣ l'.length) :
    ecb size f (l ++ l') = ecb size f l ++ ecb size f l' := by
  obtain ⟨count, length⟩ := aligned
  obtain ⟨count', length'⟩ := aligned'
  rw [Nat.mul_comm] at length length'
  obtain ⟨bs, rfl, whole⟩ := exists_blocks length
  obtain ⟨bs', rfl, whole'⟩ := exists_blocks length'
  have all : ∀ b ∈ bs ++ bs', b.length = size := fun b mem =>
    (List.mem_append.1 mem).elim (whole b) (whole' b)
  rw [← List.flatten_append, ecb_flatten pos all, ecb_flatten pos whole, ecb_flatten pos whole',
    List.flatMap_append]

end Ecb

section Padding

variable {l : List UInt8}

theorem length_pad (pos : 0 < size) (l : List UInt8) : (pad size l).length = size * (l.length / size + 1) := by
  have rest := Nat.mod_lt l.length pos
  have whole := Nat.div_add_mod l.length size
  rw [pad, List.length_append, List.length_replicate, Nat.mul_add, Nat.mul_one]
  omega

/-- **The padding comes off again.** -/
theorem unpad_pad (pos : 0 < size) (small : size < 256) (l : List UInt8) : unpad size (pad size l) = some l := by
  have rest := Nat.mod_lt l.length pos
  obtain ⟨k, added⟩ : ∃ k, size - l.length % size = k + 1 := ⟨size - l.length % size - 1, by omega⟩
  have count : (UInt8.ofNat (k + 1)).toNat = k + 1 := by
    rw [UInt8.toNat_ofNat', Nat.mod_eq_of_lt]
    omega
  rw [pad, added, unpad, List.getLast?_append, List.getLast?_replicate]
  simp only [Nat.succ_ne_zero, ↓reduceIte, Option.some_or, count, List.length_append, List.length_replicate,
    Nat.add_sub_cancel, List.take_left]
  exact if_pos ⟨by omega, by omega, trivial⟩

end Padding

/-- **Deciphering undoes enciphering.** -/
theorem decipher_encipher (pos : 0 < size) (small : size < 256) (l : List UInt8) :
    C.decipher (C.encipher l) = some l := by
  have aligned : size ∣ (pad size l).length := ⟨_, length_pad pos l⟩
  obtain ⟨length, found⟩ := ecb_ecb pos C.length_encrypt C.decrypt_encrypt aligned
  rw [decipher, encipher, length, if_pos (Nat.mod_eq_zero_of_dvd aligned), found, unpad_pad pos small]

/-- One more block, or the last one filled. -/
theorem length_encipher (pos : 0 < size) (l : List UInt8) :
    (C.encipher l).length = size * (l.length / size + 1) := by
  have aligned : size ∣ (pad size l).length := ⟨_, length_pad pos l⟩
  rw [encipher, (ecb_ecb pos C.length_encrypt C.decrypt_encrypt aligned).1, length_pad pos]

/-- **ECB mode shows equal blocks**: what whole blocks at the start give does not depend on
the rest. -/
theorem encipher_append (pos : 0 < size) {l : List UInt8} (aligned : size ∣ l.length) (l' : List UInt8) :
    C.encipher (l ++ l') = ecb size C.encrypt l ++ C.encipher l' := by
  have padded : pad size (l ++ l') = l ++ pad size l' := by
    obtain ⟨count, length⟩ := aligned
    rw [pad, pad, List.append_assoc, List.length_append, length, Nat.mul_add_mod]
  rw [encipher, padded, ecb_append pos aligned ⟨_, length_pad pos l'⟩, encipher]

end BlockCipher

end StockAnomaly.Theory
