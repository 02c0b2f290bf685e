import Mathlib.Data.List.Basic

/-!
# Base64

The basic encoding with padding: three bytes are four characters of six bits each. The
decoder is that of `java.util.Base64`, which takes the last group with or without its
padding and ignores the bits left over in it. It undoes the encoder: `decode_encode`.
-/

namespace StockAnomaly.Theory.Base64

def alphabet : List Char := "ABCDEFGHIJKLMNOPQRSTUVWXYZabcdefghijklmnopqrstuvwxyz0123456789+/".toList

/-- The character of six bits. -/
def char (sextet : ℕ) : Char := alphabet.getD sextet 'A'

/-- The six bits of a character of the alphabet. -/
def value (c : Char) : Option ℕ := alphabet.idxOf? c

/-- The characters of a group of bytes, from the 24 bits it is padded to. -/
def group (bits chars : ℕ) : List Char :=
  ([bits / 262144, bits / 4096 % 64, bits / 64 % 64, bits % 64].take chars).map char

def encode : List UInt8 → List Char
  | [] => []
  | [a] => group (a.toNat * 65536) 2 ++ ['=', '=']
  | [a, b] => group (a.toNat * 65536 + b.toNat * 256) 3 ++ ['=']
  | a :: b :: c :: rest => group (a.toNat * 65536 + b.toNat * 256 + c.toNat) 4 ++ encode rest

/-- The first bytes of 24 bits. -/
def bytes (bits count : ℕ) : List UInt8 :=
  ([bits / 65536, bits / 256 % 256, bits % 256].take count).map UInt8.ofNat

/-- The bits of the characters of a group, padded to 24. -/
def bits (chars : List Char) : Option ℕ :=
  (chars.mapM value).map fun sextets => (sextets ++ List.replicate (4 - sextets.length) 0).foldl (· * 64 + ·) 0

/-- `Base64.getDecoder().decode`. -/
def decode : List Char → Option (List UInt8)
  | [] => some []
  | [x, y] => (bits [x, y]).map (bytes · 1)
  | [x, y, '=', '='] => (bits [x, y]).map (bytes · 1)
  | [x, y, z] => (bits [x, y, z]).map (bytes · 2)
  | [x, y, z, '='] => (bits [x, y, z]).map (bytes · 2)
  | x :: y :: z :: w :: rest => (bits [x, y, z, w]).bind fun n => (decode rest).map (bytes n 3 ++ ·)
  | _ => none

section Characters

variable {n p q r t : ℕ}

theorem value_char (lt : n < 64) : value (char n) = some n := by
  have all : ∀ n : Fin 64, value (char n) = some n.val := by decide +kernel
  exact all ⟨n, lt⟩

theorem char_ne_pad (lt : n < 64) : char n ≠ '=' := by
  intro pad
  have outside : value '=' = none := by decide +kernel
  rw [← pad, value_char lt] at outside
  cases outside

theorem bits_four (hp : p < 64) (hq : q < 64) (hr : r < 64) (ht : t < 64) :
    bits [char p, char q, char r, char t] = some (p * 262144 + q * 4096 + r * 64 + t) := by
  simp [bits, value_char, hp, hq, hr, ht]
  omega

theorem bits_three (hp : p < 64) (hq : q < 64) (hr : r < 64) :
    bits [char p, char q, char r] = some (p * 262144 + q * 4096 + r * 64) := by
  simp [bits, value_char, hp, hq, hr]
  omega

theorem bits_two (hp : p < 64) (hq : q < 64) : bits [char p, char q] = some (p * 262144 + q * 4096) := by
  simp [bits, value_char, hp, hq, List.replicate]
  omega

end Characters

/-- A group whose last character is no padding. -/
theorem decode_group {x y z w : Char} {rest : List Char} (no_pad : w ≠ '=') : decode (x :: y :: z :: w :: rest) =
    (bits [x, y, z, w]).bind fun n => (decode rest).map (bytes n 3 ++ ·) := by
  rw [decode]
  · rintro rfl rfl rfl
    exact no_pad rfl
  · rintro rfl rfl
    exact no_pad rfl

theorem decode_three {x y z : Char} (no_pad : z ≠ '=') :
    decode [x, y, z, '='] = (bits [x, y, z]).map (bytes · 2) := by
  rw [decode]
  exact fun pad => no_pad pad

/-- **Decoding undoes encoding.** -/
theorem decode_encode (l : List UInt8) : decode (encode l) = some l := by
  induction l using encode.induct with
  | case1 => rfl
  | case2 a =>
    have ha := a.toNat_lt
    have whole : bits (group (a.toNat * 65536) 2) = some (a.toNat * 65536) := by
      refine (bits_two (by omega) (by omega)).trans (congrArg some ?_)
      omega
    refine (congrArg (Option.map (bytes · 1)) whole).trans ?_
    simp [bytes]
  | case3 a b =>
    have ha := a.toNat_lt
    have hb := b.toNat_lt
    have whole : bits (group (a.toNat * 65536 + b.toNat * 256) 3) = some (a.toNat * 65536 + b.toNat * 256) := by
      refine (bits_three (by omega) (by omega) (by omega)).trans (congrArg some ?_)
      omega
    have first : (a.toNat * 65536 + b.toNat * 256) / 65536 = a.toNat := by omega
    have second : (a.toNat * 65536 + b.toNat * 256) / 256 % 256 = b.toNat := by omega
    refine (decode_three (char_ne_pad (by omega))).trans ?_
    refine (congrArg (Option.map (bytes · 2)) whole).trans ?_
    simp [bytes, first, second]
  | case4 a b c rest ih =>
    have ha := a.toNat_lt
    have hb := b.toNat_lt
    have hc := c.toNat_lt
    have whole : bits (group (a.toNat * 65536 + b.toNat * 256 + c.toNat) 4) =
        some (a.toNat * 65536 + b.toNat * 256 + c.toNat) := by
      refine (bits_four (by omega) (by omega) (by omega) (by omega)).trans (congrArg some ?_)
      omega
    have first : (a.toNat * 65536 + b.toNat * 256 + c.toNat) / 65536 = a.toNat := by omega
    have second : (a.toNat * 65536 + b.toNat * 256 + c.toNat) / 256 % 256 = b.toNat := by omega
    have third : (a.toNat * 65536 + b.toNat * 256 + c.toNat) % 256 = c.toNat := by omega
    refine (decode_group (char_ne_pad (by omega))).trans ?_
    refine (congrArg (Option.bind · _) whole).trans ?_
    simp [ih, bytes, first, second, third]

/-- Four characters for every three bytes begun. -/
theorem length_encode (l : List UInt8) : (encode l).length = 4 * ((l.length + 2) / 3) := by
  induction l using encode.induct with
  | case1 => rfl
  | case2 a => simp [encode, group]
  | case3 a b => simp [encode, group]
  | case4 a b c rest ih =>
    simp only [encode, group, List.length_append, List.length_map, List.length_cons, ih]
    simp
    omega

/-- What is encoded of whole groups does not depend on what follows. -/
theorem encode_append {l : List UInt8} (whole : 3 ∣ l.length) (l' : List UInt8) :
    encode (l ++ l') = encode l ++ encode l' := by
  induction l using encode.induct with
  | case1 => rfl
  | case2 a => simp at whole
  | case3 a b =>
    simp only [List.length_cons, List.length_nil] at whole
    omega
  | case4 a b c rest ih =>
    simp only [List.length_cons] at whole
    simp only [List.cons_append, encode, ih (by omega), List.append_assoc]

end StockAnomaly.Theory.Base64
