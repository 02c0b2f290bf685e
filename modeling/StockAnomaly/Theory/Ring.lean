import Mathlib.Data.Nat.ModEq
import Mathlib.Logic.Function.Basic

/-!
# Positions of a ring buffer

Positions count up without bound; a position lives in the slot `p % cap`. Any `cap`
consecutive positions meet every slot exactly once, which is what makes a window of
positions a faithful view of the ring. `Holds` is the view of a ring that keeps the last `cap`
of a sequence of values.
-/

namespace StockAnomaly.Theory.Ring

variable {cap lo p q i : ℕ}

/-- Two positions of one window in the same slot are equal. -/
theorem eq_of_mod_eq (same : p % cap = q % cap) (hp : lo ≤ p ∧ p < lo + cap)
    (hq : lo ≤ q ∧ q < lo + cap) : p = q := by
  rcases Nat.le_total p q with le | le
  · have dvd : cap ∣ q - p := (Nat.modEq_iff_dvd' le).1 same
    have := Nat.eq_zero_of_dvd_of_lt dvd (by omega)
    omega
  · have dvd : cap ∣ p - q := (Nat.modEq_iff_dvd' le).1 same.symm
    have := Nat.eq_zero_of_dvd_of_lt dvd (by omega)
    omega

/-- Every slot is met by some position of the window. -/
theorem exists_mod_eq (pos : 0 < cap) (lo q : ℕ) : ∃ p, (lo ≤ p ∧ p < lo + cap) ∧ p % cap = q % cap := by
  have lt : (q + (cap - lo % cap)) % cap < cap := Nat.mod_lt _ pos
  refine ⟨lo + (q + (cap - lo % cap)) % cap, ⟨by omega, by omega⟩, ?_⟩
  have bound : lo % cap < cap := Nat.mod_lt _ pos
  rw [Nat.add_mod_mod]
  have split : lo + (q + (cap - lo % cap)) = q + cap * (lo / cap + 1) := by
    have := Nat.div_add_mod lo cap
    rw [Nat.mul_add, Nat.mul_one]
    omega
  rw [split, Nat.add_mul_mod_self_left]

/-- Neighbouring positions are in different slots. -/
theorem succ_mod_ne (one : 1 < cap) (p : ℕ) : (p + 1) % cap ≠ p % cap := by
  intro same
  have window : p ≤ p + 1 ∧ p + 1 < p + cap := ⟨by omega, by omega⟩
  have := eq_of_mod_eq same window ⟨le_rfl, by omega⟩
  omega

section Holds

variable {α : Type*} [NeZero cap] {buffer : Fin cap → α} {blank : α} {values : List α}

/-- What is left of `values` in a ring of `blank` slots that they were written to in order:
number `i`, counted from 0, sits in slot `i % cap` until `cap` later ones are there. -/
structure Holds (buffer : Fin cap → α) (blank : α) (values : List α) : Prop where
  slot : ∀ i (lt : i < values.length), values.length ≤ i + cap → buffer (Fin.ofNat cap i) = values[i]
  unused : ∀ j : Fin cap, values.length ≤ j → buffer j = blank

theorem Holds.nil : Holds (fun _ : Fin cap => blank) blank [] where
  slot i lt := absurd lt (Nat.not_lt_zero i)
  unused _ _ := rfl

/-- The next value goes to the slot of its number. -/
theorem Holds.snoc (h : Holds buffer blank values) (x : α) :
    Holds (Function.update buffer (Fin.ofNat cap values.length) x) blank (values ++ [x]) where
  slot i lt recent := by
    rw [List.length_append, List.length_singleton] at lt recent
    cases Nat.lt_or_ge i values.length with
    | inl old =>
      have other : Fin.ofNat cap i ≠ Fin.ofNat cap values.length := by
        intro same
        rw [Fin.ext_iff, Fin.val_ofNat, Fin.val_ofNat] at same
        have here : i ≤ i ∧ i < i + cap := ⟨le_rfl, by omega⟩
        have := eq_of_mod_eq same here ⟨by omega, by omega⟩
        omega
      rw [Function.update_of_ne other, List.getElem_append_left old]
      exact h.slot i old (by omega)
    | inr new =>
      obtain rfl : i = values.length := by omega
      rw [Function.update_self, List.getElem_concat_length rfl]
  unused j above := by
    rw [List.length_append, List.length_singleton] at above
    have other : j ≠ Fin.ofNat cap values.length := by
      intro same
      rw [Fin.ext_iff, Fin.val_ofNat] at same
      have := Nat.mod_le values.length cap
      omega
    rw [Function.update_of_ne other]
    exact h.unused j (by omega)

/-- In the first lap the slot of the next value is blank. -/
theorem Holds.next_blank (h : Holds buffer blank values) (room : values.length < cap) :
    buffer (Fin.ofNat cap values.length) = blank := by
  apply h.unused
  rw [Fin.val_ofNat, Nat.mod_eq_of_lt room]

/-- Later the slot of the next value holds the value `cap` places before it. -/
theorem Holds.next_oldest (h : Holds buffer blank values) {i : ℕ} (lt : i < values.length)
    (lap : i + cap = values.length) : buffer (Fin.ofNat cap values.length) = values[i] := by
  have same : Fin.ofNat cap values.length = Fin.ofNat cap i := by
    rw [Fin.ext_iff, Fin.val_ofNat, Fin.val_ofNat, ← lap, Nat.add_mod_right]
  rw [same]
  exact h.slot i lt (by omega)

end Holds

end StockAnomaly.Theory.Ring
