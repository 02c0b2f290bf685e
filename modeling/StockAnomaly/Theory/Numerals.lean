import Mathlib.Data.Nat.Init

/-!
# Numerals

A numeral of a field rests on its being at least two. Here that fact has a name for each numeral
that constants of different modules are written with, so that their terms share it.
-/

namespace StockAnomaly.Theory.Numerals

instance two : Nat.AtLeastTwo 2 := ⟨by decide⟩

instance three : Nat.AtLeastTwo 3 := ⟨by decide⟩

instance four : Nat.AtLeastTwo 4 := ⟨by decide⟩

instance five : Nat.AtLeastTwo 5 := ⟨by decide⟩

instance six : Nat.AtLeastTwo 6 := ⟨by decide⟩

instance ten : Nat.AtLeastTwo 10 := ⟨by decide⟩

instance fifty : Nat.AtLeastTwo 50 := ⟨by decide⟩

instance sixtyFive : Nat.AtLeastTwo 65 := ⟨by decide⟩

instance hundred : Nat.AtLeastTwo 100 := ⟨by decide⟩

end StockAnomaly.Theory.Numerals
