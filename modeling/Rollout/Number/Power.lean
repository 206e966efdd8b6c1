/-
Powers of two and of ten, by which numbers are scaled.
-/

namespace Rollout

abbrev twoPow (n : Nat) : Nat := Nat.pow 2 n

abbrev tenPow (n : Nat) : Nat := Nat.pow 10 n

end Rollout
