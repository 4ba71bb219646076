import Mathlib.Algebra.Group.Int.Defs
import Mathlib.Algebra.Order.Ring.Int

/-!
# What a downlink decoder does with the numbers of a frame

A pass over a frame takes lengths and an index from the wire. It reports where it uses them, in
the order the code does, next to the decision it comes to.
-/

namespace Wwan.Kernel

/-- A use of a number that comes from a frame. -/
inductive RxUse
  | /-- `len` bytes at `skb_in->data + off` are read. -/
    read (off : ℕ) (len : ℤ)
  | /-- An element of `mpQmapNetDev` is read. -/
    index (mux : ℤ)
  | /-- `skb_len` is the size of an allocation or of a trim. -/
    size (skbLen : ℤ)
  deriving DecidableEq

/-- The use is right for a buffer of `len` bytes and a table of `mode` devices. -/
def RxUse.Inside (len mode : ℕ) : RxUse → Prop
  | .read off n => 0 ≤ n ∧ off + n ≤ len
  | .index mux => 0 ≤ mux ∧ mux < mode
  | .size n => 0 ≤ n

instance RxUse.decidableInside (len mode : ℕ) : ∀ u, Decidable (RxUse.Inside len mode u)
  | .read off n => inferInstanceAs (Decidable (0 ≤ n ∧ off + n ≤ (len : ℤ)))
  | .index mux => inferInstanceAs (Decidable (0 ≤ mux ∧ mux < (mode : ℤ)))
  | .size n => inferInstanceAs (Decidable (0 ≤ n))

end Wwan.Kernel
