import Mathlib.Algebra.BigOperators.Group.Finset.Piecewise
import Mathlib.Algebra.BigOperators.Pi
import Mathlib.Algebra.Order.Pi

/-!
# Moves between accounts

A move takes an amount from one account to another, which may be the same. What a list of moves does
to an account is the sum of what each does.

* `Move.change`, `net`: the change of every account by one move and by a list of moves;
* `net_of_not_touched`: an account that no move touches keeps its amount;
* `change_nonneg`, `neg_le_change`, `change_destination`: what a move can do to an account;
* **`sum_net`**: a set of accounts that every move stays inside or outside of, keeps its total.
-/

namespace AccountMoves

open Finset

variable {K M : Type*} [DecidableEq K] [AddCommGroup M]

/-- `amount` goes from `source` to `destination`. -/
structure Move (K M : Type*) where
  source : K
  destination : K
  amount : M

/-- What a move adds to each account. -/
def Move.change (m : Move K M) : K → M :=
  Pi.single m.destination m.amount - Pi.single m.source m.amount

/-- What a list of moves adds to each account. -/
def net : List (Move K M) → K → M
  | [] => 0
  | m :: ms => m.change + net ms

/-! ## One account -/

theorem change_self (k : K) (a : M) : (Move.mk k k a).change = 0 := sub_self _

theorem change_of_ne {m : Move K M} {k : K} (hs : k ≠ m.source) (hd : k ≠ m.destination) :
    m.change k = 0 := by
  rw [Move.change, Pi.sub_apply, Pi.single_eq_of_ne hd, Pi.single_eq_of_ne hs, sub_zero]

theorem net_of_not_touched {ms : List (Move K M)} {k : K}
    (h : ∀ m ∈ ms, k ≠ m.source ∧ k ≠ m.destination) : net ms k = 0 := by
  induction ms with
  | nil => rfl
  | cons m ms ih =>
    obtain ⟨hs, hd⟩ := h m List.mem_cons_self
    rw [net, Pi.add_apply, change_of_ne hs hd, ih fun m' hm' => h m' (List.mem_cons_of_mem m hm'),
      add_zero]

section Ordered

variable [PartialOrder M] [IsOrderedAddMonoid M]

omit [IsOrderedAddMonoid M] in
theorem credit_nonneg {m : Move K M} (hm : 0 ≤ m.amount) :
    (0 : K → M) ≤ Pi.single m.destination m.amount := Pi.single_nonneg.mpr hm

omit [IsOrderedAddMonoid M] in
theorem change_nonneg {m : Move K M} {k : K} (h : k ≠ m.source) (hm : 0 ≤ m.amount) :
    0 ≤ m.change k := by
  rw [Move.change, Pi.sub_apply, Pi.single_eq_of_ne h, sub_zero]
  exact credit_nonneg hm k

theorem neg_le_change {m : Move K M} (k : K) (hm : 0 ≤ m.amount) : -m.amount ≤ m.change k := by
  by_cases h : k = m.source
  · rw [Move.change, Pi.sub_apply, h, Pi.single_eq_same, sub_eq_add_neg]
    exact le_add_of_nonneg_left (credit_nonneg hm m.source)
  · exact (neg_nonpos.mpr hm).trans (change_nonneg h hm)

end Ordered

theorem change_destination {s d : K} {a : M} (h : d ≠ s) : (Move.mk s d a).change d = a := by
  rw [Move.change, Pi.sub_apply, Pi.single_eq_same, Pi.single_eq_of_ne h, sub_zero]

/-! ## Totals -/

theorem sum_change {m : Move K M} {s : Finset K} (h : m.source ∈ s ↔ m.destination ∈ s) :
    ∑ k ∈ s, m.change k = 0 := by
  simp only [Move.change, Pi.sub_apply, sum_sub_distrib, sum_pi_single']
  by_cases hs : m.source ∈ s
  · rw [if_pos hs, if_pos (h.mp hs), sub_self]
  · rw [if_neg hs, if_neg (hs ∘ h.mpr), sub_self]

/-- **A set of accounts that every move stays inside or outside of keeps its total.** -/
theorem sum_net {ms : List (Move K M)} {s : Finset K}
    (h : ∀ m ∈ ms, m.source ∈ s ↔ m.destination ∈ s) : ∑ k ∈ s, net ms k = 0 := by
  induction ms with
  | nil => exact sum_const_zero
  | cons m ms ih =>
    have hm : ∑ k ∈ s, m.change k = 0 := sum_change (h m List.mem_cons_self)
    have hms : ∑ k ∈ s, net ms k = 0 := ih fun m' hm' => h m' (List.mem_cons_of_mem m hm')
    calc ∑ k ∈ s, net (m :: ms) k = ∑ k ∈ s, m.change k + ∑ k ∈ s, net ms k := sum_add_distrib
      _ = 0 := by rw [hm, hms, add_zero]

end AccountMoves
