import Mathlib.Algebra.Order.BigOperators.Group.Finset

/-!
# Bounds on what several processes add to

Processes add to one amount, each in steps of its own, and each is known to add at
most its share from now on. The amount stays within a bound if it does so together
with all shares; what a process adds it takes from its share, and only a process
that begins a share anew has to make sure of the room.
-/

namespace Wnet.Foundation

variable {Process : Type*} {bound amount amount' : Int}
  {share share' : Process → Int}

/-- The amount and the shares of any of the processes are within the bound. -/
def Reserved (bound amount : Int) (share : Process → Int) : Prop :=
  ∀ processes : Finset Process, amount + ∑ process ∈ processes, share process ≤ bound

theorem Reserved.amount_le (hreserved : Reserved bound amount share) : amount ≤ bound := by
  simpa using hreserved ∅

/-- Nothing has grown. -/
theorem Reserved.mono (hreserved : Reserved bound amount share) (hamount : amount' ≤ amount)
    (hshare : ∀ process, share' process ≤ share process) : Reserved bound amount' share' := by
  intro processes
  have hsum : ∑ process ∈ processes, share' process ≤ ∑ process ∈ processes, share process :=
    Finset.sum_le_sum fun process _ => hshare process
  have hbound := hreserved processes
  omega

variable [DecidableEq Process]

/-- One process adds to the amount what its share loses. -/
theorem Reserved.spend (hreserved : Reserved bound amount share) (spender : Process)
    (hnonneg : 0 ≤ share' spender)
    (hspend : amount' + share' spender ≤ amount + share spender)
    (hothers : ∀ process ≠ spender, share' process ≤ share process) :
    Reserved bound amount' share' := by
  intro processes
  have hrest : ∑ process ∈ processes.erase spender, share' process ≤
      ∑ process ∈ processes.erase spender, share process :=
    Finset.sum_le_sum fun process hprocess => hothers process (Finset.ne_of_mem_erase hprocess)
  have hbound := hreserved (insert spender (processes.erase spender))
  rw [Finset.sum_insert (Finset.notMem_erase _ _)] at hbound
  by_cases hmem : spender ∈ processes
  · have hsum := Finset.add_sum_erase processes share' hmem
    omega
  · rw [Finset.erase_eq_of_notMem hmem] at hrest hbound
    omega

/-- One process begins a share for which there is room. -/
theorem Reserved.claim {extra : Int} (claimant : Process)
    (hroom : Reserved (bound - extra) amount share) (hamount : amount' ≤ amount)
    (hextra : 0 ≤ extra) (hclaim : share' claimant ≤ extra)
    (hothers : ∀ process ≠ claimant, share' process ≤ share process) :
    Reserved bound amount' share' := by
  intro processes
  have hrest : ∑ process ∈ processes.erase claimant, share' process ≤
      ∑ process ∈ processes.erase claimant, share process :=
    Finset.sum_le_sum fun process hprocess => hothers process (Finset.ne_of_mem_erase hprocess)
  have hbound := hroom (processes.erase claimant)
  by_cases hmem : claimant ∈ processes
  · have hsum := Finset.add_sum_erase processes share' hmem
    omega
  · rw [Finset.erase_eq_of_notMem hmem] at hrest hbound
    omega

/-- Shares that are nothing outside of a finite set need only be counted there. -/
theorem Reserved.of_support {support : Finset Process}
    (houtside : ∀ process ∉ support, share process = 0) (hnonneg : ∀ process, 0 ≤ share process)
    (hbound : amount + ∑ process ∈ support, share process ≤ bound) :
    Reserved bound amount share := by
  intro processes
  have hsupport : ∑ process ∈ support, share process =
      ∑ process ∈ support ∪ processes, share process :=
    Finset.sum_subset Finset.subset_union_left fun process _ hmem => houtside process hmem
  have hsum : ∑ process ∈ processes, share process ≤
      ∑ process ∈ support ∪ processes, share process :=
    Finset.sum_le_sum_of_subset_of_nonneg Finset.subset_union_right
      fun process _ _ => hnonneg process
  omega

end Wnet.Foundation
