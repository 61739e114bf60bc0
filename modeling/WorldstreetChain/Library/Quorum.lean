import Mathlib.Data.Finset.Card
import Mathlib.Tactic.Common

/-!
# Two-thirds quorums

The counting behind agreement: in a set of `n` voters, two quorums of at least two thirds share
at least a third of the voters, so a faulty minority of less than a third cannot fill the
overlap.
-/

namespace WorldstreetChain

universe u

variable {α : Type u} [DecidableEq α] {voters a b : Finset α}

/-- A set of votes is a quorum of `voters` when it holds at least two thirds of them. -/
def IsQuorum (voters votes : Finset α) : Prop :=
  votes ⊆ voters ∧ 2 * voters.card ≤ 3 * votes.card

/-- **Two quorums share at least a third of the voters.** -/
theorem IsQuorum.inter (ha : IsQuorum voters a) (hb : IsQuorum voters b) :
    voters.card ≤ 3 * (a ∩ b).card := by
  have hu : (a ∪ b).card ≤ voters.card :=
    Finset.card_le_card (Finset.union_subset ha.1 hb.1)
  have hc := Finset.card_union_add_card_inter a b
  have ha2 := ha.2
  have hb2 := hb.2
  omega

/-- **Two quorums share a voter outside any faulty minority** of less than a third. -/
theorem IsQuorum.exists_correct (ha : IsQuorum voters a) (hb : IsQuorum voters b)
    {faulty : Finset α} (hf : 3 * faulty.card < voters.card) : ∃ v ∈ a ∩ b, v ∉ faulty := by
  refine Finset.exists_mem_notMem_of_card_lt_card ?_
  have h := ha.inter hb
  omega

end WorldstreetChain
