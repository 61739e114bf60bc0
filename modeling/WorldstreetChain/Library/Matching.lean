import Mathlib.Data.List.Nodup
import WorldstreetChain.Library.BTree

/-!
# Ledgers that are matched by keys

Two ledgers have entries with keys and amounts. Where every entry of the first has a partner in the
second, with its key and at least its amount, and no key comes twice in the first, the first sums
up to no more than the second.

* `nodup_map_append` -- an entry with a new key.
* `sum_le_sum_of_matched` -- the rule, for lists.
* `BTreeMap.sum_le_total`, `BTreeMap.total_le_sum` -- **the rule for a list and a map**, either way.
-/

namespace WorldstreetChain

open Std

universe u v w

/-- An entry with a new key. -/
theorem nodup_map_append {α : Type u} {κ : Type w} {key : α → κ} {l : List α} {a : α}
    (h : (l.map key).Nodup) (hnew : ∀ b ∈ l, key b ≠ key a) : ((l ++ [a]).map key).Nodup := by
  rw [List.map_append, List.map_singleton]
  refine List.nodup_append.mpr ⟨h, List.nodup_singleton _, fun x hx y hy heq => ?_⟩
  obtain ⟨b, hb, rfl⟩ := List.mem_map.mp hx
  exact hnew b hb (heq.trans (List.mem_singleton.mp hy))

/-- **The rule of matched ledgers.** -/
theorem sum_le_sum_of_matched {α : Type u} {β : Type v} {κ : Type w} (key : α → κ) (key' : β → κ)
    {amount : α → Nat} {amount' : β → Nat} {l : List α} {l' : List β} (hnodup : (l.map key).Nodup)
    (hmatch : ∀ a ∈ l, amount a = 0 ∨ ∃ b ∈ l', key' b = key a ∧ amount a ≤ amount' b) :
    (l.map amount).sum ≤ (l'.map amount').sum := by
  induction l generalizing l' with
  | nil => exact Nat.zero_le _
  | cons a l ih =>
    rw [List.map_cons, List.nodup_cons] at hnodup
    have hrest := fun a' ha' => hmatch a' (List.mem_cons_of_mem a ha')
    rw [List.map_cons, List.sum_cons]
    rcases hmatch a List.mem_cons_self with hzero | ⟨b, hb, hkey, hle⟩
    · have h := ih hnodup.2 hrest
      omega
    · -- the partner of `a` is the partner of no other entry
      obtain ⟨below, above, rfl⟩ := List.append_of_mem hb
      have hothers : ∀ a' ∈ l, amount a' = 0 ∨
          ∃ b' ∈ below ++ above, key' b' = key a' ∧ amount a' ≤ amount' b' := by
        intro a' ha'
        refine (hrest a' ha').imp_right fun ⟨b', hb', hkey', hle'⟩ => ⟨b', ?_, hkey', hle'⟩
        have hne : b' ≠ b := fun heq =>
          hnodup.1 (List.mem_map.mpr ⟨a', ha', by rw [← hkey', heq, hkey]⟩)
        simpa [hne] using hb'
      have h := ih hnodup.2 hothers
      simp only [List.map_append, List.sum_append, List.map_cons, List.sum_cons] at h ⊢
      omega

namespace BTreeMap

variable {κ : Type u} {ν : Type v} [Ord κ] [TransOrd κ] [LawfulEqOrd κ]
  {α : Type w} {key : α → κ} {amount : α → Nat} {l : List α} {m : BTreeMap κ ν} {f : κ → ν → Nat}

theorem nodup_keys (m : BTreeMap κ ν) : (m.toList.map Prod.fst).Nodup := by
  rw [ExtTreeMap.map_fst_toList_eq_keys]
  refine (ExtTreeMap.distinct_keys (t := m)).imp fun {a b} hne e => hne ?_
  rw [e]
  exact compare_self

/-- **A list whose entries are all in the map.** -/
theorem sum_le_total (hnodup : (l.map key).Nodup)
    (h : ∀ a ∈ l, ∃ v, m[key a]? = some v ∧ amount a ≤ f (key a) v) :
    (l.map amount).sum ≤ total f m := by
  refine sum_le_sum_of_matched key Prod.fst hnodup fun a ha => Or.inr ?_
  obtain ⟨v, hv, hle⟩ := h a ha
  exact ⟨(key a, v), ExtTreeMap.mem_toList_iff_getElem?_eq_some.mpr hv, rfl, hle⟩

/-- **A map whose entries are all in the list.** -/
theorem total_le_sum (h : ∀ k v, m[k]? = some v → f k v = 0 ∨ ∃ a ∈ l, key a = k ∧ f k v ≤ amount a) :
    total f m ≤ (l.map amount).sum :=
  sum_le_sum_of_matched Prod.fst key (nodup_keys m) fun e he =>
    h e.1 e.2 (ExtTreeMap.mem_toList_iff_getElem?_eq_some.mp he)

end BTreeMap

end WorldstreetChain
