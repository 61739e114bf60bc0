import Std.Data.ExtTreeMap.Lemmas
import Std.Data.ExtTreeSet.Lemmas
import Mathlib.Data.List.Perm.Basic
import Mathlib.Algebra.Order.BigOperators.Group.List
import Mathlib.Algebra.Order.Group.Nat
import Mathlib.Algebra.Order.Ring.Int
import Mathlib.Data.Finset.Card
import Mathlib.Tactic.Common

/-!
# Ordered maps and sets

`BTreeMap` and `BTreeSet` are Std's extensional tree maps and sets, ordered by the key type's
order. This file adds what an accounting argument needs:

* the sum of a measure over the entries of a map (`BTreeMap.total`), and how inserting one entry
  changes it;
* `ofList_toList`: a map is what inserting its entries in key order builds;
* `BTreeMap.mem_lastEntries_iff`: an entry is among the last `c` of a map exactly if fewer than `c`
  keys are greater;
* orders pulled back along an injection (`lawfulEqCmp_compareOn`), for key types that wrap another.
-/

namespace WorldstreetChain

open Std

universe u v

abbrev BTreeMap (κ : Type u) (ν : Type v) [Ord κ] := ExtTreeMap κ ν compare

abbrev BTreeSet (κ : Type u) [Ord κ] := ExtTreeSet κ compare

theorem lawfulEqCmp_compareOn {α : Type u} {β : Type v} [Ord β] [LawfulEqOrd β]
    {f : α → β} (hf : Function.Injective f) : LawfulEqCmp (compareOn f) where
  compare_self := by simp [compareOn]
  eq_of_compare {a b} h := hf (LawfulEqOrd.eq_of_compare (by simpa [compareOn] using h))

namespace BTreeMap

variable {κ : Type u} {ν : Type v} [Ord κ] [TransOrd κ] [LawfulEqOrd κ]

/-! ## 1. The entries of a map, up to order -/

/-- An entry behind an insertion: the new one under its key, the old one elsewhere. -/
theorem getElem?_insert_ite [DecidableEq κ] (m : BTreeMap κ ν) (k k' : κ) (v : ν) :
    (m.insert k v)[k']? = if k' = k then some v else m[k']? := by
  rw [ExtTreeMap.getElem?_insert]
  by_cases h : k' = k
  · rw [if_pos h, if_pos (by rw [h]; exact compare_self)]
  · rw [if_neg h, if_neg fun hc => h (LawfulEqOrd.eq_of_compare hc).symm]

theorem nodup_toList (m : BTreeMap κ ν) : m.toList.Nodup := by
  have h := ExtTreeMap.distinct_keys_toList (t := m)
  refine h.imp fun {a b} hne e => hne ?_
  rw [e]
  exact compare_self

/-- The entries of a map under other keys than `k`. -/
def others [DecidableEq κ] (m : BTreeMap κ ν) (k : κ) : List (κ × ν) :=
  m.toList.filter fun e => decide (e.1 ≠ k)

variable [DecidableEq κ]

theorem mem_others {m : BTreeMap κ ν} {k : κ} {e : κ × ν} :
    e ∈ others m k ↔ m[e.1]? = some e.2 ∧ e.1 ≠ k := by
  obtain ⟨k', v'⟩ := e
  rw [others, List.mem_filter, ExtTreeMap.mem_toList_iff_getElem?_eq_some]
  simp

theorem toList_perm_of_get {m : BTreeMap κ ν} {k : κ} {v : ν} (h : m[k]? = some v) :
    m.toList.Perm ((k, v) :: others m k) := by
  have hn : ((k, v) :: others m k).Nodup :=
    List.nodup_cons.mpr ⟨fun hm => (mem_others.mp hm).2 rfl, (nodup_toList m).filter _⟩
  refine (List.perm_ext_iff_of_nodup (nodup_toList m) hn).mpr fun e => ?_
  rw [List.mem_cons, mem_others, ExtTreeMap.mem_toList_iff_getElem?_eq_some (k := e.1) (v := e.2)]
  constructor
  · intro he
    by_cases hk : e.1 = k
    · left
      rw [hk, h] at he
      exact Prod.ext hk (Option.some.inj he).symm
    · exact Or.inr ⟨he, hk⟩
  · rintro (rfl | ⟨he, -⟩)
    · exact h
    · exact he

theorem toList_eq_others {m : BTreeMap κ ν} {k : κ} (h : m[k]? = none) :
    others m k = m.toList := by
  refine List.filter_eq_self.mpr fun e he => ?_
  have hm := ExtTreeMap.mem_toList_iff_getElem?_eq_some.mp he
  simp only [ne_eq, decide_not, Bool.not_eq_eq_eq_not, Bool.not_true, decide_eq_false_iff_not]
  rintro rfl
  rw [h] at hm
  cases hm

theorem others_insert (m : BTreeMap κ ν) (k : κ) (v : ν) :
    (others (m.insert k v) k).Perm (others m k) := by
  refine (List.perm_ext_iff_of_nodup ((nodup_toList _).filter _)
    ((nodup_toList _).filter _)).mpr fun e => ?_
  show e ∈ others (m.insert k v) k ↔ e ∈ others m k
  rw [mem_others, mem_others, ExtTreeMap.getElem?_insert]
  constructor
  · rintro ⟨he, hk⟩
    rw [if_neg (fun hc => hk (LawfulEqOrd.eq_of_compare hc).symm)] at he
    exact ⟨he, hk⟩
  · rintro ⟨he, hk⟩
    rw [if_neg (fun hc => hk (LawfulEqOrd.eq_of_compare hc).symm)]
    exact ⟨he, hk⟩

/-! ## 2. Sums over the entries -/

/-- The sum of `f k v` over the entries of a map. -/
def total (f : κ → ν → Nat) (m : BTreeMap κ ν) : Nat :=
  (m.toList.map fun e => f e.1 e.2).sum

variable (f : κ → ν → Nat)

omit [Ord κ] [TransOrd κ] [LawfulEqOrd κ] [DecidableEq κ] in
theorem total_congr_perm {l l' : List (κ × ν)} (h : l.Perm l') :
    (l.map fun e => f e.1 e.2).sum = (l'.map fun e => f e.1 e.2).sum :=
  (h.map _).sum_eq

/-- The sum splits into the entry under `k`, if there is one, and the others. -/
theorem total_split (m : BTreeMap κ ν) (k : κ) :
    total f m = m[k]?.elim 0 (f k) + ((others m k).map fun e => f e.1 e.2).sum := by
  cases h : m[k]? with
  | none => simp [total, toList_eq_others h]
  | some v =>
    rw [total, total_congr_perm f (toList_perm_of_get h)]
    simp

/-- **Inserting an entry** trades the measure of the old entry for that of the new one. -/
theorem total_insert (m : BTreeMap κ ν) (k : κ) (v : ν) :
    total f (m.insert k v) + m[k]?.elim 0 (f k) = total f m + f k v := by
  have h := total_split f (m.insert k v) k
  rw [ExtTreeMap.getElem?_insert_self, total_congr_perm f (others_insert m k v),
    Option.elim_some] at h
  have h' := total_split f m k
  omega

theorem le_total {m : BTreeMap κ ν} {k : κ} {v : ν} (h : m[k]? = some v) :
    f k v ≤ total f m := by
  rw [total_split f m k, h]
  exact Nat.le_add_right _ _

omit [LawfulEqOrd κ] [DecidableEq κ] in
@[simp] theorem total_empty : total f (∅ : BTreeMap κ ν) = 0 := by
  have h : (∅ : BTreeMap κ ν).toList = [] := ExtTreeMap.toList_eq_nil_iff.mpr rfl
  rw [total, h]
  rfl

/-- Two different keys together hold at most the sum. -/
theorem add_le_total {m : BTreeMap κ ν} {k k' : κ} (hne : k' ≠ k) :
    m[k]?.elim 0 (f k) + m[k']?.elim 0 (f k') ≤ total f m := by
  rw [total_split f m k]
  refine Nat.add_le_add_left ?_ _
  cases h' : m[k']? with
  | none => exact Nat.zero_le _
  | some v' =>
    have hm : (k', v') ∈ others m k := mem_others.mpr ⟨h', hne⟩
    exact List.le_sum_of_mem (List.mem_map.mpr ⟨(k', v'), hm, rfl⟩)

omit [DecidableEq κ] in
/-! ## 3. A map from its entries -/

theorem ofList_toList (m : BTreeMap κ ν) : ExtTreeMap.ofList m.toList compare = m := by
  refine ExtTreeMap.ext_getElem? fun k => ?_
  cases h : m[k]? with
  | none =>
    refine ExtTreeMap.getElem?_ofList_of_contains_eq_false ?_
    refine Bool.eq_false_iff.mpr fun hc => ?_
    rw [List.contains_iff_mem, ExtTreeMap.map_fst_toList_eq_keys, ExtTreeMap.mem_keys,
      ExtTreeMap.mem_iff_isSome_getElem?] at hc
    rw [h] at hc
    cases hc
  | some v =>
    exact ExtTreeMap.getElem?_ofList_of_mem compare_self ExtTreeMap.distinct_keys_toList
      (ExtTreeMap.mem_toList_iff_getElem?_eq_some.mpr h)

/-! ## 4. The keys of a map -/

/-- The keys as a finite set. -/
def keyFinset (m : BTreeMap κ ν) : Finset κ := m.keys.toFinset

@[simp] theorem mem_keyFinset {m : BTreeMap κ ν} {k : κ} : k ∈ keyFinset m ↔ k ∈ m := by
  rw [keyFinset, List.mem_toFinset, ExtTreeMap.mem_keys]

/-- A map has as many keys as entries. -/
theorem card_keyFinset (m : BTreeMap κ ν) : (keyFinset m).card = m.size := by
  have hnodup : m.keys.Nodup := by
    have h := ExtTreeMap.distinct_keys (t := m)
    refine h.imp fun {a b} hne e => hne ?_
    rw [e]
    exact compare_self
  rw [keyFinset, List.toFinset_card_of_nodup hnodup, ExtTreeMap.length_keys]

/-! ## 5. The last entries -/

omit [LawfulEqOrd κ] [DecidableEq κ] in
/-- How many keys are greater. -/
def greaterKeys (m : BTreeMap κ ν) (k : κ) : Nat :=
  (m.toList.filter fun e => compare k e.1 == .lt).length

/-- In an ascending list an element is among the last `c` exactly if fewer than `c` are greater. -/
theorem mem_take_reverse_iff {α : Type u} (gt : α → α → Bool) {l : List α} {x : α}
    (hsorted : l.Pairwise fun a b => gt a b = true) (hasymm : ∀ a b, gt a b = true → gt b a = false)
    (hx : x ∈ l) (c : Nat) : x ∈ l.reverse.take c ↔ (l.filter (gt x)).length < c := by
  obtain ⟨below, above, rfl⟩ := List.append_of_mem hx
  obtain ⟨-, habove, hcross⟩ := List.pairwise_append.mp hsorted
  have hgt : ∀ y ∈ above, gt x y = true := (List.pairwise_cons.mp habove).1
  have hself : gt x x = false := by
    by_contra h
    have ht : gt x x = true := by simpa using h
    rw [hasymm x x ht] at ht
    cases ht
  have hbelow : ∀ y ∈ below, ¬ gt x y = true := by
    intro y hy
    rw [hasymm y x (hcross y hy x List.mem_cons_self)]
    simp
  have hcount : ((below ++ x :: above).filter (gt x)).length = above.length := by
    rw [List.filter_append, List.filter_eq_nil_iff.mpr hbelow, List.filter_cons,
      List.filter_eq_self.mpr hgt, hself]
    rfl
  have hnot : x ∉ above.reverse := by
    intro h
    have ht := hgt x (List.mem_reverse.mp h)
    rw [hself] at ht
    cases ht
  rw [hcount, List.reverse_append, List.reverse_cons, List.append_assoc, List.take_append,
    List.length_reverse, List.mem_append]
  constructor
  · intro h
    rcases h with h | h
    · exact absurd (List.mem_of_mem_take h) hnot
    · by_contra hc
      rw [show c - above.length = 0 by omega] at h
      exact List.not_mem_nil h
  · intro hc
    right
    obtain ⟨d, hd⟩ : ∃ d, c - above.length = d + 1 := ⟨c - above.length - 1, by omega⟩
    rw [hd]
    exact List.mem_cons_self

omit [DecidableEq κ] in
/-- **An entry is among the last `c`** exactly if fewer than `c` keys are greater. -/
theorem mem_lastEntries_iff {m : BTreeMap κ ν} {k : κ} {v : ν} (h : m[k]? = some v) (c : Nat) :
    (k, v) ∈ m.toList.reverse.take c ↔ greaterKeys m k < c := by
  have hsorted : m.toList.Pairwise fun a b => (compare a.1 b.1 == .lt) = true :=
    (ExtTreeMap.ordered_keys_toList (t := m)).imp fun hlt => by simp [hlt]
  refine mem_take_reverse_iff (fun a b => compare a.1 b.1 == .lt) hsorted
    (fun a b hab => ?_) (ExtTreeMap.mem_toList_iff_getElem?_eq_some.mpr h) c
  have hlt : compare a.1 b.1 = .lt := by simpa using hab
  have hswap : compare b.1 a.1 = (compare a.1 b.1).swap := OrientedCmp.eq_swap
  rw [hswap, hlt]
  rfl

end BTreeMap

end WorldstreetChain
