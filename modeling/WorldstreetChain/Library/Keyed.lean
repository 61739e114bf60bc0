import WorldstreetChain.Library.BTree

/-!
# Queues with a set of their keys

A queue whose entries have keys, and beside it the set of the keys, so that a key that waits is
found without going through the queue. `Keyed key l keys` is what holds the two together.

* `Keyed.push` -- an entry whose key is not in the set.
* `Keyed.remove` -- **taking keys out**, out of both, whether they wait or not.
-/

namespace WorldstreetChain

open Std

universe u v

variable {α : Type u} {κ : Type v} [Ord κ] [TransOrd κ] [LawfulEqOrd κ]

theorem BTreeSet.mem_insert_iff {set : BTreeSet κ} {k k' : κ} :
    k' ∈ set.insert k ↔ k' = k ∨ k' ∈ set := by
  rw [ExtTreeSet.mem_insert, LawfulEqCmp.compare_eq_iff_eq, eq_comm]

theorem BTreeSet.mem_foldl_erase {ks : List κ} {set : BTreeSet κ} {k : κ} :
    k ∈ ks.foldl (fun set k => set.erase k) set ↔ k ∈ set ∧ k ∉ ks := by
  induction ks generalizing set with
  | nil => exact ⟨fun h => ⟨h, List.not_mem_nil⟩, fun h => h.1⟩
  | cons k' ks ih =>
    rw [List.foldl_cons, ih, ExtTreeSet.mem_erase, List.mem_cons, not_or]
    constructor
    · rintro ⟨⟨hne, hk⟩, hks⟩
      exact ⟨hk, fun heq => hne (by rw [heq]; exact compare_self), hks⟩
    · rintro ⟨hk, hne, hks⟩
      exact ⟨⟨fun heq => hne (LawfulEqCmp.eq_of_compare heq).symm, hk⟩, hks⟩

/-- No two entries have the same key, and the set holds the keys of the entries. -/
structure Keyed (key : α → κ) (l : List α) (keys : BTreeSet κ) : Prop where
  nodup : (l.map key).Nodup
  mem_iff : ∀ k, k ∈ keys ↔ k ∈ l.map key

namespace Keyed

variable {key : α → κ} {l : List α} {keys : BTreeSet κ}

omit [LawfulEqOrd κ] in
theorem nil (key : α → κ) : Keyed key [] ∅ :=
  ⟨List.nodup_nil, fun _ => iff_of_false ExtTreeSet.not_mem_empty List.not_mem_nil⟩

theorem push (h : Keyed key l keys) {a : α} (hnew : key a ∉ keys) :
    Keyed key (l ++ [a]) (keys.insert (key a)) := by
  refine ⟨?_, fun k => ?_⟩
  · rw [List.map_append, List.map_singleton, List.nodup_append]
    refine ⟨h.nodup, List.nodup_singleton _, fun k hk k' hk' heq => ?_⟩
    rw [List.mem_singleton.mp hk'] at heq
    exact hnew ((h.mem_iff _).mpr (heq ▸ hk))
  · rw [BTreeSet.mem_insert_iff, h.mem_iff, List.map_append, List.map_singleton, List.mem_append,
      List.mem_singleton, or_comm]

/-- **Taking keys out.** -/
theorem remove [DecidableEq κ] (h : Keyed key l keys) (ks : List κ) :
    Keyed key (l.filter fun a => key a ∉ ks) (ks.foldl (fun set k => set.erase k) keys) := by
  refine ⟨h.nodup.sublist (List.filter_sublist.map key), fun k => ?_⟩
  rw [BTreeSet.mem_foldl_erase, h.mem_iff, List.mem_map, List.mem_map]
  constructor
  · rintro ⟨⟨a, ha, rfl⟩, hks⟩
    exact ⟨a, List.mem_filter.mpr ⟨ha, decide_eq_true hks⟩, rfl⟩
  · rintro ⟨a, ha, rfl⟩
    obtain ⟨ha, hks⟩ := List.mem_filter.mp ha
    exact ⟨⟨a, ha, rfl⟩, of_decide_eq_true hks⟩

end Keyed

end WorldstreetChain
