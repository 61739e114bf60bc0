import Mathlib.Algebra.Order.Ring.Int
import Mathlib.Data.Nat.Log
import Mathlib.Logic.Function.Iterate
import Mathlib.Tactic.Common

/-!
# Trees over lists, built in layers

A layer is built from the one below by joining neighbours, an odd last node with itself, until one
node is left. Lists of many lengths have one tree: what the tree stands on is the list filled up
to a power of two.

* `Merkle.layer`, `Merkle.depth` -- one layer up, and how many there are.
* `Merkle.fill` -- a list with the odd last node of each of `k` layers repeated, as leaves.
* `Merkle.layers_eq_iff` -- **`k` layers up two lists agree exactly if they agree filled up**, for a
  joining function that has no collision among the pairs it is applied to.
* `Merkle.tops_eq_iff` -- so two tops are equal exactly if one list, filled up, is a layer over the
  other, filled up.
-/

namespace WorldstreetChain.Merkle

universe u v

variable {α : Type u} {β : Type v}

/-! ## 1. Layers -/

/-- Neighbours, an odd last element with itself. -/
def pairs : List α → List (α × α)
  | [] => []
  | [a] => [(a, a)]
  | a :: b :: rest => (a, b) :: pairs rest

def unpairs (ps : List (α × α)) : List α := ps.flatMap fun p => [p.1, p.2]

/-- One layer up. -/
def layer (f : α × α → α) (l : List α) : List α := (pairs l).map f

/-- The layers between a list and the single top node over it. -/
def depth (l : List α) : Nat := Nat.clog 2 l.length

/-- The list with the odd last node of each of the next `k` layers repeated. -/
def fill : (k : Nat) → {α : Type u} → List α → List α
  | 0, _, l => l
  | k + 1, _, l => unpairs (fill k (pairs l))

/-- The list filled up to a power of two. -/
def completed (l : List α) : List α := fill (depth l) l

/-- All layers over a list, from the list itself to the top. -/
def layers (f : α × α → α) (l : List α) : List (List α) :=
  (List.range (depth l + 1)).map fun k => (layer f)^[k] l

/-- The pairs that are joined in the next `k` layers. -/
def joined (f : α × α → α) : Nat → List α → List (α × α)
  | 0, _ => []
  | k + 1, l => pairs l ++ joined f k (layer f l)

example : completed [1, 2, 3, 4, 5] = [1, 2, 3, 4, 5, 5, 5, 5] := by decide

theorem length_pairs (l : List α) : (pairs l).length = (l.length + 1) / 2 := by
  induction l using pairs.induct with
  | case1 => simp [pairs]
  | case2 a => simp [pairs]
  | case3 a b rest ih =>
    simp only [pairs, List.length_cons, ih]
    omega

theorem length_layer (f : α × α → α) (l : List α) :
    (layer f l).length = (l.length + 1) / 2 := by
  rw [layer, List.length_map, length_pairs]

theorem pairs_map (g : α → β) (l : List α) : pairs (l.map g) = (pairs l).map (Prod.map g g) := by
  induction l using pairs.induct with
  | case1 => rfl
  | case2 a => rfl
  | case3 a b rest ih => simp only [List.map_cons, pairs, ih, Prod.map_apply]

@[simp] theorem unpairs_cons (p : α × α) (ps : List (α × α)) :
    unpairs (p :: ps) = p.1 :: p.2 :: unpairs ps := rfl

theorem unpairs_map (g : α → β) (ps : List (α × α)) :
    unpairs (ps.map (Prod.map g g)) = (unpairs ps).map g := by
  induction ps with
  | nil => rfl
  | cons p ps ih => simp only [List.map_cons, unpairs_cons, ih, Prod.map_fst, Prod.map_snd]

theorem unpairs_injective : Function.Injective (unpairs (α := α)) := by
  intro ps
  induction ps with
  | nil =>
    intro qs h
    cases qs with
    | nil => rfl
    | cons q qs => cases h
  | cons p ps ih =>
    intro qs h
    cases qs with
    | nil => cases h
    | cons q qs =>
      simp only [unpairs_cons, List.cons.injEq] at h
      rw [ih h.2.2, Prod.ext h.1 h.2.1]

@[simp] theorem length_unpairs (ps : List (α × α)) : (unpairs ps).length = 2 * ps.length := by
  induction ps with
  | nil => rfl
  | cons p ps ih =>
    simp only [unpairs_cons, List.length_cons, ih]
    omega

/-- Taken apart again, the pairs begin with the list. -/
theorem prefix_unpairs_pairs (l : List α) : l <+: unpairs (pairs l) := by
  induction l using pairs.induct with
  | case1 => exact List.prefix_refl _
  | case2 a => exact ⟨[a], rfl⟩
  | case3 a b rest ih =>
    obtain ⟨tail, htail⟩ := ih
    exact ⟨tail, by rw [pairs, unpairs_cons, ← htail]; rfl⟩

theorem unpairs_mono {ps qs : List (α × α)} (h : ps <+: qs) : unpairs ps <+: unpairs qs := by
  obtain ⟨rest, rfl⟩ := h
  exact ⟨unpairs rest, by rw [unpairs, unpairs, unpairs, List.flatMap_append]⟩

/-! ## 2. Filling up -/

theorem fill_map (k : Nat) {α β : Type u} (g : α → β) (l : List α) :
    fill k (l.map g) = (fill k l).map g := by
  induction k generalizing α β with
  | zero => rfl
  | succ k ih => rw [fill, fill, pairs_map, ih, unpairs_map]

/-- A list begins its filling. -/
theorem prefix_fill (k : Nat) {α : Type u} (l : List α) : l <+: fill k l := by
  induction k generalizing α with
  | zero => exact List.prefix_refl _
  | succ k ih => exact (prefix_unpairs_pairs l).trans (unpairs_mono (ih (pairs l)))

theorem mem_pairs {l : List α} {p : α × α} (h : p ∈ pairs l) : p.1 ∈ l ∧ p.2 ∈ l := by
  induction l using pairs.induct with
  | case1 => cases h
  | case2 a =>
    rw [pairs, List.mem_singleton] at h
    rw [h]
    exact ⟨List.mem_singleton_self a, List.mem_singleton_self a⟩
  | case3 a b rest ih =>
    rcases List.mem_cons.mp h with rfl | h
    · exact ⟨List.mem_cons_self, List.mem_cons_of_mem _ List.mem_cons_self⟩
    · have hrest := ih h
      exact ⟨List.mem_cons_of_mem _ (List.mem_cons_of_mem _ hrest.1),
        List.mem_cons_of_mem _ (List.mem_cons_of_mem _ hrest.2)⟩

/-- Nothing new is filled in. -/
theorem mem_fill {k : Nat} {α : Type u} {l : List α} {a : α} (h : a ∈ fill k l) : a ∈ l := by
  induction k generalizing α with
  | zero => exact h
  | succ k ih =>
    obtain ⟨p, hp, ha⟩ := List.mem_flatMap.mp h
    have hl := mem_pairs (ih hp)
    simp only [List.mem_cons, List.not_mem_nil, or_false] at ha
    rcases ha with rfl | rfl
    · exact hl.1
    · exact hl.2

/-- A filling is a power of two long. -/
theorem length_fill {k : Nat} {α : Type u} {l : List α} (h0 : l ≠ [])
    (h : l.length ≤ 2 ^ k) : (fill k l).length = 2 ^ k := by
  induction k generalizing α with
  | zero =>
    have hpos := List.length_pos_iff.mpr h0
    rw [fill]
    omega
  | succ k ih =>
    have hpos := List.length_pos_iff.mpr h0
    have hlen := length_pairs l
    have hne : pairs l ≠ [] := List.length_pos_iff.mp (by omega)
    rw [fill, length_unpairs, ih hne (by rw [Nat.pow_succ] at h; omega), Nat.pow_succ,
      Nat.mul_comm]

/-! ## 3. Layers and fillings -/

variable {f : α × α → α} {l l' m : List α} {k : Nat}

theorem fill_layer (f : α × α → α) (k : Nat) (l : List α) :
    fill k (layer f l) = (fill k (pairs l)).map f :=
  fill_map k f (pairs l)

/-- Lists whose images agree agree, if the function does not confuse their elements. -/
theorem eq_of_map_eq {g : α → β} (hg : ∀ a ∈ l, ∀ b ∈ l', g a = g b → a = b)
    (h : l.map g = l'.map g) : l = l' := by
  induction l generalizing l' with
  | nil => exact (List.map_eq_nil_iff.mp h.symm).symm
  | cons a l ih =>
    obtain ⟨b, m, rfl, hb, hm⟩ := List.map_eq_cons_iff.mp h.symm
    have hhead : a = b := hg a List.mem_cons_self b List.mem_cons_self hb.symm
    have htail : l = m := ih (fun c hc d hd => hg c (List.mem_cons_of_mem _ hc) d
      (List.mem_cons_of_mem _ hd)) hm.symm
    rw [hhead, htail]

/-- **Layers and fillings**: `k` layers up two lists agree exactly if they agree filled up. -/
theorem layers_eq_iff (hf : ∀ p ∈ joined f k l, ∀ q ∈ joined f k l', f p = f q → p = q) :
    (layer f)^[k] l = (layer f)^[k] l' ↔ fill k l = fill k l' := by
  induction k generalizing l l' with
  | zero => exact Iff.rfl
  | succ k ih =>
    have hnext : ∀ p ∈ joined f k (layer f l), ∀ q ∈ joined f k (layer f l'), f p = f q → p = q :=
      fun p hp q hq => hf p (List.mem_append_right _ hp) q (List.mem_append_right _ hq)
    have hthis : ∀ p ∈ fill k (pairs l), ∀ q ∈ fill k (pairs l'), f p = f q → p = q :=
      fun p hp q hq => hf p (List.mem_append_left _ (mem_fill hp)) q
        (List.mem_append_left _ (mem_fill hq))
    rw [Function.iterate_succ_apply, Function.iterate_succ_apply, ih hnext, fill_layer, fill_layer,
      fill, fill, unpairs_injective.eq_iff]
    exact ⟨eq_of_map_eq hthis, congrArg (List.map f)⟩

/-! ## 4. Tops -/

theorem mem_layers : m ∈ layers f l ↔ ∃ k ≤ depth l, (layer f)^[k] l = m := by
  simp only [layers, List.mem_map, List.mem_range, Nat.lt_succ_iff]

theorem depth_layer (h : 2 ≤ l.length) : depth l = depth (layer f l) + 1 := by
  rw [depth, depth, length_layer]
  exact Nat.clog_of_two_le (by decide) h

theorem depth_singleton (a : α) : depth [a] = 0 := Nat.clog_of_right_le_one (Nat.le_refl 1) 2

theorem layer_ne_nil (h : l ≠ []) : layer f l ≠ [] := by
  have hpos := List.length_pos_iff.mpr h
  have hlen := length_layer f l
  exact List.length_pos_iff.mp (by omega)

theorem two_le_length (h : 0 < depth l) : 2 ≤ l.length := by
  by_contra hlt
  rw [depth, Nat.clog_of_right_le_one (by omega)] at h
  exact Nat.lt_irrefl 0 h

/-- `k` layers up, `k` fewer are left. -/
theorem depth_iterate (h : k ≤ depth l) : depth ((layer f)^[k] l) + k = depth l := by
  induction k generalizing l with
  | zero => rfl
  | succ k ih =>
    have hdepth : depth l = depth (layer f l) + 1 := depth_layer (two_le_length (by omega))
    have hrest := ih (l := layer f l) (by omega)
    rw [Function.iterate_succ_apply]
    omega

theorem iterate_ne_nil (h : l ≠ []) : (layer f)^[k] l ≠ [] := by
  induction k generalizing l with
  | zero => exact h
  | succ k ih => exact ih (layer_ne_nil h)

theorem length_completed (h : l ≠ []) : (completed l).length = 2 ^ depth l :=
  length_fill h (Nat.le_pow_clog (by decide) _)

theorem completed_ne_nil (h : l ≠ []) : completed l ≠ [] :=
  List.length_pos_iff.mp (length_completed h ▸ Nat.two_pow_pos _)

theorem completed_singleton (a : α) : completed [a] = [a] := by
  rw [completed, depth_singleton]
  rfl

/-- A list that is one node filled up is that node. -/
theorem completed_eq_singleton {a : α} (hl : l ≠ []) : completed l = [a] ↔ l = [a] := by
  refine ⟨fun h => ?_, fun h => h ▸ completed_singleton a⟩
  have hprefix : l <+: [a] := h ▸ prefix_fill (depth l) l
  have hle := hprefix.length_le
  have hpos := List.length_pos_iff.mpr hl
  exact hprefix.eq_of_length (Nat.le_antisymm hle hpos)

theorem joined_add (f : α × α → α) (j k : Nat) (l : List α) :
    joined f (j + k) l = joined f j l ++ joined f k ((layer f)^[j] l) := by
  induction j generalizing l with
  | zero => rw [Nat.zero_add]; rfl
  | succ j ih =>
    rw [Nat.succ_add, joined, joined, ih, List.append_assoc]
    rfl

/-- Filled up alike, as many layers lie over both. -/
theorem depth_eq_of_completed_eq (hl : l ≠ []) (hm : m ≠ []) (h : completed l = completed m) :
    depth l = depth m := by
  have hlen := congrArg List.length h
  rw [length_completed hl, length_completed hm] at hlen
  exact Nat.pow_right_injective (Nat.le_refl 2) hlen

/-- `d` layers up from the list, and `d` layers up from the `k`th layer over the other. -/
theorem tops_eq_iff_of_add (hdepth : depth l + k = depth l')
    (hf : ∀ p ∈ joined f (depth l) l, ∀ q ∈ joined f (depth l') l', f p = f q → p = q) :
    (layer f)^[depth l] l = (layer f)^[depth l'] l' ↔
      completed l = completed ((layer f)^[k] l') := by
  have hk : depth ((layer f)^[k] l') = depth l := by
    have h := depth_iterate (f := f) (l := l') (k := k) (by omega)
    omega
  have hupper : ∀ p ∈ joined f (depth l) l, ∀ q ∈ joined f (depth l) ((layer f)^[k] l'),
      f p = f q → p = q := by
    intro p hp q hq
    refine hf p hp q ?_
    rw [← hdepth, Nat.add_comm, joined_add]
    exact List.mem_append_right _ hq
  rw [← hdepth, Function.iterate_add_apply, layers_eq_iff hupper, completed, completed, hk]

/-- **Equal tops**: one of the lists, filled up, is a layer over the other, filled up. -/
theorem tops_eq_iff (hl : l ≠ []) (hl' : l' ≠ [])
    (hf : ∀ p ∈ joined f (depth l) l, ∀ q ∈ joined f (depth l') l', f p = f q → p = q) :
    (layer f)^[depth l] l = (layer f)^[depth l'] l' ↔
      (∃ m ∈ layers f l', completed l = completed m) ∨
        ∃ m ∈ layers f l, completed l' = completed m := by
  have hf' : ∀ p ∈ joined f (depth l') l', ∀ q ∈ joined f (depth l) l, f p = f q → p = q :=
    fun p hp q hq h => (hf q hq p hp h.symm).symm
  constructor
  · intro htop
    rcases Nat.le_total (depth l) (depth l') with hle | hle
    · obtain ⟨k, hk⟩ := Nat.exists_eq_add_of_le hle
      exact Or.inl ⟨_, mem_layers.mpr ⟨k, by omega, rfl⟩,
        (tops_eq_iff_of_add hk.symm hf).mp htop⟩
    · obtain ⟨k, hk⟩ := Nat.exists_eq_add_of_le hle
      exact Or.inr ⟨_, mem_layers.mpr ⟨k, by omega, rfl⟩,
        (tops_eq_iff_of_add hk.symm hf').mp htop.symm⟩
  · rintro (⟨m, hm, h⟩ | ⟨m, hm, h⟩)
    · obtain ⟨k, hk, rfl⟩ := mem_layers.mp hm
      have hsame := depth_eq_of_completed_eq hl (iterate_ne_nil hl') h
      have hdepth := depth_iterate (f := f) hk
      exact (tops_eq_iff_of_add (by omega) hf).mpr h
    · obtain ⟨k, hk, rfl⟩ := mem_layers.mp hm
      have hsame := depth_eq_of_completed_eq hl' (iterate_ne_nil hl) h
      have hdepth := depth_iterate (f := f) hk
      exact ((tops_eq_iff_of_add (by omega) hf').mpr h).symm

/-- **Lists of one length** are told apart by their tops. -/
theorem eq_of_tops_eq (hlen : l.length = l'.length)
    (hf : ∀ p ∈ joined f (depth l) l, ∀ q ∈ joined f (depth l') l', f p = f q → p = q)
    (h : (layer f)^[depth l] l = (layer f)^[depth l'] l') : l = l' := by
  have hdepth : depth l + 0 = depth l' := congrArg (Nat.clog 2) hlen
  have hfull : completed l = completed l' := (tops_eq_iff_of_add hdepth hf).mp h
  have hprefix : l <+: completed l' := hfull ▸ prefix_fill _ l
  exact (List.prefix_of_prefix_length_le hprefix (prefix_fill _ l')
    (Nat.le_of_eq hlen)).eq_of_length hlen

/-- The top of a list is one node. -/
theorem length_top (h : l ≠ []) : ((layer f)^[depth l] l).length = 1 := by
  have hrest := depth_iterate (f := f) (Nat.le_refl (depth l))
  have hpos := List.length_pos_iff.mpr (iterate_ne_nil (f := f) (k := depth l) h)
  have hone : ¬ 1 < ((layer f)^[depth l] l).length := by
    intro hlt
    have hdepth : 0 < depth ((layer f)^[depth l] l) := Nat.clog_pos (by decide) hlt
    omega
  omega

/-- A top over two nodes or more joins a pair. -/
theorem top_joins (h : 0 < depth l) {r : α} (hr : (layer f)^[depth l] l = [r]) :
    ∃ p ∈ joined f (depth l) l, r = f p := by
  obtain ⟨k, hk⟩ := Nat.exists_eq_add_of_le' h
  have hlast : layer f ((layer f)^[k] l) = [r] := by
    rw [← Function.iterate_succ_apply' (layer f), ← hr, hk]
  obtain ⟨p, hp⟩ := List.length_eq_one_iff.mp ((List.length_map f).symm.trans
    (congrArg List.length hlast))
  refine ⟨p, ?_, ?_⟩
  · rw [hk, joined_add]
    exact List.mem_append_right _ (List.mem_append_left _ (hp ▸ List.mem_singleton_self p))
  · rw [layer, hp] at hlast
    exact (List.cons.inj hlast).1.symm

end WorldstreetChain.Merkle
