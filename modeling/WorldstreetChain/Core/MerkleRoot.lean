import WorldstreetChain.Core.Crypto
import WorldstreetChain.Library.Merkle

/-!
# What a Merkle root identifies (`merkle_root`)

An odd layer is filled up with its last hash and a leaf is hashed like an inner node, so a root
does not identify a list. What it identifies is stated exactly.

* `Crypto.SeparatesRoots` -- SHA-256 has no collision between the messages hashed for two lists.
* `Crypto.merkleRoot_eq_iff` -- **equal roots**: one list, filled up to a power of two, is a layer
  over the other, filled up. Lists of one length have different roots.
-/

namespace WorldstreetChain.Crypto

open Postcard (utf8)
open Merkle (completed depth joined layer layers)

variable (C : Crypto)

/-- An inner node. -/
def merkleNode (p : Hash × Hash) : Hash :=
  C.sha256Domain "MNA/merkle/v1" (p.1.bytes.toList ++ p.2.bytes.toList)

/-- The message an inner node hashes. -/
def merkleMessage (p : Hash × Hash) : List UInt8 :=
  utf8 "MNA/merkle/v1" ++ (p.1.bytes.toList ++ p.2.bytes.toList)

/-- The messages hashed for the root of a list. -/
def merkleMessages (leaves : List Hash) : List (List UInt8) :=
  if leaves.isEmpty then [utf8 "MNA/tx-root/v1" ++ []]
  else (joined C.merkleNode (depth leaves) leaves).map merkleMessage

/-- The layers from the leaves up to the root. -/
def merkleLayers (leaves : List Hash) : List (List Hash) :=
  if leaves.isEmpty then [[], [C.merkleRoot []]] else layers C.merkleNode leaves

/-- No message of the one list has the digest of another message of the other list. -/
def SeparatesRoots (l l' : List Hash) : Prop :=
  ∀ m ∈ C.merkleMessages l, ∀ m' ∈ C.merkleMessages l', C.sha256 m = C.sha256 m' → m = m'

instance (l l' : List Hash) : Decidable (C.SeparatesRoots l l') :=
  inferInstanceAs (Decidable (∀ m ∈ C.merkleMessages l, ∀ m' ∈ C.merkleMessages l',
    C.sha256 m = C.sha256 m' → m = m'))

variable {C} {l l' : List Hash} {p q : Hash × Hash}

/-! ## 1. The source's layers -/

theorem merkleLayer_eq (l : List Hash) : C.merkleLayer l = layer C.merkleNode l := by
  induction l using merkleLayer.induct with
  | case1 => rfl
  | case2 a => rfl
  | case3 a b rest ih => rw [merkleLayer, ih]; rfl

/-- The loop ends at the top. -/
theorem merkleLoop_top {fuel : Nat} (hl : l ≠ []) (hfuel : depth l ≤ fuel) :
    (layer C.merkleNode)^[depth l] l = [C.merkleLoop fuel l] := by
  induction fuel generalizing l with
  | zero =>
    have hone := Merkle.length_top (f := C.merkleNode) hl
    rw [Nat.le_zero.mp hfuel] at hone ⊢
    obtain ⟨a, rfl⟩ := List.length_eq_one_iff.mp hone
    rfl
  | succ fuel ih =>
    match l with
    | [] => exact absurd rfl hl
    | [a] =>
      rw [Merkle.depth_singleton]
      rfl
    | a :: b :: rest =>
      have hdepth := Merkle.depth_layer (f := C.merkleNode) (l := a :: b :: rest) (by simp)
      rw [hdepth, Function.iterate_succ_apply, merkleLoop, merkleLayer_eq]
      · exact ih (Merkle.layer_ne_nil hl) (by omega)
      · simp

/-- **The root is the top.** -/
theorem merkleRoot_top (hl : l ≠ []) :
    (layer C.merkleNode)^[depth l] l = [C.merkleRoot l] := by
  have hfuel : depth l ≤ l.length :=
    Nat.clog_le_of_le_pow (Nat.le_of_lt Nat.lt_two_pow_self)
  rw [merkleRoot, if_neg (by simpa using hl)]
  exact merkleLoop_top hl hfuel

/-! ## 2. Collisions -/

theorem merkleMessage_injective : Function.Injective merkleMessage := by
  intro p q h
  obtain ⟨hleft, hright⟩ := List.append_inj (List.append_cancel_left h)
    (by rw [Vector.length_toList, Vector.length_toList])
  exact Prod.ext (Hash.toList_injective hleft) (Hash.toList_injective hright)

theorem mem_merkleMessages (hl : l ≠ []) (hp : p ∈ joined C.merkleNode (depth l) l) :
    merkleMessage p ∈ C.merkleMessages l := by
  rw [merkleMessages, if_neg (by simpa using hl)]
  exact List.mem_map_of_mem hp

/-- The nodes of the two trees are told apart. -/
theorem SeparatesRoots.nodes (h : C.SeparatesRoots l l') (hl : l ≠ []) (hl' : l' ≠ []) :
    ∀ p ∈ joined C.merkleNode (depth l) l, ∀ q ∈ joined C.merkleNode (depth l') l',
      C.merkleNode p = C.merkleNode q → p = q := by
  intro p hp q hq hpq
  exact merkleMessage_injective (h _ (mem_merkleMessages hl hp) _ (mem_merkleMessages hl' hq)
    (Hash.mk.inj hpq))

theorem SeparatesRoots.symm (h : C.SeparatesRoots l l') : C.SeparatesRoots l' l :=
  fun m hm m' hm' he => (h m' hm' m hm he.symm).symm

/-- The root of no operations is no inner node. -/
theorem SeparatesRoots.empty (h : C.SeparatesRoots [] l) (hl : l ≠ [])
    (hp : p ∈ joined C.merkleNode (depth l) l) : C.merkleRoot [] ≠ C.merkleNode p := by
  intro he
  have hmessage := h _ (List.mem_singleton_self _) _ (mem_merkleMessages hl hp) (Hash.mk.inj he)
  have hlen := congrArg List.length hmessage
  simp only [merkleMessage, List.length_append, Vector.length_toList] at hlen
  have h1 : (utf8 "MNA/tx-root/v1").length = 14 := by decide +kernel
  have h2 : (utf8 "MNA/merkle/v1").length = 13 := by decide +kernel
  simp at hlen
  omega

/-! ## 3. Equal roots -/

/-- The root of a list is the one of no operations only if it is the list of that root. -/
theorem merkleRoot_eq_empty_iff (h : C.SeparatesRoots [] l) (hl : l ≠ []) :
    C.merkleRoot [] = C.merkleRoot l ↔ l = [C.merkleRoot []] := by
  have htop := merkleRoot_top (C := C) hl
  constructor
  · intro he
    by_cases hdepth : depth l = 0
    · rw [hdepth] at htop
      rw [he]
      exact htop
    · obtain ⟨p, hp, hnode⟩ := Merkle.top_joins (Nat.pos_of_ne_zero hdepth) htop
      exact absurd (he.trans hnode) (h.empty hl hp)
  · intro he
    have hdepth : depth l = 0 := he ▸ Merkle.depth_singleton _
    rw [hdepth] at htop
    exact (List.cons.inj (he.symm.trans htop)).1

theorem merkleLayers_of_ne_nil (hl : l ≠ []) : C.merkleLayers l = layers C.merkleNode l := by
  rw [merkleLayers, if_neg (by simpa using hl)]

theorem merkleLayers_nil : C.merkleLayers [] = [[], [C.merkleRoot []]] := rfl

/-- The case of an empty list. -/
theorem merkleRoot_nil_iff (h : C.SeparatesRoots [] l) (hl : l ≠ []) :
    C.merkleRoot [] = C.merkleRoot l ↔
      (∃ m ∈ C.merkleLayers l, completed [] = completed m) ∨
        ∃ m ∈ C.merkleLayers [], completed l = completed m := by
  rw [merkleRoot_eq_empty_iff h hl, ← Merkle.completed_eq_singleton hl, merkleLayers_nil]
  constructor
  · intro he
    rw [← Merkle.completed_singleton] at he
    exact Or.inr ⟨[C.merkleRoot []], List.mem_cons_of_mem _ (List.mem_singleton_self _), he⟩
  · rintro (⟨m, hm, he⟩ | ⟨m, hm, he⟩)
    · rw [merkleLayers_of_ne_nil hl] at hm
      obtain ⟨k, -, rfl⟩ := Merkle.mem_layers.mp hm
      exact absurd he.symm (Merkle.completed_ne_nil (Merkle.iterate_ne_nil hl))
    · rcases List.mem_cons.mp hm with rfl | hm
      · exact absurd he (Merkle.completed_ne_nil hl)
      · rw [he, List.mem_singleton.mp hm, Merkle.completed_singleton]

/-- The case of two lists with leaves. -/
theorem merkleRoot_leaves_iff (h : C.SeparatesRoots l l') (hl : l ≠ []) (hl' : l' ≠ []) :
    C.merkleRoot l = C.merkleRoot l' ↔
      (∃ m ∈ C.merkleLayers l', completed l = completed m) ∨
        ∃ m ∈ C.merkleLayers l, completed l' = completed m := by
  rw [merkleLayers_of_ne_nil hl, merkleLayers_of_ne_nil hl',
    ← Merkle.tops_eq_iff hl hl' (h.nodes hl hl'), merkleRoot_top hl, merkleRoot_top hl',
    List.cons.injEq, and_iff_left rfl]

/-- **What a root identifies**: without collisions two lists have one root exactly if one of them,
    filled up by repeating its tail, is a layer over the other, filled up. Among the lists of one
    length a root belongs to one list. -/
theorem merkleRoot_eq_iff (h : C.SeparatesRoots l l') :
    (C.merkleRoot l = C.merkleRoot l' ↔
      (∃ m ∈ C.merkleLayers l', completed l = completed m) ∨
        ∃ m ∈ C.merkleLayers l, completed l' = completed m) ∧
    (l.length = l'.length → C.merkleRoot l = C.merkleRoot l' → l = l') := by
  by_cases hl : l = []
  · subst hl
    refine ⟨?_, fun hlen _ => (List.length_eq_zero_iff.mp hlen.symm).symm⟩
    by_cases hl' : l' = []
    · subst hl'
      exact iff_of_true rfl (Or.inl ⟨[], List.mem_cons_self, rfl⟩)
    · exact merkleRoot_nil_iff h hl'
  · by_cases hl' : l' = []
    · subst hl'
      refine ⟨?_, fun hlen _ => List.length_eq_zero_iff.mp hlen⟩
      rw [eq_comm, merkleRoot_nil_iff h.symm hl, or_comm]
    · refine ⟨merkleRoot_leaves_iff h hl hl', fun hlen hroot => ?_⟩
      refine Merkle.eq_of_tops_eq hlen (h.nodes hl hl') ?_
      rw [merkleRoot_top hl, merkleRoot_top hl', hroot]

/-! ## 4. Two lists with one root -/

def sampleLeaf (n : Nat) : Hash := ⟨leBytes n 32⟩

/-- Three operations, and the third one twice. -/
theorem merkleRoot_repeated_tail :
    standIn.SeparatesRoots [sampleLeaf 1, sampleLeaf 2, sampleLeaf 3]
        [sampleLeaf 1, sampleLeaf 2, sampleLeaf 3, sampleLeaf 3] ∧
      standIn.merkleRoot [sampleLeaf 1, sampleLeaf 2, sampleLeaf 3] =
        standIn.merkleRoot [sampleLeaf 1, sampleLeaf 2, sampleLeaf 3, sampleLeaf 3] ∧
      [sampleLeaf 1, sampleLeaf 2, sampleLeaf 3] ≠
        [sampleLeaf 1, sampleLeaf 2, sampleLeaf 3, sampleLeaf 3] := by
  decide +kernel

/-- Two operations, and their inner node as the only one. -/
theorem merkleRoot_eq_iff_inner :
    (standIn.merkleRoot [sampleLeaf 1, sampleLeaf 2] =
        standIn.merkleRoot [standIn.merkleNode (sampleLeaf 1, sampleLeaf 2)] ↔
      (∃ m ∈ standIn.merkleLayers [standIn.merkleNode (sampleLeaf 1, sampleLeaf 2)],
          completed [sampleLeaf 1, sampleLeaf 2] = completed m) ∨
        ∃ m ∈ standIn.merkleLayers [sampleLeaf 1, sampleLeaf 2],
          completed [standIn.merkleNode (sampleLeaf 1, sampleLeaf 2)] = completed m) ∧
    ([sampleLeaf 1, sampleLeaf 2].length =
        [standIn.merkleNode (sampleLeaf 1, sampleLeaf 2)].length →
      standIn.merkleRoot [sampleLeaf 1, sampleLeaf 2] =
        standIn.merkleRoot [standIn.merkleNode (sampleLeaf 1, sampleLeaf 2)] →
      [sampleLeaf 1, sampleLeaf 2] = [standIn.merkleNode (sampleLeaf 1, sampleLeaf 2)]) :=
  merkleRoot_eq_iff (by decide +kernel)

end WorldstreetChain.Crypto
