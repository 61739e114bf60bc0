import WorldstreetChain.Node.Integrity
import WorldstreetChain.Node.Replay

/-!
# Replicas

A node makes blocks and another one gets them, in messages that may come twice, out of order or not
at all. What the other node takes over it takes over in the first one's order: it skips what it has,
refuses what does not stand on its tip, and so it is always where the first node has been.

* `Node.history` -- the blocks that have been at the tip along a run, each with its state.
* `Node.Follows`, `Node.follows_step` -- **a delivery** moves a replica to the next entry of the
  history, or not at all.
* `Node.replica_at_earlier_moment` -- **a replica is where the producer was**, and where the producer is once
  the chain has come in its order, whatever has come between.
-/

namespace WorldstreetChain

open Std

namespace Node

variable {E : Env} {n n' m : Node} {c : Call} {s : State} {b : Block} {genesis : GenesisConfig}
  {H : List (Block × State)}

/-! ## 1. History -/

/-- What a call puts at the tip, if it does. -/
def recorded (E : Env) (n : Node) (c : Call) : List (Block × State) :=
  if (n.next E c).latestBlock = n.latestBlock then []
  else [((n.next E c).latestBlock, (n.next E c).state)]

/-- The blocks that have been at the tip, the first one's included, each with the state behind it. -/
def history (E : Env) (n : Node) (calls : List Call) : List (Block × State) :=
  (n.latestBlock, n.state) :: go n calls
where
  go (n : Node) : List Call → List (Block × State)
    | [] => []
    | c :: rest => recorded E n c ++ go (n.next E c) rest

theorem map_fst_recorded (E : Env) (n : Node) (c : Call) :
    (recorded E n c).map Prod.fst = adopted E n c := by
  unfold recorded adopted
  split <;> rfl

theorem map_fst_history (E : Env) (n : Node) (calls : List Call) :
    (history E n calls).map Prod.fst = chainOf E n calls := by
  have hgo : ∀ n, (history.go E n calls).map Prod.fst = chainOf.go E n calls := by
    induction calls with
    | nil => exact fun n => rfl
    | cons c calls ih =>
      intro n
      show (recorded E n c ++ history.go E (n.next E c) calls).map Prod.fst = _
      rw [List.map_append, map_fst_recorded, ih, go_cons]
  exact congrArg (n.latestBlock :: ·) (hgo n)

/-- A call that puts nothing at the tip leaves the state. -/
theorem next_cases (n : Node) (c : Call) :
    (∃ s b, Commits E n c s b ∧ Adopted E n s b (n.next E c)) ∨
      (n.next E c).latestBlock = n.latestBlock ∧ (n.next E c).state = n.state := by
  have hstep := next_step (E := E) n c
  generalize n.next E c = n' at hstep
  cases hstep with
  | quiet _ htip _ => exact Or.inr ⟨htip.latestBlock, htip.state⟩
  | commit s b _ hc _ ha => exact Or.inl ⟨s, b, hc, ha⟩
  | cutOff s b k _ _ _ _ hcut => exact Or.inr ⟨hcut.latestBlock, hcut.state⟩
  | finalize _ _ _ _ _ _ _ _ _ hn' =>
    rw [hn']
    exact Or.inr ⟨rfl, rfl⟩

theorem history_cons_quiet (hl : (n.next E c).latestBlock = n.latestBlock)
    (hs : (n.next E c).state = n.state) (calls : List Call) :
    history E n (c :: calls) = history E (n.next E c) calls := by
  have hnone : recorded E n c = [] := if_pos hl
  show (n.latestBlock, n.state) :: (recorded E n c ++ history.go E (n.next E c) calls) = _
  rw [hnone, ← hl, ← hs]
  rfl

theorem history_cons_commit (hc : Commits E n c s b) (ha : Adopted E n s b (n.next E c))
    (calls : List Call) :
    history E n (c :: calls) = (n.latestBlock, n.state) :: history E (n.next E c) calls := by
  have hmoved : (n.next E c).latestBlock ≠ n.latestBlock := by
    rw [ha.latestBlock]
    exact fun heq => hc.extends.height_ne (by rw [heq])
  have hone : recorded E n c = [((n.next E c).latestBlock, (n.next E c).state)] := if_neg hmoved
  show (n.latestBlock, n.state) :: (recorded E n c ++ history.go E (n.next E c) calls) = _
  rw [hone]
  rfl

/-- **Every entry is where the node has been.** -/
theorem history_reached {calls : List Call} {i : Nat} {x : Block × State}
    (h : (history E n calls)[i]? = some x) : ∃ done, done <+: calls ∧
      (runs (next E) n done).latestBlock = x.1 ∧ (runs (next E) n done).state = x.2 := by
  have hfirst : ∀ {n : Node} {calls : List Call}, (n.latestBlock, n.state) = x →
      ∃ done, done <+: calls ∧ (runs (next E) n done).latestBlock = x.1 ∧
        (runs (next E) n done).state = x.2 := fun hx => by
    subst hx
    exact ⟨[], List.nil_prefix, rfl, rfl⟩
  induction calls generalizing n i with
  | nil =>
    cases i with
    | zero => exact hfirst (Option.some.inj h)
    | succ i => cases h
  | cons c calls ih =>
    have hlater : ∀ j, (history E (n.next E c) calls)[j]? = some x → ∃ done,
        done <+: c :: calls ∧ (runs (next E) n done).latestBlock = x.1 ∧
          (runs (next E) n done).state = x.2 := fun j hj => by
      obtain ⟨done, hdone, hrest⟩ := ih hj
      exact ⟨c :: done, List.cons_prefix_cons.mpr ⟨rfl, hdone⟩, hrest⟩
    rcases next_cases (E := E) n c with ⟨s, b, hc, ha⟩ | ⟨hl, hs⟩
    · rw [history_cons_commit hc ha] at h
      cases i with
      | zero => exact hfirst (Option.some.inj h)
      | succ i => exact hlater i h
    · rw [history_cons_quiet hl hs] at h
      exact hlater i h

/-- The last entry is where the node is. -/
theorem history_last (E : Env) (n : Node) (calls : List Call) :
    (history E n calls).getLast? =
      some ((runs (next E) n calls).latestBlock, (runs (next E) n calls).state) := by
  induction calls generalizing n with
  | nil => rfl
  | cons c calls ih =>
    rcases next_cases (E := E) n c with ⟨s, b, hc, ha⟩ | ⟨hl, hs⟩
    · rw [history_cons_commit hc ha]
      exact (List.getLast?_cons_cons ..).trans (ih _)
    · rw [history_cons_quiet hl hs]
      exact ih _

/-! ## 2. One block behind the other -/

/-- Every node that stands at the first block, in its state, gets to the second by an import. -/
def Linked (E : Env) (genesis : GenesisConfig) (x y : Block × State) : Prop :=
  y.1.header.version = 1 ∧ (idle genesis .empty x.2 x.1).replay E y.1 = .ok y.2

/-- What the call commits can be executed again, as an importer does. -/
def Repeats (E : Env) (n : Node) (c : Call) : Prop :=
  ∀ s b, Commits E n c s b → n.checkProposer E b.header = .ok () ∧
    execute E n.state b.header.height b.batch = .ok s

theorem Commits.linked (h : Commits E n c s b) (hrepeats : Repeats E n c) :
    Linked E n.genesis (n.latestBlock, n.state) (b, s) := by
  have hext := h.extends
  obtain ⟨hproposer, hexecute⟩ := hrepeats s b h
  refine ⟨hext.version, ?_⟩
  have hsame : (idle n.genesis .empty n.state n.latestBlock).replay E b = n.replay E b :=
    replay_congr rfl rfl rfl b
  rw [hsame, replay_eq_ok, checkPosition_extends hext]
  exact ⟨hproposer, hexecute, hext.ids.symm, hext.root.symm⟩

theorem history_linked {calls : List Call} (h : EachStep (next E) (Repeats E) n calls) {i : Nat}
    {x y : Block × State} (hx : (history E n calls)[i]? = some x)
    (hy : (history E n calls)[i + 1]? = some y) : Linked E n.genesis x y := by
  induction calls generalizing n i with
  | nil => cases hy
  | cons c calls ih =>
    rw [← genesis_next (E := E) n c]
    rcases next_cases (E := E) n c with ⟨s, b, hc, ha⟩ | ⟨hl, hs⟩
    · rw [history_cons_commit hc ha] at hx hy
      cases i with
      | zero =>
        cases Option.some.inj hx
        cases Option.some.inj hy
        rw [genesis_next, ha.latestBlock, ha.state]
        exact hc.linked h.1
      | succ i => exact ih h.2 hx hy
    · rw [history_cons_quiet hl hs] at hx hy
      exact ih h.2 hx hy

/-! ## 3. A delivery -/

/-- A history: every block is linked to the one in front of it, their heights count from zero, and
    no two of them have the same id. -/
structure History (E : Env) (genesis : GenesisConfig) (H : List (Block × State)) : Prop where
  linked : ∀ (i : Nat) (x y : Block × State), H[i]? = some x → H[i + 1]? = some y →
    Linked E genesis x y
  heights : ∀ (i : Nat) (x : Block × State), H[i]? = some x → x.1.header.height.toNat = i
  ids : ∀ (i j : Nat) (x y : Block × State), H[i]? = some x → H[j]? = some y →
    E.crypto.blockHeaderId x.1.header = E.crypto.blockHeaderId y.1.header → i = j

/-- The node stands at the `i`-th entry and has stored the blocks up to there. -/
structure Follows (E : Env) (genesis : GenesisConfig) (H : List (Block × State)) (i : Nat)
    (m : Node) : Prop where
  genesis : m.genesis = genesis
  tip : H[i]? = some (m.latestBlock, m.state)
  stored : ∀ hash, (m.store.getBlock hash).isOk = true ↔
    ∃ j x, j ≤ i ∧ H[j]? = some x ∧ E.crypto.blockHeaderId x.1.header = hash

/-- The replica makes no blocks, and the blocks it gets are those of the chain. -/
def Receives (chain : List Block) (_ : Node) : Call → Prop
  | .produceBlock _ _ | .faucet _ _ _ => False
  | .importBlock _ b => b ∈ chain
  | _ => True

theorem Follows.congr {i : Nat} (h : Follows E genesis H i m) (htip : SameTip m n) :
    Follows E genesis H i n := by
  refine ⟨htip.genesis.trans h.genesis, ?_, ?_⟩
  · rw [htip.latestBlock, htip.state]
    exact h.tip
  · rw [htip.store]
    exact h.stored

theorem Follows.replay {i : Nat} (h : Follows E genesis H i m) (b : Block) :
    (idle genesis .empty m.state m.latestBlock).replay E b = m.replay E b := by
  have hgenesis : (idle genesis .empty m.state m.latestBlock).genesis = m.genesis :=
    h.genesis.symm
  exact replay_congr hgenesis rfl rfl b

/-- The node stands at the next entry once the block is committed. -/
theorem Follows.adopted {i : Nat} (h : Follows E genesis H i m) (hnext : H[i + 1]? = some (b, s))
    (ha : Adopted E m s b n) : Follows E genesis H (i + 1) n := by
  refine ⟨ha.genesis.trans h.genesis, ?_, fun hash => ?_⟩
  · rw [ha.latestBlock, ha.state]
    exact hnext
  · rw [ha.store]
    by_cases hhash : hash = E.crypto.blockHeaderId b.header
    · subst hhash
      unfold commitWrites
      rw [Store.getBlock_commit]
      exact iff_of_true rfl ⟨i + 1, (b, s), Nat.le_refl _, hnext, rfl⟩
    · rw [← take_commitWrites, Store.getBlock_commit_of_ne hhash, h.stored]
      constructor
      · rintro ⟨j, x, hj, hx, hid⟩
        exact ⟨j, x, Nat.le_succ_of_le hj, hx, hid⟩
      · rintro ⟨j, x, hj, hx, hid⟩
        rcases Nat.le_succ_iff.mp hj with hj | rfl
        · exact ⟨j, x, hj, hx, hid⟩
        · rw [hnext] at hx
          cases hx
          exact absurd hid.symm hhash

/-- What a node imports that stands at an entry is the next entry. -/
theorem Follows.commits_import {i : Nat} {io : Io} (hH : History E genesis H)
    (h : Follows E genesis H i m) (hb : b ∈ H.map Prod.fst)
    (hc : Commits E m (.importBlock io b) s b) : H[i + 1]? = some (b, s) := by
  obtain ⟨x, hx, rfl⟩ := List.mem_map.mp hb
  obtain ⟨j, hj⟩ := List.mem_iff_getElem?.mp hx
  have hheight := hH.heights j x hj
  have htip := hH.heights i _ h.tip
  have hone : (1 : U64).toNat = 1 := rfl
  have hlt := (m.latestBlock.header.height).isLt
  cases hc with
  | «import» _ _ _ hversion hnew hreplay =>
    have hposition := checkPosition_eq_ok (replay_eq_ok.mp hreplay).1
    obtain ⟨-, hadd, -, -⟩ := hposition
    have hj' : j = i + 1 := by
      rcases Unsigned.add_eq_ok hadd with hsum | ⟨-, hwrap, hsum⟩
      · rw [hheight, hone] at hsum
        exact hsum.trans (by rw [htip])
      · -- Heights that start again would bring the genesis block, which is stored.
        have hzero : j = 0 := by omega
        have hknown : (m.store.getBlock (E.crypto.blockHeaderId x.1.header)).isOk = true :=
          (h.stored _).mpr ⟨j, x, by omega, hj, rfl⟩
        rw [hknown] at hnew
        cases hnew
    subst hj'
    have hlinked := (hH.linked i _ x h.tip hj).2
    rw [h.replay, hreplay] at hlinked
    cases hlinked
    exact hj

/-- The next entry is imported. -/
theorem Follows.commits_next {i : Nat} {x : Block × State} {io : Io} (hH : History E genesis H)
    (h : Follows E genesis H i m) (hx : H[i + 1]? = some x) :
    Commits E m (.importBlock io x.1) x.2 x.1 := by
  obtain ⟨hversion, hreplay⟩ := hH.linked i _ x h.tip hx
  rw [h.replay] at hreplay
  refine .import io x.1 x.2 hversion ?_ hreplay
  refine Bool.eq_false_iff.mpr fun hknown => ?_
  obtain ⟨j, y, hj, hy, hid⟩ := (h.stored _).mp hknown
  have := hH.ids j (i + 1) y x hy hx hid
  omega

/-- **A delivery.** The replica stays where it is, or the call has brought the next entry. -/
theorem follows_step {i : Nat} (hH : History E genesis H) (h : Follows E genesis H i m)
    (hrel : Reliable m c) (hreceives : Receives (H.map Prod.fst) m c) :
    Follows E genesis H i (m.next E c) ∨
      ∃ io x, c = .importBlock io x.1 ∧ H[i + 1]? = some x ∧
        Follows E genesis H (i + 1) (m.next E c) := by
  have hstep := next_step (E := E) m c
  generalize m.next E c = m' at hstep
  cases hstep with
  | quiet _ htip _ => exact Or.inl (h.congr htip)
  | commit s b _ hc _ ha =>
    cases c with
    | importBlock io a =>
      obtain rfl : b = a := by
        cases hc
        rfl
      have hnext := h.commits_import hH hreceives hc
      exact Or.inr ⟨io, (b, s), rfl, hnext, h.adopted hnext ha⟩
    | produceBlock io proposer => exact hreceives.elim
    | faucet io address amount => exact hreceives.elim
    | _ => cases hc
  | cutOff _ _ k _ _ hfault _ _ =>
    rw [hrel] at hfault
    cases hfault
  | finalize io S current _ hcall _ _ _ _ hn' =>
    subst hn'
    refine Or.inl ⟨h.genesis, h.tip, fun hash => ?_⟩
    obtain ⟨k, hk⟩ := Store.perform_state m.store
      (Store.finalizedWrites S.height (m.latestHash E)) c.fault
    show ((m.store.perform _ _).state.getBlock hash).isOk = true ↔ _
    rw [hk]
    unfold Store.getBlock
    rw [Store.get_finalized_take k fun ht => by cases ht]
    exact h.stored hash

/-- The next entry moves it. -/
theorem follows_next {i : Nat} {io : Io} {x : Block × State} (hH : History E genesis H)
    (h : Follows E genesis H i m) (hx : H[i + 1]? = some x) (hio : io.fault = none) :
    Follows E genesis H (i + 1) (m.next E (.importBlock io x.1)) :=
  h.adopted hx ((h.commits_next hH hx).adopted hio)

/-! ## 4. Deliveries -/

/-- The block a call brings, if it brings one. -/
def Call.delivered : Call → Option Block
  | .importBlock _ b => some b
  | _ => none

/-- **Along a run** a replica stays on the history, and goes through all of it that comes in its
    order. -/
theorem follows_runs {i : Nat} {deliveries : List Call} (hH : History E genesis H)
    (h : Follows E genesis H i m) (hrel : EachStep (next E) Reliable m deliveries)
    (hreceives : EachStep (next E) (Receives (H.map Prod.fst)) m deliveries) :
    ∃ j, i ≤ j ∧ Follows E genesis H j (runs (next E) m deliveries) ∧
      (((H.drop (i + 1)).map Prod.fst).Sublist (deliveries.filterMap Call.delivered) →
        H.length = j + 1) := by
  induction deliveries generalizing m i with
  | nil =>
    refine ⟨i, Nat.le_refl _, h, fun hsub => ?_⟩
    have hnone := List.map_eq_nil_iff.mp (List.sublist_nil.mp hsub)
    have hlt := (List.getElem?_eq_some_iff.mp h.tip).1
    have := List.drop_eq_nil_iff.mp hnone
    omega
  | cons c deliveries ih =>
    rcases follows_step hH h hrel.1 hreceives.1 with hstays | ⟨io, x, rfl, hx, hmoves⟩
    · obtain ⟨j, hij, hj, hall⟩ := ih hstays hrel.2 hreceives.2
      refine ⟨j, hij, hj, fun hsub => hall ?_⟩
      -- The call has not brought the next entry, which would have moved the replica.
      cases hdelivered : c.delivered with
      | none =>
        rw [List.filterMap_cons_none hdelivered] at hsub
        exact hsub
      | some b =>
        rw [List.filterMap_cons_some hdelivered] at hsub
        cases hrest : H.drop (i + 1) with
        | nil => exact List.nil_sublist _
        | cons x rest =>
          rw [hrest, List.map_cons] at hsub
          have hx : H[i + 1]? = some x := by
            have hhead := congrArg List.head? hrest
            rwa [List.head?_drop, List.head?_cons] at hhead
          cases hsub with
          | cons _ hsub => exact hsub
          | cons_cons _ hsub =>
            cases c with
            | importBlock io a =>
              cases hdelivered
              have hmoved := follows_next hH h hx hrel.1
              have hheight := hH.heights _ _ hstays.tip
              rw [hH.heights _ _ hmoved.tip] at hheight
              omega
            | _ => cases hdelivered
    · obtain ⟨j, hij, hj, hall⟩ := ih hmoves hrel.2 hreceives.2
      refine ⟨j, Nat.le_of_succ_le hij, hj, fun hsub => hall ?_⟩
      have hdrop : H.drop (i + 1) = x :: H.drop (i + 1 + 1) := by
        obtain ⟨hlt, heq⟩ := List.getElem?_eq_some_iff.mp hx
        rw [List.drop_eq_getElem_cons hlt, heq]
      have hhead : (Call.importBlock io x.1).delivered = some x.1 := rfl
      rw [hdrop, List.map_cons, List.filterMap_cons_some hhead] at hsub
      exact List.cons_sublist_cons.mp hsub

/-! ## 5. The producer's history -/

/-- The chain a run leads to. -/
theorem integrity_end {calls : List Call} {chain : List Block} (h : Integrity E n chain)
    (hrel : EachStep (next E) Reliable n calls) (hroom : EachStep (next E) (HasRoom E) n calls)
    (hsep : E.crypto.SeparatesHeaders ((chain ++ chainOf.go E n calls).map Block.header)) :
    Integrity E (runs (next E) n calls) (chain ++ chainOf.go E n calls) := by
  induction calls generalizing n chain with
  | nil =>
    show Integrity E n (chain ++ [])
    rw [List.append_nil]
    exact h
  | cons c calls ih =>
    rw [go_cons, ← List.append_assoc] at hsep ⊢
    refine ih (integrity_step h hrel.1 hroom.1 fun x hx y hy => hsep x ?_ y ?_).1 hrel.2 hroom.2
      hsep
    · rw [List.map_append]
      exact List.mem_append_left _ hx
    · rw [List.map_append]
      exact List.mem_append_left _ hy

theorem history_fresh {calls : List Call}
    (hrel : EachStep (next E) Reliable (fresh E genesis s) calls)
    (hroom : EachStep (next E) (HasRoom E) (fresh E genesis s) calls)
    (hrepeats : EachStep (next E) (Repeats E) (fresh E genesis s) calls)
    (hsep : E.crypto.SeparatesHeaders
      ((chainOf E (fresh E genesis s) calls).map Block.header)) :
    History E genesis (history E (fresh E genesis s) calls) := by
  have hintegrity := integrity_end (integrity_fresh E genesis s) hrel hroom hsep
  have hget : ∀ (i : Nat) (x : Block × State), (history E (fresh E genesis s) calls)[i]? = some x →
      (chainOf E (fresh E genesis s) calls)[i]? = some x.1 := fun i x hx => by
    rw [← map_fst_history, List.getElem?_map, hx]
    rfl
  have hheights : ∀ (i : Nat) (x : Block × State),
      (history E (fresh E genesis s) calls)[i]? = some x → x.1.header.height.toNat = i :=
    fun i x hx => hintegrity.heights i x.1 (hget i x hx)
  refine ⟨fun i x y => history_linked hrepeats, hheights, fun i j x y hx hy hid => ?_⟩
  have hx' := List.mem_map_of_mem (f := Block.header) (List.mem_of_getElem? (hget i x hx))
  have hy' := List.mem_map_of_mem (f := Block.header) (List.mem_of_getElem? (hget j y hy))
  have hheader := hsep _ hx' _ hy' hid
  rw [← hheights i x hx, ← hheights j y hy, hheader]

/-- A fresh node stands at the first entry. -/
theorem follows_fresh (E : Env) (genesis : GenesisConfig) (s : State) (calls : List Call) :
    Follows E genesis (history E (fresh E genesis s) calls) 0 (fresh E genesis s) := by
  refine ⟨rfl, rfl, fun hash => ?_⟩
  have hid : (∃ j x, j ≤ 0 ∧ (history E (fresh E genesis s) calls)[j]? = some x ∧
      E.crypto.blockHeaderId x.1.header = hash) ↔
        E.crypto.blockHeaderId (makeGenesisBlock E genesis s).header = hash := by
    constructor
    · rintro ⟨j, x, hj, hx, hid⟩
      obtain rfl := Nat.le_zero.mp hj
      cases hx
      exact hid
    · exact fun hid => ⟨0, _, Nat.le_refl _, rfl, hid⟩
  rw [hid, fresh_store]
  by_cases hhash : hash = E.crypto.blockHeaderId (makeGenesisBlock E genesis s).header
  · subst hhash
    unfold commitWrites
    rw [Store.getBlock_commit]
    exact iff_of_true rfl rfl
  · rw [← take_commitWrites, Store.getBlock_commit_of_ne hhash]
    refine iff_of_false ?_ (Ne.symm hhash)
    unfold Store.getBlock
    rw [Store.get_finalized_of_ne fun ht => by cases ht]
    exact Bool.false_ne_true

/-- **A replica is where the producer was.** Two directories are opened with the same genesis. One
    node makes and imports blocks that an importer can execute; the other gets blocks of the first
    one's chain, in whatever order and however often, among submissions and votes. Its tip and state
    are then the first one's at an earlier moment, and the first one's own once the chain has come
    in its order. -/
theorem replica_at_earlier_moment {configChainId configChainId' : String} {store store' : Store}
    {io io' : Io} {calls deliveries : List Call}
    (hopen : openDir E configChainId genesis .empty io = ⟨.ok n, store⟩)
    (hopen' : openDir E configChainId' genesis .empty io' = ⟨.ok m, store'⟩)
    (hrel : EachStep (next E) Reliable n calls) (hroom : EachStep (next E) (HasRoom E) n calls)
    (hrepeats : EachStep (next E) (Repeats E) n calls)
    (hsep : E.crypto.SeparatesHeaders ((chainOf E n calls).map Block.header))
    (hrel' : EachStep (next E) Reliable m deliveries)
    (hreceives : EachStep (next E) (Receives (chainOf E n calls)) m deliveries) :
    (∃ done, done <+: calls ∧
      (runs (next E) m deliveries).latestBlock = (runs (next E) n done).latestBlock ∧
      (runs (next E) m deliveries).state = (runs (next E) n done).state) ∧
    ((chainOf.go E n calls).Sublist (deliveries.filterMap Call.delivered) →
      (runs (next E) m deliveries).latestBlock = (runs (next E) n calls).latestBlock ∧
      (runs (next E) m deliveries).state = (runs (next E) n calls).state) := by
  obtain ⟨s, hs, rfl⟩ := openDir_empty hopen
  obtain ⟨s', hs', rfl⟩ := openDir_empty hopen'
  rw [hs] at hs'
  cases hs'
  rw [← map_fst_history] at hreceives
  obtain ⟨j, -, hfollows, hall⟩ := follows_runs (history_fresh hrel hroom hrepeats hsep)
    (follows_fresh E genesis s calls) hrel' hreceives
  obtain ⟨done, hdone, hblock, hstate⟩ := history_reached hfollows.tip
  refine ⟨⟨done, hdone, hblock.symm, hstate.symm⟩, fun hsub => ?_⟩
  have hrest : ((history E (fresh E genesis s) calls).drop (0 + 1)).map Prod.fst =
      chainOf.go E (fresh E genesis s) calls :=
    List.tail_eq_of_cons_eq (map_fst_history E (fresh E genesis s) calls)
  have hlast := history_last E (fresh E genesis s) calls
  rw [List.getLast?_eq_getElem?, hall (hrest ▸ hsub), Nat.add_sub_cancel, hfollows.tip] at hlast
  exact Prod.mk.inj (Option.some.inj hlast)

end Node

/-! ## 6. A block that comes twice -/

namespace Sample

def freshNode : Node := .fresh .standIn (genesis 1) (genesisState 1)

/-- The mint is submitted and put into a block. -/
def mintRun : List Node.Call :=
  [.submitAssetOperation waitingMint, .produceBlock ⟨2, none⟩ none]

/-- The block comes twice. -/
def mintDeliveries : List Node.Call :=
  [.importBlock ⟨5, none⟩ mintBlock, .importBlock ⟨6, none⟩ mintBlock]

theorem chainOf_mintRun : Node.chainOf .standIn freshNode mintRun =
    [Node.makeGenesisBlock .standIn (genesis 1) (genesisState 1), mintBlock] := by
  have hproduce : Node.adopted .standIn nodeWithMint (.produceBlock ⟨2, none⟩ none) =
      [mintBlock] :=
    Node.adopted_of_commits commits_nodeWithMint (commits_nodeWithMint.adopted rfl).latestBlock
  have hsubmit : Node.adopted .standIn freshNode (.submitAssetOperation waitingMint) = [] :=
    Node.adopted_submit
  show _ :: (Node.adopted .standIn _ _ ++ (Node.adopted .standIn nodeWithMint _ ++ [])) = _
  rw [hsubmit, hproduce]
  rfl

theorem sameTip_nodeWithMint : Node.SameTip freshNode nodeWithMint :=
  Node.submitAssetOperation_sameTip _ _

theorem mintIds_ne : Env.standIn.crypto.blockHeaderId (Node.makeGenesisBlock .standIn (genesis 1)
    (genesisState 1)).header ≠ Env.standIn.crypto.blockHeaderId mintBlock.header := by
  intro heq
  obtain ⟨-, -, -, -, hnew⟩ := evaluated_nodes.1
  have hstored := (Node.integrity_fresh .standIn (genesis 1) (genesisState 1)).stored _
    List.mem_cons_self
  rw [heq] at hstored
  rw [sameTip_nodeWithMint.store] at hnew
  unfold freshNode at hnew
  rw [hstored] at hnew
  cases hnew

theorem mintHeaders_separate : Env.standIn.crypto.SeparatesHeaders
    ([Node.makeGenesisBlock .standIn (genesis 1) (genesisState 1), mintBlock].map
      Block.header) := by
  intro x hx y hy hid
  rw [List.map_cons, List.map_cons, List.map_nil, List.mem_pair] at hx hy
  obtain rfl | rfl := hx
  · obtain rfl | rfl := hy
    · rfl
    · exact absurd hid mintIds_ne
  · obtain rfl | rfl := hy
    · exact absurd hid.symm mintIds_ne
    · rfl

theorem repeats_mint :
    Node.Repeats .standIn nodeWithMint (.produceBlock ⟨2, none⟩ none) := by
  intro s b hc
  obtain ⟨hs, hb⟩ := commits_nodeWithMint.unique hc
  rw [hs, hb]
  exact ⟨commits_mintBlock.repeatable.proposer, commits_mintBlock.repeatable.execute⟩

theorem height_freshNode : freshNode.latestBlock.header.height.toNat = 0 := rfl

theorem mintRun_hasRoom : EachStep (Node.next .standIn) (Node.HasRoom .standIn) freshNode
    mintRun := by
  refine ⟨fun s b hc => ?_, fun s b _ => ?_, trivial⟩
  · cases hc
  · show nodeWithMint.latestBlock.header.height.toNat + 1 < 2 ^ 64
    rw [sameTip_nodeWithMint.latestBlock, height_freshNode]
    decide

end Sample

namespace Node

/-- A fresh node gets the block with the mint, twice. -/
theorem replica_at_earlier_moment_mint :
    (runs (next .standIn) Sample.freshNode Sample.mintDeliveries).state =
      (runs (next .standIn) Sample.freshNode Sample.mintRun).state := by
  have hopen : openDir .standIn (Sample.genesis 1).chainId (Sample.genesis 1) .empty ⟨0, none⟩ =
      ⟨.ok Sample.freshNode, Sample.freshNode.store⟩ :=
    openDir_fresh (Sample.fromGenesis_genesis 1) rfl
  have hsubmit : ∀ s b, ¬ Commits .standIn Sample.freshNode
      (.submitAssetOperation Sample.waitingMint) s b := fun s b hc => by cases hc
  have hrel : EachStep (next .standIn) Reliable Sample.freshNode Sample.mintRun :=
    ⟨rfl, rfl, trivial⟩
  have hrepeats : EachStep (next .standIn) (Repeats .standIn) Sample.freshNode Sample.mintRun :=
    ⟨fun s b hc => absurd hc (hsubmit s b), Sample.repeats_mint, trivial⟩
  have hsep : Env.standIn.crypto.SeparatesHeaders
      ((chainOf .standIn Sample.freshNode Sample.mintRun).map Block.header) := by
    rw [Sample.chainOf_mintRun]
    exact Sample.mintHeaders_separate
  have hrel' : EachStep (next .standIn) Reliable Sample.freshNode Sample.mintDeliveries :=
    ⟨rfl, rfl, trivial⟩
  have hmem : Sample.mintBlock ∈ chainOf .standIn Sample.freshNode Sample.mintRun := by
    rw [Sample.chainOf_mintRun]
    exact List.mem_cons_of_mem _ List.mem_cons_self
  have hreceives : EachStep (next .standIn)
      (Receives (chainOf .standIn Sample.freshNode Sample.mintRun)) Sample.freshNode
      Sample.mintDeliveries :=
    ⟨hmem, hmem, trivial⟩
  refine ((replica_at_earlier_moment hopen hopen hrel Sample.mintRun_hasRoom hrepeats hsep hrel' hreceives).2 ?_).2
  have htail : chainOf.go .standIn Sample.freshNode Sample.mintRun = [Sample.mintBlock] :=
    List.tail_eq_of_cons_eq Sample.chainOf_mintRun
  rw [htail]
  exact (List.nil_sublist _).cons_cons _

end Node

end WorldstreetChain
