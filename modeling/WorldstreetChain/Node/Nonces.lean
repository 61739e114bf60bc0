import WorldstreetChain.Node.Inclusion
import WorldstreetChain.Node.Replica

/-!
# The nonces on the chain

An account's operations of all four signed kinds share one nonce, and its value is the number of
operations the chain holds of it. They stand there in the order of their nonces, across the lists
of a block and across blocks, whatever order they were submitted in.

* `State.signedNonces` -- the nonces an account has signed for, operation by operation.
* `Node.Accepts.signedNonces` -- what a pass over operations takes of an account.
* `Node.Numbered`, `Node.numbered_step` -- what a call keeps.
* `Node.chain_nonces` -- **no gap and no duplicate** on the chain, along every run.
-/

namespace WorldstreetChain

open Std

namespace State

variable {E : Env} {s s' : State} {op : Operation} {a : Address}

/-! ## 1. One operation -/

/-- The nonce of the operation, if `a` signs for it. -/
def signedNonce (E : Env) (s : State) (a : Address) (op : Operation) : Option Nat :=
  (authorization E s op).bind fun auth =>
    if auth.signer E = a then some auth.nonce.toNat else none

/-- The nonces `a` has signed for, in the order of the operations. -/
def signedNonces (E : Env) (s : State) (a : Address) (ops : List Operation) : List Nat :=
  ops.filterMap (signedNonce E s a)

/-- Up to `s` the nonces `l` are used up, and up to `s'` those of `l'` besides. -/
def Continues (a : Address) (s : State) (l : List Nat) (s' : State) : Prop :=
  List.range (s.nonceOf a).toNat ++ l = List.range (s'.nonceOf a).toNat

theorem Continues.of_nonceOf (h : s'.nonceOf a = s.nonceOf a) : Continues a s [] s' := by
  rw [Continues, List.append_nil, h]

theorem Continues.append {t : State} {l l' : List Nat} (h : Continues a s l t)
    (h' : Continues a t l' s') : Continues a s (l ++ l') s' := by
  unfold Continues at *
  rw [← List.append_assoc, h, h']

/-- **An applied operation continues its signer's nonces**, and nobody else's. -/
theorem continues_of_applied (h : s.apply E op = ⟨.ok true, s'⟩) :
    Continues a s (signedNonces E s a [op]) s' := by
  cases hauth : authorization E s op with
  | none =>
    have hnone : signedNonces E s a [op] = [] := by simp [signedNonces, signedNonce, hauth]
    rw [hnone]
    exact .of_nonceOf ((apply_leavesAccounts hauth h).nonces a)
  | some auth =>
    have hacts := apply_actsFor hauth h
    by_cases ha : auth.signer E = a
    · have hone : signedNonces E s a [op] = [auth.nonce.toNat] := by
        simp [signedNonces, signedNonce, hauth, ha]
      have hnext := hacts.next
      have hnonce := hacts.nonce
      rw [ha] at hnext hnonce
      rw [hone, Continues, hnext, hnonce, List.range_succ]
    · have hnone : signedNonces E s a [op] = [] := by
        simp [signedNonces, signedNonce, hauth, ha]
      rw [hnone]
      exact .of_nonceOf (hacts.nonces a (Ne.symm ha))

/-- An operation that fails moves no nonce. -/
theorem nonceOf_of_failed {e : Fault StateError} (h : (s.apply E op).result = .error e) :
    (s.next E op).nonceOf a = s.nonceOf a := by
  rcases apply_error (apply_eq h) with hsame | hresidue
  · rw [hsame]
  · exact hresidue.leavesAccounts.nonces a

/-- Only the chain is read off the state. -/
theorem signedNonces_congr (hc : s'.chainId = s.chainId) :
    signedNonces E s' a = signedNonces E s a := by
  funext ops
  unfold signedNonces signedNonce
  simp only [Node.authorization_congr hc]

theorem signedNonces_append (l l' : List Operation) :
    signedNonces E s a (l ++ l') = signedNonces E s a l ++ signedNonces E s a l' :=
  List.filterMap_append

/-- The height a program operation is applied at does not matter. -/
theorem signedNonces_calls (b : Batch) (height height' : U64) :
    signedNonces E s a (b.calls E.crypto height) =
      signedNonces E s a (b.calls E.crypto height') := by
  unfold Batch.calls
  simp only [signedNonces_append]
  congr 1
  unfold signedNonces
  rw [List.filterMap_map, List.filterMap_map]
  rfl

/-- Accounts of a genesis start at nonce 0. -/
theorem allocate_nonce {l : List GenesisAllocation} {accounts last : BTreeMap Address Account}
    {total sum : Amount} (h : allocate l accounts total = .ok (last, sum))
    (hzero : ∀ (b : Address) (x : Account), accounts[b]? = some x → x.nonce = 0) (b : Address)
    (x : Account) (hx : last[b]? = some x) : x.nonce = 0 := by
  induction l generalizing accounts total with
  | nil =>
    cases h
    exact hzero b x hx
  | cons g rest ih =>
    unfold allocate at h
    obtain ⟨-, h⟩ := rejectIf_bind_eq_ok.mp h
    obtain ⟨total', -, h⟩ := Outcome.bind_eq_ok.mp h
    refine ih h fun c y hy => ?_
    rw [ExtTreeMap.getElem?_insert] at hy
    split at hy
    · cases hy
      rfl
    · exact hzero c y hy

theorem nonceOf_fromGenesis {genesis : GenesisConfig} (h : fromGenesis genesis = .ok s) :
    s.nonceOf a = 0 := by
  obtain ⟨⟨accounts, total⟩, hall, h⟩ := Outcome.bind_eq_ok.mp h
  obtain ⟨-, h⟩ := rejectIf_bind_eq_ok.mp h
  cases h
  have hzero := allocate_nonce hall fun b x hx => by simp at hx
  show ((accounts[a]?).map Account.nonce).getD 0 = 0
  cases hx : accounts[a]? with
  | none => rfl
  | some x => exact hzero a x hx

end State

namespace Node

variable {E : Env} {n n' : Node} {c : Call} {s s' : State} {b : Block} {chain : List Block}
  {a : Address}

/-! ## 2. A block -/

/-- **What a pass takes continues every account's nonces.** -/
theorem Accepts.signedNonces {l accepted : List Operation} (h : Accepts E s l s' accepted)
    (hno : EachStep (State.next E) (NoDuplicate E) s l) :
    State.Continues a s (State.signedNonces E s a accepted) s' := by
  induction h with
  | nil s => exact .of_nonceOf rfl
  | @taken s s' op l accepted applied hop hrest ih =>
    cases applied with
    | false => exact absurd hop hno.1
    | true =>
      have hfirst := State.continues_of_applied (a := a) (State.apply_eq hop)
      have hlast := ih hno.2
      rw [State.signedNonces_congr State.next_chainId] at hlast
      rw [← List.singleton_append, State.signedNonces_append]
      exact hfirst.append hlast
  | @passed s s' op l accepted e hop hrest ih =>
    have hlast := ih hno.2
    rw [State.signedNonces_congr State.next_chainId] at hlast
    exact (State.Continues.of_nonceOf (State.nonceOf_of_failed hop)).append hlast

/-- No operation in the queues of a producer is a duplicate at its turn. -/
def NothingTwice (E : Env) (n : Node) : Call → Prop
  | .produceBlock _ _ => EachStep (State.next E) (NoDuplicate E) n.state
      ((n.queue E).calls E.crypto n.nextHeight)
  | _ => True

theorem nothingTwice_produceBlock (io : Io) (proposer : Option KeyPair) :
    NothingTwice E n (.produceBlock io proposer) ↔ EachStep (State.next E) (NoDuplicate E) n.state
      ((n.queue E).calls E.crypto n.nextHeight) :=
  .rfl

/-- What is committed is one pass, or the faucet's credit. -/
theorem commits_cases (hc : Commits E n c s b) :
    (∃ l height, Accepts E n.state l s (b.batch.calls E.crypto height) ∧
      (NothingTwice E n c → EachStep (State.next E) (NoDuplicate E) n.state l)) ∨
    b.batch = .empty ∧ (∃ accounts, s = { n.state with accounts }) ∧
      ∀ a, s.nonceOf a = n.state.nonceOf a := by
  cases hc with
  | produce io proposer s accepted height hturn haccept hheight =>
    exact Or.inl ⟨_, n.nextHeight, accept_accepts haccept, id⟩
  | faucet io address amount s height hdevnet hcredit hheight =>
    have hstate : s = (n.state.creditDevnet address amount).state := by rw [hcredit]
    refine Or.inr ⟨rfl, ?_, fun a => ?_⟩
    · rw [hstate]
      exact State.creditDevnet_writes n.state address amount
    · rw [hstate]
      exact State.nonceOf_creditDevnet n.state address amount a
  | «import» io b s hversion hnew hreplay =>
    obtain ⟨happlies, rfl⟩ := execute_iff.mp (replay_eq_ok.mp hreplay).2.1
    exact Or.inl ⟨_, b.header.height, accepts_of_applies happlies,
      fun _ => happlies.mono fun s op h => h.noDuplicate⟩

/-- The operations of blocks, in the order in which they are executed. -/
def executed (E : Env) (blocks : List Block) : List Operation :=
  blocks.flatMap fun b => b.batch.calls E.crypto b.header.height

/-- **A block that is committed continues every account's nonces.** -/
theorem Commits.continues (hc : Commits E n c s b) (hno : NothingTwice E n c) :
    s.chainId = n.state.chainId ∧
      State.Continues a n.state (State.signedNonces E n.state a (executed E [b])) s := by
  unfold executed
  rw [List.flatMap_singleton]
  rcases commits_cases hc with ⟨l, height, haccepts, hnew⟩ | ⟨hempty, ⟨accounts, rfl⟩, hnonces⟩
  · refine ⟨?_, ?_⟩
    · rw [← haccepts.runs_eq]
      exact State.chainId_runs l
    · rw [State.signedNonces_calls _ _ height]
      exact haccepts.signedNonces (hnew hno)
  · rw [hempty]
    exact ⟨rfl, .of_nonceOf (hnonces a)⟩

/-! ## 3. Runs -/

/-- The operations each account has signed for on the chain have the nonces from 0 up to the one
    it has reached, in this order. -/
def Numbered (E : Env) (n : Node) (chain : List Block) : Prop :=
  ∀ a, State.signedNonces E n.state a (executed E chain) =
    List.range (n.state.nonceOf a).toNat

/-- **What a call keeps**: the block it adopts continues the chain's nonces. -/
theorem numbered_step (h : Numbered E n chain) (hno : NothingTwice E n c) :
    Numbered E (n.next E c) (chain ++ Node.adopted E n c) := by
  rcases next_cases (E := E) n c with ⟨s, b, hc, ha⟩ | ⟨hlatest, hstate⟩
  · rw [adopted_of_commits hc ha.latestBlock]
    intro a
    obtain ⟨hchain, hblock⟩ := hc.continues (a := a) hno
    rw [ha.state, State.signedNonces_congr hchain, ← hblock, ← h a]
    unfold executed
    rw [List.flatMap_append, State.signedNonces_append]
  · rw [adopted_of_sameBlock hlatest, List.append_nil, Numbered, hstate]
    exact h

theorem numbered_runs {calls : List Call} (h : Numbered E n chain)
    (hno : EachStep (next E) (NothingTwice E) n calls) :
    Numbered E (runs (next E) n calls) (chain ++ chainOf.go E n calls) := by
  induction calls generalizing n chain with
  | nil =>
    show Numbered E n (chain ++ [])
    rw [List.append_nil]
    exact h
  | cons c calls ih =>
    rw [go_cons, ← List.append_assoc]
    exact ih (numbered_step h hno.1) hno.2

theorem numbered_fresh {genesis : GenesisConfig} (hs : State.fromGenesis genesis = .ok s) :
    Numbered E (fresh E genesis s) [makeGenesisBlock E genesis s] := by
  intro a
  have hnonce : (fresh E genesis s).state.nonceOf a = 0 := State.nonceOf_fromGenesis hs
  rw [hnonce]
  rfl

/-- **No gap and no duplicate.** Along every run of a node opened on a fresh directory, whatever is
    submitted, produced, imported or credited and whatever the store does, the operations an
    account has signed for stand on the node's chain with the nonces 0, 1, 2 and so on, up to the
    one the account has reached, in the order in which they are executed, if no block is made of
    duplicates. -/
theorem chain_nonces {configChainId : String} {genesis : GenesisConfig} {store : Store} {io : Io}
    {calls : List Call} (hopen : openDir E configChainId genesis .empty io = ⟨.ok n, store⟩)
    (hno : EachStep (next E) (NothingTwice E) n calls) (a : Address) :
    State.signedNonces E (runs (next E) n calls).state a (executed E (chainOf E n calls)) =
      List.range ((runs (next E) n calls).state.nonceOf a).toNat := by
  obtain ⟨s, hs, rfl⟩ := openDir_empty hopen
  exact numbered_runs (numbered_fresh hs) hno a

end Node

/-! ## 4. A token that is created -/

namespace Sample

def waitingToken : TokenOperation := tokenOperation .create 0 .zero 5 10

/-- A token is submitted and created by the next block. -/
def createRun : List Node.Call :=
  [.submitTokenOperation waitingToken, .produceBlock ⟨2, none⟩ none]

/-- The node with the token in its queue. -/
def nodeWithToken : Node := freshNode.next .standIn (.submitTokenOperation waitingToken)

def tokenBatch : Batch := { Batch.empty with tokenOperations := [waitingToken] }

/-- The token waits, applies, and uses up its signer's first nonce. -/
theorem evaluated_createRun :
    nodeWithToken.queue .standIn = tokenBatch ∧
      Node.NoDuplicate .standIn nodeWithToken.state
        (.token waitingToken (Env.standIn.crypto.tokenOperationId waitingToken)) ∧
      (runs (Node.next .standIn) freshNode createRun).state.nonceOf address = 1 := by
  decide +kernel

theorem nothingTwice_createRun :
    EachStep (Node.next .standIn) (Node.NothingTwice .standIn) freshNode createRun := by
  refine ⟨trivial, ?_, trivial⟩
  show Node.NothingTwice .standIn nodeWithToken _
  rw [Node.nothingTwice_produceBlock, evaluated_createRun.1]
  exact ⟨evaluated_createRun.2.1, trivial⟩

end Sample

namespace Node

/-- The creation of the token is all the account has signed for, for its nonce 0. -/
theorem chain_nonces_token :
    State.signedNonces .standIn
      (runs (next .standIn) Sample.freshNode Sample.createRun).state Sample.address
        (executed .standIn (chainOf .standIn Sample.freshNode Sample.createRun)) = [0] := by
  have hopen : openDir .standIn (Sample.genesis 1).chainId (Sample.genesis 1) .empty ⟨0, none⟩ =
      ⟨.ok Sample.freshNode, Sample.freshNode.store⟩ :=
    openDir_fresh (Sample.fromGenesis_genesis 1) rfl
  rw [chain_nonces hopen Sample.nothingTwice_createRun Sample.address,
    Sample.evaluated_createRun.2.2]
  rfl

end Node

end WorldstreetChain
