import WorldstreetChain.State.Nonce
import WorldstreetChain.State.Processed
import WorldstreetChain.Node.Execution

/-!
# The loops over a block's operations

The six loops of a producer are one pass over the operations in the queues, and the six loops of an
importer are one pass over the operations of the block.

* `Node.Accepts`, `Node.accept_accepts` -- **a producer's pass**: what answers is taken, what fails
  is passed over, with whatever it has written.
* `Node.execute_iff` -- **an importer's pass**: everything answers `Ok(true)`.
* `Node.Accepts.marked`, `Node.Accepts.distinct` -- where nothing answers `Ok(false)`, what is taken
  was new and is processed from then on.
* `Node.Accepts.spent`, `Node.Accepts.nonces` -- what is signed and taken uses up nonces.
-/

namespace WorldstreetChain

open Std

namespace Node

variable {E : Env} {s s' s'' : State} {op : Operation} {l l' accepted accepted' : List Operation}

/-! ## 1. A producer's pass -/

/-- From `s` the operations `l` lead to `s'`, and `accepted` of them are taken. -/
inductive Accepts (E : Env) : State → List Operation → State → List Operation → Prop where
  | nil (s : State) : Accepts E s [] s []
  | taken {s s' : State} {op : Operation} {l accepted : List Operation} (b : Bool)
      (h : (s.apply E op).result = .ok b) (hrest : Accepts E (s.next E op) l s' accepted) :
      Accepts E s (op :: l) s' (op :: accepted)
  | passed {s s' : State} {op : Operation} {l accepted : List Operation} (e : StateError)
      (h : (s.apply E op).result = .error (.err e))
      (hrest : Accepts E (s.next E op) l s' accepted) : Accepts E s (op :: l) s' accepted

theorem Accepts.append (h : Accepts E s l s' accepted) (h' : Accepts E s' l' s'' accepted') :
    Accepts E s (l ++ l') s'' (accepted ++ accepted') := by
  induction h with
  | nil s => exact h'
  | taken b hb _ ih => exact .taken b hb (ih h')
  | passed e he _ ih => exact .passed e he (ih h')

theorem acceptLoop_accepts {α : Type} {call : α → Operation} {l accepted : List α}
    (h : acceptLoop E call s l = .ok (s', accepted)) :
    Accepts E s (l.map call) s' (accepted.map call) := by
  induction l generalizing s accepted with
  | nil =>
    cases h
    exact .nil _
  | cons a l ih =>
    unfold acceptLoop at h
    cases hx : (s.apply E (call a)).result with
    | ok b =>
      rw [State.apply_eq hx] at h
      obtain ⟨⟨last, rest⟩, hl, h⟩ := Outcome.bind_eq_ok.mp h
      cases h
      exact .taken b hx (ih hl)
    | error e =>
      rw [State.apply_eq hx] at h
      cases e with
      | err e => exact .passed e hx (ih h)
      | panic => cases h

/-- **The six loops of a producer are one pass.** -/
theorem accept_accepts {height : U64} {queue accepted : Batch}
    (h : accept E s height queue = .ok (s', accepted)) :
    Accepts E s (queue.calls E.crypto height) s' (accepted.calls E.crypto height) := by
  unfold accept at h
  obtain ⟨⟨s1, _⟩, h1, h⟩ := Outcome.bind_eq_ok.mp h
  obtain ⟨⟨s2, _⟩, h2, h⟩ := Outcome.bind_eq_ok.mp h
  obtain ⟨⟨s3, _⟩, h3, h⟩ := Outcome.bind_eq_ok.mp h
  obtain ⟨⟨s4, _⟩, h4, h⟩ := Outcome.bind_eq_ok.mp h
  obtain ⟨⟨s5, _⟩, h5, h⟩ := Outcome.bind_eq_ok.mp h
  obtain ⟨⟨s6, _⟩, h6, h⟩ := Outcome.bind_eq_ok.mp h
  cases h
  have h12 := (acceptLoop_accepts h1).append (acceptLoop_accepts h2)
  have h34 := (h12.append (acceptLoop_accepts h3)).append (acceptLoop_accepts h4)
  exact (h34.append (acceptLoop_accepts h5)).append (acceptLoop_accepts h6)

theorem Accepts.runs_eq (h : Accepts E s l s' accepted) : runs (State.next E) s l = s' := by
  induction h with
  | nil s => rfl
  | taken b hb _ ih => exact ih
  | passed e he _ ih => exact ih

theorem Accepts.sublist (h : Accepts E s l s' accepted) : accepted.Sublist l := by
  induction h with
  | nil s => exact List.Sublist.slnil
  | taken b hb _ ih => exact ih.cons_cons _
  | passed e he _ ih => exact ih.cons _

/-! ## 2. An importer's pass -/

/-- The operation is applied. -/
def Applies (E : Env) (s : State) (op : Operation) : Prop := (s.apply E op).result = .ok true

/-- The operation is no duplicate. -/
def NoDuplicate (E : Env) (s : State) (op : Operation) : Prop := (s.apply E op).result ≠ .ok false

instance : Decidable (Applies E s op) :=
  inferInstanceAs (Decidable ((s.apply E op).result = .ok true))

instance : Decidable (NoDuplicate E s op) :=
  inferInstanceAs (Decidable ((s.apply E op).result ≠ .ok false))

theorem importLoop_iff {α : Type} {call : α → Operation} {duplicate : String} {l : List α} :
    importLoop E call duplicate s l = .ok s' ↔
      EachStep (State.next E) (Applies E) s (l.map call) ∧
        runs (State.next E) s (l.map call) = s' := by
  induction l generalizing s with
  | nil =>
    constructor
    · intro h
      cases h
      exact ⟨trivial, rfl⟩
    · intro h
      exact congrArg Except.ok h.2
  | cons a l ih =>
    unfold importLoop
    rw [Outcome.bind_eq_ok]
    constructor
    · intro h
      obtain ⟨applied, happlied, h⟩ := h
      obtain ⟨htrue, h⟩ := rejectIf_bind_eq_ok.mp h
      obtain ⟨hrest, hlast⟩ := ih.mp h
      rw [Bool.eq_true_of_not_eq_false htrue] at happlied
      exact ⟨⟨Outcome.mapErr_eq_ok.mp happlied, hrest⟩, hlast⟩
    · intro h
      obtain ⟨⟨hfirst, hrest⟩, hlast⟩ := h
      refine ⟨true, Outcome.mapErr_eq_ok.mpr hfirst, ?_⟩
      exact rejectIf_bind_eq_ok.mpr ⟨Bool.noConfusion, ih.mpr ⟨hrest, hlast⟩⟩

/-- **The six loops of an importer are one pass.** -/
theorem execute_iff {height : U64} {batch : Batch} :
    execute E s height batch = .ok s' ↔
      EachStep (State.next E) (Applies E) s (batch.calls E.crypto height) ∧
        runs (State.next E) s (batch.calls E.crypto height) = s' := by
  unfold execute Batch.calls
  simp only [eachStep_append, runs_append]
  constructor
  · intro h
    obtain ⟨s1, h1, h⟩ := Outcome.bind_eq_ok.mp h
    obtain ⟨s2, h2, h⟩ := Outcome.bind_eq_ok.mp h
    obtain ⟨s3, h3, h⟩ := Outcome.bind_eq_ok.mp h
    obtain ⟨s4, h4, h⟩ := Outcome.bind_eq_ok.mp h
    obtain ⟨s5, h5, h6⟩ := Outcome.bind_eq_ok.mp h
    obtain ⟨e1, rfl⟩ := importLoop_iff.mp h1
    obtain ⟨e2, rfl⟩ := importLoop_iff.mp h2
    obtain ⟨e3, rfl⟩ := importLoop_iff.mp h3
    obtain ⟨e4, rfl⟩ := importLoop_iff.mp h4
    obtain ⟨e5, rfl⟩ := importLoop_iff.mp h5
    obtain ⟨e6, rfl⟩ := importLoop_iff.mp h6
    exact ⟨⟨⟨⟨⟨⟨e1, e2⟩, e3⟩, e4⟩, e5⟩, e6⟩, rfl⟩
  · intro h
    obtain ⟨⟨⟨⟨⟨⟨e1, e2⟩, e3⟩, e4⟩, e5⟩, e6⟩, hlast⟩ := h
    refine Outcome.bind_eq_ok.mpr ⟨_, importLoop_iff.mpr ⟨e1, rfl⟩, ?_⟩
    refine Outcome.bind_eq_ok.mpr ⟨_, importLoop_iff.mpr ⟨e2, rfl⟩, ?_⟩
    refine Outcome.bind_eq_ok.mpr ⟨_, importLoop_iff.mpr ⟨e3, rfl⟩, ?_⟩
    refine Outcome.bind_eq_ok.mpr ⟨_, importLoop_iff.mpr ⟨e4, rfl⟩, ?_⟩
    refine Outcome.bind_eq_ok.mpr ⟨_, importLoop_iff.mpr ⟨e5, rfl⟩, ?_⟩
    exact importLoop_iff.mpr ⟨e6, hlast⟩

/-- A producer takes everything that is applied. -/
theorem accepts_of_applies (h : EachStep (State.next E) (Applies E) s l) :
    Accepts E s l (runs (State.next E) s l) l := by
  induction l generalizing s with
  | nil => exact .nil s
  | cons op l ih => exact .taken true h.1 (ih h.2)

theorem Applies.noDuplicate (h : Applies E s op) : NoDuplicate E s op := by
  unfold NoDuplicate
  rw [h]
  exact fun hf => by cases hf

/-! ## 3. What is taken is new -/

/-- **What is taken was not processed and is from then on**, where nothing is a duplicate. -/
theorem Accepts.marked (h : Accepts E s l s' accepted)
    (hno : EachStep (State.next E) (NoDuplicate E) s l) (hop : op ∈ accepted)
    (hkind : (op.key E.crypto).1 ≠ .transaction) :
    ¬ s.Processed (op.key E.crypto).1 (op.key E.crypto).2 ∧
      s'.Processed (op.key E.crypto).1 (op.key E.crypto).2 := by
  induction h with
  | nil s => cases hop
  | @taken s s' op' l accepted b hb hrest ih =>
    rcases List.mem_cons.mp hop with rfl | hop
    · cases b with
      | false => exact absurd hb hno.1
      | true =>
        have hmarked := State.Marked.of_applied hkind (State.apply_eq hb)
        refine ⟨hmarked.new, ?_⟩
        rw [← hrest.runs_eq]
        exact ((hmarked.processed _ _).mpr (Or.inl rfl)).runs l
    · obtain ⟨hnew, hprocessed⟩ := ih hno.2 hop
      exact ⟨fun hp => hnew (hp.next op'), hprocessed⟩
  | @passed s s' op' l accepted e he hrest ih =>
    obtain ⟨hnew, hprocessed⟩ := ih hno.2 hop
    exact ⟨fun hp => hnew (hp.next op'), hprocessed⟩

/-- Two operations of one id are not taken, unless they are transactions. -/
theorem Accepts.distinct (h : Accepts E s l s' accepted)
    (hno : EachStep (State.next E) (NoDuplicate E) s l) :
    accepted.Pairwise fun op op' => (op.key E.crypto).1 ≠ .transaction →
      op.key E.crypto ≠ op'.key E.crypto := by
  induction h with
  | nil s => exact List.Pairwise.nil
  | @taken s s' op l accepted b hb hrest ih =>
    refine List.pairwise_cons.mpr ⟨fun op' hop' hkind heq => ?_, ih hno.2⟩
    cases b with
    | false => exact hno.1 hb
    | true =>
      have hmarked := State.Marked.of_applied hkind (State.apply_eq hb)
      rw [heq] at hkind
      refine (hrest.marked hno.2 hop' hkind).1 ?_
      rw [← heq]
      exact (hmarked.processed _ _).mpr (Or.inl rfl)
  | passed e he _ ih => exact ih hno.2

theorem authorization_congr (hc : s'.chainId = s.chainId) (op : Operation) :
    State.authorization E s' op = State.authorization E s op := by
  cases op <;> simp [State.authorization, State.isFaucet, hc]

/-- **What is signed and taken uses up a nonce** that was not used up before. -/
theorem Accepts.spent (h : Accepts E s l s' accepted)
    (hno : EachStep (State.next E) (NoDuplicate E) s l) (hop : op ∈ accepted)
    {auth : State.Authorization} (hauth : State.authorization E s op = some auth) :
    (s.nonceOf (auth.signer E)).toNat ≤ auth.nonce.toNat ∧
      auth.nonce.toNat < (s'.nonceOf (auth.signer E)).toNat := by
  induction h with
  | nil s => cases hop
  | @taken s s' op' l accepted b hb hrest ih =>
    rcases List.mem_cons.mp hop with rfl | hop
    · cases b with
      | false => exact absurd hb hno.1
      | true =>
        have hacts := State.apply_actsFor hauth (State.apply_eq hb)
        have hle := State.nonceOf_le_runs (E := E) (s := s.next E op) l (auth.signer E)
        rw [hrest.runs_eq, hacts.next] at hle
        rw [hacts.nonce]
        exact ⟨Nat.le_refl _, hle⟩
    · obtain ⟨hle, hlt⟩ := ih hno.2 hop
        (by rw [authorization_congr State.next_chainId]; exact hauth)
      exact ⟨Nat.le_trans (State.nonceOf_le_next op' _) hle, hlt⟩
  | @passed s s' op' l accepted e he hrest ih =>
    obtain ⟨hle, hlt⟩ := ih hno.2 hop (by rw [authorization_congr State.next_chainId]; exact hauth)
    exact ⟨Nat.le_trans (State.nonceOf_le_next op' _) hle, hlt⟩

/-- Nonces of one signer are used up in their order. -/
theorem Accepts.nonces (h : Accepts E s l s' accepted)
    (hno : EachStep (State.next E) (NoDuplicate E) s l) :
    accepted.Pairwise fun op op' => ∀ auth auth', State.authorization E s op = some auth →
      State.authorization E s op' = some auth' → auth.signer E = auth'.signer E →
        auth.nonce.toNat < auth'.nonce.toNat := by
  induction h with
  | nil s => exact List.Pairwise.nil
  | @taken s s' op l accepted b hb hrest ih =>
    have hchain : (s.next E op).chainId = s.chainId := State.next_chainId
    have hsame := authorization_congr (E := E) hchain
    refine List.pairwise_cons.mpr ⟨fun op' hop' auth auth' hauth hauth' hsigner => ?_, ?_⟩
    · cases b with
      | false => exact absurd hb hno.1
      | true =>
        have hacts := State.apply_actsFor hauth (State.apply_eq hb)
        have hle := (hrest.spent hno.2 hop' (by rw [hsame]; exact hauth')).1
        rw [← hsigner, hacts.next] at hle
        exact hle
    · simp only [hsame] at ih
      exact ih hno.2
  | @passed s s' op l accepted e he hrest ih =>
    have hchain : (s.next E op).chainId = s.chainId := State.next_chainId
    have hsame := authorization_congr (E := E) hchain
    simp only [hsame] at ih
    exact ih hno.2

end Node

end WorldstreetChain
