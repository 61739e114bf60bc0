import WorldstreetChain.State.Operation

/-!
# Snapshots and the state root (`State::snapshot`, `State::state_root`)

The root hashes one of four encodings of the state, each a prefix of the next in its fields: the
accounts alone, the accounts and bridged assets, these with tokens and the MNA reserve, or the
whole snapshot. Which one is used depends on which tables are empty; the reserve is not asked.

* `State.fromSnapshot_snapshot` -- a snapshot restores the state it was taken from.
* `State.rootBytes_inj` -- **what the bytes under the root determine**: every field, except that
  without tokens and programs they say nothing of the MNA reserve and its records.
* `State.stateRoot_binds_iff` -- **when equal roots mean equal snapshots**, as long as SHA-256
  tells the two encodings apart.
-/

namespace WorldstreetChain

open Std Postcard

/-! ## 1. Snapshots -/

structure StateSnapshot where
  chainId : String
  feeMinimum : Amount
  feePool : Amount
  accounts : BTreeMap Address Account
  assetBalances : BTreeMap Address (BTreeMap String Amount)
  processedAssetOperations : BTreeSet Hash
  assetOperationRecords : BTreeMap Hash AssetOperation
  tokenDefinitions : BTreeMap Hash TokenDefinition
  processedTokenOperations : BTreeSet Hash
  tokenOperationRecords : BTreeMap Hash TokenOperation
  frozenTokenAccounts : BTreeSet (Hash × Address)
  mnaReserveLedger : MnaReserveLedger
  processedMnaSwapOperations : BTreeSet Hash
  mnaSwapOperationRecords : BTreeMap Hash MnaSwapOperation
  processedMnaReserveOperations : BTreeSet Hash
  mnaReserveOperationRecords : BTreeMap Hash MnaReserveOperation
  programs : BTreeMap String ProgramRecord
  programReceipts : BTreeMap Hash ProgramReceiptRecord
  closedPrograms : BTreeMap String U64

structure LegacyStateSnapshot where
  chainId : String
  feeMinimum : Amount
  feePool : Amount
  accounts : BTreeMap Address Account

structure LegacyAssetStateSnapshot where
  chainId : String
  feeMinimum : Amount
  feePool : Amount
  accounts : BTreeMap Address Account
  assetBalances : BTreeMap Address (BTreeMap String Amount)
  processedAssetOperations : BTreeSet Hash
  assetOperationRecords : BTreeMap Hash AssetOperation

structure PreProgramStateSnapshot where
  chainId : String
  feeMinimum : Amount
  feePool : Amount
  accounts : BTreeMap Address Account
  assetBalances : BTreeMap Address (BTreeMap String Amount)
  processedAssetOperations : BTreeSet Hash
  assetOperationRecords : BTreeMap Hash AssetOperation
  tokenDefinitions : BTreeMap Hash TokenDefinition
  processedTokenOperations : BTreeSet Hash
  tokenOperationRecords : BTreeMap Hash TokenOperation
  frozenTokenAccounts : BTreeSet (Hash × Address)
  mnaReserveLedger : MnaReserveLedger
  processedMnaSwapOperations : BTreeSet Hash
  mnaSwapOperationRecords : BTreeMap Hash MnaSwapOperation
  processedMnaReserveOperations : BTreeSet Hash
  mnaReserveOperationRecords : BTreeMap Hash MnaReserveOperation

instance : Postcard Account :=
  through (fun a => (a.balance, a.nonce)) (fun (b, n) => ⟨b, n⟩) fun _ => rfl

instance : Postcard LegacyStateSnapshot :=
  through (fun s => (s.chainId, s.feeMinimum, s.feePool, s.accounts))
    (fun (c, m, p, a) => ⟨c, m, p, a⟩) fun _ => rfl

instance : Postcard LegacyAssetStateSnapshot :=
  through
    (fun s => (s.chainId, s.feeMinimum, s.feePool, s.accounts, s.assetBalances,
      s.processedAssetOperations, s.assetOperationRecords))
    (fun (c, m, p, a, b, i, r) => ⟨c, m, p, a, b, i, r⟩) fun _ => rfl

instance : Postcard PreProgramStateSnapshot :=
  through
    (fun s => (s.chainId, s.feeMinimum, s.feePool, s.accounts, s.assetBalances,
      s.processedAssetOperations, s.assetOperationRecords, s.tokenDefinitions,
      s.processedTokenOperations, s.tokenOperationRecords, s.frozenTokenAccounts,
      s.mnaReserveLedger, s.processedMnaSwapOperations, s.mnaSwapOperationRecords,
      s.processedMnaReserveOperations, s.mnaReserveOperationRecords))
    (fun (c, m, p, a, b, i, r, d, pt, tr, f, l, ps, sr, pr, rr) =>
      ⟨c, m, p, a, b, i, r, d, pt, tr, f, l, ps, sr, pr, rr⟩) fun _ => rfl

instance : Postcard StateSnapshot :=
  through
    (fun s => (s.chainId, s.feeMinimum, s.feePool, s.accounts, s.assetBalances,
      s.processedAssetOperations, s.assetOperationRecords, s.tokenDefinitions,
      s.processedTokenOperations, s.tokenOperationRecords, s.frozenTokenAccounts,
      s.mnaReserveLedger, s.processedMnaSwapOperations, s.mnaSwapOperationRecords,
      s.processedMnaReserveOperations, s.mnaReserveOperationRecords, s.programs,
      s.programReceipts, s.closedPrograms))
    (fun (c, m, p, a, b, i, r, d, pt, tr, f, l, ps, sr, pr, rr, g, gr, cl) =>
      ⟨c, m, p, a, b, i, r, d, pt, tr, f, l, ps, sr, pr, rr, g, gr, cl⟩) fun _ => rfl

namespace State

def snapshot (s : State) : StateSnapshot where
  chainId := s.chainId
  feeMinimum := s.feeMinimum
  feePool := s.feePool
  accounts := s.accounts
  assetBalances := s.assetBalances
  processedAssetOperations := s.processedAssetOperations
  assetOperationRecords := s.assetOperationRecords
  tokenDefinitions := s.tokenDefinitions
  processedTokenOperations := s.processedTokenOperations
  tokenOperationRecords := s.tokenOperationRecords
  frozenTokenAccounts := s.frozenTokenAccounts
  mnaReserveLedger := s.mnaReserveLedger
  processedMnaSwapOperations := s.processedMnaSwapOperations
  mnaSwapOperationRecords := s.mnaSwapOperationRecords
  processedMnaReserveOperations := s.processedMnaReserveOperations
  mnaReserveOperationRecords := s.mnaReserveOperationRecords
  programs := s.programs
  programReceipts := s.programReceipts
  closedPrograms := s.closedPrograms

def fromSnapshot (p : StateSnapshot) : State where
  chainId := p.chainId
  feeMinimum := p.feeMinimum
  feePool := p.feePool
  accounts := p.accounts
  assetBalances := p.assetBalances
  processedAssetOperations := p.processedAssetOperations
  assetOperationRecords := p.assetOperationRecords
  tokenDefinitions := p.tokenDefinitions
  processedTokenOperations := p.processedTokenOperations
  tokenOperationRecords := p.tokenOperationRecords
  frozenTokenAccounts := p.frozenTokenAccounts
  mnaReserveLedger := p.mnaReserveLedger
  processedMnaSwapOperations := p.processedMnaSwapOperations
  mnaSwapOperationRecords := p.mnaSwapOperationRecords
  processedMnaReserveOperations := p.processedMnaReserveOperations
  mnaReserveOperationRecords := p.mnaReserveOperationRecords
  programs := p.programs
  programReceipts := p.programReceipts
  closedPrograms := p.closedPrograms

@[simp] theorem fromSnapshot_snapshot (s : State) : fromSnapshot s.snapshot = s := rfl

theorem snapshot_inj {s t : State} : s.snapshot = t.snapshot ↔ s = t :=
  ⟨fun h => congrArg fromSnapshot h, fun h => congrArg snapshot h⟩

instance : DecidableEq StateSnapshot :=
  (Function.LeftInverse.injective fun p => (rfl : (fromSnapshot p).snapshot = p)).decidableEq

/-! ## 2. The root -/

section Root

variable (s : State)

/-- No programs, no receipts, no closed programs. -/
def withoutPrograms : Bool :=
  s.programs.isEmpty && s.programReceipts.isEmpty && s.closedPrograms.isEmpty

/-- No token was ever created, operated on or frozen. -/
def withoutTokens : Bool :=
  s.tokenDefinitions.isEmpty && s.processedTokenOperations.isEmpty
    && s.tokenOperationRecords.isEmpty && s.frozenTokenAccounts.isEmpty

/-- No bridged asset. -/
def withoutAssets : Bool :=
  s.assetBalances.isEmpty && s.processedAssetOperations.isEmpty && s.assetOperationRecords.isEmpty

/-- The bytes `state_root` hashes. -/
def rootBytes : List UInt8 :=
  if s.withoutPrograms then
    if s.withoutTokens then
      if s.withoutAssets then
        canonicalEncode (α := LegacyStateSnapshot)
          { chainId := s.chainId
            feeMinimum := s.feeMinimum
            feePool := s.feePool
            accounts := s.accounts }
      else
        canonicalEncode (α := LegacyAssetStateSnapshot)
          { chainId := s.chainId
            feeMinimum := s.feeMinimum
            feePool := s.feePool
            accounts := s.accounts
            assetBalances := s.assetBalances
            processedAssetOperations := s.processedAssetOperations
            assetOperationRecords := s.assetOperationRecords }
    else
      canonicalEncode (α := PreProgramStateSnapshot)
        { chainId := s.chainId
          feeMinimum := s.feeMinimum
          feePool := s.feePool
          accounts := s.accounts
          assetBalances := s.assetBalances
          processedAssetOperations := s.processedAssetOperations
          assetOperationRecords := s.assetOperationRecords
          tokenDefinitions := s.tokenDefinitions
          processedTokenOperations := s.processedTokenOperations
          tokenOperationRecords := s.tokenOperationRecords
          frozenTokenAccounts := s.frozenTokenAccounts
          mnaReserveLedger := s.mnaReserveLedger
          processedMnaSwapOperations := s.processedMnaSwapOperations
          mnaSwapOperationRecords := s.mnaSwapOperationRecords
          processedMnaReserveOperations := s.processedMnaReserveOperations
          mnaReserveOperationRecords := s.mnaReserveOperationRecords }
  else canonicalEncode s.snapshot

def stateRoot (E : Env) : Hash := E.crypto.sha256Domain "MNA/state/v1" s.rootBytes

end Root

/-! ## 3. What the bytes determine -/

variable {s t : State}

/-- The state has neither tokens nor programs: its root leaves the MNA reserve out. -/
def omitsMna (s : State) : Bool := s.withoutPrograms && s.withoutTokens

/-- The state with its MNA reserve and the reserve's records emptied. -/
def forgetMna (s : State) : State :=
  { s with
    mnaReserveLedger := {}
    processedMnaSwapOperations := ∅
    mnaSwapOperationRecords := ∅
    processedMnaReserveOperations := ∅
    mnaReserveOperationRecords := ∅ }

/-- The MNA reserve and its records. -/
def mnaPart (s : State) : MnaReserveLedger × BTreeSet Hash × BTreeMap Hash MnaSwapOperation ×
    BTreeSet Hash × BTreeMap Hash MnaReserveOperation :=
  (s.mnaReserveLedger, s.processedMnaSwapOperations, s.mnaSwapOperationRecords,
    s.processedMnaReserveOperations, s.mnaReserveOperationRecords)

theorem eq_of_forgetMna_of_mnaPart (hf : s.forgetMna = t.forgetMna) (hm : s.mnaPart = t.mnaPart) :
    s = t := by
  obtain ⟨⟩ := s
  obtain ⟨⟩ := t
  simp only [forgetMna, mnaPart, State.mk.injEq, Prod.mk.injEq] at hf hm
  simp_all

/-! The four encodings share their first fields; a longer one goes on behind a shorter one. -/

def assetPart (s : State) : BTreeMap Address (BTreeMap String Amount) × BTreeSet Hash ×
    BTreeMap Hash AssetOperation :=
  (s.assetBalances, s.processedAssetOperations, s.assetOperationRecords)

def tokenPart (s : State) : BTreeMap Hash TokenDefinition × BTreeSet Hash ×
    BTreeMap Hash TokenOperation × BTreeSet (Hash × Address) :=
  (s.tokenDefinitions, s.processedTokenOperations, s.tokenOperationRecords, s.frozenTokenAccounts)

def programPart (s : State) : BTreeMap String ProgramRecord ×
    BTreeMap Hash ProgramReceiptRecord × BTreeMap String U64 :=
  (s.programs, s.programReceipts, s.closedPrograms)

theorem rootBytes_eq (s : State) :
    s.rootBytes = encode (s.chainId, s.feeMinimum, s.feePool, s.accounts) ++
      encodeIf (!(s.omitsMna && s.withoutAssets)) s.assetPart
        (encodeIf (!s.omitsMna) (s.tokenPart, s.mnaPart)
          (encodeIf (!s.withoutPrograms) s.programPart [])) := by
  unfold rootBytes encodeIf omitsMna assetPart tokenPart mnaPart programPart
  cases hp : s.withoutPrograms <;> cases ht : s.withoutTokens <;> cases ha : s.withoutAssets
  all_goals
    simp [canonicalEncode, encode_pair, snapshot, List.append_assoc]
    rfl

theorem assetPart_of_withoutAssets (h : s.withoutAssets = true) : s.assetPart = (∅, ∅, ∅) := by
  simp only [withoutAssets, Bool.and_eq_true, ExtTreeMap.isEmpty_iff, ExtTreeSet.isEmpty_iff] at h
  simp [assetPart, h]

theorem tokenPart_of_withoutTokens (h : s.withoutTokens = true) :
    s.tokenPart = (∅, ∅, ∅, ∅) := by
  simp only [withoutTokens, Bool.and_eq_true, ExtTreeMap.isEmpty_iff, ExtTreeSet.isEmpty_iff] at h
  simp [tokenPart, h]

theorem programPart_of_withoutPrograms (h : s.withoutPrograms = true) :
    s.programPart = (∅, ∅, ∅) := by
  simp only [withoutPrograms, Bool.and_eq_true, ExtTreeMap.isEmpty_iff] at h
  simp [programPart, h]

theorem forgetMna_eq_of_parts
    (hc : (s.chainId, s.feeMinimum, s.feePool, s.accounts) =
      (t.chainId, t.feeMinimum, t.feePool, t.accounts))
    (ha : s.assetPart = t.assetPart) (ht : s.tokenPart = t.tokenPart)
    (hp : s.programPart = t.programPart) : s.forgetMna = t.forgetMna := by
  simp only [assetPart, tokenPart, programPart, Prod.mk.injEq] at hc ha ht hp
  simp [forgetMna, hc, ha, ht, hp]

/-- **What the bytes under the root determine**: the state, unless it has neither tokens nor
    programs; then everything but the MNA reserve and its records. -/
theorem rootBytes_inj (h : s.rootBytes = t.rootBytes) :
    s.omitsMna = t.omitsMna ∧ s.forgetMna = t.forgetMna ∧
      (s.omitsMna = false → s.mnaPart = t.mnaPart) := by
  rw [rootBytes_eq, rootBytes_eq] at h
  obtain ⟨hc, h⟩ := encode_append_inj h
  rcases encodeIf_inj (encode_pair_ne_nil encode_map_ne_nil) h with ⟨hs, ht⟩ | ⟨-, -, ha, h⟩
  · -- neither has more than accounts
    simp only [Bool.not_eq_false', Bool.and_eq_true, omitsMna] at hs ht
    obtain ⟨⟨hsp, hst⟩, hsa⟩ := hs
    obtain ⟨⟨htp, htt⟩, hta⟩ := ht
    refine ⟨by simp [omitsMna, hsp, hst, htp, htt], ?_, fun ho => ?_⟩
    · exact forgetMna_eq_of_parts hc
        ((assetPart_of_withoutAssets hsa).trans (assetPart_of_withoutAssets hta).symm)
        ((tokenPart_of_withoutTokens hst).trans (tokenPart_of_withoutTokens htt).symm)
        ((programPart_of_withoutPrograms hsp).trans (programPart_of_withoutPrograms htp).symm)
    · simp [omitsMna, hsp, hst] at ho
  rcases encodeIf_inj (encode_pair_ne_nil (encode_pair_ne_nil encode_map_ne_nil)) h with
    ⟨hs, ht⟩ | ⟨hs, ht, hm, h⟩
  · simp only [Bool.not_eq_false', Bool.and_eq_true, omitsMna] at hs ht
    obtain ⟨hsp, hst⟩ := hs
    obtain ⟨htp, htt⟩ := ht
    refine ⟨by simp [omitsMna, hsp, hst, htp, htt], ?_, fun ho => ?_⟩
    · exact forgetMna_eq_of_parts hc ha
        ((tokenPart_of_withoutTokens hst).trans (tokenPart_of_withoutTokens htt).symm)
        ((programPart_of_withoutPrograms hsp).trans (programPart_of_withoutPrograms htp).symm)
    · simp [omitsMna, hsp, hst] at ho
  · obtain ⟨htok, hmna⟩ := Prod.mk.inj hm
    have ho : s.omitsMna = t.omitsMna := by
      rw [Bool.not_eq_true'] at hs ht
      rw [hs, ht]
    refine ⟨ho, forgetMna_eq_of_parts hc ha htok ?_, fun _ => hmna⟩
    rcases encodeIf_inj (encode_pair_ne_nil encode_map_ne_nil) h with ⟨hs', ht'⟩ | ⟨-, -, hp, -⟩
    · simp only [Bool.not_eq_false'] at hs' ht'
      exact (programPart_of_withoutPrograms hs').trans (programPart_of_withoutPrograms ht').symm
    · exact hp

/-- Without tokens and programs the bytes do not see the MNA reserve. -/
theorem rootBytes_forgetMna (h : s.omitsMna = true) : s.forgetMna.rootBytes = s.rootBytes := by
  have ho : s.forgetMna.omitsMna = true := h
  rw [rootBytes_eq, rootBytes_eq, h, ho]
  rfl

/-! ## 4. What the root binds -/

/-- SHA-256 does not collide on the two states' encodings. -/
def SeparatesStates (E : Env) (s t : State) : Prop :=
  s.stateRoot E = t.stateRoot E → s.rootBytes = t.rootBytes

/-- **Equal roots mean equal snapshots** exactly unless the two states have neither tokens nor
    programs and differ in nothing but the MNA reserve and its records. -/
theorem stateRoot_binds_iff {E : Env} (hsep : SeparatesStates E s t) :
    (s.stateRoot E = t.stateRoot E → s.snapshot = t.snapshot) ↔
      ¬ (s.omitsMna = true ∧ t.omitsMna = true ∧ s.forgetMna = t.forgetMna ∧
        s.mnaPart ≠ t.mnaPart) := by
  rw [snapshot_inj]
  constructor
  · rintro hbind ⟨hs, ht, hf, hm⟩
    have hroot : s.stateRoot E = t.stateRoot E := by
      rw [stateRoot, stateRoot, ← rootBytes_forgetMna hs, hf, rootBytes_forgetMna ht]
    exact hm (congrArg mnaPart (hbind hroot))
  · intro hgood hroot
    obtain ⟨ho, hf, hm⟩ := rootBytes_inj (hsep hroot)
    refine eq_of_forgetMna_of_mnaPart hf ?_
    cases hs : s.omitsMna with
    | false => exact hm hs
    | true =>
      by_contra hne
      exact hgood ⟨hs, ho ▸ hs, hf, hne⟩

/-- Two states of the small chain that are told apart, by a transfer. -/
theorem stateRoot_binds_transfer :
    ((Sample.genesisState 0).stateRoot .standIn =
        ((Sample.genesisState 0).next .standIn
          (.transaction (Sample.transfer 0 Sample.address 1 0))).stateRoot .standIn →
      (Sample.genesisState 0).snapshot =
        ((Sample.genesisState 0).next .standIn
          (.transaction (Sample.transfer 0 Sample.address 1 0))).snapshot) ↔
      ¬ ((Sample.genesisState 0).omitsMna = true ∧
        ((Sample.genesisState 0).next .standIn
          (.transaction (Sample.transfer 0 Sample.address 1 0))).omitsMna = true ∧
        (Sample.genesisState 0).forgetMna =
          ((Sample.genesisState 0).next .standIn
            (.transaction (Sample.transfer 0 Sample.address 1 0))).forgetMna ∧
        (Sample.genesisState 0).mnaPart ≠
          ((Sample.genesisState 0).next .standIn
            (.transaction (Sample.transfer 0 Sample.address 1 0))).mnaPart) :=
  stateRoot_binds_iff fun h => absurd h (by decide +kernel)

/-- From one genesis without a minimum fee, 200 bridged USDC swapped to MNA and back, and 200
    bridged USDC with two transfers to oneself, reach two snapshots with one root. -/
theorem stateRoot_hides_redemption :
    let swapped : List Operation :=
      [.asset (Sample.bridge .mint 1 Sample.usdc 200), .mnaSwap (Sample.swap .mintMna 0 100 0),
        .mnaSwap (Sample.swap .redeemMna 1 100 0)]
    let moved : List Operation :=
      [.asset (Sample.bridge .mint 1 Sample.usdc 200),
        .transaction (Sample.transfer 0 Sample.address 1 0),
        .transaction (Sample.transfer 1 Sample.address 1 0)]
    let s := runs (next .standIn) (Sample.genesisState 0) swapped
    let t := runs (next .standIn) (Sample.genesisState 0) moved
    fromGenesis (Sample.genesis 0) = .ok (Sample.genesisState 0) ∧
      s.mnaReserveLedger.totalRedeemedMna = 100 ∧ s.nonceOf Sample.address = 2 ∧
      t.nonceOf Sample.address = 2 ∧
      s.stateRoot .standIn = t.stateRoot .standIn ∧ s.snapshot ≠ t.snapshot := by
  refine ⟨Sample.fromGenesis_genesis 0, ?_⟩
  decide +kernel

end State

end WorldstreetChain
