import WorldstreetChain.Solana.Program

/-!
# What the locks read

The three locks read their data in one way, before they look at an account. What is not read is
refused for any accounts on any ledger; what is read is accepted for some.

* `Solana.readLock_of_process` -- a lock that is accepted has read its data.
* `Solana.exists_accepted` -- **data that is read is accepted** from a depositor who owns enough.
-/

namespace WorldstreetChain

namespace Solana

/-- The tags of the instructions that lock. -/
def IsLock (tag : UInt8) : Prop :=
  tag = tagLockNativeSol ∨ tag = tagLockNativeSolMna ∨ tag = tagLockSpl

/-! ## 1. What is accepted was read -/

theorem readLock_of_process {C : Cluster} {l l' : Ledger} {accounts : List AccountMeta}
    {tag : UInt8} {rest : List UInt8} (htag : IsLock tag)
    (h : processInstruction C l ⟨accounts, tag :: rest⟩ = .ok l') :
    ∃ input, readLock rest = .ok input := by
  have hnative : ∀ lane, lock C l accounts rest (fun R programId => lockNative R programId lane) =
      .ok l' → ∃ input, readLock rest = .ok input := by
    intro lane h
    obtain ⟨made, hmade, -⟩ := Outcome.bind_eq_ok.mp h
    obtain ⟨input, hinput, -⟩ := Outcome.bind_eq_ok.mp hmade
    exact ⟨input, hinput⟩
  rcases htag with rfl | rfl | rfl
  · exact hnative .wsol h
  · exact hnative .mna h
  · obtain ⟨made, hmade, -⟩ := Outcome.bind_eq_ok.mp h
    obtain ⟨input, hinput, -⟩ := Outcome.bind_eq_ok.mp hmade
    exact ⟨input, hinput⟩

/-! ## 2. What is read is accepted -/

namespace Sample

/-- A key no address is derived to. -/
def outside (k : UInt8) : Pubkey := Vector.ofFn fun i => if i.val = 0 then 255 else k

theorem outside_ne_address {k : UInt8} (hk : k ≠ 255) (seeds : Seeds) :
    outside k ≠ cluster.address seeds := by
  intro h
  have h0 : (outside k)[0] = (cluster.address seeds)[0] := by rw [h]
  have h1 : (outside k)[1] = (cluster.address seeds)[1] := by rw [h]
  have hsame : (cluster.address seeds)[0] = (cluster.address seeds)[1] := by
    show (Vector.replicate 32 _)[0] = (Vector.replicate 32 _)[1]
    rw [Vector.getElem_replicate, Vector.getElem_replicate]
  rw [← h0, ← h1] at hsame
  simp [outside] at hsame
  exact hk hsame.symm

def wealthy : Pubkey := outside 1
def wealthyTokens : Pubkey := outside 2
def openVault : Pubkey := outside 3
def openState : Pubkey := outside 4
def openMint : Pubkey := outside 5
def openTokens : Pubkey := outside 6

/-- A bridge that is set up, and a depositor with as many lamports and tokens as can be named. -/
def opened : Ledger := fun k =>
  if k = wealthy then ⟨2 ^ 65, systemProgram, []⟩
  else if k = wealthyTokens then
    ⟨1, splTokenProgramId, openMint.toList ++ wealthy.toList ++ List.replicate 8 255⟩
  else if k = openVault then ⟨1, programId, []⟩
  else if k = openState then
    ⟨1, programId, defaultKey.toList ++ openVault.toList ++ openMint.toList⟩
  else if k = openMint then ⟨1, splTokenProgramId, List.replicate 44 0 ++ [6]⟩
  else if k = openTokens then
    ⟨1, splTokenProgramId, openMint.toList ++ openVault.toList ++ List.replicate 8 0⟩
  else ⟨0, systemProgram, []⟩

theorem opened_address (seeds : Seeds) :
    opened (cluster.address seeds) = ⟨0, systemProgram, []⟩ := by
  have h : ∀ k, k ≠ 255 → cluster.address seeds ≠ outside k :=
    fun k hk => (outside_ne_address hk seeds).symm
  unfold opened wealthy wealthyTokens openVault openState openMint openTokens
  rw [if_neg (h 1 (by decide)), if_neg (h 2 (by decide)), if_neg (h 3 (by decide)),
    if_neg (h 4 (by decide)), if_neg (h 5 (by decide)), if_neg (h 6 (by decide))]

theorem opened_wealthy : opened wealthy = ⟨2 ^ 65, systemProgram, []⟩ := if_pos rfl

/-- The accounts of a lock of native SOL. -/
def nativeAccounts (id : Vector UInt8 32) : List AccountMeta :=
  [⟨wealthy, true, true⟩, ⟨openVault, false, true⟩, ⟨openState, false, false⟩,
    ⟨cluster.address (depositSeeds id), false, true⟩, ⟨systemProgram, false, false⟩]

/-- The accounts of a lock of tokens. -/
def splAccounts (id : Vector UInt8 32) : List AccountMeta :=
  [⟨wealthy, true, true⟩, ⟨wealthyTokens, false, true⟩, ⟨openMint, false, false⟩,
    ⟨openTokens, false, true⟩, ⟨openVault, false, false⟩, ⟨openState, false, false⟩,
    ⟨cluster.address (splDepositSeeds id), false, true⟩, ⟨splTokenProgramId, false, false⟩,
    ⟨systemProgram, false, false⟩]

/-- The marker of a deposit can be paid for. -/
theorem canCreate_opened {accounts : List AccountMeta} {seeds : Seeds}
    (hwealthy : ⟨wealthy, true, true⟩ ∈ accounts)
    (hmarker : ⟨cluster.address seeds, false, true⟩ ∈ accounts) :
    opened.CanCreate ((Privileges.ofAccounts accounts).withSigner (cluster.address seeds)) wealthy
      (cluster.address seeds) 101 where
  payerSigns := by
    refine Bool.or_eq_true_iff.mpr (Or.inl (List.any_eq_true.mpr ⟨_, hwealthy, ?_⟩))
    simp
  accountSigns := by
    refine Bool.or_eq_true_iff.mpr (Or.inr ?_)
    simp
  payerWritable := List.any_eq_true.mpr ⟨_, hwealthy, by simp⟩
  accountWritable := List.any_eq_true.mpr ⟨_, hmarker, by simp⟩
  payerOwner := by rw [opened_wealthy]
  payerData := by rw [opened_wealthy]
  enough := by
    rw [opened_wealthy]
    decide
  unused := by rw [opened_address]
  accountOwner := by rw [opened_address]
  accountData := by rw [opened_address]

/-- What a deposit asks for is carried out. -/
theorem perform_transfer {accounts : List AccountMeta} {seeds : Seeds}
    (hwealthy : ⟨wealthy, true, true⟩ ∈ accounts)
    (hmarker : ⟨cluster.address seeds, false, true⟩ ∈ accounts) (amount : U64) :
    ∃ l', cluster.perform (.ofAccounts accounts)
      [.createAccount wealthy (cluster.address seeds) 101 1 programId,
        .transfer wealthy openVault amount] opened = .ok l' := by
  have hne : wealthy ≠ cluster.address seeds := outside_ne_address (by decide) seeds
  have hpayer : opened.created wealthy (cluster.address seeds) 101 1 programId wealthy =
      ⟨2 ^ 65 - 101, systemProgram, []⟩ := by
    unfold Ledger.created Ledger.setLamports
    rw [Function.update_of_ne hne, Function.update_self, opened_wealthy]
  refine ⟨_, Outcome.bind_eq_ok.mpr ⟨_, rejectIf_bind_eq_ok.mpr
    ⟨not_not.mpr (canCreate_opened hwealthy hmarker), rfl⟩, Outcome.bind_eq_ok.mpr ⟨_,
    rejectIf_bind_eq_ok.mpr ⟨?_, rfl⟩, rfl⟩⟩⟩
  have hlt := amount.isLt
  rw [hpayer]
  rintro (h | h | h)
  · have hsigns : (Privileges.ofAccounts accounts).signer wealthy = true :=
      List.any_eq_true.mpr ⟨_, hwealthy, by simp⟩
    exact Bool.false_ne_true (h.symm.trans hsigns)
  · exact h rfl
  · exact absurd h (by show ¬ (2 ^ 65 - 101 < amount.toNat); omega)

/-- The marker of a deposit is new. -/
theorem validateReplay_opened (seeds : Seeds) :
    validateReplay (opened.info ⟨cluster.address seeds, false, true⟩) programId = .ok () := by
  have howner : (opened.info ⟨cluster.address seeds, false, true⟩).owner = systemProgram := by
    show (opened (cluster.address seeds)).owner = _
    rw [opened_address]
  have hne : systemProgram ≠ programId := by decide
  refine rejectIf_bind_eq_ok.mpr ⟨?_, ?_⟩
  · rw [howner]
    exact hne
  · rw [rejectIf_neg (not_not.mpr howner)]

theorem createPda_opened (seeds : Seeds) :
    createPda cluster.collecting programId (opened.info ⟨wealthy, true, true⟩)
      (opened.info ⟨cluster.address seeds, false, true⟩) seeds replayLen =
      .ok [.createAccount wealthy (cluster.address seeds) 101 1 programId] := by
  have howner : (opened (cluster.address seeds)).owner = systemProgram := by
    rw [opened_address]
  have hkey : (⟨cluster.address seeds, false, true⟩ : AccountMeta).key = cluster.address seeds :=
    rfl
  exact createPda_eq cluster_lawful.ne_system hkey howner

theorem perform_transferChecked {accounts : List AccountMeta} {seeds : Seeds}
    (hwealthy : ⟨wealthy, true, true⟩ ∈ accounts)
    (hmarker : ⟨cluster.address seeds, false, true⟩ ∈ accounts) (amount : U64) :
    ∃ l', cluster.perform (.ofAccounts accounts)
      [.createAccount wealthy (cluster.address seeds) 101 1 programId,
        .transferChecked wealthyTokens openMint openTokens wealthy amount 6] opened = .ok l' := by
  have hsame : ∀ k, k ≠ 255 → outside k ≠ wealthy →
      opened.created wealthy (cluster.address seeds) 101 1 programId (outside k) =
        opened (outside k) := by
    intro k hk hne
    unfold Ledger.created Ledger.setLamports
    rw [Function.update_of_ne (outside_ne_address hk seeds), Function.update_of_ne hne]
  have hsource := hsame 2 (by decide) (by decide)
  have hmint := hsame 5 (by decide) (by decide)
  have hdestination := hsame 6 (by decide) (by decide)
  refine ⟨_, Outcome.bind_eq_ok.mpr ⟨_, rejectIf_bind_eq_ok.mpr
    ⟨not_not.mpr (canCreate_opened hwealthy hmarker), rfl⟩, Outcome.bind_eq_ok.mpr ⟨_,
    rejectIf_bind_eq_ok.mpr ⟨?_, rejectIf_bind_eq_ok.mpr ⟨?_, rejectIf_bind_eq_ok.mpr ⟨?_,
    rejectIf_bind_eq_ok.mpr ⟨?_, rfl⟩⟩⟩⟩, rfl⟩⟩⟩
  · have hsigns : (Privileges.ofAccounts accounts).signer wealthy = true :=
      List.any_eq_true.mpr ⟨_, hwealthy, by simp⟩
    exact fun h => Bool.false_ne_true (h.symm.trans hsigns)
  · rw [show wealthyTokens = outside 2 from rfl, show openTokens = outside 6 from rfl, hsource,
      hdestination]
    rw [show (opened.created wealthy (cluster.address seeds) 101 1 programId openMint) =
      opened openMint from hmint]
    decide +kernel
  · rw [show wealthyTokens = outside 2 from rfl, hsource]
    decide +kernel
  · have htokens : tokens opened wealthyTokens = 2 ^ 64 - 1 := by decide +kernel
    have hlt := amount.isLt
    have heq : tokens (opened.created wealthy (cluster.address seeds) 101 1 programId)
        wealthyTokens = tokens opened wealthyTokens :=
      congrArg (fun a : Account => leNat ((a.data.take 72).drop 64)) hsource
    omega

theorem lockNative_opened (lane : Lane) {rest : List UInt8} {input : LockInput}
    (h : readLock rest = .ok input) :
    ∃ l', lock cluster opened (nativeAccounts input.depositId) rest
      (fun R programId => lockNative R programId lane) = .ok l' := by
  have hmade : lockNative cluster.collecting programId lane
      ((nativeAccounts input.depositId).map opened.info) rest =
      .ok ⟨lane, input, openVault,
        [.createAccount wealthy (cluster.address (depositSeeds input.depositId)) 101 1 programId,
          .transfer wealthy openVault input.amount]⟩ := by
    refine Outcome.bind_eq_ok.mpr ⟨input, h, ?_⟩
    refine rejectIf_bind_eq_ok.mpr ⟨by simp [Ledger.info], ?_⟩
    refine Outcome.bind_eq_ok.mpr ⟨(defaultKey, openVault, openMint), by decide +kernel, ?_⟩
    refine rejectIf_bind_eq_ok.mpr ⟨by decide +kernel, ?_⟩
    refine rejectIf_bind_eq_ok.mpr ⟨not_not.mpr rfl, ?_⟩
    refine Outcome.bind_eq_ok.mpr ⟨(), validateReplay_opened _, ?_⟩
    exact Outcome.bind_eq_ok.mpr ⟨_, createPda_opened _, rfl⟩
  have hmarker : ⟨cluster.address (depositSeeds input.depositId), false, true⟩ ∈
      nativeAccounts input.depositId := by simp [nativeAccounts]
  obtain ⟨l', hperform⟩ := perform_transfer List.mem_cons_self hmarker input.amount
  exact ⟨l', Outcome.bind_eq_ok.mpr ⟨_, hmade, hperform⟩⟩

theorem lockSpl_opened {rest : List UInt8} {input : LockInput} (h : readLock rest = .ok input) :
    ∃ l', lock cluster opened (splAccounts input.depositId) rest lockSpl = .ok l' := by
  have hmade : lockSpl cluster.collecting programId
      ((splAccounts input.depositId).map opened.info) rest =
      .ok ⟨.spl openMint 6, input, openTokens,
        [.createAccount wealthy (cluster.address (splDepositSeeds input.depositId)) 101 1 programId,
          .transferChecked wealthyTokens openMint openTokens wealthy input.amount 6]⟩ := by
    refine Outcome.bind_eq_ok.mpr ⟨input, h, ?_⟩
    refine rejectIf_bind_eq_ok.mpr ⟨by simp [Ledger.info], ?_⟩
    refine Outcome.bind_eq_ok.mpr ⟨(defaultKey, openVault, openMint), by decide +kernel, ?_⟩
    refine rejectIf_bind_eq_ok.mpr ⟨by decide +kernel, ?_⟩
    refine Outcome.bind_eq_ok.mpr ⟨6, by decide +kernel, ?_⟩
    refine Outcome.bind_eq_ok.mpr ⟨BitVec.allOnes 64, by decide +kernel, ?_⟩
    refine Outcome.bind_eq_ok.mpr ⟨0, by decide +kernel, ?_⟩
    refine rejectIf_bind_eq_ok.mpr ⟨not_not.mpr rfl, ?_⟩
    refine Outcome.bind_eq_ok.mpr ⟨(), validateReplay_opened _, ?_⟩
    exact Outcome.bind_eq_ok.mpr ⟨_, createPda_opened _, rfl⟩
  have hmarker : ⟨cluster.address (splDepositSeeds input.depositId), false, true⟩ ∈
      splAccounts input.depositId := by simp [splAccounts]
  obtain ⟨l', hperform⟩ := perform_transferChecked List.mem_cons_self hmarker input.amount
  exact ⟨l', Outcome.bind_eq_ok.mpr ⟨_, hmade, hperform⟩⟩

end Sample

/-- **Data that is read is accepted** somewhere, whatever lock it is for. -/
theorem exists_accepted {tag : UInt8} {rest : List UInt8} {input : LockInput} (htag : IsLock tag)
    (h : readLock rest = .ok input) :
    ∃ l accounts l', processInstruction Sample.cluster l ⟨accounts, tag :: rest⟩ = .ok l' := by
  rcases htag with rfl | rfl | rfl
  · exact ⟨_, _, Sample.lockNative_opened .wsol h⟩
  · exact ⟨_, _, Sample.lockNative_opened .mna h⟩
  · exact ⟨_, _, Sample.lockSpl_opened h⟩

end Solana

end WorldstreetChain
