import WorldstreetChain.Solana.Safety

/-!
# Releases of the bridge program

* `Solana.spl_release_fails` -- **no release of the SPL mint succeeds**: the vault signs the
  transfer and the state account is named as its authority.
* `Solana.release_succeeds_iff` -- **when a release of native SOL succeeds**: the marker's address
  holds no lamports and the authority can pay for the marker.
* `Solana.blocked_by_a_lamport` -- a lamport sent to the marker's address blocks the release.
-/

namespace WorldstreetChain

namespace Solana

variable {C : Cluster} {known : List Seeds} {l l' : Ledger} {i : Invocation}
variable {e : Event} {events before after : List Event}

/-! ## 1. Releases of the SPL mint -/

/-- An instruction with the tag of an SPL release that succeeds has asked for a transfer. -/
theorem effect_releaseSpl (hC : C.Lawful) (htag : i.input.head? = some tagReleaseSpl)
    (h : processInstruction C l i = .ok l') :
    ∃ state source mint destination amount decimals l1, StateLike C l state ∧
      keyAt (l state).data 64 ≠ defaultKey ∧
      C.call ((Privileges.ofAccounts i.accounts).withSigner (C.address vaultSeeds))
        (.transferChecked source mint destination state amount decimals) l1 = .ok l' := by
  obtain ⟨rest, hinput⟩ := List.head?_eq_some_iff.mp htag
  have hother : ∀ tag rest', i.input = tag :: rest' → tag = tagReleaseSpl := by
    intro tag rest' h'
    exact (List.cons.inj (h'.symm.trans hinput)).1
  cases process_effect hC h with
  | initialized rest' htag' => exact absurd (hother _ _ htag') (by decide)
  | locked tag rest' htag' hnative =>
    rw [hother _ _ htag'] at hnative
    exact absurd hnative (by decide)
  | released rest' htag' => exact absurd (hother _ _ htag') (by decide)
  | lockedSpl _ _ rest' htag' => exact absurd (hother _ _ htag') (by decide)
  | releasedSpl state id rest' htag' l1 l' hmarks hstate hmint source mint destination amount
      decimals htransfer =>
    exact ⟨state, source, mint, destination, amount, decimals, l1, hstate, hmint, htransfer⟩

/-- **No release of the SPL mint succeeds**, in any ledger of any run: the authority named for the
    transfer is the bridge's state account, which does not sign. -/
theorem spl_release_fails (hC : C.Lawful) (hd : Derived C known) (hl : Fresh C known l)
    (hrun : EachStep (next C) (Allowed C known) l events) (hi : Admissible C known i)
    (htag : i.input.head? = some tagReleaseSpl) :
    ∃ f, processInstruction C (runs (next C) l events) i = .error f := by
  have hinv := inv_runs hC hd (hl.inv hC hd) hrun
  cases hp : processInstruction C (runs (next C) l events) i with
  | error f => exact ⟨f, rfl⟩
  | ok l' =>
    obtain ⟨state, source, mint, destination, amount, decimals, l1, hstate, hmint, htransfer⟩ :=
      effect_releaseSpl hC htag hp
    rcases hinv.stateLike hstate with ⟨heq, -⟩ | ⟨-, hdefault⟩
    · obtain ⟨hsigner, -, -⟩ := hC.token_ok _ _ _ _ _ _ _ _ _ htransfer
      rcases Bool.or_eq_true_iff.mp hsigner with houter | hvault
      · exact absurd heq ((hi.signs _ (signs_ofAccounts.mp houter)).2 _ hd.state)
      · exact absurd (heq.symm.trans (eq_of_beq hvault)) hd.state_ne_vault
    · exact absurd hdefault hmint

namespace Sample

def lockSplCall (amount : Nat) : Invocation where
  accounts := [⟨depositor, true, true⟩, ⟨depositorTokens, false, true⟩, ⟨mint, false, false⟩,
    ⟨vaultTokens, false, true⟩, ⟨vaultPda cluster, false, false⟩, ⟨statePda cluster, false, false⟩,
    ⟨cluster.address (splDepositSeeds depositId), false, true⟩, ⟨splTokenProgramId, false, false⟩,
    ⟨systemProgram, false, false⟩]
  input := lockInput tagLockSpl amount

def releaseSplCall (amount : Nat) : Invocation where
  accounts := [⟨authority, true, true⟩, ⟨statePda cluster, false, false⟩,
    ⟨vaultTokens, false, true⟩, ⟨recipientTokens, false, true⟩, ⟨mint, false, false⟩,
    ⟨cluster.address (splReleaseSeeds burnId), false, true⟩, ⟨splTokenProgramId, false, false⟩,
    ⟨systemProgram, false, false⟩]
  input := tagReleaseSpl :: (Crypto.leBytes amount 8).toList ++ burnId.toList

/-- A setting-up and a deposit of 40 tokens. -/
def splDeposit : List Event := [.call initializeCall, .call (lockSplCall 40)]

theorem splDeposit_allowed :
    EachStep (next cluster) (Allowed cluster seeds) start splDeposit := by
  refine ⟨?_, ?_, trivial⟩
  · show Admissible cluster seeds _
    decide +kernel
  · show Admissible cluster seeds _
    decide +kernel

end Sample

theorem spl_release_fails_sample : ∃ f, processInstruction Sample.cluster
    (runs (next Sample.cluster) Sample.start Sample.splDeposit) (Sample.releaseSplCall 30) =
      .error f :=
  spl_release_fails Sample.cluster_lawful Sample.derived Sample.fresh Sample.splDeposit_allowed
    (by decide +kernel) rfl

/-- **Tokens that are locked are not released**: the vault's account takes a deposit of 40 tokens,
    and the release of 30 of them fails for want of a signature, where the token program would make
    the transfer for the vault. -/
theorem spl_release_missing_signature :
    successful Sample.cluster Sample.start (Sample.splDeposit ++ [.call (Sample.releaseSplCall 30)]) =
        [Sample.initializeCall, Sample.lockSplCall 40] ∧
      Sample.tokens (runs (next Sample.cluster) Sample.start Sample.splDeposit)
        Sample.vaultTokens = 40 ∧
      (processInstruction Sample.cluster
        (runs (next Sample.cluster) Sample.start Sample.splDeposit)
        (Sample.releaseSplCall 30)).map (fun _ => ()) =
          .error (.err (.invocation "missing required signature")) ∧
      (Sample.cluster.call
        ((Privileges.ofAccounts (Sample.releaseSplCall 30).accounts).withSigner
          (vaultPda Sample.cluster))
        (.transferChecked Sample.vaultTokens Sample.mint Sample.recipientTokens
          (vaultPda Sample.cluster) 30 6)
        (runs (next Sample.cluster) Sample.start Sample.splDeposit)).map (fun _ => ()) =
          .ok () := by
  decide +kernel

/-! ## 2. Releases of native SOL -/

/-- A release of native SOL as its instruction spells it out. -/
structure ReleaseOf (C : Cluster) (i : Invocation) (authority recipient : Pubkey) (amount : U64)
    (id : Vector UInt8 32) : Prop where
  input : ∃ rest, i.input = tagReleaseNativeSol :: rest ∧ readU64 rest = .ok amount ∧
    readId (rest.drop 8) = .ok id
  accounts : ∃ a s v r m y more, i.accounts = a :: s :: v :: r :: m :: y :: more ∧
    (a.key = authority ∧ a.isSigner = true) ∧ s.key = statePda C ∧
    (v.key = vaultPda C ∧ v.isWritable = true) ∧ (r.key = recipient ∧ r.isWritable = true) ∧
    (m.key = C.address (releaseSeeds id) ∧ m.isWritable = true) ∧ y.key = systemProgram

/-- The marker's address is unused, and the authority can pay for the marker. -/
@[mk_iff]
structure Unblocked (C : Cluster) (l : Ledger) (i : Invocation) (authority : Pubkey)
    (id : Vector UInt8 32) : Prop where
  unused : (l (C.address (releaseSeeds id))).lamports = 0
  writable : (Privileges.ofAccounts i.accounts).writable authority = true
  owner : (l authority).owner = systemProgram
  data : (l authority).data = []
  rent : C.runtime.minimumBalance replayLen ≤ (l authority).lamports

instance (l : Ledger) (i : Invocation) (authority : Pubkey) (id : Vector UInt8 32) :
    Decidable (Unblocked C l i authority id) :=
  decidable_of_iff' _ (unblocked_iff ..)

/-- No two of the accounts hold more lamports than there can be. -/
def Supply (l : Ledger) (keys : List Pubkey) : Prop :=
  ∀ j ∈ keys, ∀ k ∈ keys, j ≠ k → (l j).lamports + (l k).lamports < 2 ^ 64

instance (l : Ledger) (keys : List Pubkey) : Decidable (Supply l keys) :=
  have (j : Pubkey) : Decidable (∀ k ∈ keys, j ≠ k → (l j).lamports + (l k).lamports < 2 ^ 64) :=
    List.decidableBAll _ keys
  List.decidableBAll _ keys

/-- A ledger in which the bridge is set up for an authority. -/
structure SetUp (C : Cluster) (l : Ledger) (authority : Pubkey) : Prop where
  state : (l (statePda C)).owner = C.programId
  authority : keyAt (l (statePda C)).data 0 = authority
  vault : Marked C l (vaultPda C)

/-- What `create_pda` does at an address of the system program. -/
theorem create_eq_ok_iff (hC : C.Lawful) {P : Privileges} {payer account : AccountMeta}
    {seeds : Seeds} {space : Nat} (hspace : space ≤ maxPermittedDataIncrease)
    (hkey : account.key = C.address seeds) (howner : (l (C.address seeds)).owner = systemProgram) :
    create C P payer account seeds space l = .ok l' ↔
      l.CanCreate (P.withSigner (C.address seeds)) payer.key (C.address seeds)
          (C.runtime.minimumBalance space) ∧
        l' = l.created payer.key (C.address seeds) (C.runtime.minimumBalance space) space
          C.programId := by
  have hcpis : createPda C.collecting C.programId (l.info payer) (l.info account) seeds space =
      .ok [.createAccount payer.key (C.address seeds) (C.runtime.minimumBalance space) space
        C.programId] := createPda_eq hC.ne_system hkey howner
  have hcall := hC.create_iff (P.withSigner (C.address seeds)) payer.key (C.address seeds)
    (C.runtime.minimumBalance space) space C.programId l l' hspace
  unfold create
  rw [hcpis]
  constructor
  · intro h
    obtain ⟨cpis, heq, h⟩ := Outcome.bind_eq_ok.mp h
    rw [← Except.ok.inj heq] at h
    exact hcall.mp (perform_single h)
  · intro h
    exact Outcome.bind_eq_ok.mpr ⟨_, rfl, Outcome.bind_eq_ok.mpr ⟨l', hcall.mpr h, rfl⟩⟩

section Step

variable {authority recipient : Pubkey} {amount : U64} {id : Vector UInt8 32}

theorem readState_eq (hinv : Inv C known l) (hset : SetUp C l authority) {s : AccountMeta}
    (hs : s.key = statePda C) :
    ∃ mint, readState (l.info s) C.programId = .ok (authority, vaultPda C, mint) := by
  obtain ⟨authority', mint, -, hdata⟩ := hinv.config hset.state
  have hkeys := keyAt_bridgeData authority' (vaultPda C) mint
  have hauthority := hset.authority
  rw [hdata, hkeys.1] at hauthority
  have hinfo : l.info s = ⟨s.key, C.programId, s.isSigner, s.isWritable,
      bridgeData authority (vaultPda C) mint⟩ := by
    unfold Ledger.info
    rw [hs, hset.state, hdata, hauthority]
  rw [hauthority] at hkeys
  refine ⟨mint, ?_⟩
  rw [hinfo]
  refine rejectIf_bind_eq_ok.mpr ⟨not_or.mpr ⟨not_not.mpr rfl, ?_⟩, ?_⟩
  · exact not_not.mpr (length_bridgeData _ _ _)
  · rw [hkeys.1, hkeys.2.1, hkeys.2.2]

/-- Behind the creation of the marker the recipient has room for what leaves the vault. -/
theorem credit_lt {marker vault r : Pubkey} {rent space n : Nat}
    (hsupply : Supply l [authority, vault, r]) (hva : vault ≠ authority)
    (hrent : rent ≤ (l authority).lamports) (hn : n ≤ (l vault).lamports) :
    ((l.created authority marker rent space C.programId).setLamports vault
      ((l vault).lamports - n) r).lamports + n < 2 ^ 64 := by
  have hpair := hsupply vault (by simp) authority (by simp) hva
  unfold Ledger.setLamports Ledger.created
  by_cases hrv : r = vault
  · rw [hrv, Function.update_self]
    show (l vault).lamports - n + n < 2 ^ 64
    omega
  rw [Function.update_of_ne hrv]
  by_cases hrm : r = marker
  · rw [hrm, Function.update_self]
    show rent + n < 2 ^ 64
    omega
  rw [Function.update_of_ne hrm]
  unfold Ledger.setLamports
  by_cases hra : r = authority
  · rw [hra, Function.update_self]
    show (l authority).lamports - rent + n < 2 ^ 64
    omega
  · rw [Function.update_of_ne hra]
    have hother := hsupply r (by simp) vault (by simp) hrv
    omega

/-- **When a release succeeds**, in one ledger. -/
theorem release_iff (hC : C.Lawful) (hd : Derived C known) (hinv : Inv C known l)
    (hset : SetUp C l authority) (hadm : Admissible C known i)
    (hrel : ReleaseOf C i authority recipient amount id)
    (hnew : (l (C.address (releaseSeeds id))).owner ≠ C.programId) (hamount : amount ≠ 0)
    (henough : C.runtime.minimumBalance 0 + amount.toNat ≤ (l (vaultPda C)).lamports)
    (hsupply : Supply l [authority, vaultPda C, recipient]) :
    (∃ l', processInstruction C l i = .ok l') ↔ Unblocked C l i authority id := by
  obtain ⟨rest, hinput, hread, hid⟩ := hrel.input
  obtain ⟨a, s, v, r, m, y, more, hacc, ⟨ha, hasigns⟩, hs, ⟨hv, hvw⟩, ⟨hr, hrw⟩, ⟨hm, hmw⟩, hy⟩ :=
    hrel.accounts
  have hmarker : i.marker = some (releaseSeeds id) :=
    (marker_eq hinput hid).trans (by rw [if_neg (by decide), if_pos rfl])
  have hseeds := hadm.marker _ hmarker
  obtain ⟨-, hmv⟩ := hd.marker_ne hseeds hmarker
  have hsigns : i.Signs authority := ⟨a, by rw [hacc]; exact List.mem_cons_self, ha, hasigns⟩
  have hva : vaultPda C ≠ authority := Ne.symm ((hadm.signs _ hsigns).2 _ hd.vault)
  have ham : authority ≠ C.address (releaseSeeds id) := (hadm.signs _ hsigns).2 _ hseeds
  obtain ⟨howner, hdata⟩ : (l (C.address (releaseSeeds id))).owner = systemProgram ∧
      (l (C.address (releaseSeeds id))).data = [] :=
    (hinv.derived _ hseeds).resolve_right hnew
  have hcreate : ∀ l1, create C (.ofAccounts i.accounts) a m (releaseSeeds id) replayLen l = .ok l1 ↔
      l.CanCreate ((Privileges.ofAccounts i.accounts).withSigner (C.address (releaseSeeds id)))
          authority (C.address (releaseSeeds id)) (C.runtime.minimumBalance replayLen) ∧
        l1 = l.created authority (C.address (releaseSeeds id))
          (C.runtime.minimumBalance replayLen) replayLen C.programId := by
    intro l1
    rw [← ha]
    exact create_eq_ok_iff hC (by decide) hm howner
  obtain ⟨mint, hstate⟩ := readState_eq hinv hset hs
  have hprocess : processInstruction C l i = releaseNativeSol C l i.accounts rest := by
    unfold processInstruction
    rw [hinput]
    rfl
  rw [hprocess]
  constructor
  · intro ⟨l', h⟩
    unfold releaseNativeSol at h
    obtain ⟨amount', -, h⟩ := Outcome.bind_eq_ok.mp h
    obtain ⟨id', hid', h⟩ := Outcome.bind_eq_ok.mp h
    have hsame : id' = id := Except.ok.inj (hid'.symm.trans hid)
    rw [hsame] at h
    rw [hacc] at h
    obtain ⟨-, h⟩ := rejectIf_bind_eq_ok.mp h
    obtain ⟨_, -, h⟩ := Outcome.bind_eq_ok.mp h
    obtain ⟨-, h⟩ := rejectIf_bind_eq_ok.mp h
    obtain ⟨-, h⟩ := rejectIf_bind_eq_ok.mp h
    obtain ⟨_, -, h⟩ := Outcome.bind_eq_ok.mp h
    obtain ⟨l1, h1, -⟩ := Outcome.bind_eq_ok.mp h
    rw [← hacc] at h1
    obtain ⟨hcan, -⟩ := (hcreate l1).mp h1
    exact ⟨hcan.unused, hcan.payerWritable, hcan.payerOwner, hcan.payerData, hcan.enough⟩
  · intro h
    have hcan : l.CanCreate
        ((Privileges.ofAccounts i.accounts).withSigner (C.address (releaseSeeds id)))
        authority (C.address (releaseSeeds id)) (C.runtime.minimumBalance replayLen) := by
      refine ⟨?_, ?_, h.writable, ?_, h.owner, h.data, h.rent, h.unused, howner, hdata⟩
      · exact Bool.or_eq_true_iff.mpr (Or.inl (signs_ofAccounts.mpr hsigns))
      · exact Bool.or_eq_true_iff.mpr (Or.inr (beq_self_eq_true _))
      · refine List.any_eq_true.mpr ⟨m, by rw [hacc]; simp, ?_⟩
        rw [hm, hmw, beq_self_eq_true]
        rfl
    obtain ⟨l1, hl1⟩ : ∃ l1, l1 = l.created authority (C.address (releaseSeeds id))
        (C.runtime.minimumBalance replayLen) replayLen C.programId := ⟨_, rfl⟩
    have h1 := (hcreate l1).mpr ⟨hcan, hl1⟩
    have hvault : (l1 (vaultPda C)).lamports = (l (vaultPda C)).lamports := by
      rw [hl1]
      unfold Ledger.created Ledger.setLamports
      rw [Function.update_of_ne (Ne.symm hmv), Function.update_of_ne hva]
    have hcredit : (l1.setLamports (vaultPda C) ((l (vaultPda C)).lamports - amount.toNat)
        r.key).lamports + amount.toNat < 2 ^ 64 := by
      rw [hl1]
      exact credit_lt (hr ▸ hsupply) hva h.rent (by omega)
    let l2 := l1.setLamports v.key ((l1 v.key).lamports - amount.toNat)
    refine ⟨l2.setLamports r.key ((l2 r.key).lamports + amount.toNat),
      Outcome.bind_eq_ok.mpr ⟨amount, hread, Outcome.bind_eq_ok.mpr ⟨id, hid, ?_⟩⟩⟩
    rw [hacc] at h1 ⊢
    refine rejectIf_bind_eq_ok.mpr ⟨?_, Outcome.bind_eq_ok.mpr ⟨_, hstate,
      rejectIf_bind_eq_ok.mpr ⟨?_, rejectIf_bind_eq_ok.mpr ⟨?_, Outcome.bind_eq_ok.mpr ⟨⟨⟩, ?_,
        Outcome.bind_eq_ok.mpr ⟨l1, h1, rejectIf_bind_eq_ok.mpr ⟨?_, rejectIf_bind_eq_ok.mpr ⟨?_,
          rfl⟩⟩⟩⟩⟩⟩⟩⟩
    · rw [hasigns, hvw, hrw, hmw, hy]
      decide
    · rw [ha, hv]
      rintro (hne | hne | hne | hne)
      · exact hne rfl
      · exact hne rfl
      · exact hne hset.vault.owner
      · exact hamount hne
    · exact not_not.mpr hm
    · refine rejectIf_bind_eq_ok.mpr ⟨?_, rejectIf_eq_ok.mpr ?_⟩
      · show (l m.key).owner ≠ C.programId
        rw [hm]
        exact hnew
      · refine not_not.mpr ?_
        show (l m.key).owner = systemProgram
        rw [hm]
        exact howner
    · rw [hv, hvault]
      omega
    · rw [hv, hvault]
      exact Nat.not_le.mpr hcredit

end Step

/-! ## 3. Releases over whole runs -/

/-- The address of a release's marker is no other marker's. -/
theorem eq_releaseSeeds {s : Seeds} {id : Vector UInt8 32} (hm : i.marker = some s)
    (h : s.flatten = (releaseSeeds id).flatten) : s = releaseSeeds id := by
  have hlength : (releaseSeeds id).flatten.length = 39 := by
    rw [releaseSeeds, List.length_flatten]
    simp
    decide +kernel
  unfold Invocation.marker at hm
  split at hm
  · cases hm
  split at hm
  · cases hm
  rename_i id' _
  have hparts : ∀ front : List UInt8, front.length = "release".toUTF8.toList.length →
      [front, id'.toList].flatten = (releaseSeeds id).flatten →
        front = "release".toUTF8.toList ∧ id' = id := by
    intro front hfront heq
    simp only [releaseSeeds, List.flatten_cons, List.flatten_nil, List.append_nil] at heq
    obtain ⟨h1, h2⟩ := List.append_inj heq hfront
    exact ⟨h1, Vector.toList_inj.mp h2⟩
  have hlong : ∀ front : List UInt8, front.length ≠ 7 →
      [front, id'.toList].flatten ≠ (releaseSeeds id).flatten := by
    intro front hfront heq
    have hlen := congrArg List.length heq
    rw [hlength] at hlen
    simp at hlen
    omega
  split at hm
  · rw [← Option.some.inj hm] at h
    exact absurd (hparts _ (by decide +kernel) h).1 (by decide +kernel)
  split at hm
  · rw [← Option.some.inj hm] at h ⊢
    rw [(hparts _ rfl h).2]
  split at hm
  · rw [← Option.some.inj hm] at h
    exact absurd h (hlong _ (by decide +kernel))
  split at hm
  · rw [← Option.some.inj hm] at h
    exact absurd h (hlong _ (by decide +kernel))
  · cases hm

section Whole

variable {authority recipient : Pubkey} {amount : U64} {id : Vector UInt8 32}

/-- An address becomes a marker of the program by the instruction that leaves it. -/
theorem unmarked_runs (hC : C.Lawful) (hd : Derived C known) (hinv : Inv C known l)
    (hrun : EachStep (next C) (Allowed C known) l events) (hseeds : releaseSeeds id ∈ known)
    (hne : C.address (releaseSeeds id) ≠ statePda C ∧ C.address (releaseSeeds id) ≠ vaultPda C)
    (hnew : (l (C.address (releaseSeeds id))).owner ≠ C.programId)
    (hid : releaseSeeds id ∉ (successful C l events).filterMap Invocation.marker) :
    (runs (next C) l events (C.address (releaseSeeds id))).owner ≠ C.programId := by
  induction events generalizing l with
  | nil => exact hnew
  | cons e events ih =>
    rw [runs_cons]
    refine ih (inv_next hC hd hinv hrun.1) hrun.2 ?_ ?_
    · rcases next_cases hC hd hinv hrun.1 with ⟨i, rfl, hp, hstep⟩ | ⟨i, f, rfl, hp, hsame⟩ |
        ⟨-, hO⟩
      · intro hgained
        rcases hstep.created _ hnew hgained with heq | heq | ⟨s, hmarker, heq⟩
        · exact hne.1 heq
        · exact hne.2 heq
        · have hs := (show Admissible C known i from hrun.1).marker s hmarker
          have hflat := hd.separate s hs _ hseeds heq
          rw [eq_releaseSeeds hmarker hflat] at hmarker
          refine hid (List.mem_filterMap.mpr ⟨i, ?_, hmarker⟩)
          rw [successful, hp]
          exact List.mem_cons_self
      · rw [hsame]
        exact hnew
      · have howner := ((hinv.derived _ hseeds).resolve_right hnew).1
        rw [(hO.derived _ hseeds howner).owner]
        exact hnew
    · rcases next_cases hC hd hinv hrun.1 with ⟨i, rfl, hp, -⟩ | ⟨i, f, rfl, hp, hsame⟩ | ⟨he, -⟩
      · rw [successful, hp] at hid
        intro hmem
        obtain ⟨j, hj, hm⟩ := List.mem_filterMap.mp hmem
        exact hid (List.mem_filterMap.mpr ⟨j, List.mem_cons_of_mem _ hj, hm⟩)
      · rw [successful, hp] at hid
        rw [hsame]
        exact hid
      · rw [he] at hid
        exact hid

/-- What others do leaves the bridge set up. -/
theorem setUp_next (hC : C.Lawful) (hd : Derived C known) (hinv : Inv C known l)
    (he : Allowed C known l e) (hset : SetUp C l authority)
    (hothers : ∀ i, e = .call i → ¬ i.Signs authority) : SetUp C (next C l e) authority := by
  obtain ⟨howner, hdata⟩ := config_next hC hd hinv hset.state he
  have hlamports : (l (vaultPda C)).lamports ≤ (next C l e (vaultPda C)).lamports := by
    by_contra hless
    obtain ⟨i, hi, -, -, hsigns⟩ := vault_debited hC hd hinv he (Nat.lt_of_not_le hless)
    rw [hset.authority] at hsigns
    exact hothers i hi hsigns
  have hvault : (next C l e (vaultPda C)).owner = C.programId := by
    rcases next_cases hC hd hinv he with ⟨i, -, -, hstep⟩ | ⟨i, f, -, -, hsame⟩ | ⟨-, hO⟩
    · exact (hstep.owned _ hset.vault.owner).1
    · rw [hsame]
      exact hset.vault.owner
    · exact (hO.marked hset.vault).1.owner
  exact ⟨howner, hdata ▸ hset.authority, hvault, Nat.lt_of_lt_of_le hset.vault.lamports hlamports⟩

theorem setUp_runs (hC : C.Lawful) (hd : Derived C known) (hinv : Inv C known l)
    (hrun : EachStep (next C) (Allowed C known) l events) (hset : SetUp C l authority)
    (hothers : ∀ i, .call i ∈ events → ¬ i.Signs authority) :
    SetUp C (runs (next C) l events) authority := by
  induction events generalizing l with
  | nil => exact hset
  | cons e events ih =>
    refine ih (inv_next hC hd hinv hrun.1) hrun.2 (setUp_next hC hd hinv hrun.1 hset ?_) ?_
    · intro i hi
      exact hothers i (hi ▸ List.mem_cons_self)
    · intro i hi
      exact hothers i (List.mem_cons_of_mem _ hi)

/-- **When a release of native SOL succeeds**: whatever others do to a bridge that is set up, the
    release of an id not released before succeeds if and only if its marker's address holds no
    lamports and the authority can pay for the marker. This is about the instruction: that a
    transaction leaves no account of its own below the rent exemption is a rule of the runtime and
    not modelled, so a recipient's new account and the authority's rest have to be exempt. -/
theorem release_succeeds_iff (hC : C.Lawful) (hd : Derived C known) (hl : Fresh C known l)
    (hrun : EachStep (next C) (Allowed C known) l (before ++ after))
    (hset : SetUp C (runs (next C) l before) authority)
    (hothers : ∀ i, .call i ∈ after → ¬ i.Signs authority)
    (hid : releaseSeeds id ∉ (successful C l (before ++ after)).filterMap Invocation.marker)
    (hadm : Admissible C known i) (hrel : ReleaseOf C i authority recipient amount id)
    (hamount : amount ≠ 0)
    (hexempt : C.runtime.minimumBalance 0 + amount.toNat ≤
      (runs (next C) l (before ++ after) (vaultPda C)).lamports)
    (hsupply : Supply (runs (next C) l (before ++ after)) [authority, vaultPda C, recipient]) :
    (∃ l', processInstruction C (runs (next C) l (before ++ after)) i = .ok l') ↔
      Unblocked C (runs (next C) l (before ++ after)) i authority id := by
  have hinv := hl.inv hC hd
  obtain ⟨hbefore, hafter⟩ := eachStep_append.mp hrun
  obtain ⟨rest, hinput, -, hread⟩ := hrel.input
  have hmarker : i.marker = some (releaseSeeds id) :=
    (marker_eq hinput hread).trans (by rw [if_neg (by decide), if_pos rfl])
  have hseeds := hadm.marker _ hmarker
  have hnew : (l (C.address (releaseSeeds id))).owner ≠ C.programId := by
    rw [(hl.derived _ hseeds).1]
    exact Ne.symm hC.ne_system
  have hunmarked := unmarked_runs hC hd hinv hrun hseeds (hd.marker_ne hseeds hmarker) hnew hid
  have hset' : SetUp C (runs (next C) l (before ++ after)) authority := by
    rw [runs_append]
    exact setUp_runs hC hd (inv_runs hC hd hinv hbefore) hafter hset hothers
  exact release_iff hC hd (inv_runs hC hd hinv hrun) hset' hadm hrel hunmarked hamount hexempt
    hsupply

end Whole

namespace Sample

/-- Somebody pays 1000 lamports into the vault. -/
def funded : Ledger :=
  (next cluster start (.call initializeCall)).move depositor (vaultPda cluster) 1000

/-- Somebody pays a lamport to the address of the release's marker. -/
def poked : Ledger := funded.move depositor (cluster.address (releaseSeeds burnId)) 1

theorem funded_allowed : EachStep (next cluster) (Allowed cluster seeds) start
    ([.call initializeCall] ++ [.others funded]) := by
  refine ⟨bridged_allowed.1, ?_, trivial⟩
  exact Others.move cluster_lawful (by decide +kernel) (by decide +kernel) _ _

theorem poked_allowed : EachStep (next cluster) (Allowed cluster seeds) start
    ([.call initializeCall] ++ [.others funded, .others poked]) := by
  refine ⟨funded_allowed.1, funded_allowed.2.1, ?_, trivial⟩
  exact Others.move cluster_lawful (by decide +kernel) (by decide +kernel) _ _

theorem releaseOf_releaseCall :
    ReleaseOf cluster (releaseCall 200) authority recipient 200 burnId where
  input := ⟨_, rfl, by decide +kernel, by decide +kernel⟩
  accounts := ⟨_, _, _, _, _, _, _, rfl, ⟨rfl, rfl⟩, rfl, ⟨rfl, rfl⟩, ⟨rfl, rfl⟩, ⟨rfl, rfl⟩, rfl⟩

theorem setUp_initialized : SetUp cluster (runs (next cluster) start [.call initializeCall])
    authority := by
  have h : ((next cluster start (.call initializeCall) (statePda cluster)).owner = programId ∧
      keyAt (next cluster start (.call initializeCall) (statePda cluster)).data 0 = authority) ∧
      (next cluster start (.call initializeCall) (vaultPda cluster)).owner = programId ∧
      0 < (next cluster start (.call initializeCall) (vaultPda cluster)).lamports := by
    decide +kernel
  exact ⟨h.1.1, h.1.2, h.2.1, h.2.2⟩

theorem unsigned_funded : ∀ i, Event.call i ∈ [Event.others funded] → ¬ i.Signs authority := by
  intro i hi
  cases List.mem_singleton.mp hi

theorem unreleased_funded : releaseSeeds burnId ∉
    (successful cluster start ([.call initializeCall] ++ [.others funded])).filterMap
      Invocation.marker := by
  decide +kernel

theorem exempt_funded : cluster.runtime.minimumBalance 0 + (200 : U64).toNat ≤
    (funded (vaultPda cluster)).lamports := by
  decide +kernel

theorem supply_funded : Supply funded [authority, vaultPda cluster, recipient] := by
  decide +kernel

theorem unblocked_funded : Unblocked cluster funded (releaseCall 200) authority burnId := by
  decide +kernel

end Sample

theorem release_succeeds_funded :
    ∃ l', processInstruction Sample.cluster Sample.funded (Sample.releaseCall 200) = .ok l' :=
  (release_succeeds_iff Sample.cluster_lawful Sample.derived Sample.fresh Sample.funded_allowed
    Sample.setUp_initialized Sample.unsigned_funded Sample.unreleased_funded (by decide +kernel)
    Sample.releaseOf_releaseCall (by decide) Sample.exempt_funded Sample.supply_funded).mpr
    Sample.unblocked_funded

/-- **A lamport blocks a release**: the release succeeds without it, and fails once somebody has
    paid a lamport to the address of its marker. -/
theorem blocked_by_a_lamport :
    EachStep (next Sample.cluster) (Allowed Sample.cluster Sample.seeds) Sample.start
        ([.call Sample.initializeCall] ++ [.others Sample.funded, .others Sample.poked]) ∧
      100 + 200 ≤ (Sample.poked (vaultPda Sample.cluster)).lamports ∧
      successful Sample.cluster Sample.start [.call Sample.initializeCall, .others Sample.funded,
          .call (Sample.releaseCall 200)] = [Sample.initializeCall, Sample.releaseCall 200] ∧
      successful Sample.cluster Sample.start [.call Sample.initializeCall, .others Sample.funded,
          .others Sample.poked, .call (Sample.releaseCall 200)] = [Sample.initializeCall] :=
  ⟨Sample.poked_allowed, by decide +kernel, by decide +kernel, by decide +kernel⟩

end Solana

end WorldstreetChain
