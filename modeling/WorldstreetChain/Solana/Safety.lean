import WorldstreetChain.Solana.Program

/-!
# The bridge program over whole runs

Between the instructions of the program everybody else acts on the ledger, within the rules of the
runtime: an account with lamports in it is changed and debited by its owner alone, an address
derived for the program signs for nobody else, and data under a new owner are zeros.

* `Solana.Others` -- what everybody else can do to the ledger.
* `Solana.Inv` -- what holds in every ledger of a run: only the state account holds anything but
  zeros, and it holds the bridge's settings.
* `Solana.CallStep`, `Solana.callStep` -- what an instruction of the program can do to it.
* `Solana.bridge_replay_safe` -- **replay safety and fixed configuration**.
-/

namespace WorldstreetChain

namespace Solana

variable {C : Cluster} {known : List Seeds} {l l' : Ledger} {i : Invocation}

/-! ## 1. Runs -/

/-- An instruction of the program, or what everybody else has made of the ledger. -/
inductive Event where
  | call (i : Invocation)
  | others (l : Ledger)

/-- The ledger behind an event; an instruction that fails changes nothing. -/
def next (C : Cluster) (l : Ledger) : Event → Ledger
  | .call i =>
    match processInstruction C l i with
    | .ok l' => l'
    | .error _ => l
  | .others l' => l'

/-- The account is as it was, but may hold more lamports. -/
structure Untouched (l l' : Ledger) (k : Pubkey) : Prop where
  owner : (l' k).owner = (l k).owner
  data : (l' k).data = (l k).data
  lamports : (l k).lamports ≤ (l' k).lamports

/-- What everybody else can do: nothing to the program's accounts and the addresses derived for it
    but pay lamports in, except that an account without lamports is removed; an account that is
    the program's from now on holds zeros. -/
structure Others (C : Cluster) (known : List Seeds) (l l' : Ledger) : Prop where
  kept : ∀ k, (l k).owner = C.programId → 0 < (l k).lamports → Untouched l l' k
  derived : ∀ s ∈ known, (l (C.address s)).owner = systemProgram → Untouched l l' (C.address s)
  emptied : ∀ s ∈ known, (l (C.address s)).owner = C.programId →
    (l (C.address s)).lamports = 0 → Untouched l l' (C.address s) ∨
      ((l' (C.address s)).owner = systemProgram ∧ (l' (C.address s)).data = [])
  gained : ∀ k, (l' k).owner = C.programId →
    ((l k).owner = C.programId ∧ (l' k).data = (l k).data) ∨ ∀ b ∈ (l' k).data, b = 0
  system : (l systemProgram).owner ≠ C.programId → (l' systemProgram).owner ≠ C.programId

/-- The derived addresses a run is about: those of the state and the vault are among them, they do
    not collide, and none is the system program's. -/
structure Derived (C : Cluster) (known : List Seeds) : Prop where
  state : stateSeeds ∈ known
  vault : vaultSeeds ∈ known
  separate : ∀ s ∈ known, ∀ t ∈ known, C.address s = C.address t → s.flatten = t.flatten
  ne_system : ∀ s ∈ known, C.address s ≠ systemProgram

/-- Nobody signs for a derived address or for the system program's. -/
structure Admissible (C : Cluster) (known : List Seeds) (i : Invocation) : Prop where
  signs : ∀ k, i.Signs k → k ≠ systemProgram ∧ ∀ s ∈ known, k ≠ C.address s
  marker : ∀ s, i.marker = some s → s ∈ known

theorem admissible_iff : Admissible C known i ↔
    (∀ a ∈ i.accounts, a.isSigner = true →
      a.key ≠ systemProgram ∧ ∀ s ∈ known, a.key ≠ C.address s) ∧
    i.marker.all (fun s => decide (s ∈ known)) = true := by
  constructor
  · intro h
    refine ⟨fun a ha hsigner => h.signs _ ⟨a, ha, rfl, hsigner⟩, ?_⟩
    cases hm : i.marker with
    | none => rfl
    | some s => simpa using h.marker s hm
  · intro ⟨hsigns, hmarker⟩
    refine ⟨fun k ⟨a, ha, hk, hsigner⟩ => hk ▸ hsigns a ha hsigner, fun s hs => ?_⟩
    simpa [hs] using hmarker

instance : Decidable (Admissible C known i) := decidable_of_iff' _ admissible_iff

def Allowed (C : Cluster) (known : List Seeds) (l : Ledger) : Event → Prop
  | .call i => Admissible C known i
  | .others l' => Others C known l l'

/-- The program is deployed and has written nothing yet. -/
structure Fresh (C : Cluster) (known : List Seeds) (l : Ledger) : Prop where
  zeroed : ∀ k, (l k).owner = C.programId → ∀ b ∈ (l k).data, b = 0
  derived : ∀ s ∈ known, (l (C.address s)).owner = systemProgram ∧ (l (C.address s)).data = []
  system : (l systemProgram).owner ≠ C.programId

def statePda (C : Cluster) : Pubkey := C.address stateSeeds
def vaultPda (C : Cluster) : Pubkey := C.address vaultSeeds

/-! ## 2. Addresses and keys -/

theorem flatten_ne_of_marker {s : Seeds} (h : i.marker = some s) :
    s.flatten ≠ stateSeeds.flatten ∧ s.flatten ≠ vaultSeeds.flatten := by
  have hlength : stateSeeds.flatten.length = 21 ∧ vaultSeeds.flatten.length = 21 := by
    decide +kernel
  have hlong : s.flatten.length ≠ 21 := by
    unfold Invocation.marker at h
    split at h
    · cases h
    · split at h
      · cases h
      · rename_i id _
        have hid : id.toList.length = 32 := by simp
        repeat' split at h
        all_goals cases h
        all_goals
          simp only [depositSeeds, releaseSeeds, splDepositSeeds, splReleaseSeeds,
            List.flatten_cons, List.flatten_nil, List.append_nil, List.length_append, hid]
          omega
  exact ⟨fun heq => hlong (heq ▸ hlength.1), fun heq => hlong (heq ▸ hlength.2)⟩

theorem Derived.marker_ne (h : Derived C known) {s : Seeds} (hs : s ∈ known)
    (hm : i.marker = some s) : C.address s ≠ statePda C ∧ C.address s ≠ vaultPda C :=
  ⟨fun heq => (flatten_ne_of_marker hm).1 (h.separate s hs _ h.state heq),
    fun heq => (flatten_ne_of_marker hm).2 (h.separate s hs _ h.vault heq)⟩

theorem Derived.state_ne_vault (h : Derived C known) : statePda C ≠ vaultPda C := by
  intro heq
  have hflat := h.separate _ h.state _ h.vault heq
  exact absurd hflat (by decide +kernel)

theorem keyAt_append (front back : List UInt8) {k : Pubkey} {n : Nat} (hn : front.length = n) :
    keyAt (front ++ (k.toList ++ back)) n = k := by
  unfold keyAt
  rw [← hn, List.drop_left]
  ext j hj
  rw [Vector.getElem_ofFn, List.getD_eq_getElem?_getD, List.getElem?_append_left (by simpa using hj)]
  simp [hj]

theorem keyAt_bridgeData (authority vault mint : Pubkey) :
    keyAt (bridgeData authority vault mint) 0 = authority ∧
      keyAt (bridgeData authority vault mint) 32 = vault ∧
      keyAt (bridgeData authority vault mint) 64 = mint := by
  unfold bridgeData
  refine ⟨?_, ?_, ?_⟩
  · rw [List.append_assoc]
    exact keyAt_append [] _ rfl
  · rw [List.append_assoc]
    exact keyAt_append _ _ (by simp)
  · have h : mint.toList = mint.toList ++ [] := (List.append_nil _).symm
    rw [h]
    exact keyAt_append _ _ (by simp)

theorem length_bridgeData (authority vault mint : Pubkey) :
    (bridgeData authority vault mint).length = stateLen := by
  simp [bridgeData, stateLen]

/-- Zeros hold the default key. -/
theorem keyAt_zeros {data : List UInt8} (h : ∀ b ∈ data, b = 0) (n : Nat) :
    keyAt data n = defaultKey := by
  unfold keyAt defaultKey
  ext j hj
  rw [Vector.getElem_ofFn, Vector.getElem_replicate, List.getD_eq_getElem?_getD]
  cases hget : (data.drop n)[j]? with
  | none => rfl
  | some b =>
    rw [Option.getD_some, h b (List.mem_of_mem_drop (List.mem_of_getElem? hget))]

/-! ## 3. The invariant -/

/-- **What holds in every ledger of a run.** -/
structure Inv (C : Cluster) (known : List Seeds) (l : Ledger) : Prop where
  system : (l systemProgram).owner ≠ C.programId
  zeroed : ∀ k, (l k).owner = C.programId → k ≠ statePda C → ∀ b ∈ (l k).data, b = 0
  derived : ∀ s ∈ known,
    ((l (C.address s)).owner = systemProgram ∧ (l (C.address s)).data = []) ∨
      (l (C.address s)).owner = C.programId
  paid : ∀ s ∈ known, C.address s ≠ vaultPda C → (l (C.address s)).owner = C.programId →
    0 < (l (C.address s)).lamports
  config : (l (statePda C)).owner = C.programId → ∃ authority mint, authority ≠ defaultKey ∧
    (l (statePda C)).data = bridgeData authority (vaultPda C) mint

theorem Fresh.inv (hC : C.Lawful) (hd : Derived C known) (h : Fresh C known l) :
    Inv C known l where
  system := h.system
  zeroed k hk _ := h.zeroed k hk
  derived s hs := Or.inl (h.derived s hs)
  paid s hs _ howner := absurd ((h.derived s hs).1 ▸ howner) (Ne.symm hC.ne_system)
  config howner := absurd ((h.derived _ hd.state).1 ▸ howner) (Ne.symm hC.ne_system)

/-- What reads like a state account is the bridge's, or holds the default key throughout. -/
theorem Inv.stateLike (h : Inv C known l) {k : Pubkey} (hk : StateLike C l k) :
    (k = statePda C ∧ keyAt (l k).data 32 = vaultPda C) ∨
      (keyAt (l k).data 32 = defaultKey ∧ keyAt (l k).data 64 = defaultKey) := by
  by_cases heq : k = statePda C
  · left
    refine ⟨heq, ?_⟩
    rw [heq]
    obtain ⟨authority, mint, -, hdata⟩ := h.config (heq ▸ hk.owner)
    rw [hdata]
    exact (keyAt_bridgeData _ _ _).2.1
  · have hzero := h.zeroed k hk.owner heq
    exact Or.inr ⟨keyAt_zeros hzero 32, keyAt_zeros hzero 64⟩

/-- A state account whose vault is the program's is the bridge's. -/
theorem Inv.bridge (h : Inv C known l) {k : Pubkey} (hk : StateLike C l k)
    (hvault : (l (keyAt (l k).data 32)).owner = C.programId) :
    k = statePda C ∧ keyAt (l k).data 32 = vaultPda C := by
  rcases h.stateLike hk with hbridge | ⟨hdefault, -⟩
  · exact hbridge
  · rw [hdefault] at hvault
    exact absurd hvault h.system

/-! ## 4. Steps -/

/-- What an instruction moves into the vault, if it succeeds. -/
def Invocation.deposited (i : Invocation) : Nat :=
  if i.input.head? = some tagLockNativeSol ∨ i.input.head? = some tagLockNativeSolMna then i.amount
  else 0

/-- What an instruction moves out of the vault, if it succeeds. -/
def Invocation.released (i : Invocation) : Nat :=
  if i.input.head? = some tagReleaseNativeSol then i.amount else 0

/-- **What an instruction of the program can do to the ledger.** -/
structure CallStep (C : Cluster) (known : List Seeds) (l : Ledger) (i : Invocation) (l' : Ledger) :
    Prop where
  /-- An account that is the program's was so with these data, or holds zeros. -/
  gained : ∀ k, (l' k).owner = C.programId → k ≠ statePda C →
    ((l k).owner = C.programId ∧ (l' k).data = (l k).data) ∨ ∀ b ∈ (l' k).data, b = 0
  owned : ∀ k, (l k).owner = C.programId → (l' k).owner = C.programId ∧
    (k ≠ vaultPda C → (l k).lamports ≤ (l' k).lamports)
  derived : ∀ s ∈ known, (l (C.address s)).owner = systemProgram →
    ((l' (C.address s)).owner = systemProgram ∧
        (l' (C.address s)).data = (l (C.address s)).data) ∨
      ((l' (C.address s)).owner = C.programId ∧
        (C.address s ≠ vaultPda C → 0 < (l' (C.address s)).lamports))
  config : (l (statePda C)).owner = C.programId → (l' (statePda C)).data = (l (statePda C)).data
  setUp : (l (statePda C)).owner ≠ C.programId → (l' (statePda C)).owner = C.programId →
    ∃ authority mint, authority ≠ defaultKey ∧
      (l' (statePda C)).data = bridgeData authority (vaultPda C) mint
  system : (l systemProgram).owner ≠ C.programId → (l' systemProgram).owner ≠ C.programId
  marker : ∀ s, i.marker = some s → (l (C.address s)).owner ≠ C.programId ∧
    (l' (C.address s)).owner = C.programId ∧ 0 < (l' (C.address s)).lamports
  vault : (l (vaultPda C)).lamports + i.deposited ≤ (l' (vaultPda C)).lamports + i.released
  released : i.input.head? = some tagReleaseNativeSol →
    (l (statePda C)).owner = C.programId ∧ i.Signs (keyAt (l (statePda C)).data 0)
  /-- What becomes the program's is the state account, the vault or the marker. -/
  created : ∀ k, (l k).owner ≠ C.programId → (l' k).owner = C.programId →
    k = statePda C ∨ k = vaultPda C ∨ ∃ s, i.marker = some s ∧ C.address s = k
  initialized : i.input.head? = some tagInitialize →
    (l' (statePda C)).owner = C.programId ∧ (l' (vaultPda C)).owner = C.programId

theorem Inv.call (hC : C.Lawful) (h : Inv C known l) (hstep : CallStep C known l i l') :
    Inv C known l' where
  system := hstep.system h.system
  zeroed k hk hne := by
    rcases hstep.gained k hk hne with ⟨howner, hdata⟩ | hzero
    · rw [hdata]
      exact h.zeroed k howner hne
    · exact hzero
  derived s hs := by
    rcases h.derived s hs with ⟨howner, hdata⟩ | howner
    · rcases hstep.derived s hs howner with ⟨howner', hdata'⟩ | ⟨howner', -⟩
      · exact Or.inl ⟨howner', hdata'.trans hdata⟩
      · exact Or.inr howner'
    · exact Or.inr (hstep.owned _ howner).1
  paid s hs hne howner' := by
    rcases h.derived s hs with ⟨howner, -⟩ | howner
    · rcases hstep.derived s hs howner with ⟨hsystem, -⟩ | ⟨-, hpaid⟩
      · exact absurd (hsystem ▸ howner') (Ne.symm hC.ne_system)
      · exact hpaid hne
    · exact Nat.lt_of_lt_of_le (h.paid s hs hne howner) ((hstep.owned _ howner).2 hne)
  config howner' := by
    by_cases howner : (l (statePda C)).owner = C.programId
    · rw [hstep.config howner]
      exact h.config howner
    · exact hstep.setUp howner howner'

/-! ## 5. The parts of an instruction -/

section Parts

variable {payer k : Pubkey} {seeds : Seeds} {space : Nat} {l1 l2 : Ledger}

theorem Created.payer_ne (hC : C.Lawful) (h : Created C l payer seeds space l1) :
    payer ≠ C.address seeds := by
  intro heq
  have henough := h.enough
  rw [heq, h.unused] at henough
  exact absurd (hC.rent_pos space) (Nat.not_lt.mpr henough)

theorem Created.self (h : Created C l payer seeds space l1) : l1 (C.address seeds) =
    ⟨C.runtime.minimumBalance space, C.programId, List.replicate space 0⟩ := by
  rw [h.eq]
  exact Function.update_self ..

/-- Elsewhere only the payer's lamports change. -/
theorem Created.other (h : Created C l payer seeds space l1) (hk : k ≠ C.address seeds) :
    (l1 k).owner = (l k).owner ∧ (l1 k).data = (l k).data ∧
      (k ≠ payer → (l1 k).lamports = (l k).lamports) := by
  rw [h.eq]
  unfold Ledger.created Ledger.setLamports
  rw [Function.update_of_ne hk]
  by_cases hp : k = payer
  · rw [hp, Function.update_self]
    exact ⟨rfl, rfl, fun hne => absurd rfl hne⟩
  · rw [Function.update_of_ne hp]
    exact ⟨rfl, rfl, fun _ => rfl⟩

/-- An account of the program keeps its owner and data, and loses nothing. -/
theorem Created.owned (hC : C.Lawful) (h : Created C l payer seeds space l1)
    (hk : (l k).owner = C.programId) : l1 k = l k := by
  have hne : k ≠ C.address seeds := by
    intro heq
    rw [heq, h.owner] at hk
    exact hC.ne_system hk.symm
  have hpayer : k ≠ payer := by
    intro heq
    rw [heq, h.payerOwner] at hk
    exact hC.ne_system hk.symm
  rw [h.eq]
  unfold Ledger.created Ledger.setLamports
  rw [Function.update_of_ne hne, Function.update_of_ne hpayer]

theorem Ledger.move_owner (l : Ledger) (source destination : Pubkey) (amount : Nat) (k : Pubkey) :
    (l.move source destination amount k).owner = (l k).owner ∧
      (l.move source destination amount k).data = (l k).data := by
  unfold Ledger.move Ledger.setLamports
  by_cases hd : k = destination
  · subst hd
    by_cases hs : k = source
    · subst hs
      simp
    · simp [Function.update_of_ne hs]
  · by_cases hs : k = source
    · subst hs
      simp [Function.update_of_ne hd]
    · simp [Function.update_of_ne hd, Function.update_of_ne hs]

/-- Only the source loses lamports. -/
theorem Ledger.le_move {source destination : Pubkey} {amount : Nat} (hk : k ≠ source) :
    (l k).lamports ≤ (l.move source destination amount k).lamports := by
  unfold Ledger.move Ledger.setLamports
  by_cases hd : k = destination
  · subst hd
    simp [Function.update_of_ne hk]
  · simp [Function.update_of_ne hd, Function.update_of_ne hk]

theorem Ledger.move_destination {source destination : Pubkey} {amount : Nat}
    (hne : destination ≠ source) : (l.move source destination amount destination).lamports =
      (l destination).lamports + amount := by
  unfold Ledger.move Ledger.setLamports
  simp [Function.update_of_ne hne]

theorem Ledger.move_source {source destination : Pubkey} {amount : Nat}
    (henough : amount ≤ (l source).lamports) :
    (l source).lamports ≤ (l.move source destination amount source).lamports + amount := by
  unfold Ledger.move Ledger.setLamports
  by_cases hd : source = destination
  · subst hd
    simp only [Function.update_self]
    omega
  · simp only [Function.update_self, Function.update_of_ne hd]
    omega

/-- **A marker and what follows it.** -/
theorem callStep_of_marks (hC : C.Lawful) (hd : Derived C known)
    (hadm : Admissible C known i) (hm : Marks C l i payer seeds l1)
    (hkeep : ∀ k, (l1 k).owner ≠ splTokenProgramId →
      (l' k).owner = (l1 k).owner ∧ (l' k).data = (l1 k).data)
    (htoken : ∀ k, (l1 k).owner = splTokenProgramId → (l' k).owner = splTokenProgramId)
    (hlamports : ∀ k, (l1 k).owner = C.programId → k ≠ vaultPda C →
      (l1 k).lamports ≤ (l' k).lamports)
    (hvault : (l1 (vaultPda C)).lamports + i.deposited ≤ (l' (vaultPda C)).lamports + i.released)
    (hreleased : i.input.head? = some tagReleaseNativeSol →
      (l (statePda C)).owner = C.programId ∧ i.Signs (keyAt (l (statePda C)).data 0)) :
    CallStep C known l i l' := by
  have hseeds := hadm.marker _ hm.marker
  obtain ⟨hstate, hvaultNe⟩ := hd.marker_ne hseeds hm.marker
  have hpayer := hadm.signs _ hm.signs
  have hself := hm.created.self
  -- the program's accounts behind the creation
  have howned : ∀ k, (l1 k).owner = C.programId →
      (l' k).owner = C.programId ∧ (l' k).data = (l1 k).data := by
    intro k hk
    have hne : (l1 k).owner ≠ splTokenProgramId := hk ▸ hC.ne_token
    exact ⟨(hkeep k hne).1.trans hk, (hkeep k hne).2⟩
  -- and what is not the program's
  have hgained : ∀ k, (l' k).owner = C.programId → (l1 k).owner = C.programId := by
    intro k hk
    by_cases ht : (l1 k).owner = splTokenProgramId
    · exact absurd ((htoken k ht).symm.trans hk) (Ne.symm hC.ne_token)
    · exact (hkeep k ht).1.symm.trans hk
  have hmarked : (l' (C.address seeds)).owner = C.programId ∧
      0 < (l' (C.address seeds)).lamports := by
    have hprogram : (l1 (C.address seeds)).owner = C.programId := by rw [hself]
    refine ⟨(howned _ hprogram).1, ?_⟩
    refine Nat.lt_of_lt_of_le ?_ (hlamports _ hprogram hvaultNe)
    rw [hself]
    exact hC.rent_pos _
  refine ⟨fun k hk hne => ?_, fun k hk => ?_, fun s hs hsystem => ?_, fun hk => ?_,
    fun hk hk' => ?_, fun hk hk' => ?_, fun s hs => ?_, ?_, hreleased, fun k hk hk' => ?_,
    fun hinit => ?_⟩
  · have hk1 := hgained k hk
    rw [(howned k hk1).2]
    by_cases hself' : k = C.address seeds
    · right
      rw [hself', hself]
      exact fun b hb => (List.mem_replicate.mp hb).2
    · left
      obtain ⟨howner, hdata, -⟩ := hm.created.other hself'
      exact ⟨howner.symm.trans hk1, hdata⟩
  · have hsame := hm.created.owned hC hk
    have hk1 : (l1 k).owner = C.programId := by rw [hsame]; exact hk
    refine ⟨(howned k hk1).1, fun hne => ?_⟩
    rw [← hsame]
    exact hlamports k hk1 hne
  · by_cases hself' : C.address s = C.address seeds
    · rw [hself']
      exact Or.inr ⟨hmarked.1, fun _ => hmarked.2⟩
    · left
      obtain ⟨howner, hdata, -⟩ := hm.created.other hself'
      have hsystem1 : (l1 (C.address s)).owner = systemProgram := howner.trans hsystem
      have hne : (l1 (C.address s)).owner ≠ splTokenProgramId := by
        rw [hsystem1]
        decide
      exact ⟨(hkeep _ hne).1.trans hsystem1, (hkeep _ hne).2.trans hdata⟩
  · have hsame := hm.created.owned hC hk
    have hk1 : (l1 (statePda C)).owner = C.programId := by rw [hsame]; exact hk
    rw [(howned _ hk1).2, hsame]
  · have hk1 := hgained _ hk'
    obtain ⟨howner, -, -⟩ := hm.created.other (Ne.symm hstate)
    exact absurd (howner.symm.trans hk1) hk
  · have hk1 := hgained _ hk'
    obtain ⟨howner, -, -⟩ := hm.created.other (Ne.symm (hd.ne_system _ hseeds))
    exact absurd (howner.symm.trans hk1) hk
  · have heq : s = seeds := Option.some.inj (hs.symm.trans hm.marker)
    rw [heq]
    exact ⟨hm.new, hmarked⟩
  · obtain ⟨-, -, hsame⟩ := hm.created.other (Ne.symm hvaultNe)
    rw [← hsame (Ne.symm (hpayer.2 _ hd.vault))]
    exact hvault
  · refine Or.inr (Or.inr ⟨seeds, hm.marker, ?_⟩)
    by_contra hne
    obtain ⟨howner, -, -⟩ := hm.created.other (Ne.symm hne)
    exact hk (howner.symm.trans (hgained k hk'))
  · obtain ⟨rest, htag⟩ : ∃ rest, i.input = tagInitialize :: rest :=
      List.head?_eq_some_iff.mp hinit
    exact absurd (hm.marker.symm.trans (marker_settingUp htag)) (Option.some_ne_none _)

/-- A marker and a transfer of tokens: the vault itself is untouched. -/
theorem callStep_of_token (hC : C.Lawful) (hd : Derived C known) (h : Inv C known l)
    (hadm : Admissible C known i) (hm : Marks C l i payer seeds l1)
    (hkeep : ∀ k, (l1 k).owner ≠ splTokenProgramId → l' k = l1 k)
    (htoken : ∀ k, (l1 k).owner = splTokenProgramId → (l' k).owner = splTokenProgramId)
    (hother : i.input.head? ∉
      [some tagLockNativeSol, some tagLockNativeSolMna, some tagReleaseNativeSol]) :
    CallStep C known l i l' := by
  simp only [List.mem_cons, List.not_mem_nil, or_false, not_or] at hother
  have hdeposited : i.deposited = 0 := if_neg (not_or.mpr ⟨hother.1, hother.2.1⟩)
  refine callStep_of_marks hC hd hadm hm
    (fun k hk => ⟨congrArg Account.owner (hkeep k hk), congrArg Account.data (hkeep k hk)⟩) htoken
    (fun k hk _ => ?_) ?_ fun hrelease => absurd hrelease hother.2.2
  · have hne : (l1 k).owner ≠ splTokenProgramId := hk ▸ hC.ne_token
    rw [hkeep k hne]
  · have hvaultNe := (hd.marker_ne (hadm.marker _ hm.marker) hm.marker).2
    have howner := (hm.created.other (Ne.symm hvaultNe)).1
    have hne : (l1 (vaultPda C)).owner ≠ splTokenProgramId := by
      show (l1 (C.address vaultSeeds)).owner ≠ splTokenProgramId
      have howner' : (l1 (C.address vaultSeeds)).owner = (l (C.address vaultSeeds)).owner := howner
      rw [howner']
      rcases h.derived _ hd.vault with ⟨hsystem, -⟩ | hprogram
      · rw [hsystem]
        decide
      · rw [hprogram]
        exact hC.ne_token
    rw [hdeposited, hkeep _ hne]
    exact Nat.le_add_right _ _

/-- A derived account that is there already, or is created. -/
def Ensured (C : Cluster) (l : Ledger) (payer : Pubkey) (seeds : Seeds) (space : Nat)
    (l' : Ledger) : Prop :=
  ((l (C.address seeds)).owner = C.programId ∧ l' = l) ∨ Created C l payer seeds space l'

theorem Ensured.other (h : Ensured C l payer seeds space l1) (hk : k ≠ C.address seeds) :
    (l1 k).owner = (l k).owner ∧ (l1 k).data = (l k).data ∧
      (k ≠ payer → (l1 k).lamports = (l k).lamports) := by
  rcases h with ⟨-, rfl⟩ | h
  · exact ⟨rfl, rfl, fun _ => rfl⟩
  · exact h.other hk

theorem Ensured.owned (hC : C.Lawful) (h : Ensured C l payer seeds space l1)
    (hk : (l k).owner = C.programId) : l1 k = l k := by
  rcases h with ⟨-, rfl⟩ | h
  · rfl
  · exact h.owned hC hk

theorem Ensured.self (h : Ensured C l payer seeds space l1) :
    ((l (C.address seeds)).owner = C.programId ∧ l1 = l) ∨
      l1 (C.address seeds) =
        ⟨C.runtime.minimumBalance space, C.programId, List.replicate space 0⟩ := by
  rcases h with h | h
  · exact Or.inl h
  · exact Or.inr h.self

theorem Ensured.owner (h : Ensured C l payer seeds space l1) :
    (l1 (C.address seeds)).owner = C.programId := by
  rcases h.self with ⟨howner, rfl⟩ | hself
  · exact howner
  · rw [hself]

/-- Whoever does not pay loses nothing. -/
theorem Ensured.lamports (h : Ensured C l payer seeds space l1) (hk : k ≠ payer) :
    (l k).lamports ≤ (l1 k).lamports := by
  by_cases hself : k = C.address seeds
  · rcases h with ⟨-, rfl⟩ | h
    · exact Nat.le_refl _
    · rw [hself, h.unused]
      exact Nat.zero_le _
  · exact Nat.le_of_eq ((h.other hself).2.2 hk).symm

/-- **The setting-up.** -/
theorem callStep_of_initialized (hC : C.Lawful) (hd : Derived C known) (h : Inv C known l)
    (hadm : Admissible C known i) {rest : List UInt8} (htag : i.input = tagInitialize :: rest)
    {authority mint : Pubkey} (hmarker : i.marker = none) (hsigns : i.Signs authority)
    (hstate : Ensured C l authority stateSeeds stateLen l1)
    (hvault : Ensured C l1 authority vaultSeeds 0 l2)
    (hsame : keyAt (l2 (C.address stateSeeds)).data 0 = defaultKey ∨
      (keyAt (l2 (C.address stateSeeds)).data 0 = authority ∧
        keyAt (l2 (C.address stateSeeds)).data 32 = C.address vaultSeeds ∧
        keyAt (l2 (C.address stateSeeds)).data 64 = mint)) :
    CallStep C known l i (l2.setData (C.address stateSeeds)
      (bridgeData authority (C.address vaultSeeds) mint)) := by
  obtain ⟨hauthority, hpayer⟩ := hadm.signs _ hsigns
  have hne : C.address stateSeeds ≠ C.address vaultSeeds := hd.state_ne_vault
  have hwritten : ∀ k, k ≠ C.address stateSeeds → l2.setData (C.address stateSeeds)
      (bridgeData authority (C.address vaultSeeds) mint) k = l2 k := by
    intro k hk
    exact Function.update_of_ne hk ..
  have hself : l2.setData (C.address stateSeeds)
      (bridgeData authority (C.address vaultSeeds) mint) (C.address stateSeeds) =
        { l2 (C.address stateSeeds) with
          data := bridgeData authority (C.address vaultSeeds) mint } := by
    exact Function.update_self ..
  have hstateOwner : (l2 (C.address stateSeeds)).owner = C.programId := by
    rw [hvault.owned hC hstate.owner]
    exact hstate.owner
  have howned : ∀ k, (l k).owner = C.programId → l2 k = l k := by
    intro k hk
    have h1 := hstate.owned hC hk
    rw [hvault.owned hC (h1 ▸ hk), h1]
  -- the state account where it was set up before
  have hconfig : (l (C.address stateSeeds)).owner = C.programId →
      bridgeData authority (C.address vaultSeeds) mint = (l (C.address stateSeeds)).data := by
    intro hk
    obtain ⟨authority', mint', hauthority', hdata⟩ := h.config hk
    have hold := howned _ hk
    rw [hold] at hsame
    have hdata' : (l (C.address stateSeeds)).data =
        bridgeData authority' (C.address vaultSeeds) mint' := hdata
    rw [hdata', (keyAt_bridgeData _ _ _).1, (keyAt_bridgeData _ _ _).2.2] at hsame
    rcases hsame with hdefault | ⟨h1, -, h3⟩
    · exact absurd hdefault hauthority'
    · rw [hdata', h1, h3]
  have hhead : i.input.head? = some tagInitialize := by rw [htag]; rfl
  refine ⟨fun k hk hk' => ?_, fun k hk => ?_, fun s hs hsystem => ?_, fun hk => ?_,
    fun hk hk' => ?_, fun hk => ?_, fun s hs => ?_, ?_, fun hrelease => ?_, fun k hk hk' => ?_,
    fun _ => ?_⟩
  · rw [hwritten k hk'] at hk ⊢
    by_cases hkv : k = C.address vaultSeeds
    · rcases hvault.self with ⟨howner, rfl⟩ | hcreated
      · obtain ⟨ho, hdata, -⟩ := hstate.other hk'
        exact Or.inl ⟨ho.symm.trans hk, hdata⟩
      · right
        rw [hkv, hcreated]
        exact fun b hb => absurd hb List.not_mem_nil
    · obtain ⟨ho1, hdata1, -⟩ := hstate.other hk'
      obtain ⟨ho2, hdata2, -⟩ := hvault.other hkv
      exact Or.inl ⟨ho1.symm.trans (ho2.symm.trans hk), hdata2.trans hdata1⟩
  · by_cases hks : k = C.address stateSeeds
    · subst hks
      rw [hself]
      refine ⟨hstateOwner, fun _ => ?_⟩
      rw [howned _ hk]
    · rw [hwritten k hks, howned k hk]
      exact ⟨hk, fun _ => Nat.le_refl _⟩
  · by_cases hks : C.address s = C.address stateSeeds
    · right
      rw [hks, hself]
      refine ⟨hstateOwner, fun _ => ?_⟩
      rw [hks] at hsystem
      show 0 < (l2 (C.address stateSeeds)).lamports
      rw [hvault.owned hC hstate.owner]
      rcases hstate.self with ⟨howner, -⟩ | hcreated
      · exact absurd (hsystem.symm.trans howner) (Ne.symm hC.ne_system)
      · rw [hcreated]
        exact hC.rent_pos _
    · rw [hwritten _ hks]
      by_cases hkv : C.address s = C.address vaultSeeds
      · right
        rw [hkv]
        exact ⟨hvault.owner, fun hneq => absurd rfl hneq⟩
      · left
        obtain ⟨ho1, hdata1, -⟩ := hstate.other hks
        obtain ⟨ho2, hdata2, -⟩ := hvault.other hkv
        exact ⟨ho2.trans (ho1.trans hsystem), hdata2.trans hdata1⟩
  · show (Ledger.setData l2 _ _ (C.address stateSeeds)).data = _
    rw [hself]
    exact hconfig hk
  · refine ⟨authority, mint, hauthority, ?_⟩
    show (Ledger.setData l2 _ _ (C.address stateSeeds)).data = _
    rw [hself]
    rfl
  · have hks := Ne.symm (hd.ne_system _ hd.state)
    have hkv := Ne.symm (hd.ne_system _ hd.vault)
    rw [hwritten _ hks, (hvault.other hkv).1, (hstate.other hks).1]
    exact hk
  · rw [hmarker] at hs
    cases hs
  · have hdeposited : i.deposited = 0 := by
      unfold Invocation.deposited
      rw [hhead]
      exact if_neg (by decide)
    have hle1 := hstate.lamports (Ne.symm (hpayer _ hd.vault))
    have hle2 := hvault.lamports (Ne.symm (hpayer _ hd.vault))
    have hfinal : (l2.setData (C.address stateSeeds)
        (bridgeData authority (C.address vaultSeeds) mint) (vaultPda C)).lamports =
          (l2 (vaultPda C)).lamports := by
      rw [hwritten (vaultPda C) (Ne.symm hne)]
    rw [hdeposited, hfinal]
    exact Nat.le_trans hle1 (Nat.le_trans hle2 (Nat.le_add_right _ _))
  · rw [hhead] at hrelease
    exact absurd (Option.some.inj hrelease) (by decide)
  · by_cases hks : k = C.address stateSeeds
    · exact Or.inl hks
    by_cases hkv : k = C.address vaultSeeds
    · exact Or.inr (Or.inl hkv)
    rw [hwritten k hks, (hvault.other hkv).1, (hstate.other hks).1] at hk'
    exact absurd hk' hk
  · refine ⟨?_, ?_⟩
    · show (Ledger.setData l2 _ _ (C.address stateSeeds)).owner = _
      rw [hself]
      exact hstateOwner
    · show (Ledger.setData l2 _ _ (C.address vaultSeeds)).owner = _
      rw [hwritten _ (Ne.symm hne)]
      exact hvault.owner

/-- **What an instruction of the program can do to the ledger**, from one of a run. -/
theorem callStep (hC : C.Lawful) (hd : Derived C known) (h : Inv C known l)
    (hadm : Admissible C known i) (he : Effect C l i l') : CallStep C known l i l' := by
  cases he with
  | initialized rest htag authority mint l1 l2 hmarker hsigns hstate hvault hlength hsame =>
    exact callStep_of_initialized hC hd h hadm htag hmarker hsigns hstate hvault hsame
  | locked tag rest htag hnative depositor state id l1 hmarks hstate hvault henough =>
    obtain ⟨-, hkey⟩ := h.bridge hstate hvault
    have hne : vaultPda C ≠ depositor := Ne.symm ((hadm.signs _ hmarks.signs).2 _ hd.vault)
    have hhead : i.input.head? = some tag := by rw [htag]; rfl
    have hdeposited : i.deposited = i.amount := by
      unfold Invocation.deposited
      rw [hhead, if_pos (hnative.imp (congrArg some) (congrArg some))]
    rw [hkey]
    refine callStep_of_marks hC hd hadm hmarks (fun k _ => Ledger.move_owner l1 _ _ _ k)
      (fun k hk => (Ledger.move_owner l1 _ _ _ k).1.trans hk) (fun k hk _ => ?_) ?_ fun hrel => ?_
    · refine Ledger.le_move fun heq => ?_
      obtain ⟨howner, -, -⟩ := hmarks.created.other (hmarks.created.payer_ne hC)
      rw [heq, howner, hmarks.created.payerOwner] at hk
      exact hC.ne_system hk.symm
    · rw [hdeposited, Ledger.move_destination hne]
      omega
    · rw [hhead] at hrel
      rw [Option.some.inj hrel] at hnative
      exact absurd hnative (by decide)
  | released rest htag recipient state id l1 hmarks hstate hvault henough =>
    obtain ⟨rfl, hkey⟩ := h.bridge hstate hvault
    have hhead : i.input.head? = some tagReleaseNativeSol := by rw [htag]; rfl
    have hreleased : i.released = i.amount := by
      unfold Invocation.released
      rw [hhead, if_pos rfl]
    have hdeposited : i.deposited = 0 := by
      unfold Invocation.deposited
      rw [hhead]
      exact if_neg (by decide)
    rw [hkey] at henough ⊢
    refine callStep_of_marks hC hd hadm hmarks (fun k _ => Ledger.move_owner l1 _ _ _ k)
      (fun k hk => (Ledger.move_owner l1 _ _ _ k).1.trans hk) (fun k _ hne => Ledger.le_move hne)
      ?_ fun _ => ⟨hstate.owner, hmarks.signs⟩
    rw [hdeposited, hreleased]
    exact Ledger.move_source henough
  | lockedSpl depositor id rest htag l1 l' hmarks P source mint destination authority amount
      decimals htransfer =>
    obtain ⟨-, hkeep, htoken⟩ := hC.token_ok _ _ _ _ _ _ _ _ _ htransfer
    have hhead : i.input.head? = some tagLockSpl := by rw [htag]; rfl
    exact callStep_of_token hC hd h hadm hmarks hkeep htoken (by rw [hhead]; decide)
  | releasedSpl state id rest htag l1 l' hmarks hstate hmint source mint destination amount
      decimals htransfer =>
    obtain ⟨-, hkeep, htoken⟩ := hC.token_ok _ _ _ _ _ _ _ _ _ htransfer
    have hhead : i.input.head? = some tagReleaseSpl := by rw [htag]; rfl
    exact callStep_of_token hC hd h hadm hmarks hkeep htoken (by rw [hhead]; decide)

end Parts

/-! ## 6. Everybody else -/

/-- An account of the program with lamports in it. -/
structure Marked (C : Cluster) (l : Ledger) (k : Pubkey) : Prop where
  owner : (l k).owner = C.programId
  lamports : 0 < (l k).lamports

theorem Others.derived_cases (hO : Others C known l l') (h : Inv C known l) {s : Seeds}
    (hs : s ∈ known) : Untouched l l' (C.address s) ∨
      ((l (C.address s)).lamports = 0 ∧ (l' (C.address s)).owner = systemProgram ∧
        (l' (C.address s)).data = []) := by
  rcases h.derived s hs with ⟨howner, -⟩ | howner
  · exact Or.inl (hO.derived s hs howner)
  · by_cases hzero : (l (C.address s)).lamports = 0
    · exact (hO.emptied s hs howner hzero).imp_right fun hgone => ⟨hzero, hgone⟩
    · exact Or.inl (hO.kept _ howner (Nat.pos_of_ne_zero hzero))

/-- A derived address loses no lamports. -/
theorem Others.lamports (hO : Others C known l l') (h : Inv C known l) {s : Seeds}
    (hs : s ∈ known) : (l (C.address s)).lamports ≤ (l' (C.address s)).lamports := by
  rcases hO.derived_cases h hs with hsame | ⟨hzero, -⟩
  · exact hsame.lamports
  · rw [hzero]
    exact Nat.zero_le _

theorem Others.marked (hO : Others C known l l') {k : Pubkey} (hk : Marked C l k) :
    Marked C l' k ∧ (l' k).data = (l k).data := by
  have hsame := hO.kept k hk.owner hk.lamports
  exact ⟨⟨hsame.owner.trans hk.owner, Nat.lt_of_lt_of_le hk.lamports hsame.lamports⟩, hsame.data⟩

/-- A payment by anybody else. -/
theorem Others.move (hC : C.Lawful) {source : Pubkey} (howner : (l source).owner = systemProgram)
    (hsource : ∀ s ∈ known, source ≠ C.address s) (destination : Pubkey) (amount : Nat) :
    Others C known l (l.move source destination amount) := by
  have hsame : ∀ k, k ≠ source → Untouched l (l.move source destination amount) k := by
    intro k hk
    obtain ⟨ho, hdata⟩ := Ledger.move_owner l source destination amount k
    exact ⟨ho, hdata, Ledger.le_move hk⟩
  refine ⟨fun k hk _ => hsame k ?_, fun s hs _ => hsame _ (Ne.symm (hsource s hs)),
    fun s hs _ _ => Or.inl (hsame _ (Ne.symm (hsource s hs))), fun k hk => ?_, fun h => ?_⟩
  · intro heq
    rw [heq, howner] at hk
    exact hC.ne_system hk.symm
  · obtain ⟨ho, hdata⟩ := Ledger.move_owner l source destination amount k
    exact Or.inl ⟨ho.symm.trans hk, hdata⟩
  · rw [(Ledger.move_owner l source destination amount systemProgram).1]
    exact h

theorem Inv.others (hC : C.Lawful) (hd : Derived C known) (h : Inv C known l)
    (hO : Others C known l l') : Inv C known l' := by
  -- an account that is the program's now and not the vault was so before
  have hback : ∀ s ∈ known, C.address s ≠ vaultPda C →
      (l' (C.address s)).owner = C.programId → Marked C l (C.address s) := by
    intro s hs hne howner'
    rcases h.derived s hs with ⟨howner, -⟩ | howner
    · have hsame := hO.derived s hs howner
      rw [hsame.owner, howner] at howner'
      exact absurd howner' (Ne.symm hC.ne_system)
    · exact ⟨howner, h.paid s hs hne howner⟩
  refine ⟨hO.system h.system, fun k hk hne => ?_, fun s hs => ?_, fun s hs hne hk => ?_,
    fun hk => ?_⟩
  · rcases hO.gained k hk with ⟨howner, hdata⟩ | hzero
    · rw [hdata]
      exact h.zeroed k howner hne
    · exact hzero
  · rcases hO.derived_cases h hs with hsame | ⟨-, hgone⟩
    · rw [hsame.owner, hsame.data]
      exact h.derived s hs
    · exact Or.inl hgone
  · exact (hO.marked (hback s hs hne hk)).1.lamports
  · have hmarked := hback _ hd.state hd.state_ne_vault hk
    have hdata : (l' (statePda C)).data = (l (statePda C)).data := (hO.marked hmarked).2
    rw [hdata]
    exact h.config hmarked.owner

/-! ## 7. Whole runs -/

section Whole

variable {e : Event} {events : List Event}

/-- The instructions of a run that succeed. -/
def successful (C : Cluster) (l : Ledger) : List Event → List Invocation
  | [] => []
  | .call i :: rest =>
    match processInstruction C l i with
    | .ok l' => i :: successful C l' rest
    | .error _ => successful C l rest
  | .others l' :: rest => successful C l' rest

/-- What a step does: an instruction that succeeds, one that fails, or everybody else. -/
theorem next_cases (hC : C.Lawful) (hd : Derived C known) (h : Inv C known l)
    (he : Allowed C known l e) :
    (∃ i, e = .call i ∧ processInstruction C l i = .ok (next C l e) ∧
        CallStep C known l i (next C l e)) ∨
      (∃ i f, e = .call i ∧ processInstruction C l i = .error f ∧ next C l e = l) ∨
      (e = .others (next C l e) ∧ Others C known l (next C l e)) := by
  cases e with
  | call i =>
    cases hp : processInstruction C l i with
    | ok l' =>
      have hnext : next C l (.call i) = l' := by
        simp only [next, hp]
      rw [hnext]
      exact Or.inl ⟨i, rfl, hp, callStep hC hd h he (process_effect hC hp)⟩
    | error f =>
      have hnext : next C l (.call i) = l := by
        simp only [next, hp]
      exact Or.inr (Or.inl ⟨i, f, rfl, hp, hnext⟩)
  | others l' => exact Or.inr (Or.inr ⟨rfl, he⟩)

theorem inv_next (hC : C.Lawful) (hd : Derived C known) (h : Inv C known l)
    (he : Allowed C known l e) : Inv C known (next C l e) := by
  rcases next_cases hC hd h he with ⟨i, -, -, hstep⟩ | ⟨i, f, -, -, hsame⟩ | ⟨-, hO⟩
  · exact h.call hC hstep
  · rw [hsame]
    exact h
  · exact h.others hC hd hO

theorem inv_runs (hC : C.Lawful) (hd : Derived C known) (h : Inv C known l)
    (hrun : EachStep (next C) (Allowed C known) l events) :
    Inv C known (runs (next C) l events) :=
  hrun.invariant (fun _ _ he hi => inv_next hC hd hi he) h

/-- What the program has marked stays marked. -/
theorem marked_next (hC : C.Lawful) (hd : Derived C known) (h : Inv C known l) {k : Pubkey}
    (hne : k ≠ vaultPda C) (hk : Marked C l k) (he : Allowed C known l e) :
    Marked C (next C l e) k := by
  rcases next_cases hC hd h he with ⟨i, -, -, hstep⟩ | ⟨i, f, -, -, hsame⟩ | ⟨-, hO⟩
  · obtain ⟨howner, hlamports⟩ := hstep.owned k hk.owner
    exact ⟨howner, Nat.lt_of_lt_of_le hk.lamports (hlamports hne)⟩
  · rw [hsame]
    exact hk
  · exact (hO.marked hk).1

/-- **The settings stay**: a state account that is set up keeps its data. -/
theorem config_next (hC : C.Lawful) (hd : Derived C known) (h : Inv C known l)
    (hstate : (l (statePda C)).owner = C.programId) (he : Allowed C known l e) :
    (next C l e (statePda C)).owner = C.programId ∧
      (next C l e (statePda C)).data = (l (statePda C)).data := by
  rcases next_cases hC hd h he with ⟨i, -, -, hstep⟩ | ⟨i, f, -, -, hsame⟩ | ⟨-, hO⟩
  · exact ⟨(hstep.owned _ hstate).1, hstep.config hstate⟩
  · rw [hsame]
    exact ⟨hstate, rfl⟩
  · have hmarked : Marked C l (statePda C) := ⟨hstate, h.paid _ hd.state hd.state_ne_vault hstate⟩
    exact ⟨(hO.marked hmarked).1.owner, (hO.marked hmarked).2⟩

theorem config_runs (hC : C.Lawful) (hd : Derived C known) (h : Inv C known l)
    (hstate : (l (statePda C)).owner = C.programId)
    (hrun : EachStep (next C) (Allowed C known) l events) :
    (runs (next C) l events (statePda C)).owner = C.programId ∧
      (runs (next C) l events (statePda C)).data = (l (statePda C)).data := by
  induction events generalizing l with
  | nil => exact ⟨hstate, rfl⟩
  | cons e events ih =>
    obtain ⟨howner, hdata⟩ := config_next hC hd h hstate hrun.1
    obtain ⟨howner', hdata'⟩ := ih (inv_next hC hd h hrun.1) howner hrun.2
    exact ⟨howner', hdata'.trans hdata⟩

/-- The markers of a run are new, each of them. -/
theorem markers_nodup (hC : C.Lawful) (hd : Derived C known) (h : Inv C known l)
    (hrun : EachStep (next C) (Allowed C known) l events) :
    ((successful C l events).filterMap Invocation.marker).Nodup ∧
      ∀ s ∈ (successful C l events).filterMap Invocation.marker,
        s ∈ known ∧ C.address s ≠ vaultPda C ∧ ¬ Marked C l (C.address s) := by
  induction events generalizing l with
  | nil => exact ⟨List.nodup_nil, fun s hs => by cases hs⟩
  | cons e events ih =>
    obtain ⟨hnodup, hnew⟩ := ih (inv_next hC hd h hrun.1) hrun.2
    -- what is marked before the step is marked behind it
    have hback : ∀ s ∈ (successful C (next C l e) events).filterMap Invocation.marker,
        s ∈ known ∧ C.address s ≠ vaultPda C ∧ ¬ Marked C l (C.address s) := by
      intro s hs
      obtain ⟨hk, hne, hunmarked⟩ := hnew s hs
      exact ⟨hk, hne, fun hm => hunmarked (marked_next hC hd h hne hm hrun.1)⟩
    rcases next_cases hC hd h hrun.1 with ⟨i, rfl, hp, hstep⟩ | ⟨i, f, rfl, hp, hsame⟩ | ⟨he, -⟩
    · have hlist : successful C l (.call i :: events) =
          i :: successful C (next C l (.call i)) events := by
        rw [successful, hp]
      rw [hlist]
      cases hmarker : i.marker with
      | none =>
        rw [List.filterMap_cons_none hmarker]
        exact ⟨hnodup, hback⟩
      | some s =>
        rw [List.filterMap_cons_some hmarker]
        obtain ⟨hunowned, howner, hlamports⟩ := hstep.marker s hmarker
        have hknown := (show Admissible C known i from hrun.1).marker s hmarker
        refine ⟨List.nodup_cons.mpr ⟨fun hs => ?_, hnodup⟩, fun t ht => ?_⟩
        · exact (hnew s hs).2.2 ⟨howner, hlamports⟩
        · rcases List.mem_cons.mp ht with rfl | ht
          · exact ⟨hknown, (hd.marker_ne hknown hmarker).2, fun hm => hunowned hm.owner⟩
          · exact hback t ht
    · have hlist : successful C l (.call i :: events) = successful C (next C l (.call i)) events := by
        rw [successful, hp, hsame]
      rw [hlist]
      exact ⟨hnodup, hback⟩
    · have hlist : successful C l (e :: events) = successful C (next C l e) events := by
        rw [he]
        rfl
      rw [hlist]
      exact ⟨hnodup, hback⟩

/-- **The account of the vault.** -/
theorem vault_runs (hC : C.Lawful) (hd : Derived C known) (h : Inv C known l)
    (hrun : EachStep (next C) (Allowed C known) l events) :
    (l (vaultPda C)).lamports + ((successful C l events).map Invocation.deposited).sum ≤
      (runs (next C) l events (vaultPda C)).lamports +
        ((successful C l events).map Invocation.released).sum := by
  induction events generalizing l with
  | nil => exact Nat.le_refl _
  | cons e events ih =>
    have hrest := ih (inv_next hC hd h hrun.1) hrun.2
    rw [runs_cons]
    rcases next_cases hC hd h hrun.1 with ⟨i, rfl, hp, hstep⟩ | ⟨i, f, rfl, hp, hsame⟩ | ⟨he, hO⟩
    · have hlist : successful C l (.call i :: events) =
          i :: successful C (next C l (.call i)) events := by
        rw [successful, hp]
      have hvault := hstep.vault
      rw [hlist, List.map_cons, List.map_cons, List.sum_cons, List.sum_cons]
      omega
    · have hlist : successful C l (.call i :: events) = successful C (next C l (.call i)) events := by
        rw [successful, hp, hsame]
      rw [hlist]
      rw [hsame] at hrest ⊢
      exact hrest
    · have hlist : successful C l (e :: events) = successful C (next C l e) events := by
        rw [he]
        rfl
      have hle : (l (vaultPda C)).lamports ≤ (next C l e (vaultPda C)).lamports :=
        hO.lamports h hd.vault
      rw [hlist]
      omega

/-- Lamports leave the vault only by a release that the stored authority signs. -/
theorem vault_debited (hC : C.Lawful) (hd : Derived C known) (h : Inv C known l)
    (he : Allowed C known l e)
    (hless : (next C l e (vaultPda C)).lamports < (l (vaultPda C)).lamports) :
    ∃ i, e = .call i ∧ processInstruction C l i = .ok (next C l e) ∧
      i.input.head? = some tagReleaseNativeSol ∧ i.Signs (keyAt (l (statePda C)).data 0) := by
  rcases next_cases hC hd h he with ⟨i, rfl, hp, hstep⟩ | ⟨i, f, rfl, hp, hsame⟩ | ⟨-, hO⟩
  · have hvault := hstep.vault
    have hrelease : i.input.head? = some tagReleaseNativeSol := by
      by_contra hne
      have hnone : i.released = 0 := if_neg hne
      omega
    exact ⟨i, rfl, hp, hrelease, (hstep.released hrelease).2⟩
  · rw [hsame] at hless
    exact absurd hless (Nat.lt_irrefl _)
  · exact absurd hless (Nat.not_lt.mpr (hO.lamports h hd.vault))

/-- **Replay safety and fixed configuration.** In every run from a ledger in which the program has
    written nothing yet: an id marks at most one success of its lane (native deposits for wSOL and
    MNA share one); the settings behind a setting-up that succeeds are those of every later ledger;
    lamports leave the vault only by a release the stored authority signs; and from any point on
    the vault holds at least what it held, with the deposits and without the releases. -/
theorem bridge_replay_safe (hC : C.Lawful) (hd : Derived C known) (hl : Fresh C known l)
    (hrun : EachStep (next C) (Allowed C known) l events) :
    ((successful C l events).filterMap Invocation.marker).Nodup ∧
      (∀ before i l1 after, events = before ++ .call i :: after →
        i.input.head? = some tagInitialize →
        processInstruction C (runs (next C) l before) i = .ok l1 →
        (runs (next C) l events (statePda C)).owner = C.programId ∧
          (runs (next C) l events (statePda C)).data = (l1 (statePda C)).data ∧
          ∃ authority mint, (l1 (statePda C)).data = bridgeData authority (vaultPda C) mint) ∧
      (∀ before e after, events = before ++ e :: after →
        (next C (runs (next C) l before) e (vaultPda C)).lamports <
            (runs (next C) l before (vaultPda C)).lamports →
          ∃ i, e = .call i ∧
            processInstruction C (runs (next C) l before) i =
              .ok (next C (runs (next C) l before) e) ∧
            i.input.head? = some tagReleaseNativeSol ∧
            i.Signs (keyAt (runs (next C) l before (statePda C)).data 0)) ∧
      ∀ before after, events = before ++ after →
        (runs (next C) l before (vaultPda C)).lamports +
            ((successful C (runs (next C) l before) after).map Invocation.deposited).sum ≤
          (runs (next C) l events (vaultPda C)).lamports +
            ((successful C (runs (next C) l before) after).map Invocation.released).sum := by
  have h := hl.inv hC hd
  refine ⟨(markers_nodup hC hd h hrun).1, ?_, ?_, ?_⟩
  · intro before i l1 after heq hinit hp
    subst heq
    obtain ⟨hbefore, hi, hafter⟩ := eachStep_append.mp hrun
    have hstep := callStep hC hd (inv_runs hC hd h hbefore) hi (process_effect hC hp)
    have hl1 := (inv_runs hC hd h hbefore).call hC hstep
    have howner := (hstep.initialized hinit).1
    have hnext : next C (runs (next C) l before) (.call i) = l1 := by
      simp only [next, hp]
    rw [hnext] at hafter
    rw [runs_append, runs_cons, hnext]
    obtain ⟨howner', hdata⟩ := config_runs hC hd hl1 howner hafter
    obtain ⟨authority, mint, -, hsettings⟩ := hl1.config howner
    exact ⟨howner', hdata, authority, mint, hsettings⟩
  · intro before e after heq hless
    subst heq
    obtain ⟨hbefore, he, -⟩ := eachStep_append.mp hrun
    exact vault_debited hC hd (inv_runs hC hd h hbefore) he hless
  · intro before after heq
    subst heq
    obtain ⟨hbefore, hafter⟩ := eachStep_append.mp hrun
    rw [runs_append]
    exact vault_runs hC hd (inv_runs hC hd h hbefore) hafter

end Whole

namespace Sample

def authority : Pubkey := Vector.replicate 32 9
def depositor : Pubkey := Vector.replicate 32 8
def mint : Pubkey := Vector.replicate 32 7
def recipient : Pubkey := Vector.replicate 32 6
def depositId : Vector UInt8 32 := Vector.replicate 32 5
def burnId : Vector UInt8 32 := Vector.replicate 32 4
def depositorTokens : Pubkey := Vector.replicate 32 3
def vaultTokens : Pubkey := Vector.replicate 32 2
def recipientTokens : Pubkey := Vector.replicate 32 10

/-- The derived addresses of the runs below. -/
def seeds : List Seeds :=
  [stateSeeds, vaultSeeds, depositSeeds depositId, releaseSeeds burnId, splDepositSeeds depositId,
    splReleaseSeeds burnId]

/-- A token account of the mint. -/
def tokenAccount (owner : Pubkey) (amount : Nat) : Account :=
  ⟨1, splTokenProgramId, mint.toList ++ owner.toList ++ (Crypto.leBytes amount 8).toList⟩

def start : Ledger := fun k =>
  if k = authority ∨ k = depositor then ⟨10000, systemProgram, []⟩
  else if k = mint then ⟨1, splTokenProgramId, List.replicate 44 0 ++ [6]⟩
  else if k = depositorTokens then tokenAccount depositor 100
  else if k = vaultTokens then tokenAccount (vaultPda cluster) 0
  else if k = recipientTokens then tokenAccount recipient 0
  else ⟨0, systemProgram, []⟩

def initializeCall : Invocation where
  accounts := [⟨authority, true, true⟩, ⟨statePda cluster, false, true⟩,
    ⟨vaultPda cluster, false, true⟩, ⟨systemProgram, false, false⟩]
  input := tagInitialize :: mint.toList

/-- The data of a lock for `alice`. -/
def lockInput (tag : UInt8) (amount : Nat) : List UInt8 :=
  tag :: (Crypto.leBytes amount 8).toList ++ depositId.toList ++ [5, 0, 97, 108, 105, 99, 101]

def lockCall (tag : UInt8) (amount : Nat) : Invocation where
  accounts := [⟨depositor, true, true⟩, ⟨vaultPda cluster, false, true⟩,
    ⟨statePda cluster, false, false⟩, ⟨cluster.address (depositSeeds depositId), false, true⟩,
    ⟨systemProgram, false, false⟩]
  input := lockInput tag amount

def releaseCall (amount : Nat) : Invocation where
  accounts := [⟨authority, true, true⟩, ⟨statePda cluster, false, false⟩,
    ⟨vaultPda cluster, false, true⟩, ⟨recipient, false, true⟩,
    ⟨cluster.address (releaseSeeds burnId), false, true⟩, ⟨systemProgram, false, false⟩]
  input := tagReleaseNativeSol :: (Crypto.leBytes amount 8).toList ++ burnId.toList

/-- A setting-up and a deposit, and then the id once more for MNA. -/
def deposits : List Event :=
  [.call initializeCall, .call (lockCall tagLockNativeSol 500),
    .call (lockCall tagLockNativeSolMna 500)]

/-- Somebody pays a lamport into the vault. -/
def tipped : Ledger := (runs (next cluster) start deposits).move depositor (vaultPda cluster) 1

def bridged : List Event := deposits ++ [.others tipped, .call (releaseCall 200)]

theorem derived : Derived cluster seeds where
  state := by decide +kernel
  vault := by decide +kernel
  separate := by decide +kernel
  ne_system := by decide +kernel

theorem start_system (k : Pubkey) :
    (start k).owner = systemProgram ∨ (start k).owner = splTokenProgramId := by
  unfold start
  repeat' split
  · exact Or.inl rfl
  · exact Or.inr rfl
  · exact Or.inr rfl
  · exact Or.inr rfl
  · exact Or.inr rfl
  · exact Or.inl rfl

theorem start_unowned (k : Pubkey) : (start k).owner ≠ cluster.programId := by
  rcases start_system k with h | h
  · rw [h]
    exact Ne.symm cluster_lawful.ne_system
  · rw [h]
    exact Ne.symm cluster_lawful.ne_token

theorem fresh : Fresh cluster seeds start where
  zeroed := fun k hk => absurd hk (start_unowned k)
  derived := by decide +kernel
  system := start_unowned _

theorem bridged_allowed : EachStep (next cluster) (Allowed cluster seeds) start bridged := by
  refine eachStep_append.mpr ⟨⟨?_, ?_, ?_, trivial⟩, ?_, ?_, trivial⟩
  · show Admissible cluster seeds _
    decide +kernel
  · show Admissible cluster seeds _
    decide +kernel
  · show Admissible cluster seeds _
    decide +kernel
  · exact Others.move cluster_lawful (by decide +kernel) (by decide +kernel) _ _
  · show Admissible cluster seeds _
    decide +kernel

end Sample

/-- The second use of the deposit's id fails. -/
theorem bridge_replay_safe_bridged :
    successful Sample.cluster Sample.start Sample.bridged =
        [Sample.initializeCall, Sample.lockCall tagLockNativeSol 500, Sample.releaseCall 200] ∧
      ((successful Sample.cluster Sample.start Sample.bridged).filterMap Invocation.marker).Nodup :=
  ⟨by decide +kernel, (bridge_replay_safe Sample.cluster_lawful Sample.derived Sample.fresh
    Sample.bridged_allowed).1⟩

end Solana

end WorldstreetChain
