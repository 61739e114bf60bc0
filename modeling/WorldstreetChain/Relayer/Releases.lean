import WorldstreetChain.Library.Rounding
import WorldstreetChain.Library.Unsigned
import WorldstreetChain.Relayer.Iteration

/-!
# The lane of a release (`submit_release`, `submit_solana_release`)

Four custodies hold what the chain's wrapped assets stand for. A burn is to be paid from the custody
of its asset, with its amount. The dispatcher asks for the prefix of wrapped SOL and sends all else
to the contract for WETH, so the branch for SPL tokens is never taken.

* `Relayer.HeldBy` -- which custody holds an asset.
* `Relayer.transferLamports` -- what the text of a transfer in SOL stands for.
* `Relayer.released_on_lane_iff` -- **when an operation is released on the lane of its asset, with
  its amount**, or not at all.
-/

namespace WorldstreetChain

namespace Relayer

/-! ## 1. Custodies -/

inductive Custody where
  /-- The contract that reserves USDC on Ethereum. -/
  | usdcReserve
  /-- The contract behind `BRIDGE_CONTRACT`, which holds WETH. -/
  | wethBridge
  /-- The vault's token account. -/
  | usdcVault
  /-- The vault's SOL. -/
  | sol
  deriving DecidableEq

/-- `USDC_ASSET_ID` and `WETH_ASSET_ID`. -/
structure EthereumAssets where
  usdc : String
  weth : String

/-- The custody holds what the asset stands for. -/
def HeldBy (assets : EthereumAssets) (assetId : String) : Custody → Prop
  | .usdcReserve => assetId = assets.usdc
  | .wethBridge => assetId = assets.weth
  | .usdcVault => "solana:USDC:".toList.isPrefixOf assetId.toList = true
  | .sol => "solana:WSOL:".toList.isPrefixOf assetId.toList = true

/-- Where a command draws from. -/
def Command.custody : Command → Custody
  | .cast .. => .wethBridge
  | .release .. | .transfer .. => .sol
  | .releaseSpl .. => .usdcVault

/-- The lamports in `f"{lamports / 1_000_000_000:.9f}"`: the quotient is a float, and its decimal
    text is rounded once more. -/
def transferLamports (lamports : Nat) : Nat :=
  roundHalfEven (binaryRound 53 82 lamports 1000000000 * 1000000000) (2 ^ 82)

/-- A command pays so many units of the asset. -/
def Command.PaysAmount (amount : Nat) : Command → Prop
  | .cast _ _ text => text = toString amount
  | .release _ lamports _ => lamports = amount
  | .releaseSpl _ units _ => units = amount
  | .transfer _ lamports _ => transferLamports lamports = amount

/-- Up to 8388608 SOL the float is exact to the lamport. -/
theorem transferLamports_eq {lamports : Nat} (h : lamports < 1000000000 * 2 ^ 23) :
    transferLamports lamports = lamports := by
  have hspare : spareDigits 53 82 lamports 1000000000 ≤ 52 :=
    spareDigits_le (t := 105) (by decide) (by decide) (by decide) h
  refine decimal_binaryRound (by decide) ?_
  calc 1000000000 * 2 ^ spareDigits 53 82 lamports 1000000000
      ≤ 1000000000 * 2 ^ 52 := Nat.mul_le_mul_left _ (Nat.pow_le_pow_right (by decide) hspare)
    _ < 2 ^ 82 := by decide

example : transferLamports (10 ^ 25 + 1) = 10 ^ 25 := by decide +kernel

/-! ## 2. What is issued -/

section Issued

variable {ω : Type} (O : Outside ω) (py : Python) (cfg : Settings) (assets : EthereumAssets)

/-- The outside, with every command that is issued on record. -/
def recording : Outside (List Command × ω) where
  now := fun w => O.now w.2
  oracle := fun w => ⟨(O.oracle w.2).result, (w.1, (O.oracle w.2).state)⟩
  bridgeMint := fun p w => ⟨(O.bridgeMint p w.2).result, (w.1, (O.bridgeMint p w.2).state)⟩
  mnaReserveMint := fun p w =>
    ⟨(O.mnaReserveMint p w.2).result, (w.1, (O.mnaReserveMint p w.2).state)⟩
  bridgeOperationStatus := fun id w =>
    ⟨(O.bridgeOperationStatus id w.2).result, (w.1, (O.bridgeOperationStatus id w.2).state)⟩
  execute := fun c w => ⟨(O.execute c w.2).result, (w.1 ++ [c], (O.execute c w.2).state)⟩

/-- The commands a release of the operation issues. -/
def issued (op : Row) (w : ω) : List Command :=
  (submitRelease (recording O) py cfg op ([], w)).state.1

/-- A release raises before anything is issued, or issues one command, which pays the amount from
    the one custody that holds the asset. -/
def ReleasedOnLane (op : Row) (amount : Nat) (w : ω) : Prop :=
  (issued O py cfg op w = [] ∧
    ∃ e, (submitRelease (recording O) py cfg op ([], w)).result = .error (.err e)) ∨
  ∃ c, issued O py cfg op w = [c] ∧ c.PaysAmount amount ∧
    ∀ custody, HeldBy assets op.assetId custody ↔ custody = c.custody

variable {O py cfg assets} {op : Row} {amount : Nat} {w : ω} {c : Command}

theorem releasedOnLane_of_error {e : RelayerError} (h : releaseCommand py cfg op = .error (.err e)) :
    ReleasedOnLane O py cfg assets op amount w := by
  refine Or.inl ⟨?_, e, ?_⟩
  · unfold issued submitRelease
    rw [h]
    rfl
  · unfold submitRelease
    rw [h]
    rfl

theorem releasedOnLane_of_ok (h : releaseCommand py cfg op = .ok c) :
    ReleasedOnLane O py cfg assets op amount w ↔
      c.PaysAmount amount ∧ ∀ custody, HeldBy assets op.assetId custody ↔ custody = c.custody := by
  have hissued : issued O py cfg op w = [c] := by
    unfold issued submitRelease
    rw [Applied.attempt_of_ok h]
    rfl
  unfold ReleasedOnLane
  rw [hissued]
  constructor
  · intro hlane
    obtain ⟨hnil, -⟩ | ⟨c', hc, hpays, hheld⟩ := hlane
    · cases hnil
    · cases hc
      exact ⟨hpays, hheld⟩
  · intro hlane
    exact Or.inr ⟨c, rfl, hlane⟩

end Issued

/-! ## 3. The dispatchers -/

section Routing

variable {py : Python} {cfg : Settings} {op : Row} {amount : Nat}

/-- The keypair that signs on Solana in the mode the relayer is in. -/
def Settings.releaseKeypair (cfg : Settings) : Bool :=
  if cfg.programMode then cfg.authorityKeypair else cfg.vaultKeypair

/-- What wrapped SOL is paid with. -/
def solCommand (cfg : Settings) (op : Row) (lamports : Nat) : Command :=
  if cfg.programMode then .release op.destination lamports op.operationId
  else .transfer op.destination lamports op.operationId

/-- **What the node prints of an amount, the relayer reads back.** -/
theorem numeral_toString (a : Amount) : numeral py (toString a.toNat) = .ok a.toNat := by
  have hlt : a.toNat < 10 ^ 39 := Nat.lt_trans a.isLt (by decide)
  have hempty : ¬ (toString a.toNat).toList = [] := by
    intro hnil
    have hpos := length_decimal_pos a.toNat
    unfold Solana.decimal at hpos
    rw [hnil] at hpos
    cases hpos
  have hdigits : (toString a.toNat).toList.all (digit py) = true :=
    List.all_eq_true.mpr fun c hc => digit_of_mem_decimal hc
  have hreject : ¬ ((toString a.toNat).toList = [] ∨
      (toString a.toNat).toList.all (digit py) = false) := by
    rw [hdigits]
    intro h
    obtain h | h := h
    · exact hempty h
    · cases h
  unfold numeral
  rw [rejectIf_neg hreject]
  exact int_decimal_of_lt (by decide) (by decide) hlt

theorem prefix_disjoint {text : List Char}
    (hwsol : "solana:WSOL:".toList.isPrefixOf text = true) :
    "solana:USDC:".toList.isPrefixOf text = false := by
  obtain ⟨rest, rfl⟩ := List.isPrefixOf_iff_prefix.mp hwsol
  rfl

/-- Wrapped SOL: the branch for SPL tokens is never reached. -/
theorem releaseCommand_wsol (hwsol : "solana:WSOL:".toList.isPrefixOf op.assetId.toList = true)
    (hamount : numeral py op.amount = .ok amount) (haddress : solanaAddress op.destination = true)
    (hpos : amount ≠ 0) (hkey : cfg.releaseKeypair = true) :
    releaseCommand py cfg op = .ok (solCommand cfg op amount) := by
  unfold releaseCommand solanaReleaseCommand solCommand
  unfold Settings.releaseKeypair at hkey
  rw [if_pos hwsol, haddress, rejectIf_neg (by decide), hamount, prefix_disjoint hwsol]
  simp only [Outcome.ok_bind, rejectIf_neg hpos, if_neg Bool.false_ne_true]
  by_cases hmode : cfg.programMode = true
  · rw [if_pos hmode] at hkey ⊢
    rw [hkey, if_pos hmode]
    rfl
  · rw [if_neg hmode] at hkey ⊢
    rw [hkey, if_neg hmode]
    rfl

theorem releaseCommand_wsol_refused
    (hwsol : "solana:WSOL:".toList.isPrefixOf op.assetId.toList = true)
    (hamount : numeral py op.amount = .ok amount)
    (h : ¬ (solanaAddress op.destination = true ∧ amount ≠ 0 ∧ cfg.releaseKeypair = true)) :
    ∃ e, releaseCommand py cfg op = .error (.err e) := by
  unfold releaseCommand solanaReleaseCommand
  rw [if_pos hwsol, hamount, prefix_disjoint hwsol]
  by_cases haddress : solanaAddress op.destination = true
  · rw [haddress, rejectIf_neg (by decide)]
    simp only [Outcome.ok_bind, if_neg Bool.false_ne_true]
    by_cases hzero : amount = 0
    · exact ⟨.value, by rw [rejectIf_pos hzero]; rfl⟩
    · have hkey : cfg.releaseKeypair = false :=
        Bool.eq_false_of_not_eq_true fun hkey => h ⟨haddress, hzero, hkey⟩
      unfold Settings.releaseKeypair at hkey
      rw [rejectIf_neg hzero]
      by_cases hmode : cfg.programMode = true
      · rw [if_pos hmode] at hkey
        exact ⟨.runtime, by rw [if_pos hmode, hkey]; rfl⟩
      · rw [if_neg hmode] at hkey
        exact ⟨.runtime, by rw [if_neg hmode, hkey]; rfl⟩
  · exact ⟨.value, by rw [rejectIf_pos (Bool.eq_false_of_not_eq_true haddress)]; rfl⟩

/-- All else goes to the contract for WETH. -/
theorem releaseCommand_default
    (hwsol : ¬ "solana:WSOL:".toList.isPrefixOf op.assetId.toList = true)
    (haddress : ethereumAddress op.destination = true) :
    releaseCommand py cfg op = .ok (.cast op.operationId op.destination op.amount) := by
  unfold releaseCommand
  rw [if_neg hwsol, haddress]
  rfl

theorem releaseCommand_default_refused
    (hwsol : ¬ "solana:WSOL:".toList.isPrefixOf op.assetId.toList = true)
    (haddress : ethereumAddress op.destination = false) :
    releaseCommand py cfg op = .error (.err .value) := by
  unfold releaseCommand
  rw [if_neg hwsol, haddress]
  rfl

/-! ## 4. The lane of the asset -/

/-- Where wrapped SOL is released at all, no other custody is named by its id, and a transfer's text
    keeps the amount; where anything else is, it is WETH and nothing but WETH. -/
def RoutedToLane (cfg : Settings) (assets : EthereumAssets) (op : Row) (amount : Nat) : Prop :=
  if "solana:WSOL:".toList.isPrefixOf op.assetId.toList = true then
    solanaAddress op.destination = true → amount ≠ 0 → cfg.releaseKeypair = true →
      op.assetId ≠ assets.usdc ∧ op.assetId ≠ assets.weth ∧
        (cfg.programMode = false → transferLamports amount = amount)
  else
    ethereumAddress op.destination = true →
      op.assetId = assets.weth ∧ op.assetId ≠ assets.usdc ∧
        "solana:USDC:".toList.isPrefixOf op.assetId.toList = false

theorem solCommand_custody (lamports : Nat) : (solCommand cfg op lamports).custody = .sol := by
  unfold solCommand
  split
  · rfl
  · rfl

theorem solCommand_pays : (solCommand cfg op amount).PaysAmount amount ↔
    (cfg.programMode = false → transferLamports amount = amount) := by
  unfold solCommand
  by_cases hmode : cfg.programMode = true
  · rw [if_pos hmode]
    exact ⟨fun _ h => absurd (hmode.symm.trans h) (by decide), fun _ => rfl⟩
  · rw [if_neg hmode]
    exact ⟨fun h _ => h, fun h => h (Bool.eq_false_of_not_eq_true hmode)⟩

theorem heldBy_sol (assets : EthereumAssets)
    (hwsol : "solana:WSOL:".toList.isPrefixOf op.assetId.toList = true) :
    (∀ custody, HeldBy assets op.assetId custody ↔ custody = .sol) ↔
      op.assetId ≠ assets.usdc ∧ op.assetId ≠ assets.weth := by
  constructor
  · intro h
    have husdc : op.assetId ≠ assets.usdc := fun husdc => by
      have hcustody := (h .usdcReserve).mp husdc
      cases hcustody
    have hweth : op.assetId ≠ assets.weth := fun hweth => by
      have hcustody := (h .wethBridge).mp hweth
      cases hcustody
    exact ⟨husdc, hweth⟩
  · intro h custody
    cases custody with
    | usdcReserve => exact ⟨fun husdc => absurd husdc h.1, fun h => by cases h⟩
    | wethBridge => exact ⟨fun hweth => absurd hweth h.2, fun h => by cases h⟩
    | usdcVault =>
      refine ⟨fun husdc => ?_, fun h => by cases h⟩
      rw [HeldBy, prefix_disjoint hwsol] at husdc
      cases husdc
    | sol => exact ⟨fun _ => rfl, fun _ => hwsol⟩

theorem heldBy_weth (assets : EthereumAssets)
    (hwsol : ¬ "solana:WSOL:".toList.isPrefixOf op.assetId.toList = true) :
    (∀ custody, HeldBy assets op.assetId custody ↔ custody = .wethBridge) ↔
      op.assetId = assets.weth ∧ op.assetId ≠ assets.usdc ∧
        "solana:USDC:".toList.isPrefixOf op.assetId.toList = false := by
  constructor
  · intro h
    have hreserve : op.assetId ≠ assets.usdc := fun husdc => by
      have hcustody := (h .usdcReserve).mp husdc
      cases hcustody
    have hvault : ¬ "solana:USDC:".toList.isPrefixOf op.assetId.toList = true := fun husdc => by
      have hcustody := (h .usdcVault).mp husdc
      cases hcustody
    exact ⟨(h .wethBridge).mpr rfl, hreserve, Bool.eq_false_of_not_eq_true hvault⟩
  · intro h custody
    cases custody with
    | usdcReserve => exact ⟨fun husdc => absurd husdc h.2.1, fun h => by cases h⟩
    | wethBridge => exact ⟨fun _ => rfl, fun _ => h.1⟩
    | usdcVault =>
      refine ⟨fun husdc => ?_, fun h => by cases h⟩
      rw [HeldBy, h.2.2] at husdc
      cases husdc
    | sol => exact ⟨fun hsol => absurd hsol hwsol, fun h => by cases h⟩

/-- **When a release goes out on the lane of the burned asset, with its amount**, if it goes out at
    all. -/
theorem released_on_lane_iff {ω : Type} (O : Outside ω) (py : Python) (cfg : Settings)
    (assets : EthereumAssets) (op : Row) (amount : Amount) (hamount : op.amount = toString amount.toNat)
    (w : ω) :
    ReleasedOnLane O py cfg assets op amount.toNat w ↔
      RoutedToLane cfg assets op amount.toNat := by
  have hnumeral : numeral py op.amount = .ok amount.toNat := by rw [hamount, numeral_toString]
  unfold RoutedToLane
  by_cases hwsol : "solana:WSOL:".toList.isPrefixOf op.assetId.toList = true
  · rw [if_pos hwsol]
    by_cases hserved : solanaAddress op.destination = true ∧ amount.toNat ≠ 0 ∧
        cfg.releaseKeypair = true
    · rw [releasedOnLane_of_ok (releaseCommand_wsol hwsol hnumeral hserved.1 hserved.2.1
        hserved.2.2), solCommand_custody, solCommand_pays, heldBy_sol assets hwsol]
      constructor
      · intro h _ _ _
        exact ⟨h.2.1, h.2.2, h.1⟩
      · intro h
        obtain ⟨husdc, hweth, hpays⟩ := h hserved.1 hserved.2.1 hserved.2.2
        exact ⟨hpays, husdc, hweth⟩
    · obtain ⟨e, he⟩ := releaseCommand_wsol_refused hwsol hnumeral hserved
      refine iff_of_true (releasedOnLane_of_error he) fun haddress hpos hkey => ?_
      exact absurd ⟨haddress, hpos, hkey⟩ hserved
  · rw [if_neg hwsol]
    by_cases haddress : ethereumAddress op.destination = true
    · rw [releasedOnLane_of_ok (releaseCommand_default hwsol haddress)]
      have hheld := heldBy_weth assets hwsol
      constructor
      · intro h _
        exact hheld.mp h.2
      · intro h
        exact ⟨hamount, hheld.mpr (h haddress)⟩
    · refine iff_of_true (releasedOnLane_of_error (releaseCommand_default_refused hwsol
        (Bool.eq_false_of_not_eq_true haddress))) fun h => absurd h haddress

end Routing

end Relayer

/-! ## 5. Burns of the assets -/

namespace Sample

open Relayer

def ethereumAssets : EthereumAssets where
  usdc := "ethereum:USDC:sepolia:0x1c7D4B196Cb0C7B01d743Fbc6116a902379C7238"
  weth := "ethereum:WETH:sepolia:bridge-placeholder"

/-- A burn of seven units for an account on Ethereum. -/
def ethereumBurn (assetId : String) : Row where
  operationId := String.ofList (List.replicate 64 'c')
  direction := "outbound"
  status := "detected"
  assetId := assetId
  address := accountText
  destination := "0x" ++ String.ofList (List.replicate 40 'e')
  amount := toString (7#128).toNat
  externalTransaction := ""
  sourceBlock := 0

end Sample

namespace Relayer

theorem released_on_lane_weth :
    ReleasedOnLane Sample.calm Sample.python Sample.settings Sample.ethereumAssets
      (Sample.ethereumBurn Sample.ethereumAssets.weth) (7#128).toNat () :=
  (released_on_lane_iff Sample.calm Sample.python Sample.settings Sample.ethereumAssets
    (Sample.ethereumBurn Sample.ethereumAssets.weth) 7#128 rfl ()).mpr (by
      unfold RoutedToLane
      decide +kernel)

/-- **Burned USDC is paid in WETH.** -/
theorem usdc_released_as_weth :
    ¬ ReleasedOnLane Sample.calm Sample.python Sample.settings Sample.ethereumAssets
      (Sample.ethereumBurn Sample.ethereumAssets.usdc) (7#128).toNat () := by
  intro h
  have hcommand : releaseCommand Sample.python Sample.settings
      (Sample.ethereumBurn Sample.ethereumAssets.usdc) = .ok (.cast (String.ofList
        (List.replicate 64 'c')) ("0x" ++ String.ofList (List.replicate 40 'e')) "7") :=
    releaseCommand_default (by decide +kernel) (by decide +kernel)
  obtain ⟨-, hheld⟩ := (releasedOnLane_of_ok hcommand).mp h
  have hcustody := (hheld .usdcReserve).mp rfl
  cases hcustody

end Relayer

end WorldstreetChain
