import Mathlib.Logic.Function.Basic
import WorldstreetChain.Library.Fallible
import WorldstreetChain.Library.Runs

/-!
# The contracts (`IntertrainWethBridge.sol`, `IntertrainUsdcReserve.sol`)

Both contracts mark the id of a deposit and the id of a release when they take it, each in a mapping
of its own. A call that reverts changes nothing.

* `Ethereum.Bridge` -- the storage that the two have in common.
* `Ethereum.WethBridge.deposit`, `Ethereum.WethBridge.release`, `Ethereum.UsdcReserve.deposit`,
  `Ethereum.UsdcReserve.release` -- the functions.
* `Ethereum.weth_deposits_once`, `Ethereum.usdc_deposits_once` -- **a contract emits a deposit id at
  most once**.
-/

namespace WorldstreetChain

namespace Ethereum

abbrev Bytes32 := Vector UInt8 32
abbrev Address := Vector UInt8 20

def zeroAddress : Address := Vector.replicate 20 0

/-- `event Deposit`; the destination is any bytes. -/
structure DepositEvent where
  depositId : Bytes32
  sender : Address
  amount : Nat
  destination : List UInt8

/-- `event Release`. -/
structure ReleaseEvent where
  burnId : Bytes32
  recipient : Address
  amount : Nat
  deriving DecidableEq

/-- The storage of the two contracts, as far as they share it. -/
structure Bridge where
  relayer : Address
  deposits : Bytes32 → Bool
  releases : Bytes32 → Bool

namespace Bridge

def markDeposit (b : Bridge) (id : Bytes32) : Bridge :=
  { b with deposits := Function.update b.deposits id true }

def markRelease (b : Bridge) (id : Bytes32) : Bridge :=
  { b with releases := Function.update b.releases id true }

end Bridge

/-! ## 1. The bridge for WETH -/

structure WethBridge extends Bridge where
  balance : Nat

namespace WethBridge

def deposit (b : WethBridge) (sender : Address) (value : Nat) (depositId : Bytes32)
    (destination : List UInt8) : Outcome String (WethBridge × DepositEvent) := do
  rejectIf (value = 0) "zero value"
  rejectIf (b.deposits depositId = true) "deposit used"
  .ok ({ b with toBridge := b.markDeposit depositId, balance := b.balance + value },
    ⟨depositId, sender, value, destination⟩)

/-- `accepts` is whether the recipient takes the value. -/
def release (b : WethBridge) (sender : Address) (burnId : Bytes32) (recipient : Address)
    (amount : Nat) (accepts : Bool) : Outcome String (WethBridge × ReleaseEvent) := do
  rejectIf (sender ≠ b.relayer) "not relayer"
  rejectIf (b.releases burnId = true) "release used"
  rejectIf (recipient = zeroAddress ∨ amount = 0) "invalid release"
  rejectIf (b.balance < amount) "insufficient reserve"
  rejectIf (accepts = false) "release failed"
  .ok ({ b with toBridge := b.markRelease burnId, balance := b.balance - amount },
    ⟨burnId, recipient, amount⟩)

/-- `receive()`. -/
def receive (b : WethBridge) (value : Nat) : WethBridge := { b with balance := b.balance + value }

end WethBridge

/-! ## 2. The reserve for USDC -/

structure UsdcReserve extends Bridge where
  owner : Address
  paused : Bool

namespace UsdcReserve

/-- `moved` is what `transferFrom` answers. -/
def deposit (b : UsdcReserve) (sender : Address) (depositId : Bytes32) (amount : Nat)
    (destination : List UInt8) (moved : Bool) : Outcome String (UsdcReserve × DepositEvent) := do
  rejectIf (b.paused = true) "paused"
  rejectIf (amount = 0 ∨ destination = []) "invalid deposit"
  rejectIf (b.deposits depositId = true) "deposit used"
  rejectIf (moved = false) "transferFrom failed"
  .ok ({ b with toBridge := b.markDeposit depositId }, ⟨depositId, sender, amount, destination⟩)

/-- `held` is the contract's balance of the token and `moved` what `transfer` answers. -/
def release (b : UsdcReserve) (sender : Address) (burnId : Bytes32) (recipient : Address)
    (amount held : Nat) (moved : Bool) : Outcome String (UsdcReserve × ReleaseEvent) := do
  rejectIf (sender ≠ b.relayer) "not relayer"
  rejectIf (b.paused = true) "paused"
  rejectIf (b.releases burnId = true) "release used"
  rejectIf (recipient = zeroAddress ∨ amount = 0) "invalid release"
  rejectIf (held < amount) "insufficient reserve"
  rejectIf (moved = false) "transfer failed"
  .ok ({ b with toBridge := b.markRelease burnId }, ⟨burnId, recipient, amount⟩)

def setRelayer (b : UsdcReserve) (sender newRelayer : Address) : Outcome String UsdcReserve := do
  rejectIf (sender ≠ b.owner) "not owner"
  rejectIf (newRelayer = zeroAddress) "zero relayer"
  .ok { b with relayer := newRelayer }

/-- `pause` and `unpause`. -/
def setPaused (b : UsdcReserve) (sender : Address) (paused : Bool) :
    Outcome String UsdcReserve := do
  rejectIf (sender ≠ b.owner) "not owner"
  .ok { b with paused }

end UsdcReserve

/-! ## 3. Marks -/

section Marks

variable {sender recipient : Address} {id j : Bytes32} {amount value held : Nat}
  {destination : List UInt8} {accepts moved : Bool}

theorem Bridge.deposits_markDeposit {b : Bridge} :
    (b.markDeposit id).deposits j = true ↔ j = id ∨ b.deposits j = true := by
  unfold Bridge.markDeposit
  by_cases h : j = id
  · simp [h]
  · simp [h]

theorem Bridge.releases_markRelease {b : Bridge} :
    (b.markRelease id).releases j = true ↔ j = id ∨ b.releases j = true := by
  unfold Bridge.markRelease
  by_cases h : j = id
  · simp [h]
  · simp [h]

/-- **A release of WETH** takes an id that is not marked, and marks it. -/
theorem WethBridge.release_marks {b b' : WethBridge} {e : ReleaseEvent}
    (h : b.release sender id recipient amount accepts = .ok (b', e)) :
    b.releases id = false ∧ e = ⟨id, recipient, amount⟩ ∧ b'.deposits = b.deposits ∧
      b'.releases = (b.markRelease id).releases := by
  obtain ⟨-, h⟩ := rejectIf_bind_eq_ok.mp h
  obtain ⟨hnew, h⟩ := rejectIf_bind_eq_ok.mp h
  obtain ⟨-, h⟩ := rejectIf_bind_eq_ok.mp h
  obtain ⟨-, h⟩ := rejectIf_bind_eq_ok.mp h
  obtain ⟨-, h⟩ := rejectIf_bind_eq_ok.mp h
  obtain ⟨rfl, rfl⟩ := Prod.mk.inj (Except.ok.inj h)
  exact ⟨Bool.eq_false_of_not_eq_true hnew, rfl, rfl, rfl⟩

end Marks

/-! ## 4. Calls -/

inductive WethCall where
  | deposit (sender : Address) (value : Nat) (depositId : Bytes32) (destination : List UInt8)
  | release (sender : Address) (burnId : Bytes32) (recipient : Address) (amount : Nat)
    (accepts : Bool)
  | receive (value : Nat)

inductive UsdcCall where
  | deposit (sender : Address) (depositId : Bytes32) (amount : Nat) (destination : List UInt8)
    (moved : Bool)
  | release (sender : Address) (burnId : Bytes32) (recipient : Address) (amount held : Nat)
    (moved : Bool)
  | setRelayer (sender newRelayer : Address)
  | setPaused (sender : Address) (paused : Bool)

/-- The state behind a call; a call that reverts changes nothing. -/
def kept {σ α : Type} (s : σ) (r : Outcome String (σ × α)) : σ :=
  match r with
  | .ok (s', _) => s'
  | .error _ => s

def WethBridge.next (b : WethBridge) : WethCall → WethBridge
  | .deposit sender value id destination => kept b (b.deposit sender value id destination)
  | .release sender id recipient amount accepts =>
    kept b (b.release sender id recipient amount accepts)
  | .receive value => b.receive value

def UsdcReserve.next (b : UsdcReserve) : UsdcCall → UsdcReserve
  | .deposit sender id amount destination moved =>
    kept b (b.deposit sender id amount destination moved)
  | .release sender id recipient amount held moved =>
    kept b (b.release sender id recipient amount held moved)
  | .setRelayer sender newRelayer => kept b ((b.setRelayer sender newRelayer).map (·, ()))
  | .setPaused sender paused => kept b ((b.setPaused sender paused).map (·, ()))

/-- The `Deposit` a call emits. -/
def WethBridge.deposited (b : WethBridge) : WethCall → Option DepositEvent
  | .deposit sender value id destination =>
    (b.deposit sender value id destination).toOption.map Prod.snd
  | _ => none

def UsdcReserve.deposited (b : UsdcReserve) : UsdcCall → Option DepositEvent
  | .deposit sender id amount destination moved =>
    (b.deposit sender id amount destination moved).toOption.map Prod.snd
  | _ => none

section Calls

variable {id : Bytes32}

theorem WethBridge.deposit_marks {b b' : WethBridge} {sender : Address} {value : Nat}
    {destination : List UInt8} {e : DepositEvent}
    (h : b.deposit sender value id destination = .ok (b', e)) :
    b.deposits id = false ∧ e = ⟨id, sender, value, destination⟩ ∧
      b'.deposits = (b.markDeposit id).deposits ∧ b'.releases = b.releases := by
  obtain ⟨-, h⟩ := rejectIf_bind_eq_ok.mp h
  obtain ⟨hnew, h⟩ := rejectIf_bind_eq_ok.mp h
  obtain ⟨rfl, rfl⟩ := Prod.mk.inj (Except.ok.inj h)
  exact ⟨Bool.eq_false_of_not_eq_true hnew, rfl, rfl, rfl⟩

theorem UsdcReserve.deposit_marks {b b' : UsdcReserve} {sender : Address} {amount : Nat}
    {destination : List UInt8} {moved : Bool} {e : DepositEvent}
    (h : b.deposit sender id amount destination moved = .ok (b', e)) :
    b.deposits id = false ∧ e = ⟨id, sender, amount, destination⟩ ∧
      b'.deposits = (b.markDeposit id).deposits := by
  obtain ⟨-, h⟩ := rejectIf_bind_eq_ok.mp h
  obtain ⟨-, h⟩ := rejectIf_bind_eq_ok.mp h
  obtain ⟨hnew, h⟩ := rejectIf_bind_eq_ok.mp h
  obtain ⟨-, h⟩ := rejectIf_bind_eq_ok.mp h
  obtain ⟨rfl, rfl⟩ := Prod.mk.inj (Except.ok.inj h)
  exact ⟨Bool.eq_false_of_not_eq_true hnew, rfl, rfl⟩

/-- A call keeps the marks of deposits and of releases. -/
theorem WethBridge.next_kept (b : WethBridge) (c : WethCall) :
    (b.deposits id = true → (b.next c).deposits id = true) ∧
      (b.releases id = true → (b.next c).releases id = true) := by
  cases c with
  | deposit sender value i destination =>
    show (_ → (kept b _).deposits id = true) ∧ (_ → (kept b _).releases id = true)
    cases hd : b.deposit sender value i destination with
    | error e => exact ⟨fun h => h, fun h => h⟩
    | ok r =>
      obtain ⟨-, -, hdeposits, hreleases⟩ := deposit_marks hd
      refine ⟨fun h => ?_, fun h => ?_⟩
      · show r.1.deposits id = true
        rw [hdeposits]
        exact Bridge.deposits_markDeposit.mpr (Or.inr h)
      · show r.1.releases id = true
        rw [hreleases]
        exact h
  | release sender i recipient amount accepts =>
    show (_ → (kept b _).deposits id = true) ∧ (_ → (kept b _).releases id = true)
    cases hr : b.release sender i recipient amount accepts with
    | error e => exact ⟨fun h => h, fun h => h⟩
    | ok r =>
      obtain ⟨-, -, hdeposits, hreleases⟩ := release_marks hr
      refine ⟨fun h => ?_, fun h => ?_⟩
      · show r.1.deposits id = true
        rw [hdeposits]
        exact h
      · show r.1.releases id = true
        rw [hreleases]
        exact Bridge.releases_markRelease.mpr (Or.inr h)
  | receive value => exact ⟨fun h => h, fun h => h⟩

theorem UsdcReserve.next_kept (b : UsdcReserve) (c : UsdcCall) (h : b.deposits id = true) :
    (b.next c).deposits id = true := by
  cases c with
  | deposit sender i amount destination moved =>
    show (kept b _).deposits id = true
    cases hd : b.deposit sender i amount destination moved with
    | error e => exact h
    | ok r =>
      obtain ⟨-, -, hdeposits⟩ := deposit_marks hd
      show r.1.deposits id = true
      rw [hdeposits]
      exact Bridge.deposits_markDeposit.mpr (Or.inr h)
  | release sender i recipient amount held moved =>
    show (kept b _).deposits id = true
    cases hr : b.release sender i recipient amount held moved with
    | error e => exact h
    | ok r =>
      obtain ⟨-, hr⟩ := rejectIf_bind_eq_ok.mp hr
      obtain ⟨-, hr⟩ := rejectIf_bind_eq_ok.mp hr
      obtain ⟨-, hr⟩ := rejectIf_bind_eq_ok.mp hr
      obtain ⟨-, hr⟩ := rejectIf_bind_eq_ok.mp hr
      obtain ⟨-, hr⟩ := rejectIf_bind_eq_ok.mp hr
      obtain ⟨-, hr⟩ := rejectIf_bind_eq_ok.mp hr
      rw [← Except.ok.inj hr]
      exact h
  | setRelayer sender newRelayer =>
    show (kept b _).deposits id = true
    unfold setRelayer
    by_cases h1 : sender ≠ b.owner
    · simpa [kept, h1, Except.map, bind, Except.bind] using h
    · by_cases h2 : newRelayer = zeroAddress
      · simpa [kept, h1, h2, Except.map, bind, Except.bind] using h
      · simpa [kept, h1, h2, Except.map, bind, Except.bind] using h
  | setPaused sender paused =>
    show (kept b _).deposits id = true
    unfold setPaused
    by_cases h1 : sender ≠ b.owner
    · simpa [kept, h1, Except.map, bind, Except.bind] using h
    · simpa [kept, h1, Except.map, bind, Except.bind] using h

theorem WethBridge.deposited_marks {b : WethBridge} {c : WethCall} {e : DepositEvent}
    (h : b.deposited c = some e) :
    b.deposits e.depositId = false ∧ (b.next c).deposits e.depositId = true := by
  cases c with
  | deposit sender value i destination =>
    cases hd : b.deposit sender value i destination with
    | error f =>
      rw [deposited, hd] at h
      cases h
    | ok r =>
      obtain ⟨hnew, he, hdeposits, -⟩ := deposit_marks hd
      have heq : r.2 = e := by
        rw [deposited, hd] at h
        exact Option.some.inj h
      have hnext : b.next (.deposit sender value i destination) = r.1 := by
        rw [next, hd]
        rfl
      rw [hnext, hdeposits, ← heq, he]
      exact ⟨hnew, Bridge.deposits_markDeposit.mpr (Or.inl rfl)⟩
  | release => cases h
  | receive => cases h

theorem UsdcReserve.deposited_marks {b : UsdcReserve} {c : UsdcCall} {e : DepositEvent}
    (h : b.deposited c = some e) :
    b.deposits e.depositId = false ∧ (b.next c).deposits e.depositId = true := by
  cases c with
  | deposit sender i amount destination moved =>
    cases hd : b.deposit sender i amount destination moved with
    | error f =>
      rw [deposited, hd] at h
      cases h
    | ok r =>
      obtain ⟨hnew, he, hdeposits⟩ := deposit_marks hd
      have heq : r.2 = e := by
        rw [deposited, hd] at h
        exact Option.some.inj h
      have hnext : b.next (.deposit sender i amount destination moved) = r.1 := by
        rw [next, hd]
        rfl
      rw [hnext, hdeposits, ← heq, he]
      exact ⟨hnew, Bridge.deposits_markDeposit.mpr (Or.inl rfl)⟩
  | release => cases h
  | setRelayer => cases h
  | setPaused => cases h

/-- **A contract emits a deposit id at most once.** -/
theorem weth_deposits_once (b : WethBridge) (calls : List WethCall) :
    (emitted WethBridge.next (fun b c => (b.deposited c).map DepositEvent.depositId) b
      calls).Nodup := by
  have hrun : EachStep WethBridge.next (fun _ _ => True) b calls := .of_forall fun _ _ => trivial
  refine (hrun.emitted_nodup (fun b id => b.deposits id = true) (fun b c id _ he => ?_)
    fun b c id _ h => (b.next_kept c).1 h).1
  obtain ⟨e, hd, rfl⟩ := Option.map_eq_some_iff.mp he
  obtain ⟨hnew, hmarked⟩ := WethBridge.deposited_marks hd
  exact ⟨ne_true_of_eq_false hnew, hmarked⟩

theorem usdc_deposits_once (b : UsdcReserve) (calls : List UsdcCall) :
    (emitted UsdcReserve.next (fun b c => (b.deposited c).map DepositEvent.depositId) b
      calls).Nodup := by
  have hrun : EachStep UsdcReserve.next (fun _ _ => True) b calls := .of_forall fun _ _ => trivial
  refine (hrun.emitted_nodup (fun b id => b.deposits id = true) (fun b c id _ he => ?_)
    fun b c id _ h => b.next_kept c h).1
  obtain ⟨e, hd, rfl⟩ := Option.map_eq_some_iff.mp he
  obtain ⟨hnew, hmarked⟩ := UsdcReserve.deposited_marks hd
  exact ⟨ne_true_of_eq_false hnew, hmarked⟩

end Calls

end Ethereum

end WorldstreetChain
