import WorldstreetChain.Ethereum.Bridge
import WorldstreetChain.Library.Matching

/-!
# What the contract for WETH owes

What the contract holds is what was deposited, and sent to it, less what was released. No id is
deposited twice and none is released twice.

* `Ethereum.WethBridge.released` -- the `Release` a call emits.
* `Ethereum.Booked` -- what the contract's storage has to do with the events it has emitted.
* `Ethereum.Booked.next` -- **every call keeps it**.
-/

namespace WorldstreetChain

namespace Ethereum

/-- The `Release` a call emits. -/
def WethBridge.released (b : WethBridge) : WethCall → Option ReleaseEvent
  | .release sender id recipient amount accepts =>
    (b.release sender id recipient amount accepts).toOption.map Prod.snd
  | _ => none

/-- The events are those of the storage: every id is marked and comes once, and what was deposited
    is held, unless it was released. -/
structure Booked (b : WethBridge) (deposits : List DepositEvent) (releases : List ReleaseEvent) :
    Prop where
  depositIds : (deposits.map DepositEvent.depositId).Nodup
  releaseIds : (releases.map ReleaseEvent.burnId).Nodup
  deposited : ∀ e ∈ deposits, b.deposits e.depositId = true
  released : ∀ e ∈ releases, b.releases e.burnId = true
  held : (deposits.map DepositEvent.amount).sum ≤
    b.balance + (releases.map ReleaseEvent.amount).sum

section Calls

variable {b b' : WethBridge} {deposits : List DepositEvent} {releases : List ReleaseEvent}
  {sender recipient : Address} {id : Bytes32} {value amount : Nat} {destination : List UInt8}
  {accepts : Bool}

theorem WethBridge.deposit_balance {e : DepositEvent}
    (h : b.deposit sender value id destination = .ok (b', e)) :
    b'.balance = b.balance + value ∧ b'.relayer = b.relayer := by
  obtain ⟨-, h⟩ := rejectIf_bind_eq_ok.mp h
  obtain ⟨-, h⟩ := rejectIf_bind_eq_ok.mp h
  obtain ⟨rfl, -⟩ := Prod.mk.inj (Except.ok.inj h)
  exact ⟨rfl, rfl⟩

theorem WethBridge.release_balance {e : ReleaseEvent}
    (h : b.release sender id recipient amount accepts = .ok (b', e)) :
    sender = b.relayer ∧ b'.balance + amount = b.balance ∧ b'.relayer = b.relayer := by
  obtain ⟨hsender, h⟩ := rejectIf_bind_eq_ok.mp h
  obtain ⟨-, h⟩ := rejectIf_bind_eq_ok.mp h
  obtain ⟨-, h⟩ := rejectIf_bind_eq_ok.mp h
  obtain ⟨hheld, h⟩ := rejectIf_bind_eq_ok.mp h
  obtain ⟨-, h⟩ := rejectIf_bind_eq_ok.mp h
  obtain ⟨rfl, -⟩ := Prod.mk.inj (Except.ok.inj h)
  exact ⟨not_not.mp hsender, Nat.sub_add_cancel (Nat.le_of_not_lt hheld), rfl⟩

theorem Booked.start (b : WethBridge) : Booked b [] [] where
  depositIds := List.nodup_nil
  releaseIds := List.nodup_nil
  deposited _ he := absurd he List.not_mem_nil
  released _ he := absurd he List.not_mem_nil
  held := Nat.zero_le _

/-- **A deposit that is taken.** -/
theorem Booked.deposit (h : Booked b deposits releases) {e : DepositEvent}
    (hd : b.deposit sender value id destination = .ok (b', e)) :
    Booked b' (deposits ++ [e]) releases := by
  obtain ⟨hnew, rfl, hdeposits, hreleases⟩ := WethBridge.deposit_marks hd
  have hbalance := (WethBridge.deposit_balance hd).1
  have hheld := h.held
  refine ⟨nodup_map_append h.depositIds fun e he hid => ?_, h.releaseIds, fun e he => ?_,
    fun e he => ?_, ?_⟩
  · have hmarked := h.deposited e he
    rw [hid, hnew] at hmarked
    cases hmarked
  · rw [hdeposits, Bridge.deposits_markDeposit]
    rcases List.mem_append.mp he with he | he
    · exact Or.inr (h.deposited e he)
    · exact Or.inl (congrArg DepositEvent.depositId (List.mem_singleton.mp he))
  · rw [hreleases]
    exact h.released e he
  · rw [List.map_append, List.sum_append, List.map_singleton, List.sum_singleton, hbalance]
    show _ + value ≤ _
    omega

/-- **A release that is paid.** -/
theorem Booked.release (h : Booked b deposits releases) {e : ReleaseEvent}
    (hr : b.release sender id recipient amount accepts = .ok (b', e)) :
    Booked b' deposits (releases ++ [e]) := by
  obtain ⟨hnew, rfl, hdeposits, hreleases⟩ := WethBridge.release_marks hr
  have hbalance := (WethBridge.release_balance hr).2.1
  have hheld := h.held
  refine ⟨h.depositIds, nodup_map_append h.releaseIds fun e he hid => ?_, fun e he => ?_,
    fun e he => ?_, ?_⟩
  · have hmarked := h.released e he
    rw [hid, hnew] at hmarked
    cases hmarked
  · rw [hdeposits]
    exact h.deposited e he
  · rw [hreleases, Bridge.releases_markRelease]
    rcases List.mem_append.mp he with he | he
    · exact Or.inr (h.released e he)
    · exact Or.inl (congrArg ReleaseEvent.burnId (List.mem_singleton.mp he))
  · rw [List.map_append, List.sum_append, List.map_singleton, List.sum_singleton]
    show _ ≤ b'.balance + (_ + amount)
    omega

/-- **Every call** keeps it, with the events it emits. -/
theorem Booked.next (h : Booked b deposits releases) (c : WethCall) :
    Booked (b.next c) (deposits ++ (b.deposited c).toList)
      (releases ++ (b.released c).toList) := by
  cases c with
  | deposit sender value id destination =>
    show Booked (kept b (b.deposit sender value id destination))
      (deposits ++ ((b.deposit sender value id destination).toOption.map Prod.snd).toList)
      (releases ++ [])
    rw [List.append_nil]
    cases hd : b.deposit sender value id destination with
    | ok r => exact h.deposit hd
    | error e =>
      show Booked b (deposits ++ []) releases
      rw [List.append_nil]
      exact h
  | release sender id recipient amount accepts =>
    show Booked (kept b (b.release sender id recipient amount accepts)) (deposits ++ [])
      (releases ++ ((b.release sender id recipient amount accepts).toOption.map Prod.snd).toList)
    rw [List.append_nil]
    cases hr : b.release sender id recipient amount accepts with
    | ok r => exact h.release hr
    | error e =>
      show Booked b deposits (releases ++ [])
      rw [List.append_nil]
      exact h
  | receive value =>
    show Booked (b.receive value) (deposits ++ []) (releases ++ [])
    rw [List.append_nil, List.append_nil]
    refine ⟨h.depositIds, h.releaseIds, h.deposited, h.released, ?_⟩
    have hheld := h.held
    show _ ≤ b.balance + value + _
    omega

end Calls

end Ethereum

end WorldstreetChain
