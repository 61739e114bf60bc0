import WorldstreetChain.Core.Crypto

/-!
# What a signature signs (`signing_bytes`)

The signing bytes of a transaction, a token operation and a swap carry no tag of their type. All
three begin with version, chain id, nonce and sender; from there on the fields of one type lie
over the fields of another.

* `UnsignedTransaction.OverToken`, `UnsignedTransaction.OverSwap`, `UnsignedTokenOperation.OverSwap`
  -- which values of two types lie over each other.
* `signingBytes_disjoint_iff` -- **signing bytes of different types differ** exactly for values
  that do not.
* `leading_never_separates` -- the leading fields do not help: for each choice of them there are
  values of every two types with one encoding.
-/

namespace WorldstreetChain

open Postcard

/-- Version, chain id, nonce and sender. -/
abbrev Leading := UInt8 × String × Nonce × Address

/-! ## 1. The fields behind the sender -/

namespace UnsignedTransaction

def leading (t : UnsignedTransaction) : Leading := (t.version, t.chainId, t.nonce, t.fromAddress)

/-- The fields behind the destination. -/
def tail (t : UnsignedTransaction) : List UInt8 :=
  encode (t.amount, t.fee, t.publicKey, t.memo)

theorem signingBytes_eq (t : UnsignedTransaction) :
    t.signingBytes = encode t.leading ++ (t.toAddress.bytes.toList ++ t.tail) := by
  simp only [signingBytes, canonicalEncode, leading, tail, encode_pair, List.append_assoc]
  rfl

end UnsignedTransaction

namespace UnsignedTokenOperation

def leading (o : UnsignedTokenOperation) : Leading := (o.version, o.chainId, o.nonce, o.fromAddress)

/-- The fields behind the token id. -/
def tail (o : UnsignedTokenOperation) : List UInt8 :=
  encode (o.toAddress, o.amount, o.fee, o.publicKey, o.name, o.symbol, o.decimals, o.maxSupply,
    o.mintAuthority, o.burnAuthority, o.freezeAuthority, o.metadataUri, o.metadataHash, o.memo)

theorem signingBytes_eq (o : UnsignedTokenOperation) :
    o.signingBytes = encode o.leading ++ (encode o.kind ++ (o.tokenId.bytes.toList ++ o.tail)) := by
  simp only [signingBytes, canonicalEncode, leading, tail, encode_pair, List.append_assoc]
  rfl

end UnsignedTokenOperation

namespace UnsignedMnaSwapOperation

def leading (w : UnsignedMnaSwapOperation) : Leading :=
  (w.version, w.chainId, w.nonce, w.fromAddress)

/-- The fields behind the kind. -/
def tail (w : UnsignedMnaSwapOperation) : List UInt8 :=
  encode (w.collateralAsset, w.amountUsdc, w.amountMna, w.fee, w.publicKey, w.memo)

theorem signingBytes_eq (w : UnsignedMnaSwapOperation) :
    w.signingBytes = encode w.leading ++ (encode w.kind ++ w.tail) := by
  simp only [signingBytes, canonicalEncode, leading, tail, encode_pair, List.append_assoc]
  rfl

end UnsignedMnaSwapOperation

/-! ## 2. Values that lie over each other -/

/-- The destination holds the kind and twenty bytes of the token id, and what follows in the one
    value follows in the other. -/
structure UnsignedTransaction.OverToken (t : UnsignedTransaction) (o : UnsignedTokenOperation) :
    Prop where
  leading : t.leading = o.leading
  destination : t.toAddress.bytes.toList = encode o.kind ++ o.tokenId.bytes.toList.take 20
  tail : t.tail = o.tokenId.bytes.toList.drop 20 ++ o.tail

/-- The destination begins with the kind, and goes on like the collateral asset. -/
structure UnsignedTransaction.OverSwap (t : UnsignedTransaction) (w : UnsignedMnaSwapOperation) :
    Prop where
  leading : t.leading = w.leading
  kind : t.toAddress.bytes.toList.take 1 = encode w.kind
  tail : t.toAddress.bytes.toList.drop 1 ++ t.tail = w.tail

/-- The kinds have one number, and the token id begins the collateral asset. -/
structure UnsignedTokenOperation.OverSwap (o : UnsignedTokenOperation)
    (w : UnsignedMnaSwapOperation) : Prop where
  leading : o.leading = w.leading
  kind : (o.kind = .create ∧ w.kind = .mintMna) ∨ (o.kind = .transfer ∧ w.kind = .redeemMna)
  tail : o.tokenId.bytes.toList ++ o.tail = w.tail

variable {t : UnsignedTransaction} {o : UnsignedTokenOperation} {w : UnsignedMnaSwapOperation}

theorem length_encode_tokenKind (kind : TokenOperationKind) : (encode kind).length = 1 := by
  cases kind <;> rfl

theorem length_encode_swapKind (kind : MnaSwapKind) : (encode kind).length = 1 := by
  cases kind <;> rfl

theorem encode_tokenKind_eq_swapKind {kind : TokenOperationKind} {swapKind : MnaSwapKind} :
    encode kind = encode swapKind ↔
      (kind = .create ∧ swapKind = .mintMna) ∨ (kind = .transfer ∧ swapKind = .redeemMna) := by
  cases kind <;> cases swapKind <;> decide

theorem encode_append_iff {α : Type} [Postcard α] {a b : α} {r s : List UInt8} :
    encode a ++ r = encode b ++ s ↔ a = b ∧ r = s :=
  ⟨encode_append_inj, fun h => by rw [h.1, h.2]⟩

/-- Two byte strings that can be cut at the same place. -/
theorem append_eq_iff {a b r s : List UInt8} (h : a.length = b.length) :
    a ++ r = b ++ s ↔ a = b ∧ r = s :=
  ⟨fun he => List.append_inj he h, fun h => by rw [h.1, h.2]⟩

theorem signingBytes_eq_token_iff : t.signingBytes = o.signingBytes ↔ t.OverToken o := by
  have hid : o.tokenId.bytes.toList ++ o.tail = o.tokenId.bytes.toList.take 20 ++
      (o.tokenId.bytes.toList.drop 20 ++ o.tail) := by
    rw [← List.append_assoc, List.take_append_drop]
  have hlen : t.toAddress.bytes.toList.length =
      (encode o.kind ++ o.tokenId.bytes.toList.take 20).length := by
    simp only [Vector.length_toList, List.length_append, List.length_take, length_encode_tokenKind]
    decide
  rw [t.signingBytes_eq, o.signingBytes_eq, encode_append_iff, hid, ← List.append_assoc,
    append_eq_iff hlen]
  exact ⟨fun h => ⟨h.1, h.2.1, h.2.2⟩, fun h => ⟨h.leading, h.destination, h.tail⟩⟩

theorem signingBytes_eq_swap_iff : t.signingBytes = w.signingBytes ↔ t.OverSwap w := by
  have hto : t.toAddress.bytes.toList ++ t.tail = t.toAddress.bytes.toList.take 1 ++
      (t.toAddress.bytes.toList.drop 1 ++ t.tail) := by
    rw [← List.append_assoc, List.take_append_drop]
  have hlen : (t.toAddress.bytes.toList.take 1).length = (encode w.kind).length := by
    simp only [Vector.length_toList, List.length_take, length_encode_swapKind]
    decide
  rw [t.signingBytes_eq, w.signingBytes_eq, encode_append_iff, hto, append_eq_iff hlen]
  exact ⟨fun h => ⟨h.1, h.2.1, h.2.2⟩, fun h => ⟨h.leading, h.kind, h.tail⟩⟩

theorem token_signingBytes_eq_swap_iff : o.signingBytes = w.signingBytes ↔ o.OverSwap w := by
  have hlen : (encode o.kind).length = (encode w.kind).length := by
    rw [length_encode_tokenKind, length_encode_swapKind]
  rw [o.signingBytes_eq, w.signingBytes_eq, encode_append_iff, append_eq_iff hlen,
    encode_tokenKind_eq_swapKind]
  exact ⟨fun h => ⟨h.1, h.2.1, h.2.2⟩, fun h => ⟨h.leading, h.kind, h.tail⟩⟩

/-- **Signing bytes of different types differ** exactly for values that do not lie over each
    other. -/
theorem signingBytes_disjoint_iff (t : UnsignedTransaction) (o : UnsignedTokenOperation)
    (w : UnsignedMnaSwapOperation) :
    (t.signingBytes ≠ o.signingBytes ∧ t.signingBytes ≠ w.signingBytes ∧
        o.signingBytes ≠ w.signingBytes) ↔
      ¬ t.OverToken o ∧ ¬ t.OverSwap w ∧ ¬ o.OverSwap w := by
  simp only [ne_eq, signingBytes_eq_token_iff, signingBytes_eq_swap_iff,
    token_signingBytes_eq_swap_iff]

/-! ## 3. One encoding for two types -/

namespace Sample

/-- A transfer of nothing. -/
def bareTransaction (l : Leading) (key : Vector UInt8 32) (memo : String) :
    UnsignedTransaction where
  version := l.1
  chainId := l.2.1
  nonce := l.2.2.1
  fromAddress := l.2.2.2
  toAddress := ⟨Vector.replicate 21 0⟩
  amount := 0
  fee := 0
  publicKey := ⟨key⟩
  memo := memo

/-- A token without name. -/
def bareToken (l : Leading) (key : Vector UInt8 32) : UnsignedTokenOperation where
  version := l.1
  chainId := l.2.1
  nonce := l.2.2.1
  fromAddress := l.2.2.2
  kind := .create
  tokenId := Hash.zero
  toAddress := none
  amount := 0
  fee := 0
  publicKey := ⟨key⟩
  name := ""
  symbol := ""
  decimals := 0
  maxSupply := none
  mintAuthority := none
  burnAuthority := none
  freezeAuthority := none
  metadataUri := ""
  metadataHash := Hash.zero
  memo := ""

/-- A swap of nothing. -/
def bareSwap (l : Leading) (memo : String) : UnsignedMnaSwapOperation where
  version := l.1
  chainId := l.2.1
  nonce := l.2.2.1
  fromAddress := l.2.2.2
  kind := .mintMna
  collateralAsset := ⟨"", "", none, 0⟩
  amountUsdc := 0
  amountMna := 0
  fee := 0
  publicKey := ⟨Vector.replicate 32 0⟩
  memo := memo

/-- All bytes zero but one. -/
def keyWith (i : Fin 32) (b : UInt8) : Vector UInt8 32 := (Vector.replicate 32 0).set i b

def nuls (k : Nat) : String := String.ofList (List.replicate k '\x00')

def leading : Leading := (1, "worldstreet-devnet-1", 0, ⟨Vector.replicate 21 1⟩)

end Sample

open Sample

theorem bareTransaction_overToken (l : Leading) :
    (bareTransaction l (keyWith 0 0) (nuls 53)).OverToken (bareToken l (keyWith 19 53)) := by
  have hdestination : (bareTransaction leading (keyWith 0 0) (nuls 53)).toAddress.bytes.toList =
      encode (bareToken leading (keyWith 19 53)).kind ++
        (bareToken leading (keyWith 19 53)).tokenId.bytes.toList.take 20 := by decide +kernel
  have htail : (bareTransaction leading (keyWith 0 0) (nuls 53)).tail =
      (bareToken leading (keyWith 19 53)).tokenId.bytes.toList.drop 20 ++
        (bareToken leading (keyWith 19 53)).tail := by decide +kernel
  exact ⟨rfl, hdestination, htail⟩

theorem bareTransaction_overSwap (l : Leading) :
    (bareTransaction l (keyWith 17 15) "").OverSwap (bareSwap l (nuls 15)) := by
  have hkind : (bareTransaction leading (keyWith 17 15) "").toAddress.bytes.toList.take 1 =
      encode (bareSwap leading (nuls 15)).kind := by decide +kernel
  have htail : (bareTransaction leading (keyWith 17 15) "").toAddress.bytes.toList.drop 1 ++
      (bareTransaction leading (keyWith 17 15) "").tail = (bareSwap leading (nuls 15)).tail := by
    decide +kernel
  exact ⟨rfl, hkind, htail⟩

theorem bareToken_overSwap (l : Leading) :
    (bareToken l (keyWith 4 68)).OverSwap (bareSwap l (nuls 68)) := by
  have htail : (bareToken leading (keyWith 4 68)).tokenId.bytes.toList ++
      (bareToken leading (keyWith 4 68)).tail = (bareSwap leading (nuls 68)).tail := by
    decide +kernel
  exact ⟨rfl, Or.inl ⟨rfl, rfl⟩, htail⟩

/-- **The leading fields separate nothing**: whatever they are, values of every two types have one
    encoding. -/
theorem leading_never_separates (l : Leading) :
    (∃ t o, t.leading = l ∧ UnsignedTransaction.signingBytes t =
      UnsignedTokenOperation.signingBytes o) ∧
    (∃ t w, t.leading = l ∧ UnsignedTransaction.signingBytes t =
      UnsignedMnaSwapOperation.signingBytes w) ∧
    ∃ o w, o.leading = l ∧ UnsignedTokenOperation.signingBytes o =
      UnsignedMnaSwapOperation.signingBytes w :=
  ⟨⟨_, _, rfl, signingBytes_eq_token_iff.mpr (bareTransaction_overToken l)⟩,
    ⟨_, _, rfl, signingBytes_eq_swap_iff.mpr (bareTransaction_overSwap l)⟩,
    ⟨_, _, rfl, token_signingBytes_eq_swap_iff.mpr (bareToken_overSwap l)⟩⟩

/-- The signature of a transaction is one of a token operation, another one's of a swap, and a
    token operation's of a swap. -/
theorem signatures_transfer :
    (bareTransaction leading (keyWith 0 0) (nuls 53)).signingBytes =
        (bareToken leading (keyWith 19 53)).signingBytes ∧
      (bareTransaction leading (keyWith 17 15) "").signingBytes =
        (bareSwap leading (nuls 15)).signingBytes ∧
      (bareToken leading (keyWith 4 68)).signingBytes =
        (bareSwap leading (nuls 68)).signingBytes ∧
      Crypto.standIn.verify (Crypto.standIn.publicKey Crypto.devnetFaucet)
        (bareToken leading (keyWith 19 53)).signingBytes
        (Crypto.standIn.sign Crypto.devnetFaucet
          (bareTransaction leading (keyWith 0 0) (nuls 53)).signingBytes) = true := by
  decide +kernel

end WorldstreetChain
