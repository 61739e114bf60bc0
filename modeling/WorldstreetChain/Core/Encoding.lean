import WorldstreetChain.Core.Types
import WorldstreetChain.Library.Postcard

/-!
# The wire form of the chain's data

`canonical_encode` and `canonical_decode` are postcard's `to_allocvec` and `from_bytes`; every
record is written as its fields in the order of its declaration. `to_allocvec` fails on none of
these types (each sequence knows its length and nothing is computed while writing), so the
encoder is total here and the source's `map_err` branches around it are dead.
-/

namespace WorldstreetChain

open Postcard

def canonicalEncode {α : Type} [Postcard α] (value : α) : List UInt8 := encode value

def canonicalDecode {α : Type} [Postcard α] (bytes : List UInt8) : Option α := fromBytes bytes

/-! ## 1. Scalars -/

instance : Postcard Hash := through Hash.bytes Hash.mk fun _ => rfl
instance : Postcard PublicKey := through PublicKey.bytes PublicKey.mk fun _ => rfl
instance : Postcard Signature := through Signature.bytes Signature.mk fun _ => rfl
instance : Postcard Address := through Address.bytes Address.mk fun _ => rfl

/-! ## 2. Enumerations -/

instance : Postcard AssetOperationKind :=
  ofVariants (fun | .mint => 0 | .burn => 1) (fun | 0 => some .mint | 1 => some .burn | _ => none)
    (fun a => by cases a <;> decide) (fun a => by cases a <;> rfl)

instance : Postcard MnaSwapKind :=
  ofVariants (fun | .mintMna => 0 | .redeemMna => 1)
    (fun | 0 => some .mintMna | 1 => some .redeemMna | _ => none)
    (fun a => by cases a <;> decide) (fun a => by cases a <;> rfl)

instance : Postcard MnaReserveOperationKind :=
  ofVariants (fun | .verifyDeposit => 0 | .release => 1)
    (fun | 0 => some .verifyDeposit | 1 => some .release | _ => none)
    (fun a => by cases a <;> decide) (fun a => by cases a <;> rfl)

instance : Postcard TokenOperationKind :=
  ofVariants
    (fun
      | .create => 0 | .transfer => 1 | .mint => 2 | .burn => 3 | .setAuthorities => 4
      | .freeze => 5 | .unfreeze => 6 | .pause => 7 | .unpause => 8 | .updateMetadata => 9)
    (fun
      | 0 => some .create | 1 => some .transfer | 2 => some .mint | 3 => some .burn
      | 4 => some .setAuthorities | 5 => some .freeze | 6 => some .unfreeze | 7 => some .pause
      | 8 => some .unpause | 9 => some .updateMetadata | _ => none)
    (fun a => by cases a <;> decide) (fun a => by cases a <;> rfl)

instance : Postcard ProgramOperationKind :=
  ofVariants (fun | .deploy => 0 | .call => 1 | .storageSet => 2 | .close => 3)
    (fun
      | 0 => some .deploy | 1 => some .call | 2 => some .storageSet | 3 => some .close
      | _ => none)
    (fun a => by cases a <;> decide) (fun a => by cases a <;> rfl)

/-! ## 3. Records -/

instance : Postcard AssetId :=
  through (fun a => (a.nameSpace, a.symbol, a.contract, a.decimals))
    (fun (n, s, c, d) => ⟨n, s, c, d⟩) fun _ => rfl

instance : Postcard UnsignedTransaction :=
  through
    (fun t => (t.version, t.chainId, t.nonce, t.fromAddress, t.toAddress, t.amount, t.fee,
      t.publicKey, t.memo))
    (fun (v, c, n, f, t, a, e, k, m) => ⟨v, c, n, f, t, a, e, k, m⟩) fun _ => rfl

instance : Postcard Transaction :=
  through (fun t => (t.unsigned, t.signature)) (fun (u, s) => ⟨u, s⟩) fun _ => rfl

instance : Postcard AssetOperation :=
  through
    (fun o => (o.version, o.operationId, o.kind, o.assetId, o.address, o.destination, o.amount,
      o.externalTransaction, o.memo))
    (fun (v, i, k, a, d, s, n, x, m) => ⟨v, i, k, a, d, s, n, x, m⟩) fun _ => rfl

instance : Postcard UnsignedMnaSwapOperation :=
  through
    (fun o => (o.version, o.chainId, o.nonce, o.fromAddress, o.kind, o.collateralAsset,
      o.amountUsdc, o.amountMna, o.fee, o.publicKey, o.memo))
    (fun (v, c, n, f, k, a, u, m, e, p, s) => ⟨v, c, n, f, k, a, u, m, e, p, s⟩) fun _ => rfl

instance : Postcard MnaSwapOperation :=
  through (fun o => (o.unsigned, o.signature)) (fun (u, s) => ⟨u, s⟩) fun _ => rfl

instance : Postcard MnaReserveOperation :=
  through
    (fun o => (o.version, o.operationId, o.kind, o.collateralAsset, o.address, o.amountUsdc,
      o.amountMna, o.collateralAmount, o.oraclePriceUsdMicroPerSol, o.oracleTimestamp, o.feeMna,
      o.destination, o.externalTransaction, o.memo))
    (fun (v, i, k, c, a, u, m, l, p, t, f, d, x, s) => ⟨v, i, k, c, a, u, m, l, p, t, f, d, x, s⟩)
    fun _ => rfl

instance : Postcard MnaReserveLedger :=
  through
    (fun l => (l.totalVerifiedDepositsUsdc, l.totalReleasedUsdc, l.reserveBackedMnaMinted,
      l.totalRedeemedMna, l.totalVerifiedSolLamports, l.totalReleasedSolLamports,
      l.totalVerifiedSolUsd, l.totalReleasedSolUsd, l.paused))
    (fun (d, r, b, m, vl, rl, vu, ru, p) => ⟨d, r, b, m, vl, rl, vu, ru, p⟩) fun _ => rfl

instance : Postcard UnsignedTokenOperation :=
  through
    (fun o => (o.version, o.chainId, o.nonce, o.fromAddress, o.kind, o.tokenId, o.toAddress,
      o.amount, o.fee, o.publicKey, o.name, o.symbol, o.decimals, o.maxSupply, o.mintAuthority,
      o.burnAuthority, o.freezeAuthority, o.metadataUri, o.metadataHash, o.memo))
    (fun (v, c, n, f, k, i, t, a, e, p, nm, sy, d, mx, ma, ba, fa, mu, mh, me) =>
      ⟨v, c, n, f, k, i, t, a, e, p, nm, sy, d, mx, ma, ba, fa, mu, mh, me⟩) fun _ => rfl

instance : Postcard TokenOperation :=
  through (fun o => (o.unsigned, o.signature)) (fun (u, s) => ⟨u, s⟩) fun _ => rfl

instance : Postcard TokenDefinition :=
  through
    (fun d => (d.tokenId, d.creator, d.name, d.symbol, d.decimals, d.totalSupply, d.maxSupply,
      d.mintAuthority, d.burnAuthority, d.freezeAuthority, d.metadataUri, d.metadataHash,
      d.paused))
    (fun (i, c, n, s, d, t, m, ma, ba, fa, u, h, p) => ⟨i, c, n, s, d, t, m, ma, ba, fa, u, h, p⟩)
    fun _ => rfl

instance : Postcard ProgramOperation :=
  through
    (fun o => (o.version, o.chainId, o.kind, o.nonce, o.fee, o.programId, o.package, o.gasLimit,
      o.key, o.value, o.publicKey, o.signature))
    (fun (v, c, k, n, f, i, p, g, ky, vl, pk, s) => ⟨v, c, k, n, f, i, p, g, ky, vl, pk, s⟩)
    fun _ => rfl

instance : Postcard ProgramRecord :=
  through (fun r => (r.package, r.creator, r.deployedAtHeight, r.storage))
    (fun (p, c, h, s) => ⟨p, c, h, s⟩) fun _ => rfl

instance : Postcard ProgramReceiptRecord :=
  through
    (fun r => (r.operationId, r.programId, r.kind, r.status, r.returnData, r.gasUsed, r.gasLimit,
      r.feePaid, r.error))
    (fun (i, p, k, s, d, u, l, f, e) => ⟨i, p, k, s, d, u, l, f, e⟩) fun _ => rfl

instance : Postcard BlockHeader :=
  through
    (fun h => (h.version, h.chainId, h.height, h.parentHash, h.timestamp, h.transactionRoot,
      h.stateRoot, h.proposer, h.proposerSignature))
    (fun (v, c, h, p, t, x, s, k, g) => ⟨v, c, h, p, t, x, s, k, g⟩) fun _ => rfl

instance : Postcard Block :=
  through
    (fun b => (b.header, b.transactions, b.assetOperations, b.tokenOperations,
      b.mnaSwapOperations, b.mnaReserveOperations, b.programOperations))
    (fun (h, t, a, k, s, r, p) => ⟨h, t, a, k, s, r, p⟩) fun _ => rfl

/-! ## 4. Signing bytes -/

def UnsignedTransaction.signingBytes (u : UnsignedTransaction) : List UInt8 := canonicalEncode u

def Transaction.signingBytes (t : Transaction) : List UInt8 := t.unsigned.signingBytes

def UnsignedMnaSwapOperation.signingBytes (u : UnsignedMnaSwapOperation) : List UInt8 :=
  canonicalEncode u

def MnaSwapOperation.signingBytes (o : MnaSwapOperation) : List UInt8 := o.unsigned.signingBytes

def UnsignedTokenOperation.signingBytes (u : UnsignedTokenOperation) : List UInt8 :=
  canonicalEncode u

def TokenOperation.signingBytes (o : TokenOperation) : List UInt8 := o.unsigned.signingBytes

/-- A header is signed with the signature field empty. -/
def BlockHeader.signingBytes (h : BlockHeader) : List UInt8 :=
  canonicalEncode { h with proposerSignature := none }

theorem canonicalDecode_canonicalEncode {α : Type} [Postcard α] (a : α) :
    canonicalDecode (canonicalEncode a) = some a :=
  fromBytes_encode a

theorem canonicalEncode_inj {α : Type} [Postcard α] {a b : α} :
    canonicalEncode a = canonicalEncode b ↔ a = b :=
  encode_inj_iff

end WorldstreetChain
