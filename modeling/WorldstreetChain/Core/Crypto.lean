import WorldstreetChain.Core.Encoding

/-!
# Hashes, keys and identifiers (`wsc-crypto`)

SHA-256, Ed25519 and Bech32m come from other crates. They are the fields of `Crypto`, arbitrary
functions of the right shape; what a result relies on (that a signature made with a key verifies
under it, that no two of some inputs collide) is a named hypothesis of that result. Everything
built on them here is the source's: the domain prefixes, the addresses, the operation ids and the
Merkle root.
-/

namespace WorldstreetChain

open Postcard (utf8)

/-- The primitives of the crates `sha2`, `ed25519-dalek` and `bech32`. -/
structure Crypto where
  sha256 : List UInt8 → Vector UInt8 32
  /-- The verifying key of a signing key. -/
  verifyingKey : Vector UInt8 32 → Vector UInt8 32
  ed25519Sign : Vector UInt8 32 → List UInt8 → Vector UInt8 64
  /-- The key decodes and the signature verifies under it. -/
  ed25519Verify : Vector UInt8 32 → List UInt8 → Vector UInt8 64 → Bool
  bech32m : Vector UInt8 21 → String

/-- A secret signing key. -/
structure KeyPair where
  signingKey : Vector UInt8 32
  deriving DecidableEq

namespace Crypto

variable (C : Crypto)

/-- A signature made with a key verifies under its public key (Ed25519's correctness). -/
def SignVerifies : Prop :=
  ∀ sk message, C.ed25519Verify (C.verifyingKey sk) message (C.ed25519Sign sk message) = true

/-! ## 1. Keys and addresses -/

def devnetFaucet : KeyPair := ⟨Vector.replicate 32 0xf0⟩

def publicKey (k : KeyPair) : PublicKey := ⟨C.verifyingKey k.signingKey⟩

def sign (k : KeyPair) (message : List UInt8) : Signature := ⟨C.ed25519Sign k.signingKey message⟩

def verify (key : PublicKey) (message : List UInt8) (signature : Signature) : Bool :=
  C.ed25519Verify key.bytes message signature.bytes

theorem verify_sign (h : C.SignVerifies) (k : KeyPair) (message : List UInt8) :
    C.verify (C.publicKey k) message (C.sign k message) = true :=
  h k.signingKey message

def sha256Domain (domain : String) (bytes : List UInt8) : Hash :=
  ⟨C.sha256 (utf8 domain ++ bytes)⟩

/-- `Address::from_hash`: the version byte and twenty bytes of a digest. -/
def addressFromHash (digest : Vector UInt8 32) : Address :=
  ⟨⟨(1 :: digest.toList.take 20).toArray, by simp⟩⟩

def addressFromPublicKey (key : PublicKey) : Address :=
  addressFromHash (C.sha256 (utf8 "MNA/address/v1" ++ key.bytes.toList))

/-- `Display` of an address. -/
def displayAddress (a : Address) : String := C.bech32m a.bytes

/-! ## 2. Identifiers -/

def transactionId (t : Transaction) : Hash := C.sha256Domain "MNA/tx/v1" t.signingBytes

def tokenOperationId (o : TokenOperation) : Hash :=
  C.sha256Domain "MNA/token-operation/v1" o.signingBytes

def tokenIdFromOperation (operationId : Hash) : Hash :=
  C.sha256Domain "MNA/token-id/v1" operationId.bytes.toList

def mnaSwapOperationId (o : MnaSwapOperation) : Hash :=
  C.sha256Domain "MNA/mna-swap/v1" o.signingBytes

/-- The id hashes the whole operation, its own `operationId` field included. -/
def mnaReserveOperationId (o : MnaReserveOperation) : Hash :=
  C.sha256Domain "MNA/mna-reserve/v1" (canonicalEncode o)

/-- The id hashes the whole operation, its signature included. -/
def programOperationId (o : ProgramOperation) : Hash :=
  C.sha256Domain "MNA/program-operation/v1" (canonicalEncode o)

def blockHeaderId (h : BlockHeader) : Hash := C.sha256Domain "MNA/block/v1" (canonicalEncode h)

/-! ## 3. The Merkle root -/

/-- One layer up: neighbours are hashed together, an odd last leaf with itself. -/
def merkleLayer : List Hash → List Hash
  | [] => []
  | [a] => [C.sha256Domain "MNA/merkle/v1" (a.bytes.toList ++ a.bytes.toList)]
  | a :: b :: rest =>
    C.sha256Domain "MNA/merkle/v1" (a.bytes.toList ++ b.bytes.toList) :: merkleLayer rest

/-- Layers are built until one hash is left; a layer of `n` leaves needs fewer than `n` rounds. -/
def merkleLoop : Nat → List Hash → Hash
  | _, [h] => h
  | fuel + 1, layer => merkleLoop fuel (merkleLayer C layer)
  | 0, layer => layer.headD Hash.zero

def merkleRoot (leaves : List Hash) : Hash :=
  if leaves.isEmpty then C.sha256Domain "MNA/tx-root/v1" []
  else merkleLoop C leaves.length leaves

/-- Two transactions with one id have one unsigned content, unless SHA-256 collides on them. -/
def SeparatesTransactions (txs : List Transaction) : Prop :=
  ∀ t ∈ txs, ∀ t' ∈ txs, C.transactionId t = C.transactionId t' → t.unsigned = t'.unsigned

/-- Two headers with one id are one header, unless SHA-256 collides on them. -/
def SeparatesHeaders (headers : List BlockHeader) : Prop :=
  ∀ h ∈ headers, ∀ h' ∈ headers, C.blockHeaderId h = C.blockHeaderId h' → h = h'

/-! ## 4. A computable stand-in

For concrete runs: digests are polynomial checksums of all the bytes and signatures are checksums
keyed by the key, so that a signature verifies exactly under its key and on its message and the
inputs of the runs have different digests. -/

/-- The first `k` bytes of a number, the least first. -/
def leBytes (n k : Nat) : Vector UInt8 k :=
  ⟨((List.range k).map fun i => (n / 256 ^ i).toUInt8).toArray, by simp⟩

def checksum (start modulus : Nat) (bytes : List UInt8) : Nat :=
  bytes.foldl (fun h b => (h * 257 + b.toNat + 1) % modulus) start

def standIn : Crypto where
  sha256 bytes := leBytes (checksum 1 (2 ^ 256) bytes) 32
  verifyingKey sk := sk
  ed25519Sign sk message :=
    leBytes (checksum (checksum 1 (2 ^ 512) sk.toList) (2 ^ 512) message) 64
  ed25519Verify key message signature :=
    signature.toList ==
      (leBytes (checksum (checksum 1 (2 ^ 512) key.toList) (2 ^ 512) message) 64).toList
  bech32m bytes := hexString bytes.toList

theorem standIn_signVerifies : standIn.SignVerifies := fun _ _ => beq_self_eq_true _

end Crypto

end WorldstreetChain
