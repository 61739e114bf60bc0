import WorldstreetChain.Chain.Consensus
import WorldstreetChain.Chain.Damage
import WorldstreetChain.Chain.Formats
import WorldstreetChain.Chain.Store
import WorldstreetChain.Core.Crypto
import WorldstreetChain.Core.Encoding
import WorldstreetChain.Core.MerkleRoot
import WorldstreetChain.Core.SigningBytes
import WorldstreetChain.Core.Types
import WorldstreetChain.Ethereum.Abi
import WorldstreetChain.Ethereum.Bridge
import WorldstreetChain.Ethereum.Escrow
import WorldstreetChain.Library.BTree
import WorldstreetChain.Library.Exact
import WorldstreetChain.Library.Fallible
import WorldstreetChain.Library.Keyed
import WorldstreetChain.Library.Matching
import WorldstreetChain.Library.Merkle
import WorldstreetChain.Library.Pattern
import WorldstreetChain.Library.Postcard
import WorldstreetChain.Library.Quorum
import WorldstreetChain.Library.Rounding
import WorldstreetChain.Library.Runs
import WorldstreetChain.Library.Split
import WorldstreetChain.Library.Text
import WorldstreetChain.Library.Unsigned
import WorldstreetChain.Library.Utf16
import WorldstreetChain.Network.Agreement
import WorldstreetChain.Network.Basic
import WorldstreetChain.Network.Finality
import WorldstreetChain.Network.Frame
import WorldstreetChain.Network.Honest
import WorldstreetChain.Network.Session
import WorldstreetChain.Network.Streams
import WorldstreetChain.Network.Sync
import WorldstreetChain.Network.Votes
import WorldstreetChain.Node.Assets
import WorldstreetChain.Node.Backed
import WorldstreetChain.Node.Basic
import WorldstreetChain.Node.Calls
import WorldstreetChain.Node.Crash
import WorldstreetChain.Node.Execution
import WorldstreetChain.Node.Forks
import WorldstreetChain.Node.Inclusion
import WorldstreetChain.Node.Integrity
import WorldstreetChain.Node.Mempool
import WorldstreetChain.Node.Nonces
import WorldstreetChain.Node.Production
import WorldstreetChain.Node.Proposers
import WorldstreetChain.Node.Queues
import WorldstreetChain.Node.Replay
import WorldstreetChain.Node.Replica
import WorldstreetChain.Node.Restart
import WorldstreetChain.Node.Run
import WorldstreetChain.Node.Served
import WorldstreetChain.Node.Waiting
import WorldstreetChain.Program.Compile
import WorldstreetChain.Program.Format
import WorldstreetChain.Program.Package
import WorldstreetChain.Relayer.Burns
import WorldstreetChain.Relayer.Contracts
import WorldstreetChain.Relayer.Conversion
import WorldstreetChain.Relayer.Deposits
import WorldstreetChain.Relayer.Escrow
import WorldstreetChain.Relayer.Iteration
import WorldstreetChain.Relayer.Payout
import WorldstreetChain.Relayer.Process
import WorldstreetChain.Relayer.Releases
import WorldstreetChain.Relayer.Solana
import WorldstreetChain.Relayer.Submitted
import WorldstreetChain.Relayer.System
import WorldstreetChain.Relayer.Vault
import WorldstreetChain.Rpc.Bridge
import WorldstreetChain.Rpc.Login
import WorldstreetChain.Rpc.LoginBinding
import WorldstreetChain.Rpc.Quote
import WorldstreetChain.Rpc.Reconciliation
import WorldstreetChain.Rpc.Reserve
import WorldstreetChain.Rpc.Status
import WorldstreetChain.Rpc.Swap
import WorldstreetChain.Rpc.Token
import WorldstreetChain.Rpc.Transaction
import WorldstreetChain.Sdk.Bytes
import WorldstreetChain.Sdk.Deposit
import WorldstreetChain.Sdk.Evm
import WorldstreetChain.Sdk.Swap
import WorldstreetChain.Sdk.Transfer
import WorldstreetChain.Solana.Lock
import WorldstreetChain.Solana.Program
import WorldstreetChain.Solana.Reading
import WorldstreetChain.Solana.Release
import WorldstreetChain.Solana.Safety
import WorldstreetChain.State.Asset
import WorldstreetChain.State.Basic
import WorldstreetChain.State.Buckets
import WorldstreetChain.State.Collateral
import WorldstreetChain.State.Conservation
import WorldstreetChain.State.Failure
import WorldstreetChain.State.Lanes
import WorldstreetChain.State.Nonce
import WorldstreetChain.State.Operation
import WorldstreetChain.State.Overflow
import WorldstreetChain.State.Processed
import WorldstreetChain.State.Program
import WorldstreetChain.State.ProgramBinding
import WorldstreetChain.State.ProgramFee
import WorldstreetChain.State.ProgramLife
import WorldstreetChain.State.Records
import WorldstreetChain.State.Registry
import WorldstreetChain.State.Reserve
import WorldstreetChain.State.Root
import WorldstreetChain.State.TestSupply
import WorldstreetChain.State.Token
import WorldstreetChain.State.TokenAuthority
import WorldstreetChain.State.TokenLookup
import WorldstreetChain.State.TokenOrigin
import WorldstreetChain.State.TokenSupply
import WorldstreetChain.State.Transaction
