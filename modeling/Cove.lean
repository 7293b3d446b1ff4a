import Cove.App.AuditLog
import Cove.App.Build
import Cove.App.Funding
import Cove.App.Launch
import Cove.App.Pending
import Cove.App.PendingTip
import Cove.App.Quote
import Cove.App.QuoteLimits
import Cove.App.Remote
import Cove.App.Selection
import Cove.App.Sessions
import Cove.App.Sizes
import Cove.App.Transfer
import Cove.Bitcoin.Digest
import Cove.Bitcoin.Transaction
import Cove.Bitcoin.VirtualSize
import Cove.Bitcoin.Witness
import Cove.Covenant.Lots
import Cove.Covenant.State
import Cove.Covenant.StateCodec
import Cove.Covenant.StateV1
import Cove.Covenant.Transition
import Cove.Economics.Backing
import Cove.Economics.Curve
import Cove.Economics.Curves
import Cove.Economics.ExactQuote
import Cove.Economics.Fee
import Cove.Economics.Lots
import Cove.Economics.Spend
import Cove.Economics.Split
import Cove.Economics.Staircase
import Cove.Guardian.Accept
import Cove.Guardian.Admission
import Cove.Guardian.Agreement
import Cove.Guardian.Analyze
import Cove.Guardian.Audit
import Cove.Guardian.Balance
import Cove.Guardian.Builder
import Cove.Guardian.Built
import Cove.Guardian.BuiltAccept
import Cove.Guardian.BuiltV1
import Cove.Guardian.Deploy
import Cove.Guardian.Digest
import Cove.Guardian.DiscoveryBuilt
import Cove.Guardian.FinalAccept
import Cove.Guardian.Finalize
import Cove.Guardian.GuardianApi
import Cove.Guardian.Journal
import Cove.Guardian.Laid
import Cove.Guardian.MintV1
import Cove.Guardian.Psbt
import Cove.Guardian.RemoteSigner
import Cove.Guardian.RiskPolicy
import Cove.Guardian.Service
import Cove.Guardian.SignedSize
import Cove.Guardian.Signer
import Cove.Guardian.Validate
import Cove.Indexer.Accept
import Cove.Indexer.Admit
import Cove.Indexer.Backing
import Cove.Indexer.Chain
import Cove.Indexer.Classify
import Cove.Indexer.Hydrate
import Cove.Indexer.Invariant
import Cove.Indexer.Isolation
import Cove.Indexer.LedgerRun
import Cove.Indexer.LiveSet
import Cove.Indexer.MemoryReorg
import Cove.Indexer.Mirror
import Cove.Indexer.Monitors
import Cove.Indexer.Persistent
import Cove.Indexer.Poison
import Cove.Indexer.Projection
import Cove.Indexer.ReadModels
import Cove.Indexer.Reindex
import Cove.Indexer.Reorg
import Cove.Indexer.Root
import Cove.Indexer.Snapshot
import Cove.Indexer.State
import Cove.Indexer.Step
import Cove.Indexer.Store
import Cove.Indexer.Supply
import Cove.Indexer.Types
import Cove.Indexer.UndoInverse
import Cove.Indexer.UndoJson
import Cove.Indexer.Verify
import Cove.Indexer.Worker
import Cove.Lib.Bisect
import Cove.Lib.Blind
import Cove.Lib.Bytes
import Cove.Lib.Checked
import Cove.Lib.Delimited
import Cove.Lib.Dict
import Cove.Lib.Greedy
import Cove.Lib.HashChain
import Cove.Lib.Hoare
import Cove.Lib.Json
import Cove.Lib.JsonRoundTrip
import Cove.Lib.Loop
import Cove.Lib.Machine
import Cove.Lib.Metered
import Cove.Lib.PairTree
import Cove.Lib.Reader
import Cove.Lib.Sections
import Cove.Lib.Separated
import Cove.Lib.Sha256
import Cove.Lib.Table
import Cove.Lib.Tally
import Cove.Lib.Tapscript
import Cove.Lib.Totals
import Cove.Lib.Upserts
import Cove.Mainnet.HexText
import Cove.Mainnet.Profile
import Cove.Mainnet.ProfileBytes
import Cove.Market.Cancel
import Cove.Market.FillValue
import Cove.Market.Fills
import Cove.Market.Finalize
import Cove.Market.Idempotent
import Cove.Market.Order
import Cove.Market.Passes
import Cove.Market.Reconcile
import Cove.Market.Reflect
import Cove.Market.Routes
import Cove.Market.Service
import Cove.Market.Signing
import Cove.Market.Tasks
import Cove.Market.Types
import Cove.Market.Unique
import Cove.Market.Writes
import Cove.Protocol.Envelope
import Cove.Protocol.Indexer
import Cove.Protocol.Ledger
import Cove.Protocol.StateRoot
import Cove.Protocol.Store
import Cove.Protocol.Validator
import Cove.Protocol.Worker
import Cove.Simplicity.Policies
import Cove.Vault.BackingVault
import Cove.Vault.Depth
import Cove.Vault.MerklePaths
import Cove.Vault.Recovery
import Cove.Vault.Taproot
import Cove.Wallet.Envelope
import Cove.Wallet.Honest
import Cove.Wallet.Intent
import Cove.Wallet.Loss
import Cove.Wire.Codec
import Cove.Wire.Discovery
import Cove.Wire.Envelope
import Cove.Wire.RoundTrip
import Cove.Wire.TokenId
import Cove.Wire.TokenIdentity
