import VerdantBond.Audit.Entities
import VerdantBond.Audit.Service
import VerdantBond.Audit.Tampering
import VerdantBond.Backfill.Resume
import VerdantBond.Backfill.Rollback
import VerdantBond.Backfill.Runner
import VerdantBond.Cache.Bounded
import VerdantBond.Coupon.AccountLaws
import VerdantBond.Coupon.Accounts
import VerdantBond.Coupon.Batches
import VerdantBond.Coupon.Covenants
import VerdantBond.Coupon.Distribution
import VerdantBond.Coupon.EntryPoints
import VerdantBond.Coupon.Equivalence
import VerdantBond.Coupon.Hysteresis
import VerdantBond.Coupon.Outcomes
import VerdantBond.Coupon.Payments
import VerdantBond.Coupon.Pinned
import VerdantBond.Coupon.Pools
import VerdantBond.Coupon.State
import VerdantBond.Coupon.Steps
import VerdantBond.Coupon.Waterfall
import VerdantBond.Dedup.Candidates
import VerdantBond.Dedup.Forest
import VerdantBond.Dedup.KycAdapter
import VerdantBond.Dedup.Levenshtein
import VerdantBond.Dedup.Reversals
import VerdantBond.Dedup.Sequential
import VerdantBond.Dedup.Service
import VerdantBond.Dex.Calls
import VerdantBond.Dex.Coverage
import VerdantBond.Dex.EntryPoints
import VerdantBond.Dex.Escrow
import VerdantBond.Dex.Listings
import VerdantBond.Dex.Market
import VerdantBond.Dex.MarketGuard
import VerdantBond.Dex.MarketPause
import VerdantBond.Dex.Settlement
import VerdantBond.Dex.State
import VerdantBond.Dex.Steps
import VerdantBond.Dex.Sweep
import VerdantBond.Dex.Twap
import VerdantBond.Dex.TwapAverage
import VerdantBond.EventLedger.Payload
import VerdantBond.Fees.Calculation
import VerdantBond.Imports.Csv
import VerdantBond.Intents.Service
import VerdantBond.Intents.SingleUse
import VerdantBond.Ipfs.Base58
import VerdantBond.Ipfs.CidUtil
import VerdantBond.Ipfs.Evidence
import VerdantBond.Ipfs.EvidenceHash
import VerdantBond.Issuer.AdminHandover
import VerdantBond.Issuer.Allocation
import VerdantBond.Issuer.Balances
import VerdantBond.Issuer.EntryPoints
import VerdantBond.Issuer.Hamilton
import VerdantBond.Issuer.Moves
import VerdantBond.Issuer.Preview
import VerdantBond.Issuer.RedemptionQueue
import VerdantBond.Issuer.SerialRanges
import VerdantBond.Issuer.Snapshots
import VerdantBond.Issuer.State
import VerdantBond.Issuer.Steps
import VerdantBond.Issuer.SubscriptionAuction
import VerdantBond.Issuer.Supply
import VerdantBond.Keyring.Rotation
import VerdantBond.Keyring.Signing
import VerdantBond.Kyc.Receipts
import VerdantBond.Kyc.Restarts
import VerdantBond.Kyc.Store
import VerdantBond.Lib.EditDistance
import VerdantBond.Lib.EpochTally
import VerdantBond.Lib.Json
import VerdantBond.Lib.JsonOrder
import VerdantBond.Lib.JsonTree
import VerdantBond.Lib.Ledger
import VerdantBond.Lib.LineFile
import VerdantBond.Lib.Machine
import VerdantBond.Lib.Outcome
import VerdantBond.Lib.Placement
import VerdantBond.Lib.ProRata
import VerdantBond.Lib.Radix
import VerdantBond.Lib.Search
import VerdantBond.Lib.SnapshotLedger
import VerdantBond.Lib.Streaks
import VerdantBond.Lib.Utf16
import VerdantBond.Lib.Utf8
import VerdantBond.Lib.VersionLog
import VerdantBond.Lib.Window
import VerdantBond.Marketplace.ImpactOrder
import VerdantBond.Marketplace.PriceImpact
import VerdantBond.Marketplace.Slippage
import VerdantBond.Marketplace.Suggestion
import VerdantBond.Oracle.Aggregation
import VerdantBond.Oracle.Attestations
import VerdantBond.Oracle.Calls
import VerdantBond.Oracle.Disputes
import VerdantBond.Oracle.EntryPoints
import VerdantBond.Oracle.Index
import VerdantBond.Oracle.Lifecycle
import VerdantBond.Oracle.ReportPeriods
import VerdantBond.Oracle.Reports
import VerdantBond.Oracle.Robustness
import VerdantBond.Oracle.State
import VerdantBond.Oracle.Steps
import VerdantBond.Policy.Changes
import VerdantBond.Protocol.BatchedCoupon
import VerdantBond.Protocol.Calculations
import VerdantBond.Protocol.Certificates
import VerdantBond.Protocol.EquivalenceTables
import VerdantBond.Protocol.Itemized
import VerdantBond.Protocol.Migration
import VerdantBond.Protocol.OverDistribution
import VerdantBond.Protocol.PerformanceBounds
import VerdantBond.Protocol.Periods
import VerdantBond.Protocol.Solvency
import VerdantBond.Protocol.Spending
import VerdantBond.Protocol.Stages
import VerdantBond.Protocol.System
import VerdantBond.Protocol.TrueUps
import VerdantBond.Protocol.TypeLedgers
import VerdantBond.Protocol.Undistributed
import VerdantBond.Recovery.SideEffects
import VerdantBond.Registry.Contract
import VerdantBond.Registry.Nonces
import VerdantBond.Reserve.Alerts
import VerdantBond.Retirement.Certificates
import VerdantBond.Retirement.Contract
import VerdantBond.Search.Index
import VerdantBond.Search.Repair
import VerdantBond.Shared
import VerdantBond.Suite.Replay
import VerdantBond.Suite.System
