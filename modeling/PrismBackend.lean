import PrismBackend.Lib.Revert
import PrismBackend.Lib.Ledger
import PrismBackend.Lib.FloorSplit
import PrismBackend.Lib.Search
import PrismBackend.Lib.Hex
import PrismBackend.Lib.Decimal
import PrismBackend.Lib.Interact
import PrismBackend.Lib.System
import PrismBackend.Lib.Fields
import PrismBackend.Lib.Table
import PrismBackend.Lib.Entries
import PrismBackend.Lib.Rounding
import PrismBackend.Lib.Sharing
import PrismBackend.Lib.Abi
import PrismBackend.PrismV2.Types
import PrismBackend.PrismV2.Contract
import PrismBackend.PrismV2.Effects
import PrismBackend.PrismV2.Runs
import PrismBackend.PrismV2.Solvency
import PrismBackend.PrismV2.Redemption
import PrismBackend.PrismV2.Legs
import PrismBackend.PrismV2.LimitPrice
import PrismBackend.PrismV2.Consent
import PrismBackend.Clob.Order
import PrismBackend.Clob.Matching
import PrismBackend.Clob.Fills
import PrismBackend.Clob.Conservation
import PrismBackend.Clob.Ingress
import PrismBackend.PrismV2.Acceptance
import PrismBackend.Api.Authorization
import PrismBackend.Api.Calldata
import PrismBackend.Api.Preimage
import PrismBackend.Api.Gates
import PrismBackend.Api.SettlementV2
import PrismBackend.Api.Settleable
import PrismBackend.Api.Consumer
import PrismBackend.Api.Cancellation
import PrismBackend.Clob.Service
import PrismBackend.Api.FillIdentity
import PrismBackend.Api.Database
import PrismBackend.Api.Orders
import PrismBackend.Api.Submission
import PrismBackend.Api.Payload
import PrismBackend.Api.Creation
import PrismBackend.Api.Tasks
import PrismBackend.Api.Exchange
import PrismBackend.Api.SellAdmission
import PrismBackend.Api.Outbox
import PrismBackend.Api.Delivery
import PrismBackend.Clob.Registry
import PrismBackend.Api.Removal
import PrismBackend.Clob.Shelves
import PrismBackend.Api.Spelling
import PrismBackend.Rewards.Campaign
import PrismBackend.Rewards.Budget
import PrismBackend.Rewards.Windows
import PrismBackend.Rewards.Claims
import PrismBackend.Rewards.Claimable
import PrismBackend.Rewards.LimitOrderMining
import PrismBackend.Rewards.Owners
import PrismBackend.Rewards.PaidOnce
import PrismBackend.Events.Messages
import PrismBackend.Events.Pipeline
import PrismBackend.Events.Projection
import PrismBackend.Api.MarketSpelling
import PrismBackend.Api.TxIdentity
import PrismBackend.Api.CancelledOrders
import PrismBackend.Api.Cancellable
import PrismBackend.Markets.Service
import PrismBackend.Markets.Stores
import PrismBackend.Markets.Attempts
import PrismBackend.Markets.Retry
import PrismBackend.Clob.LargestFill
import PrismBackend.Api.SplitAgreement
import PrismBackend.Lib.StableSort
import PrismBackend.Clob.Arrivals
import PrismBackend.Clob.NoFill
import PrismBackend.Clob.Priority
import PrismBackend.Web.CollateralCap
import PrismBackend.PrismV2.LegRule
import PrismBackend.Api.Pagination
import PrismBackend.Web.PagedReads
import PrismBackend.Auth.LoginChallenge
import PrismBackend.Lib.Calendar
import PrismBackend.Rewards.Vesting
import PrismBackend.Lib.ProRata
import PrismBackend.PrismV1.Contract
import PrismBackend.PrismV1.Effects
import PrismBackend.PrismV1.Accounting
import PrismBackend.PrismV1.Redemption
import PrismBackend.PrismV2.Lifecycle
import PrismBackend.PrismV2.Rake
import PrismBackend.Api.Positions
import PrismBackend.Api.CostAccounting
import PrismBackend.Api.KickOut
import PrismBackend.Api.ExpiredOrders
import PrismBackend.Clob.MarketOrders
import PrismBackend.Api.Liquidity
import PrismBackend.Api.TimePriority
import PrismBackend.Clob.Concurrency
import PrismBackend.Api.SellEviction
import PrismBackend.Lib.PartialLedger
import PrismBackend.Api.FillBookkeeping
import PrismBackend.Api.PositionAgreement
import PrismBackend.Api.UuidNumbers
import PrismBackend.Rewards.BookSides
import PrismBackend.Rewards.Redeemability
import PrismBackend.Rewards.CronRate
import PrismBackend.Rewards.LomBudget
import PrismBackend.Web.CachedFetcher
import PrismBackend.Web.WalletMutex
import PrismBackend.Lib.WordDivision
import PrismBackend.PrismV2.MulDiv
import PrismBackend.Lib.Courses
import PrismBackend.PrismV2.SettlementOrder
import PrismBackend.Api.Finalization
import PrismBackend.Api.Dispatch
import PrismBackend.Api.FillColumns
import PrismBackend.Api.ExactlyOnce
import PrismBackend.Api.Redelivery
import PrismBackend.Lib.Reentry
import PrismBackend.PrismV2.Callbacks
import PrismBackend.PrismV2.Reentrancy
import PrismBackend.PrismV2.AnyToken
import PrismBackend.PrismV1.Sweep
import PrismBackend.Api.ChainReads
import PrismBackend.Clob.Restart
import PrismBackend.Api.Rebuild
import PrismBackend.Api.MatchStream
