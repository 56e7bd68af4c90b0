import Biscuit.Core.Machine
import Biscuit.Core.Run
import Biscuit.Core.Tally
import Biscuit.Core.Table
import Biscuit.Models.Copy.Oversell
import Biscuit.Models.Copy.Entries
import Biscuit.Models.Copy.Retry
import Biscuit.Models.Copy.Accounting
import Biscuit.Models.Copy.Budget
import Biscuit.Models.Copy.Quiescence
import Biscuit.Models.Copy.Isolation
import Biscuit.Models.Wire.Delivery
import Biscuit.Models.Wire.Coverage
import Biscuit.Models.Wire.Broadcast
import Biscuit.Models.Wire.Subscribers
import Biscuit.Models.Wire.Expiry
import Biscuit.Models.Wire.Answers
import Biscuit.Core.Radix
import Biscuit.Core.Ledger
import Biscuit.Models.Copy.Pings
import Biscuit.Models.Copy.Tiers
import Biscuit.Models.Chain.Base58
import Biscuit.Models.Copy.Restart
import Biscuit.Models.Copy.Backends
import Biscuit.Core.Outcome
import Biscuit.Core.Occurrence
import Biscuit.Models.Parser.Transaction
import Biscuit.Models.Parser.Logs
import Biscuit.Models.Parser.Attribution
import Biscuit.Models.Parser.Swap
import Biscuit.Models.Parser.Totality
import Biscuit.Models.Parser.Forgery
import Biscuit.Models.Parser.Order
import Biscuit.Core.Search
import Biscuit.Models.Copy.Snapshot
import Biscuit.Models.Copy.Registry
import Biscuit.Models.Copy.Atomicity
import Biscuit.Models.Copy.SimulatedRun
import Biscuit.Models.Analytics.Consistency
import Biscuit.Models.Wire.SignaturePages
import Biscuit.Models.Wire.BlockSlots
import Biscuit.Models.Wire.Watchers
import Biscuit.Models.Wire.WatchSet
import Biscuit.Models.Swap.Prices
import Biscuit.Core.Shares
import Biscuit.Models.Copy.PingOrders
import Biscuit.Models.Copy.PingSizing
import Biscuit.Models.Copy.PingCosts
import Biscuit.Models.Copy.PingExits
import Biscuit.Models.Copy.BuySizing
import Biscuit.Models.Copy.Proportion
import Biscuit.Models.Copy.Pending
import Biscuit.Models.Copy.Dust
import Biscuit.Models.Analytics.Dump
import Biscuit.Core.Checked
import Biscuit.Core.ConstantProduct
import Biscuit.Core.Charges
import Biscuit.Core.Rounding
import Biscuit.Models.Copy.PingErrors
import Biscuit.Models.Copy.Success
import Biscuit.Models.Copy.DerivedPrices
import Biscuit.Models.Swap.BondingCurve
import Biscuit.Models.Swap.CuPrice
import Biscuit.Models.Swap.Message
import Biscuit.Models.Swap.Orca.TickArrays
import Biscuit.Models.Swap.Orca.Quote
import Biscuit.Models.Parser.Routes
import Biscuit.Models.Parser.Direction
import Biscuit.Models.Parser.Clmm
import Biscuit.Models.Parser.TokenBalances
import Biscuit.Models.Wire.LastTransactions
import Biscuit.Models.Wire.LastOrder
import Biscuit.Models.Analytics.Window
import Biscuit.Models.Analytics.Payers
import Biscuit.Models.Wire.Slots
import Biscuit.Models.Wire.Leaders
import Biscuit.Core.IndexMap
import Biscuit.Models.Utils.Retry
import Biscuit.Models.Wire.BlockingExecutor
import Biscuit.Models.Wire.ExecutorIds
import Biscuit.Models.Wire.PriorityFees
import Biscuit.Models.Chain.LookupTables
import Biscuit.Models.Wire.LookupStore
import Biscuit.Models.Wire.LeaderSchedule
import Biscuit.Core.Pointwise
import Biscuit.Core.Provenance
import Biscuit.Core.Projection
import Biscuit.Models.Copy.Origins
import Biscuit.Models.Copy.Intake
import Biscuit.Core.Codec
import Biscuit.Core.Borsh
import Biscuit.Models.Parser.Windows
import Biscuit.Models.Parser.Jupiter.Arguments
import Biscuit.Models.Parser.Jupiter.Instructions
import Biscuit.Models.Parser.Orca.Arguments
import Biscuit.Models.Parser.Orca.Instructions
import Biscuit.Models.Parser.Dispatch
import Biscuit.Models.Chain.Programs
import Biscuit.Models.Swap.Builder
import Biscuit.Models.Swap.Executors
import Biscuit.Models.Swap.Wrapping
import Biscuit.Models.Copy.Conversion
import Biscuit.Models.Copy.PriorityCharge
import Biscuit.Models.Copy.ChainTrades
import Biscuit.Models.Copy.SingleExecution
import Biscuit.Models.Copy.EndToEnd
import Biscuit.Core.Buffered
import Biscuit.Models.Wire.TransactionFetch
