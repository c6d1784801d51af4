import ContExchange.Matching.InternalLimits
import ContExchange.Matching.CancelFinal
import ContExchange.Ledger.Mirror
import ContExchange.Ledger.RealisedPnl
import ContExchange.Ledger.DeliveryOrder
import ContExchange.Ledger.VenueOrders
import ContExchange.Ledger.ExecutionFinality
import ContExchange.Ledger.HedgeHistory
import ContExchange.Matching.HedgeDecision
import ContExchange.Matching.BatchOutcome
import ContExchange.OrderFlow.Isolation
import ContExchange.OrderFlow.ReserveCover
import ContExchange.Venues.BookHistory
import ContExchange.OrderFlow.ComboCalls
import ContExchange.Venues.TickWalk
import ContExchange.Matching.PlannerRouting
import ContExchange.Matching.PlanTotals
import ContExchange.MarketData.Quotes
import ContExchange.MarketData.BatchFills
import ContExchange.VenueHealth.CircuitBreaker
import ContExchange.Venues.HedgeFlows
import ContExchange.Venues.SimIsolation
import ContExchange.Venues.SingleExecution
import ContExchange.Backtest.CancelReplay
import ContExchange.Backtest.ReplayCoverage
import ContExchange.Backtest.RestoreState
import ContExchange.Venues.LiquidityDegradation
import ContExchange.Matching.TriggeredRuns
import ContExchange.Common.SingleRounding
import ContExchange.Ledger.SimBook
import ContExchange.Venues.OrderAnswers
import ContExchange.LegacyEngine.OrderUpdatesSender
import ContExchange.LegacyEngine.PriceCalculator
import ContExchange.Backtest.HistoricalBatches
import ContExchange.Backtest.ConfigSnapshot
import ContExchange.Venues.PoolTags
import ContExchange.Matching.CappedBatch
import ContExchange.Matching.ConstraintGate
import ContExchange.Matching.GraphPasses
import ContExchange.Matching.FillEvents
import ContExchange.Backtest.CurveReplay
import ContExchange.Risk.VenueGate
import ContExchange.Venues.AmmPoolCache
import ContExchange.Venues.SnapshotProducer
import ContExchange.Venues.CurveRebuild
import ContExchange.Venues.CanonicalForm
import ContExchange.OrderFlow.AutoResolve
import ContExchange.Venues.SimulatorFills
import ContExchange.LegacyEngine.OrderTreap
import ContExchange.Venues.ImpactCalibration
import ContExchange.Common.ReplayMessages
import ContExchange.Common.ConnectionPool
import ContExchange.LegacyEngine.CurveTreaps
import ContExchange.Lib.ConvexMinorant
import ContExchange.Venues.Convexification
