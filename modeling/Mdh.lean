import Mdh.Accounts.Ledger
import Mdh.Accounts.Reservations
import Mdh.Accounts.Settlement
import Mdh.Concurrency.FullReports
import Mdh.Concurrency.LinearLog
import Mdh.Concurrency.MpscQueue
import Mdh.Core.ByteIo
import Mdh.Core.CheckedArithmetic
import Mdh.Core.Codes
import Mdh.Core.Messages
import Mdh.Core.Rounding
import Mdh.Core.Types
import Mdh.Feed.BookCells
import Mdh.Feed.BookIntegrity
import Mdh.Feed.BookStorage
import Mdh.Feed.EventCodec
import Mdh.Feed.EventFileReader
import Mdh.Feed.FeedAgreement
import Mdh.Feed.FeedGenerator
import Mdh.Feed.FeedReplay
import Mdh.Feed.GapAccounting
import Mdh.Feed.MarketDataPublisher
import Mdh.Feed.OrderBook
import Mdh.Feed.OrderBookContents
import Mdh.Feed.Packet
import Mdh.Feed.RecordedFile
import Mdh.Feed.RecoveryConvergence
import Mdh.Feed.ReplayEngine
import Mdh.Feed.Snapshot
import Mdh.Feed.SnapshotRecovery
import Mdh.Feed.SnapshotRoundTrip
import Mdh.Feed.StaleFrames
import Mdh.Feed.SubscriberRun
import Mdh.Feed.UdpReplay
import Mdh.Gateway.AccountIsolation
import Mdh.Gateway.ByteChannel
import Mdh.Gateway.Framing
import Mdh.Gateway.GatewaySteps
import Mdh.Gateway.MessageCodec
import Mdh.Gateway.OrderEntry
import Mdh.Gateway.OrderEntryGateway
import Mdh.Gateway.OrderOwnership
import Mdh.Gateway.OwnershipBound
import Mdh.Gateway.ReportOrder
import Mdh.Gateway.RequestOutcomes
import Mdh.Gateway.WakeupInvariant
import Mdh.Gateway.WakeupRuns
import Mdh.Gateway.WriterWakeup
import Mdh.Lib.BigEndian
import Mdh.Lib.CellReplay
import Mdh.Lib.DrainLoop
import Mdh.Lib.Framer
import Mdh.Lib.KeyedStore
import Mdh.Lib.LinkedQueue
import Mdh.Lib.OrderedWalk
import Mdh.Lib.PriorityList
import Mdh.Lib.SortedMap
import Mdh.Lib.SpscRing
import Mdh.Lib.TornLog
import Mdh.Lib.Transitions
import Mdh.Lib.WordBits
import Mdh.Matching.Arrival
import Mdh.Matching.BandArithmetic
import Mdh.Matching.BandRuns
import Mdh.Matching.BookQueues
import Mdh.Matching.BookRefinement
import Mdh.Matching.BookUpdates
import Mdh.Matching.DirectoryAgreement
import Mdh.Matching.EngineChanges
import Mdh.Matching.EngineEvents
import Mdh.Matching.EngineInvariant
import Mdh.Matching.EnginePaths
import Mdh.Matching.EngineRuns
import Mdh.Matching.EngineSteps
import Mdh.Matching.ExecutionContract
import Mdh.Matching.LevelBook
import Mdh.Matching.MatchingBook
import Mdh.Matching.MatchingEngine
import Mdh.Matching.MatchingRefinement
import Mdh.Matching.OccupancyBitmap
import Mdh.Matching.OccupancyRuns
import Mdh.Matching.OrderEndings
import Mdh.Matching.OrderFollowing
import Mdh.Matching.OrderTracking
import Mdh.Matching.OrderViews
import Mdh.Matching.OwnDirectory
import Mdh.Matching.PriceLevels
import Mdh.Matching.PriceSearch
import Mdh.Matching.ReferenceMatcher
import Mdh.Matching.Registry
import Mdh.Matching.ReplacePolicy
import Mdh.Matching.SideIndex
import Mdh.Matching.SlabIntegrity
import Mdh.Matching.TwinBooks
import Mdh.Matching.TwinEngines
import Mdh.Persistence.CommandCodec
import Mdh.Persistence.CommandJournal
import Mdh.Persistence.CommandReplay
import Mdh.Persistence.JournalReplay
import Mdh.Persistence.TornJournal
import Mdh.Risk.Admission
import Mdh.Risk.Bystander
import Mdh.Risk.CheckExactness
import Mdh.Risk.CommandOutcomes
import Mdh.Risk.HoldAgreement
import Mdh.Risk.HoldBacking
import Mdh.Risk.HoldCoverage
import Mdh.Risk.InFlight
import Mdh.Risk.RiskGatedEngine
import Mdh.Risk.Solvency
import Mdh.Sequencing.MarketDataRouter
import Mdh.Sequencing.MatchingPipeline
import Mdh.Sequencing.RouterDelivery
import Mdh.Sequencing.StopDrains
import Mdh.Server.LiveFeed
import Mdh.Server.RecordedFeed
import Mdh.Server.SseHub
import Mdh.Server.TradingServer
import Mdh.Server.UiStream
import Mdh.Trader.FinishedOrders
import Mdh.Trader.LadderMarketMaker
import Mdh.Trader.MarketMakerStrategy
import Mdh.Trader.MomentumStrategy
import Mdh.Trader.NetTraded
import Mdh.Trader.OrderManagementSystem
import Mdh.Trader.OrdersFollowed
import Mdh.Trader.PnlIdentity
import Mdh.Trader.PnlRange
import Mdh.Trader.PnlTracker
import Mdh.Trader.PositionCap
import Mdh.Trader.PositionsAgree
import Mdh.Trader.QuotePlans
import Mdh.Trader.QuoteTending
import Mdh.Trader.QuoteWithdrawal
import Mdh.Trader.ReportedOrders
import Mdh.Trader.RequestsSettled
import Mdh.Trader.RestingQuote
import Mdh.Trader.SelfCross
import Mdh.Trader.SingleQuote
import Mdh.Trader.StandingOrders
import Mdh.Trader.StrategyDesk
import Mdh.Trader.TendedQuotes
import Mdh.Trader.TraderRiskEngine
import Mdh.Trader.TradingFloor
import Mdh.Trader.WireFloor
