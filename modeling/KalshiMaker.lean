import KalshiMaker.Lib.Effect
import KalshiMaker.Lib.Fifo
import KalshiMaker.Lib.Run
import KalshiMaker.Lib.Keyed
import KalshiMaker.Lib.LogOdds
import KalshiMaker.Core.Ensure
import KalshiMaker.Lib.Numeral
import KalshiMaker.Core.Floating
import KalshiMaker.Lib.Binary64
import KalshiMaker.Core.Double
import KalshiMaker.Core.Types
import KalshiMaker.Engine.Orderbook
import KalshiMaker.Engine.BookLevels
import KalshiMaker.Lib.LowerBound
import KalshiMaker.Engine.BookSizes
import KalshiMaker.Net.Host
import KalshiMaker.Net.ScriptedHost
import KalshiMaker.Exchange.RestClient
import KalshiMaker.Net.RecordedHost
import KalshiMaker.Exchange.WireFormat
import KalshiMaker.Net.PaperTransport
import KalshiMaker.Exchange.OrderManager
import KalshiMaker.Exchange.LotMatching
import KalshiMaker.Exchange.FillFeeds
import KalshiMaker.Net.WebSocketClient
import KalshiMaker.Engine.Portfolio
import KalshiMaker.Engine.RiskManager
import KalshiMaker.Engine.FlowImbalance
import KalshiMaker.Engine.TradeTape
import KalshiMaker.Engine.PricingModel
import KalshiMaker.Strategy.Quoting
import KalshiMaker.Engine.Desk
import KalshiMaker.Strategy.Quoter
import KalshiMaker.Strategy.QuoterWalk
import KalshiMaker.Strategy.DesiredQuotes
import KalshiMaker.Strategy.Reservation
import KalshiMaker.Engine.TradingSession
import KalshiMaker.Engine.Process
import KalshiMaker.App.Backtest
import KalshiMaker.Engine.Ledger
import KalshiMaker.Engine.Steps
import KalshiMaker.Engine.Looks
import KalshiMaker.Engine.Settings
import KalshiMaker.App.PaperRequests
import KalshiMaker.App.Rotation
import KalshiMaker.App.Wiring
import KalshiMaker.App.PnlFile
import KalshiMaker.App.Reconcile
import KalshiMaker.App.Drift
import KalshiMaker.App.Shutdown
import KalshiMaker.App.MainLoop
import KalshiMaker.Properties.FifoMatching
import KalshiMaker.Properties.Accounting
import KalshiMaker.Properties.KillSwitch
import KalshiMaker.Properties.SlotAgreement
import KalshiMaker.Properties.OneQuote
import KalshiMaker.Properties.TrackedTrading
import KalshiMaker.Properties.DroppedFeed
import KalshiMaker.Properties.SessionPnl
import KalshiMaker.Properties.PaperAgreement
import KalshiMaker.Properties.ReplayedSlots
import KalshiMaker.Properties.RecordedBook
import KalshiMaker.Properties.FillDelivery
import KalshiMaker.Properties.OrderMirror
import KalshiMaker.Properties.Headroom
import KalshiMaker.Properties.PositionBound
import KalshiMaker.Properties.CarriedPnl
import KalshiMaker.Properties.RoundTrip
import KalshiMaker.Properties.MirrorSymmetry
import KalshiMaker.Properties.PassiveQuotes
import KalshiMaker.Properties.Withdrawal
import KalshiMaker.Properties.BookSync
import KalshiMaker.Properties.Quarantine
import KalshiMaker.Properties.FrameContainment
import KalshiMaker.Properties.DriftHealing
import KalshiMaker.Properties.DriftRace
import KalshiMaker.Properties.FlattenCash
import KalshiMaker.Properties.ShutdownFills
import KalshiMaker.Properties.WallClock
import KalshiMaker.Properties.HaltedBook
import KalshiMaker.Properties.DeadFeed
import KalshiMaker.Strategy.QuoterCalls
import KalshiMaker.Engine.Attempts
import KalshiMaker.Properties.RejectionBackoff
import KalshiMaker.Properties.Readoption
import KalshiMaker.Net.ConnectionLoop
import KalshiMaker.Properties.FinalStop
import KalshiMaker.Properties.BookRefinement
import KalshiMaker.Net.WireBook
import KalshiMaker.Properties.WireAggregation
import KalshiMaker.Properties.OwnEcho
import KalshiMaker.Properties.OrderGate
import KalshiMaker.Strategy.UpdateRun
import KalshiMaker.Strategy.SlotMoves
import KalshiMaker.Properties.QuotedEdge
import KalshiMaker.Properties.QuotableBand
import KalshiMaker.Properties.InventoryBrake
import KalshiMaker.Properties.FadeDiscipline
import KalshiMaker.Properties.GrantedQuotes
import KalshiMaker.Properties.RestingSpread
import KalshiMaker.Properties.Drawdown
import KalshiMaker.Exchange.Listings
import KalshiMaker.Properties.Pagination
import KalshiMaker.Properties.WriteBudget
import KalshiMaker.Properties.ReconcileSpec
import KalshiMaker.Net.ConnectionEvents
import KalshiMaker.Properties.RollingWindows
import KalshiMaker.Properties.VanishingBids
import KalshiMaker.Properties.Subscriptions
import KalshiMaker.Lib.Mean
import KalshiMaker.Engine.DepthPricing
import KalshiMaker.Properties.ClearingLaws
import KalshiMaker.Properties.SkewLaws
import KalshiMaker.Tooling.FvBacktest
import KalshiMaker.Properties.NoLookahead
import KalshiMaker.Properties.MakerFills
import KalshiMaker.Properties.ReplayedPrints
import KalshiMaker.Exchange.TickerScanner
import KalshiMaker.Lib.Ranking
import KalshiMaker.Properties.LazyScan
import KalshiMaker.Properties.TapeRange
import KalshiMaker.Tooling.PnlAttribution
import KalshiMaker.Properties.AttributionSum
import KalshiMaker.Properties.EventRollup
import KalshiMaker.Properties.QuantityCodec
import KalshiMaker.Properties.SmoothedHull
import KalshiMaker.Properties.WindDown
import KalshiMaker.Properties.OfflineTruth
import KalshiMaker.Properties.ReconnectDelays
import KalshiMaker.Properties.GridInterpolation
import KalshiMaker.Lib.Lines
import KalshiMaker.Lib.Sequence
import KalshiMaker.Net.Capture
import KalshiMaker.App.ReplayModes
import KalshiMaker.Properties.CaptureReplay
import KalshiMaker.Lib.Calendar
import KalshiMaker.Exchange.ScanOutput
import KalshiMaker.Properties.EventDates
import KalshiMaker.App.LoopSteps
import KalshiMaker.App.RotateMarkets
import KalshiMaker.Properties.RotatedUniverse
import KalshiMaker.Properties.HeldMarkets
import KalshiMaker.Properties.SilentFeed
import KalshiMaker.Properties.ReconnectBackfill
import KalshiMaker.Properties.PnlRestarts
import KalshiMaker.Properties.CrashFlatten
import KalshiMaker.Properties.QuoteOrder
import KalshiMaker.Properties.MarketRecords
import KalshiMaker.Lib.Search
import KalshiMaker.Exchange.SignedRequests
import KalshiMaker.Properties.SignedPaths
import KalshiMaker.Properties.PaperLedger
