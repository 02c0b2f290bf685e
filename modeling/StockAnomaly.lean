import StockAnomaly.Theory.Machine
import StockAnomaly.Theory.Chain
import StockAnomaly.Theory.Ring
import StockAnomaly.Theory.Numerals
import StockAnomaly.Theory.SampleStats
import StockAnomaly.Theory.Bar
import StockAnomaly.Theory.Grouping
import StockAnomaly.Theory.Ieee
import StockAnomaly.Theory.Keyed
import StockAnomaly.Theory.JavaString
import StockAnomaly.Theory.BoundedFifo
import StockAnomaly.Theory.Lease
import StockAnomaly.Core.ObjectPool
import StockAnomaly.Core.PoolExclusive
import StockAnomaly.Core.MpscQueue
import StockAnomaly.Core.MpscInvariant
import StockAnomaly.Core.MpscFifo
import StockAnomaly.Core.SpscQueue
import StockAnomaly.Core.SpscFifo
import StockAnomaly.Core.PoolHandle
import StockAnomaly.Core.BufferOwnership
import StockAnomaly.Aggregation.Candle
import StockAnomaly.Aggregation.ZScore
import StockAnomaly.Aggregation.Scalping
import StockAnomaly.Aggregation.Swing
import StockAnomaly.Aggregation.CandleBlocks
import StockAnomaly.Aggregation.RollUp
import StockAnomaly.Aggregation.CandleIdentity
import StockAnomaly.Aggregation.StateRegistry
import StockAnomaly.Aggregation.TickerIsolation
import StockAnomaly.Events.EventTypes
import StockAnomaly.Events.ScalpingHandler
import StockAnomaly.Events.SwingHandler
import StockAnomaly.Events.PositionBook
import StockAnomaly.Events.SwingJustified
import StockAnomaly.Engine.Wiring
import StockAnomaly.Engine.StopsEnforced
import StockAnomaly.Engine.Pipeline
import StockAnomaly.Engine.Provenance
import StockAnomaly.Engine.ArmingCandle
import StockAnomaly.Engine.MessageOrder
import StockAnomaly.Engine.Publishing
import StockAnomaly.ApiServer.KisMessages
import StockAnomaly.Engine.MarketFeed
import StockAnomaly.Engine.TradedVolume
import StockAnomaly.ApiServer.SubscriptionCache
import StockAnomaly.ApiServer.CachedTickers
import StockAnomaly.ApiServer.SseEmitters
import StockAnomaly.ApiServer.KisSessions
import StockAnomaly.ApiServer.KisCalls
import StockAnomaly.ApiServer.Subscriptions
import StockAnomaly.ApiServer.Unsubscribe
import StockAnomaly.ApiServer.JwtLogout
import StockAnomaly.ApiServer.JwtFilter
import StockAnomaly.ApiServer.KisTokens
import StockAnomaly.ApiServer.DuplicateSubscribe
import StockAnomaly.Theory.Series
import StockAnomaly.Theory.Gaps
import StockAnomaly.Theory.WeightedMean
import StockAnomaly.Theory.Smoothing
import StockAnomaly.Theory.TimeSeries
import StockAnomaly.Theory.SeriesMerge
import StockAnomaly.Theory.CivilDate
import StockAnomaly.Theory.JavaTime
import StockAnomaly.ApiServer.KisFrames
import StockAnomaly.Aggregation.TrailingWindow
import StockAnomaly.Aggregation.PriceChange
import StockAnomaly.Events.EventBus
import StockAnomaly.Events.BusShutdown
import StockAnomaly.AiSignalService.Indicators
import StockAnomaly.AiSignalService.Vwap
import StockAnomaly.AiSignalService.Rsi
import StockAnomaly.AiSignalService.FlatMarket
import StockAnomaly.AiSignalService.ScoreLaws
import StockAnomaly.AiSignalService.DataFrame
import StockAnomaly.AiSignalService.MissingValues
import StockAnomaly.ApiServer.KafkaCandleConsumer
import StockAnomaly.AiSignalService.CandleBuffer
import StockAnomaly.ApiServer.StockService
import StockAnomaly.ApiServer.OhlcvSeries
import StockAnomaly.ApiServer.OlderMinutes
import StockAnomaly.WebApp.PriceBars
import StockAnomaly.WebApp.PriceChart
import StockAnomaly.WebApp.ChartSelection
import StockAnomaly.WebApp.LiveSeries
import StockAnomaly.WebApp.LiveTicks
import StockAnomaly.WebApp.ChartSeries
import StockAnomaly.WebApp.ScrollBack
import StockAnomaly.Theory.Base64
import StockAnomaly.Theory.BlockCipher
import StockAnomaly.Theory.Aes
import StockAnomaly.Engine.AggregatorThreads
import StockAnomaly.Engine.SwingLocks
import StockAnomaly.Engine.DeadScalping
import StockAnomaly.AiSignalService.FeatureLogger
import StockAnomaly.AiSignalService.Service
import StockAnomaly.ApiServer.CryptoConverter
import StockAnomaly.WebApp.Dashboard
import StockAnomaly.Theory.Flux
import StockAnomaly.ApiServer.InfluxDbRepository
import StockAnomaly.Engine.StoredBars
import StockAnomaly.WebApp.ReloadedBars
import StockAnomaly.Theory.RetryLoop
import StockAnomaly.Core.LockFree
import StockAnomaly.Engine.TradingLoop
import StockAnomaly.Theory.Table
import StockAnomaly.Theory.LogView
import StockAnomaly.ApiServer.Accounts
import StockAnomaly.ApiServer.StockMaster
import StockAnomaly.ApiServer.PriceBoard
import StockAnomaly.Engine.Restarts
import StockAnomaly.ApiServer.TokenLifetimes
