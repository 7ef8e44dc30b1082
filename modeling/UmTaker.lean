import UmTaker.Concurrency.Program
import UmTaker.Concurrency.Triple
import UmTaker.Actuary.Account
import UmTaker.General.Latch
import UmTaker.Actuary.DynamicConfig
import UmTaker.Actuary.RiskControl
import UmTaker.Common.Tools
import UmTaker.Shm.Records
import UmTaker.Actuary.GlobalContext
import UmTaker.Receiver.GlobalContext
import UmTaker.Shm.Layout
import UmTaker.Actuary.Strategy
import UmTaker.Actuary.AccountContainer
import UmTaker.Actuary.StatPublisher
import UmTaker.Actuary.StrategySafety
import UmTaker.Concurrency.Lock
import UmTaker.Shm.OrderSlot
import UmTaker.Trader.TradeProcessor
import UmTaker.Common.AutoResetCounter
import UmTaker.Concurrency.RWLock
import UmTaker.Trader.OrderLimiter
import UmTaker.Trader.OrderLimiterSafety
import UmTaker.General.Run
import UmTaker.General.KnownKeys
import UmTaker.General.LastOccurrence
import UmTaker.General.FixedArray
import UmTaker.General.ReceiveLoop
import UmTaker.Trader.NormalPath
import UmTaker.General.SlidingWindow
import UmTaker.Receiver.TickerContainer
import UmTaker.Receiver.TickerCalculate
import UmTaker.General.Cells
import UmTaker.General.Register
import UmTaker.Shm.TickerSlot
import UmTaker.Trader.GlobalContext
import UmTaker.Shm.Agreement
import UmTaker.Receiver.TickerSubscribe
import UmTaker.Actuary.AccountProcessor
import UmTaker.Concurrency.Ghost
import UmTaker.Concurrency.History
import UmTaker.Concurrency.Invariant
import UmTaker.Trader.OrderLimiterQuota
import UmTaker.Trader.ServiceContainer
import UmTaker.Trader.ServiceManager
import UmTaker.Evaluator.TickerContainer
import UmTaker.Evaluator.OrderContainer
import UmTaker.Evaluator.OrderStatManager
import UmTaker.Evaluator.OrderStatSafety
import UmTaker.Concurrency.Transcript
import UmTaker.Actuary.AccountSettings
import UmTaker.General.FixedWindow
import UmTaker.Common.CounterRuns
import UmTaker.General.CString
import UmTaker.Zmq.ZmqClient
import UmTaker.Zmq.SubscriberLoops
import UmTaker.Trader.ClientOrderId
import UmTaker.Common.AutoResetCounterBoss
import UmTaker.Trader.OrderInterval
import UmTaker.Concurrency.Linearization
import UmTaker.Shm.ThresholdSlot
import UmTaker.Receiver.TickerRounds
import UmTaker.Concurrency.Exceptions
import UmTaker.DbSource.MysqlSource
import UmTaker.DbSource.DatabaseWorkers
import UmTaker.Actuary.StrategyRuns
import UmTaker.Actuary.MarketProcessor
import UmTaker.Actuary.PositionFeedback
import UmTaker.General.FrontEviction
import UmTaker.General.KeyedTable
import UmTaker.General.ConditionVariable
import UmTaker.Receiver.OffsetContainer
import UmTaker.Receiver.TickerWindow
import UmTaker.Receiver.InstrumentRouting
import UmTaker.Receiver.UdpTicker
import UmTaker.Evaluator.OrderPnlTable
import UmTaker.DbSource.ConnectionPool
import UmTaker.Concurrency.Component
import UmTaker.Trader.OrderConnections
import UmTaker.Trader.BestPathOrders
import UmTaker.General.TextFields
import UmTaker.Shm.OrderText
import UmTaker.Concurrency.LockOrder
import UmTaker.Trader.TraderLocks
import UmTaker.General.OrderStatistic
import UmTaker.Receiver.EarlyRunThresholds
import UmTaker.General.LogReports
import UmTaker.Actuary.OrderEvents
import UmTaker.Evaluator.OrderStatFeed
import UmTaker.Evaluator.OrderStatTold
import UmTaker.Evaluator.OrderStatHonest
