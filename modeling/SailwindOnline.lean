import SailwindOnline.FiniteMap
import SailwindOnline.MachineInt
import SailwindOnline.Runs
import SailwindOnline.Journal
import SailwindOnline.Ledger
import SailwindOnline.Market
import SailwindOnline.Persistence
import SailwindOnline.EconStore
import SailwindOnline.LedgerRefinement
import SailwindOnline.MarketRefinement
import SailwindOnline.SlotPool
import SailwindOnline.Incarnations
import SailwindOnline.WireProtocol
import SailwindOnline.OrderedSet
import SailwindOnline.Host
import SailwindOnline.HostIndex
import SailwindOnline.HostPoll
import SailwindOnline.HostRuns
import SailwindOnline.ConnectRequests
import SailwindOnline.ConnectOrder
import SailwindOnline.RateLimiting
import SailwindOnline.World
import SailwindOnline.Visibility
import SailwindOnline.Config
import SailwindOnline.Messages
import SailwindOnline.Server
import SailwindOnline.ServerTicks
import SailwindOnline.SessionIndex
import SailwindOnline.SessionRuns
import SailwindOnline.Books
import SailwindOnline.EconService
import SailwindOnline.RoundRobin
import SailwindOnline.SnapshotLane
import SailwindOnline.SnapshotSchedule
import SailwindOnline.SnapshotFreshness
import SailwindOnline.PlayerTable
import SailwindOnline.Traces
import SailwindOnline.Effects
import SailwindOnline.TickEffects
import SailwindOnline.SetDeltas
import SailwindOnline.Interest
import SailwindOnline.DeliveryRounds
import SailwindOnline.Fanout
import SailwindOnline.FlushQueue
import SailwindOnline.Newcomers
import SailwindOnline.FlushCadence
import SailwindOnline.Enrolment
import SailwindOnline.HelloAnswers
import SailwindOnline.Cooldowns
import SailwindOnline.Throttles
import SailwindOnline.AdmissionSpacing
import SailwindOnline.LimiterKeys
import SailwindOnline.ImmediateTransactions
import SailwindOnline.AdmissionRace
import SailwindOnline.Moorage
import SailwindOnline.MoorageOwnership
import SailwindOnline.SnapshotCache
import SailwindOnline.NetClient
import SailwindOnline.ClientSession
import SailwindOnline.HelloThrottle
import SailwindOnline.HelloResends
import SailwindOnline.StateReporter
import SailwindOnline.StatePacing
import SailwindOnline.BufferLayout
import SailwindOnline.HelloSizes
import SailwindOnline.SnapshotRecurrence
import SailwindOnline.CursorScan
import SailwindOnline.Hydration
import SailwindOnline.Framing
import SailwindOnline.CyclicService
import SailwindOnline.ServiceFairness
import SailwindOnline.SnapshotVisits
import SailwindOnline.SnapshotCadence
import SailwindOnline.SnapshotSweeps
import SailwindOnline.HostTimeouts
import SailwindOnline.Interpolator
import SailwindOnline.RetryBackoff
import SailwindOnline.FanoutBounds
import SailwindOnline.HydrationPages
import SailwindOnline.HydrationCompletion
import SailwindOnline.RingBuffer
import SailwindOnline.TrackSamples
import SailwindOnline.ComparisonSort
import SailwindOnline.SelfDelimiting
import SailwindOnline.CanonicalJson
import SailwindOnline.StampedQueue
import SailwindOnline.ReconnectWatermarks
import SailwindOnline.CellBounds
import SailwindOnline.DecimalText
import SailwindOnline.TableWrites
import SailwindOnline.TableLaws
import SailwindOnline.DatabaseFile
import SailwindOnline.Lifetimes
import SailwindOnline.WorldTime
import SailwindOnline.Settings
import SailwindOnline.MainLoop
import SailwindOnline.Disclosure
import SailwindOnline.CacheHistory
import SailwindOnline.WorldView
import SailwindOnline.PlayerIdentity
import SailwindOnline.ChatLatency
import SailwindOnline.RequestLog
import SailwindOnline.PollBudgets
import SailwindOnline.FrameBudgets
import SailwindOnline.ChatProvenance
import SailwindOnline.ReadySignal
