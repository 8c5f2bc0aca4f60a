import Tckr.Core.Machine
import Tckr.Core.Coalescing
import Tckr.Core.Framing
import Tckr.Exchange.Generation.BandArithmetic
import Tckr.Exchange.Reference.Chances
import Tckr.Exchange.Reference.Loading
import Tckr.Exchange.Generation.Timestamps
import Tckr.Exchange.Session.PendingFraction
import Tckr.Exchange.Session.CompressedDay
import Tckr.Exchange.Diagnostics.RecentPast
import Tckr.Exchange.Feed.Complete
import Tckr.Exchange.Feed.Grammar
import Tckr.Exchange.Feed.Checkpoint
import Tckr.Exchange.Feed.Admission
import Tckr.Exchange.Reanchoring
import Tckr.MarketWatch.Data.Agreement
import Tckr.MarketWatch.Pages.DetailVolume
import Tckr.MarketWatch.Data.Noninterference
import Tckr.MarketWatch.Data.Silence
import Tckr.MarketWatch.Data.DelayBoundary
import Tckr.MarketWatch.Data.SessionMonotonicity
import Tckr.MarketWatch.Data.Outbound
import Tckr.MarketWatch.Data.Recovery
import Tckr.MarketWatch.Data.StreamSwitch
import Tckr.MarketWatch.Pages.Consumers
import Tckr.FeedProbe.LossCount
import Tckr.FeedProbe.SymbolFigures
import Tckr.MarketWatch.Chart.Axes
import Tckr.MarketWatch.Contracts.Compact
import Tckr.MarketWatch.Contracts.Percent
import Tckr.MarketWatch.Data.Baselines
import Tckr.Core.Changes
import Tckr.Core.LiveMap
import Tckr.MarketWatch.Data.CairoTime
import Tckr.MarketWatch.Data.TradingWeek
import Tckr.MarketWatch.Display.PacedViews
import Tckr.MarketWatch.Display.Serving
import Tckr.MarketWatch.Display.OneBeat
import Tckr.Core.MultiplyShift
import Tckr.Exchange.Generation.Xoshiro256StarStar
import Tckr.Exchange.Generation.NextInt
import Tckr.Core.Timers
import Tckr.MarketWatch.Data.HeartbeatWatchdog
import Tckr.Core.Edits
import Tckr.MarketWatch.Pages.ClosestInstruments
import Tckr.MarketWatch.Chart.RingBuffer
import Tckr.MarketWatch.Chart.ChartSeed
import Tckr.Core.Slices
import Tckr.MarketWatch.Pages.BoundedSparkline
import Tckr.MarketWatch.Contracts.Parsing
import Tckr.MarketWatch.Contracts.SnapshotParsers
import Tckr.MarketWatch.Data.Backoff
import Tckr.MarketWatch.Data.Backfill
import Tckr.Core.Newest
import Tckr.MarketWatch.Pages.NewerWins
import Tckr.MarketWatch.Contracts.MessageGrammar
import Tckr.Exchange.Feed.SlowLedger
import Tckr.Exchange.Feed.GracefulStop
import Tckr.Exchange.Feed.SharedTape
import Tckr.FeedProbe.LiveTape
import Tckr.FeedProbe.ReservoirSampler
import Tckr.MarketWatch.Display.Pipeline
import Tckr.MarketWatch.Pages.Suggestions
import Tckr.FeedProbe.CommandLine
