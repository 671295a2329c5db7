import Helio.Machine.Run
import Helio.Machine.Program
import Helio.Machine.Interleaving
import Helio.Calendar.Location
import Helio.Calendar.Midnight
import Helio.Machine.Table
import Helio.ToMathlib.DisjointCover
import Helio.Calendar.Civil
import Helio.Model.DayJobs
import Helio.Soundness.HourlyCover
import Helio.Soundness.LocalDays
import Helio.Calendar.Time
import Helio.Machine.AutoTable
import Helio.Machine.Transaction
import Helio.Model.Finance
import Helio.Model.FinanceRepository
import Helio.ToMathlib.Drain
import Helio.Soundness.CreditLots
import Helio.Soundness.LedgerOperations
import Helio.Soundness.CreditLedger
import Helio.Soundness.CreditExpiry
import Helio.Model.Limiter
import Helio.Soundness.LimiterLinks
import Helio.Soundness.LoginLimiter
import Helio.Model.Alerts
import Helio.Model.AlertRepository
import Helio.Soundness.AlertHistory
import Helio.Model.AlertFeeds
import Helio.Soundness.AlertEngine
import Helio.Soundness.ClockCheck
import Helio.Machine.Unwinding
import Helio.Soundness.AlertStreams
import Helio.Soundness.CollectorSteps
import Helio.Soundness.LoggerOffline
import Helio.Soundness.FreshnessMonitor
import Helio.Soundness.MinutePersistence
import Helio.Model.Decoder
import Helio.Calendar.CivilOrder
import Helio.Calendar.TextOrder
import Helio.Soundness.FaultVisibility
import Helio.Model.MinuteRows
import Helio.Soundness.MinuteMerge
import Helio.Soundness.CloudBackfill
import Helio.Machine.Bytes
import Helio.Model.Frame
import Helio.Soundness.ResponseFrame
import Helio.Model.Client
import Helio.Soundness.Resynchronisation
import Helio.Soundness.CrossTalk
import Helio.Calendar.KeptMidnights
import Helio.Machine.Gather
import Helio.Machine.Loop
import Helio.Model.CalendarRebuild
import Helio.Soundness.CalendarConservation
import Helio.Model.NightlyRunner
import Helio.Soundness.DayRepeat
import Helio.Soundness.NightlyDays
import Helio.Soundness.AlertStorage
import Helio.Model.Weather
import Helio.Soundness.WeatherCache
import Helio.Soundness.WeatherPlaces
import Helio.Model.Sessions
import Helio.Soundness.Confirmations
import Helio.Soundness.SessionLifetime
import Helio.Soundness.SplitTermination
import Helio.Soundness.SteadySessions
import Helio.Model.Settings
import Helio.Model.Application
import Helio.Soundness.SettingsApplication
import Helio.Model.SettingsUpdate
import Helio.Soundness.LoggerIdentity
import Helio.Soundness.Recalculation
import Helio.Soundness.TariffApproval
import Helio.Soundness.DoubleBilling
import Helio.Model.HistoryJobs
import Helio.Soundness.JobsAlone
import Helio.Soundness.PrunedHistory
import Helio.Model.Hub
import Helio.Soundness.HubSteps
import Helio.Soundness.EventHub
import Helio.Model.SolarmanRecovery
import Helio.Soundness.OutageRecovery
import Helio.ToMathlib.FilterIndex
import Helio.ToMathlib.FilterSum
import Helio.Soundness.KeyWindow
import Helio.Soundness.LimiterIsolation
import Helio.Model.Bootstrap
import Helio.Soundness.BootstrapRace
import Helio.Model.RelayState
import Helio.Soundness.RelayDurability
import Helio.Model.RelayIngest
import Helio.Soundness.IngestReplay
import Helio.Soundness.HourTotals
import Helio.Soundness.CalendarAgreement
import Helio.Soundness.HourEnergy
import Helio.Soundness.MinuteBounds
import Helio.Soundness.EnergyCounters
import Helio.Soundness.BillLaws
import Helio.Soundness.BillOverflow
import Helio.Model.HistoryPage
import Helio.Soundness.PageEnergy
import Helio.Machine.Crc
import Helio.Soundness.BurstDetection
import Helio.Model.Transport
import Helio.Soundness.RoundTrip
import Helio.Soundness.AlertRuns
import Helio.ToMathlib.TrailingRun
import Helio.Soundness.InverterFaults
import Helio.Soundness.SustainedAlerts
import Helio.Soundness.DayTexts
import Helio.Soundness.Underproduction
import Helio.Calendar.ReadTime
import Helio.Model.MinuteHistory
import Helio.ToMathlib.Neighbours
import Helio.Soundness.GapLaw
import Helio.Soundness.SchedulerProgress
import Helio.Soundness.CanonicalSettings
import Helio.Machine.Median
import Helio.Model.Baseline
import Helio.Soundness.LearnedBaseline
import Helio.Model.Expectation
import Helio.Soundness.ConfidenceOrder
import Helio.Soundness.ExpectationLaws
import Helio.Model.Copel
import Helio.Soundness.DecimalTexts
import Helio.Soundness.RateTexts
import Helio.Model.TariffRefresh
import Helio.Soundness.TariffRefreshes
import Helio.Model.LiveEvents
import Helio.Soundness.LiveMerge
import Helio.Model.HistoryRange
import Helio.Soundness.HistoryDates
import Helio.Soundness.HistoryMidnights
import Helio.Machine.NumberText
import Helio.Model.SettingsForm
import Helio.Soundness.SettingsRoundTrip
import Helio.Machine.Obligation
import Helio.Model.PushScheduler
import Helio.Soundness.PushDelivery
import Helio.Model.Daylight
import Helio.Soundness.DaylightBuckets
import Helio.Soundness.RetryBackoff
import Helio.Machine.Rights
import Helio.Model.Lifecycle
import Helio.ToMathlib.Modify
import Helio.Soundness.LifecycleRights
import Helio.Soundness.LifecyclePrograms
import Helio.Soundness.OrderlyShutdown
import Helio.Model.Publisher
import Helio.Soundness.RelayAcceptance
import Helio.Soundness.RelayFollows
import Helio.Model.Migrations
import Helio.Soundness.SchemaUpgrades
import Helio.Model.HistoryChart
import Helio.Soundness.ChartSegments
import Helio.ToMathlib.SplitSums
import Helio.Soundness.ChartRows
import Helio.Model.LiveStream
import Helio.Soundness.StreamReading
import Helio.Machine.Exchanges
import Helio.Model.Gateway
import Helio.Soundness.ChangeAuthorization
import Helio.Machine.Base64
import Helio.Model.Password
import Helio.Soundness.PasswordHashes
import Helio.Soundness.PasswordLogin
import Helio.Model.Secrets
import Helio.Soundness.SecretsKept
import Helio.Model.SolarmanCloud
import Helio.Soundness.StationHistory
import Helio.Machine.Typestates
import Helio.Soundness.RequestPacing
