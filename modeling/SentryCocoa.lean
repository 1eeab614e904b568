import SentryCocoa.ANRTracker
import SentryCocoa.ANRTrackerV2
import SentryCocoa.AppStateDurations
import SentryCocoa.AppStateFile
import SentryCocoa.AppStateManager
import SentryCocoa.AppStateManagerRuns
import SentryCocoa.AppStateMonitor
import SentryCocoa.AppStateRuns
import SentryCocoa.Baggage
import SentryCocoa.BaggageRoundTrip
import SentryCocoa.BinaryImageCache
import SentryCocoa.BinaryImageInfos
import SentryCocoa.BufferedReader
import SentryCocoa.BufferedWriter
import SentryCocoa.CachedData
import SentryCocoa.CachedDataReads
import SentryCocoa.Client
import SentryCocoa.ClientReportRuns
import SentryCocoa.ClientReports
import SentryCocoa.Codecs
import SentryCocoa.ContinuousProfiler
import SentryCocoa.ContinuousProfilerRuns
import SentryCocoa.CrashEvents
import SentryCocoa.CrashFileUtils
import SentryCocoa.CrashHandlers
import SentryCocoa.CrashHandlersRestored
import SentryCocoa.CrashHandling
import SentryCocoa.CrashHandlingRuns
import SentryCocoa.CrashHandlingSafety
import SentryCocoa.CrashHandlingSteps
import SentryCocoa.CrashJSON
import SentryCocoa.CrashMemory
import SentryCocoa.CrashMemoryRanges
import SentryCocoa.CrashMonitors
import SentryCocoa.CrashReportConverter
import SentryCocoa.CrashReportRoundTrip
import SentryCocoa.CrashReportScope
import SentryCocoa.CrashReportSending
import SentryCocoa.CrashString
import SentryCocoa.CrashStringHex
import SentryCocoa.DataCategory
import SentryCocoa.DelayedFrames
import SentryCocoa.DynamicLinker
import SentryCocoa.DynamicLinkerSymbols
import SentryCocoa.Envelope
import SentryCocoa.EnvelopeBounds
import SentryCocoa.EnvelopeNames
import SentryCocoa.EnvelopeRoundTrip
import SentryCocoa.EnvelopesLimit
import SentryCocoa.EnvelopesStore
import SentryCocoa.FileManager
import SentryCocoa.FinishCallback
import SentryCocoa.Foundation
import SentryCocoa.FramesDelay
import SentryCocoa.FramesTracker
import SentryCocoa.FramesTrackerRuns
import SentryCocoa.HeaderRoundTrip
import SentryCocoa.HttpTransport
import SentryCocoa.HttpTransportItems
import SentryCocoa.Hub
import SentryCocoa.HubSessions
import SentryCocoa.JSONBuffers
import SentryCocoa.JSONContainers
import SentryCocoa.JSONDecoder
import SentryCocoa.JSONDepth
import SentryCocoa.JSONDocumentPaths
import SentryCocoa.JSONDocuments
import SentryCocoa.JSONElement
import SentryCocoa.JSONEncoder
import SentryCocoa.JSONEvents
import SentryCocoa.JSONFields
import SentryCocoa.JSONLiterals
import SentryCocoa.JSONNesting
import SentryCocoa.JSONObjectCuts
import SentryCocoa.JSONObjectRuns
import SentryCocoa.JSONObjects
import SentryCocoa.JSONProgress
import SentryCocoa.JSONReadStrings
import SentryCocoa.JSONReadTokens
import SentryCocoa.JSONReads
import SentryCocoa.JSONReadsInside
import SentryCocoa.JSONReadsPlain
import SentryCocoa.JSONRereading
import SentryCocoa.JSONRoundTrip
import SentryCocoa.JSONStreaming
import SentryCocoa.JSONTokens
import SentryCocoa.JSONTree
import SentryCocoa.JSONTruncation
import SentryCocoa.JSONWorkBuffer
import SentryCocoa.Library.Admission
import SentryCocoa.Library.Bisection
import SentryCocoa.Library.Calendar
import SentryCocoa.Library.Decimal
import SentryCocoa.Library.Delimiter
import SentryCocoa.Library.Fuel
import SentryCocoa.Library.Hexadecimal
import SentryCocoa.Library.Interning
import SentryCocoa.Library.Journal
import SentryCocoa.Library.Machine
import SentryCocoa.Library.MessagePack
import SentryCocoa.Library.Ownership
import SentryCocoa.Library.PartitionPoint
import SentryCocoa.Library.PercentDecoding
import SentryCocoa.Library.PercentEncoding
import SentryCocoa.Library.Pointwise
import SentryCocoa.Library.Preemption
import SentryCocoa.Library.RingBuffer
import SentryCocoa.Library.Rotation
import SentryCocoa.Library.Simulation
import SentryCocoa.Library.Timeline
import SentryCocoa.Library.Tombstones
import SentryCocoa.Library.Unicode
import SentryCocoa.Library.Watermark
import SentryCocoa.Library.Windows
import SentryCocoa.MemoryContents
import SentryCocoa.MetricKitEvents
import SentryCocoa.MetricKitLeaves
import SentryCocoa.MetricKitTraversal
import SentryCocoa.MetricKitVisits
import SentryCocoa.MigrateSessionInit
import SentryCocoa.MsgPackSerializer
import SentryCocoa.NetworkBreadcrumbs
import SentryCocoa.NetworkTracker
import SentryCocoa.NetworkTrackerRuns
import SentryCocoa.PerformanceTracker
import SentryCocoa.PerformanceTrackerRuns
import SentryCocoa.ProfileSlices
import SentryCocoa.ProfilerChunks
import SentryCocoa.ProfilerState
import SentryCocoa.ProfilerTables
import SentryCocoa.RateLimitParser
import SentryCocoa.RateLimits
import SentryCocoa.RedactionClips
import SentryCocoa.RedactionDrawing
import SentryCocoa.RedactionMasking
import SentryCocoa.ReplayVideos
import SentryCocoa.ReportFixer
import SentryCocoa.ReportFixerDates
import SentryCocoa.ReportFixerDocuments
import SentryCocoa.ReportFixerOutput
import SentryCocoa.ReportFixerPaths
import SentryCocoa.ReportFixerReports
import SentryCocoa.ReportIDs
import SentryCocoa.ReportNames
import SentryCocoa.ReportStore
import SentryCocoa.ReportTextLines
import SentryCocoa.Sanitize
import SentryCocoa.Scope
import SentryCocoa.ScopeBreadcrumbs
import SentryCocoa.ScopeCrumbs
import SentryCocoa.ScopeEvents
import SentryCocoa.ScopeObjects
import SentryCocoa.ScopeSync
import SentryCocoa.Serialization
import SentryCocoa.Session
import SentryCocoa.SessionReplay
import SentryCocoa.SessionReplaySegments
import SentryCocoa.SessionTracker
import SentryCocoa.StackCursor
import SentryCocoa.Swizzle
import SentryCocoa.SwizzleOnce
import SentryCocoa.SwizzleRuns
import SentryCocoa.ThreadList
import SentryCocoa.TimeToDisplay
import SentryCocoa.TimeToDisplayRuns
import SentryCocoa.TouchTracker
import SentryCocoa.TouchTrackerRuns
import SentryCocoa.TraceProfiler
import SentryCocoa.TraceProfilerTimeouts
import SentryCocoa.TraceProfilerTracking
import SentryCocoa.Tracer
import SentryCocoa.TracerEnd
import SentryCocoa.TracerRuns
import SentryCocoa.UIEventTracker
import SentryCocoa.UIEventTrackerRuns
import SentryCocoa.UIRedactBuilder
import SentryCocoa.UrlSanitized
import SentryCocoa.WatchdogTermination
