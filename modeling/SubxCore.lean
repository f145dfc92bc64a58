import SubxCore.Formats.Conversion
import SubxCore.Formats.Detection
import SubxCore.Translation.BatchBound
import SubxCore.Translation.Mapping
import SubxCore.Matcher.UniqueTargets
import SubxCore.Matcher.JournalTruth
import SubxCore.Matcher.Crash
import SubxCore.Matcher.Replay
import SubxCore.Matcher.Resume
import SubxCore.Matcher.Thresholds
import SubxCore.Matcher.CopyTargets
import SubxCore.Matcher.PlanExecution
import SubxCore.Parallel.Capacity
import SubxCore.Parallel.Eviction
import SubxCore.Parallel.Stranding
import SubxCore.Parallel.BatchResults
import SubxCore.Archive.Targets
import SubxCore.Files.Rollback
import SubxCore.Configuration.FieldRules
import SubxCore.Configuration.ProviderScope
import SubxCore.Configuration.StatedSettings
import SubxCore.Ai.Retry
import SubxCore.Ai.Inventory
import SubxCore.Formats.Utf8Detection
import SubxCore.Formats.RawBlocks
import SubxCore.Matcher.KeptTargets
import SubxCore.Matcher.ConflictResolution
import SubxCore.Matcher.FailedSource
import SubxCore.Matcher.ConcurrentTasks
import SubxCore.Parallel.WorkerPool
import SubxCore.Formats.BatchConversion
import SubxCore.Matcher.Preview
import SubxCore.Translation.Replies
import SubxCore.Formats.TimingFields
import SubxCore.Formats.BlockErrors
import SubxCore.Formats.CarriageReturns
import SubxCore.Formats.BlankLines
import SubxCore.Formats.SubErrors
import SubxCore.Formats.AssErrors
import SubxCore.Common.Occurrences
import SubxCore.Translation.Restore
import SubxCore.Formats.Tags
import SubxCore.Formats.SrtToAss
import SubxCore.Archive.ClaimedSizes
import SubxCore.Common.FloatValue
import SubxCore.Common.InPlace
import SubxCore.Sync.ManualOffset
import SubxCore.Sync.ShiftLaws
import SubxCore.Ai.Responses
import SubxCore.Matcher.SubtitleNames
import SubxCore.Matcher.TagPrecedence
import SubxCore.Matcher.ReadBack
import SubxCore.Configuration.Ranges
import SubxCore.Configuration.Recovery
import SubxCore.Configuration.RepairPath
import SubxCore.Configuration.TestDouble
import SubxCore.Ai.ErrorSanitizer
import SubxCore.Ai.ResultCache
import SubxCore.Formats.ByteOrderMarks
import SubxCore.Formats.ByteAnalyzer
import SubxCore.Common.Frequencies
import SubxCore.Common.Listing
import SubxCore.Input.InputPaths
import SubxCore.Input.Collecting
import SubxCore.Sync.Pairing
import SubxCore.Vad.SpeechSegments
import SubxCore.Vad.AudioLoader
import SubxCore.Matcher.TargetCheck
import SubxCore.Formats.CodePages
import SubxCore.Formats.EncodingFidelity
import SubxCore.Matcher.ScanIdentifiers
import SubxCore.Links.WriteThrough
import SubxCore.Parallel.Permits
import SubxCore.Parallel.TaskTable
import SubxCore.Input.Provenance
import SubxCore.Matcher.ArchiveRelocation
import SubxCore.Archive.ExtractArchive
import SubxCore.Sync.Engine
import SubxCore.Formats.Manager
import SubxCore.Matcher.Freshness
import SubxCore.Sync.Timeline
import SubxCore.Translation.Glossary
import SubxCore.Configuration.Factory
import SubxCore.Ai.Backoff
import SubxCore.Matcher.Accounting
import SubxCore.Files.SubxLock
import SubxCore.Ai.ChatCompletion
