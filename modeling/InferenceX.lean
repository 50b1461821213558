import InferenceX.Library.JsonPrintable
import InferenceX.Library.StepRuns
import InferenceX.Library.SlotSemaphore
import InferenceX.ChatSchema
import InferenceX.ModelRegistry
import InferenceX.AdmissionGates
import InferenceX.AdmissionMachine
import InferenceX.AdmissionSteps
import InferenceX.ChatDispatch
import InferenceX.EngineSampling
import InferenceX.BatchQueue
import InferenceX.ClampOutcome
import InferenceX.FirstGate
import InferenceX.Degradation
import InferenceX.EchoFixpoint
import InferenceX.FreeSlot
import InferenceX.EngineStream
import InferenceX.KvAccounting
import InferenceX.PermitConservation
import InferenceX.ReleaseOnce
import InferenceX.ResolvedEcho
import InferenceX.StrictMode
import InferenceX.ChatRoute
import InferenceX.JsonAccess
import InferenceX.Library.ChunkedFrames
import InferenceX.Library.CharClasses
import InferenceX.Library.JsonBytes
import InferenceX.Library.JsonLimits
import InferenceX.Library.Utf8Text
import InferenceX.MetricsRecording
import InferenceX.RejectionTransport
import InferenceX.SseReaders
import InferenceX.SseRecording
import InferenceX.StreamConsumers
import InferenceX.StreamFraming
import InferenceX.StreamGrammar
import InferenceX.VllmPoolConfig
import InferenceX.UtilizationCap
import InferenceX.VariantSelector
import InferenceX.Startup
import InferenceX.DefaultRoute
import InferenceX.ResultStore
import InferenceX.SizingSound
import InferenceX.HubEstimates
import InferenceX.VariantChoice
import InferenceX.NameResolvers
import InferenceX.LimitAgreement
import InferenceX.Library.TextOrder
import InferenceX.Library.LatestByKey
import InferenceX.SuiteLatest
import InferenceX.ModelAdvisor
import InferenceX.AdvisorScores
import InferenceX.AdvisorRanking
import InferenceX.AdvisorInfluence
import InferenceX.MetricsSummary
import InferenceX.Transparency
import InferenceX.RecordBuffer
import InferenceX.TierResolution
import InferenceX.Library.Sha256
import InferenceX.Library.CallCache
import InferenceX.Library.CanonicalJson
import InferenceX.SuiteIdentity
import InferenceX.Library.PollLoop
import InferenceX.CompareWait
import InferenceX.ServerControl
import InferenceX.WeightPrecision
import InferenceX.Library.DecimalText
import InferenceX.InitErrors
import InferenceX.Library.CarriedLines
import InferenceX.LogFeed
import InferenceX.LogTailer
import InferenceX.ControllerSharing
import InferenceX.Conversation
import InferenceX.ConversationLimits
import InferenceX.ComparePanels
import InferenceX.CompareSteps
import InferenceX.CompareWriters
import InferenceX.Library.DeadlinePoll
import InferenceX.HealthProbe
import InferenceX.ServerWait
import InferenceX.Library.LabelledLines
import InferenceX.PromptText
import InferenceX.Library.DecimalFloat
import InferenceX.Library.Quantiles
import InferenceX.BenchmarkRun
import InferenceX.BenchmarkCounts
import InferenceX.AdviseRoute
import InferenceX.ServerLifetime
import InferenceX.ServersLeft
import InferenceX.Library.JsonSpaced
import InferenceX.Library.AppendedLines
import InferenceX.MetricsExport
