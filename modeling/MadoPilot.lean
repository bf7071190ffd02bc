import MadoPilot.Assets.Directory
import MadoPilot.Assets.DirectoryLaw
import MadoPilot.Assets.Path
import MadoPilot.Assets.Reader
import MadoPilot.Capi.ArrayLaw
import MadoPilot.Capi.Arrays
import MadoPilot.Capi.Boundary
import MadoPilot.Capi.Layout
import MadoPilot.Capi.OutputLaw
import MadoPilot.Capi.PrefixLaw
import MadoPilot.Capture.MappingLaw
import MadoPilot.Capture.MappingReuse
import MadoPilot.Capture.Pacing
import MadoPilot.Capture.Publish
import MadoPilot.Capture.Replay
import MadoPilot.Capture.ReplayAnswers
import MadoPilot.Capture.ReplayOrder
import MadoPilot.Capture.StreamCounts
import MadoPilot.Capture.StreamLifecycle
import MadoPilot.Core.ResolutionLaw
import MadoPilot.Diagnostic.Overflow
import MadoPilot.Input.AdmissionGate
import MadoPilot.Input.Held
import MadoPilot.Lib.Custody
import MadoPilot.Lib.Decimal
import MadoPilot.Lib.Dialogue
import MadoPilot.Lib.Lines
import MadoPilot.Lib.Memory
import MadoPilot.Lib.Recency
import MadoPilot.Ocr.Outcome
import MadoPilot.Ocr.ZoneLaw
import MadoPilot.Onnx.BatchesLaw
import MadoPilot.Onnx.DecodeLaw
import MadoPilot.Onnx.ProfileLaw
import MadoPilot.Onnx.ReadingOrder
import MadoPilot.Onnx.SlotLaw
import MadoPilot.Onnx.VocabularyLaw
import MadoPilot.Platform.CallbackFence
import MadoPilot.Platform.CloseLaw
import MadoPilot.Platform.DiscoveryLaw
import MadoPilot.Platform.EffectTruth
import MadoPilot.Platform.FixtureGrammar
import MadoPilot.Platform.GeometryLedger
import MadoPilot.Platform.MacosAccounting
import MadoPilot.Platform.MacosCloseGate
import MadoPilot.Platform.MacosFixture
import MadoPilot.Platform.MacosFixtureLaw
import MadoPilot.Platform.MacosPublication
import MadoPilot.Platform.MacosPublicationLaw
import MadoPilot.Platform.MacosRegistration
import MadoPilot.Platform.MacosText
import MadoPilot.Platform.MappingLock
import MadoPilot.Platform.ReceiptTruth
import MadoPilot.Platform.ReconfigureLaw
import MadoPilot.Platform.StorageLaw
import MadoPilot.Platform.TransitionLaw
import MadoPilot.Platform.WindowMessage
import MadoPilot.Platform.WindowMessageLaw
import MadoPilot.Platform.WindowsPacing
import MadoPilot.Platform.WindowsTeardown
import MadoPilot.Session.Close
import MadoPilot.Session.Order
import MadoPilot.Vision.MatchLaw
import MadoPilot.Vision.PeaksLaw
import MadoPilot.Vision.PreparedLaw
import MadoPilot.Vision.Truncation
import MadoPilot.Watch.DispatchLaw
import MadoPilot.Watch.MappingCacheLaw
import MadoPilot.Watch.OcrPaceLaw
import MadoPilot.Watch.QueryCleanup
import MadoPilot.Watch.QueryLedger
import MadoPilot.Watch.QueryStability
import MadoPilot.Watch.QueryTerminal
import MadoPilot.Watch.ReservationLaw
import MadoPilot.Watch.TemplatePaceLaw
