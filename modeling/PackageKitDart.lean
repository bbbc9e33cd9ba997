import PackageKitDart.Library.LittleEndian
import PackageKitDart.Library.SequentialRead
import PackageKitDart.Library.TracedRun
import PackageKitDart.Library.Framing
import PackageKitDart.Library.MergedTrace
import PackageKitDart.Library.SharedQueue
import PackageKitDart.Library.LatchedDemux
import PackageKitDart.Library.TaskQueue
import PackageKitDart.Library.Population
import PackageKitDart.Library.Utf8
import PackageKitDart.Library.Classify
import PackageKitDart.Library.Tenths
import PackageKitDart.Library.BitFlags
import PackageKitDart.Dart.TypedData
import PackageKitDart.Dart.Async
import PackageKitDart.Native.GlazeMeta
import PackageKitDart.Native.GlazeRoundTrip
import PackageKitDart.Native.PkTypes
import PackageKitDart.Native.PkTransaction
import PackageKitDart.Native.PkBridge
import PackageKitDart.Native.PkManager
import PackageKitDart.Client.Enums
import PackageKitDart.Client.Types
import PackageKitDart.Client.Codec
import PackageKitDart.Client.Dispatcher
import PackageKitDart.Client.DispatchSemantics
import PackageKitDart.Client.ReaderSpec
import PackageKitDart.Client.WireValues
import PackageKitDart.Client.FieldReads
import PackageKitDart.Client.DecoderLayout
import PackageKitDart.Client.FormatAgreement
import PackageKitDart.Client.PackageSize
import PackageKitDart.Client.PostedReadings
import PackageKitDart.Client.Delivery
import PackageKitDart.Client.StartQuery
import PackageKitDart.Client.HandleSafety
import PackageKitDart.Client.PortTraffic
import PackageKitDart.Client.RefusedCancel
import PackageKitDart.Client.InstallPlan
import PackageKitDart.Client.CollectPlan
import PackageKitDart.Client.Lifecycle
import PackageKitDart.Client.ExactConsumption
import PackageKitDart.Client.TwoDecoders
import PackageKitDart.Client.ViewConfinement
import PackageKitDart.Client.DecoderLanguage
import PackageKitDart.Client.MessageIdentity
import PackageKitDart.Client.ManagerMessages
import PackageKitDart.Client.ManagerEvents
import PackageKitDart.Client.ManagerDelivery
import PackageKitDart.Client.Bindings
import PackageKitDart.Client.Isolation
import PackageKitDart.Client.ThreadRace
import PackageKitDart.Client.Channels
import PackageKitDart.Client.SystemRuns
import PackageKitDart.Client.ClientOperations
import PackageKitDart.Client.RequestFidelity
import PackageKitDart.Client.SimulatedPlan
