import Metering.Binary64.Bits
import Metering.Proofs.Aggregator.Family
import Metering.Proofs.Instruments.LiveMap
import Metering.Proofs.Pipeline.ExactlyOnce
import Metering.Query
import Metering.Session.Run
import Metering.Proofs.Instruments.Cycles
import Metering.Proofs.Session.Collections
import Metering.Proofs.Session.Measurements
import Metering.Proofs.Session.Paths
import Metering.Proofs.Concurrency.ReaderWindows
import Metering.Proofs.Instruments.ObserverReports
import Metering.Proofs.Processors.Temporalities
import Metering.Proofs.Session.Refusals
import Metering.Proofs.Session.Typing
import Metering.Proofs.Instruments.Climbing
import Metering.Proofs.Session.Monotonic
import Metering.Proofs.Session.Requests
import Metering.Proofs.Readers.Background
import Metering.Proofs.Readers.Lifecycle
import Metering.Proofs.Readers.Shutdown
import Metering.Proofs.Readers.Watching
import Metering.Proofs.Views.Precedence
import Metering.Proofs.Labels.Canonical
import Metering.Proofs.Aggregator.Placement
import Metering.Proofs.Processors.Adopting
import Metering.Proofs.Aggregator.Validation
import Metering.Proofs.Concurrency.Race
