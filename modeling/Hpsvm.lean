import Hpsvm.Properties.Airdrops
import Hpsvm.Properties.BenchBaselines
import Hpsvm.Properties.BoundPrograms
import Hpsvm.Properties.CaughtPanics
import Hpsvm.Properties.Comparison
import Hpsvm.Properties.DurableNonce
import Hpsvm.Properties.FatalErrors
import Hpsvm.Properties.FixtureIsolation
import Hpsvm.Properties.FixtureVersions
import Hpsvm.Properties.ForkReads
import Hpsvm.Properties.HandlerRuns
import Hpsvm.Properties.HotPrograms
import Hpsvm.Properties.JournalRuns
import Hpsvm.Properties.Lamports
import Hpsvm.Properties.OriginCounts
import Hpsvm.Properties.PrewarmCalls
import Hpsvm.Properties.PromotionQueue
import Hpsvm.Properties.RecordedFixtures
import Hpsvm.Properties.Reentry
import Hpsvm.Properties.ReplayRuns
import Hpsvm.Properties.Replicas
import Hpsvm.Properties.ResidentEntries
import Hpsvm.Properties.SharedEntries
import Hpsvm.Properties.SourceFailures
import Hpsvm.Properties.StagingOrder
import Hpsvm.Properties.TraceAttribution
import Hpsvm.Properties.TraceFiles
import Hpsvm.Properties.TraceSnapshots
import Hpsvm.Properties.WriteBack
