import Beachhead.Regex
import Beachhead.Text
import Beachhead.DomainSpec
import Beachhead.DomainPattern
import Beachhead.DomainTokens
import Beachhead.DomainParser
import Beachhead.ParserSoundness
import Beachhead.ParserGrammar
import Beachhead.Json
import Beachhead.JsonText
import Beachhead.Config
import Beachhead.Publisher
import Beachhead.LastWrite
import Beachhead.PublishedValue
import Beachhead.StoreRefinement
import Beachhead.Companion
import Beachhead.Refresh
import Beachhead.History
import Beachhead.Isolation
import Beachhead.Registration
import Beachhead.Verdict
import Beachhead.Coverage
import Beachhead.SteadyClock
import Beachhead.Watchdog
import Beachhead.Liveness
import Beachhead.Termination
import Beachhead.Outcome
import Beachhead.ParserOutcome
import Beachhead.ParameterList
import Beachhead.ParsedSpecs
import Beachhead.EnvironmentLines
import Beachhead.Args
import Beachhead.PublishedPorts
import Beachhead.SpecIds
import Beachhead.Discovery
import Beachhead.RunErrors
import Beachhead.WaitEvents
import Beachhead.ClockSteps
import Beachhead.DateRange
import Beachhead.Lifecycle
import Beachhead.ServiceStatus
import Beachhead.Provenance
import Beachhead.Expiry
import Beachhead.Convergence
import Beachhead.SameAnswers
import Beachhead.DryRun
import Beachhead.Clients
import Beachhead.Pacing
import Beachhead.Delivery
import Beachhead.Journal
import Beachhead.Logging
import Beachhead.Shown
import Beachhead.Main
import Beachhead.OrderIndependence
import Beachhead.ParserWarnings
