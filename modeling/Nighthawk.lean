import Nighthawk.Lib.Runs
import Nighthawk.BenchmarkClient.Code
import Nighthawk.BenchmarkClient.InFlight
import Nighthawk.Service.Code
import Nighthawk.Service.Routing
import Nighthawk.Service.Busy
import Nighthawk.Statistic.Merge
import Nighthawk.RateLimiter.Ceiling
import Nighthawk.RateLimiter.Asserts
import Nighthawk.Sequencer.Conservation
import Nighthawk.Sequencer.Shutdown
import Nighthawk.Uri.Code
import Nighthawk.Options.Proto
import Nighthawk.Options.Code
import Nighthawk.Options.Accepted
import Nighthawk.Options.RoundTrip
import Nighthawk.RequestSource.Code
import Nighthawk.RequestSource.Headers
import Nighthawk.RequestSource.Yields
import Nighthawk.RequestSource.Upload
import Nighthawk.RequestStream.Code
import Nighthawk.RequestStream.FlowControl
import Nighthawk.AdaptiveLoad.Search
import Nighthawk.Sink.Merge
import Nighthawk.Sink.Agreement
import Nighthawk.Counters.Global
import Nighthawk.BenchmarkClient.Accounting
import Nighthawk.Service.Stream
import Nighthawk.BenchmarkClient.Plugins
import Nighthawk.RateLimiter.Linear
import Nighthawk.RateLimiter.Ramping
import Nighthawk.RateLimiter.Bursts
import Nighthawk.RateLimiter.Jitter
import Nighthawk.RateLimiter.Delays
import Nighthawk.Server.Framing
import Nighthawk.Sequencer.Blocking
import Nighthawk.Statistic.Agreement
import Nighthawk.AdaptiveLoad.Convergence
import Nighthawk.Uri.Reformat
import Nighthawk.Bootstrap.Code
import Nighthawk.Bootstrap.Targets
import Nighthawk.Bootstrap.Sni
import Nighthawk.RequestSource.Generators
import Nighthawk.RequestStream.Overlay
import Nighthawk.Termination.Code
import Nighthawk.Termination.Priority
import Nighthawk.Results.Collector
import Nighthawk.AdaptiveLoad.ReportingPeriod
import Nighthawk.AdaptiveLoad.Rates
import Nighthawk.DynamicConfig.Code
import Nighthawk.DynamicConfig.Churn
import Nighthawk.OutputFormatter.Code
import Nighthawk.OutputFormatter.Percentiles
import Nighthawk.OutputFormatter.Durations
import Nighthawk.OutputFormatter.Prometheus
import Nighthawk.Signals.Callback
import Nighthawk.Signals.Shutdown
import Nighthawk.RateLimiter.Start
import Nighthawk.RateLimiter.Still
import Nighthawk.Worker.Code
import Nighthawk.Worker.Accounts
import Nighthawk.Worker.Closed
import Nighthawk.Worker.Duration
import Nighthawk.Worker.Cancellation
import Nighthawk.Worker.Samples
import Nighthawk.Worker.Draining
import Nighthawk.Distributor.Code
import Nighthawk.Distributor.Run
import Nighthawk.Process.Cancellation
import Nighthawk.Process.Progress
import Nighthawk.RateLimiter.Filtering
import Nighthawk.Sink.Interleaving
import Nighthawk.Sink.Loads
import Nighthawk.Sink.Service
