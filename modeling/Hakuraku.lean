import Hakuraku.Agent.Backoff
import Hakuraku.Agent.Baselines
import Hakuraku.Agent.Conservation
import Hakuraku.Agent.CpuUsage
import Hakuraku.Agent.Disks
import Hakuraku.Agent.Memory
import Hakuraku.Agent.Order
import Hakuraku.Agent.Prober
import Hakuraku.Agent.Teardown
import Hakuraku.Agent.Wakeups
import Hakuraku.Core.Agreement
import Hakuraku.Core.Auth
import Hakuraku.Core.Binding
import Hakuraku.Core.Interference
import Hakuraku.Core.Replay
import Hakuraku.Core.Window
import Hakuraku.Lib.Machine
import Hakuraku.Lib.Text
import Hakuraku.Server.Acks
import Hakuraku.Server.Bodies
import Hakuraku.Server.CacheFill
import Hakuraku.Server.Claims
import Hakuraku.Server.Drain
import Hakuraku.Server.Endpoint
import Hakuraku.Server.Export
import Hakuraku.Server.ForeignKeys
import Hakuraku.Server.Inserts
import Hakuraku.Server.Lagging
import Hakuraku.Server.Latest
import Hakuraku.Server.Listing
import Hakuraku.Server.Liveness
import Hakuraku.Server.NodeQueries
import Hakuraku.Server.Observability
import Hakuraku.Server.Probes
import Hakuraku.Server.Replicas
import Hakuraku.Server.Restarts
import Hakuraku.Server.Retention
import Hakuraku.Server.Sightings
import Hakuraku.Server.Status
import Hakuraku.Server.Subscriber
import Hakuraku.Server.Subscriptions
import Hakuraku.Server.VictoriaMetrics
import Hakuraku.System.Commands
import Hakuraku.System.EndToEnd
import Hakuraku.System.LastSeen
import Hakuraku.System.Monitoring
import Hakuraku.System.Pipeline
