import Foverin.Lib.Bitset
import Foverin.Lib.Broadcast
import Foverin.Lib.Checked
import Foverin.Lib.Crossing
import Foverin.Lib.Decimal
import Foverin.Lib.Ema
import Foverin.Lib.ExtNum
import Foverin.Lib.FiniteMap
import Foverin.Lib.FloatText
import Foverin.Lib.Framing
import Foverin.Lib.Machine
import Foverin.Lib.Saturating
import Foverin.Lib.TopTwo
import Foverin.Lib.Ucb
import Foverin.Lib.Utf8
import Foverin.Lib.Words
import Foverin.Text
import Foverin.Reward
import Foverin.Metrics
import Foverin.Heat
import Foverin.Preference
import Foverin.Readings
import Foverin.Actuator
import Foverin.Available
import Foverin.Memory.Store
import Foverin.Memory.Persist
import Foverin.Memory.Spec
import Foverin.Memory.Record
import Foverin.Memory.Replay
import Foverin.Memory.Autosave
import Foverin.Memory.Averages
import Foverin.Memory.RoundTrip
import Foverin.Memory.Interrupted
import Foverin.Memory.Argmax
import Foverin.Memory.Learning
import Foverin.Memory.OrderFree
import Foverin.Memory.Eviction
import Foverin.Memory.Unsaved
import Foverin.Memory.Selection
import Foverin.Brain.Fingerprint
import Foverin.Brain.Encoding
import Foverin.Brain.Policy
import Foverin.Brain.Credit
import Foverin.Brain.Buckets
import Foverin.Brain.Exploration
import Foverin.Brain.Trials
import Foverin.Brain.Sessions
import Foverin.Brain.Range
import Foverin.Brain.Location
import Foverin.Ebpf.Probe
import Foverin.Ebpf.Pahole
import Foverin.Ebpf.Build
import Foverin.Daemon.State
import Foverin.Daemon.Ticks
import Foverin.Daemon.Tasks
import Foverin.Daemon.Clients
import Foverin.Daemon.Views
import Foverin.Daemon.Sensing
import Foverin.Daemon.SensorLoop
import Foverin.Daemon.Governors
import Foverin.Daemon.Shutdown
import Foverin.Daemon.Live
import Foverin.Daemon.Offered
import Foverin.Daemon.Status
import Foverin.Daemon.Pipeline
import Foverin.Daemon.Lineage
import Foverin.Daemon.Socket
import Foverin.Daemon.Dashboard
import Foverin.Cli
import Foverin.Ui
