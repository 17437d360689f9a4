import Foverin.Daemon.Ticks
import Foverin.Lib.Broadcast

set_option relaxedAutoImplicit false
set_option autoImplicit false

/-!
# The tasks of the daemon

`main`, `sensor_loop`, `accept_loop` and the forwarding task of every client, side by side.  A
step is one critical section on the shared state, one call on the broadcast channel or one write
to a socket; the tasks take their steps in any order.

`toJson` is how a snapshot is serialised.  A round of the sensor loop may be any round, so that
the runs of this system include those in which every round comes from `Sensor.tick`.  `main`
holds a sender of the channel to its end: no receiver ever finds the channel closed.

## Main definitions

* `Foverin.Daemon` — the shared state, the bus, and where each task stands.
* `Foverin.Client.Step`, `Foverin.Daemon.Step` — the steps.
* `Foverin.daemon` — the transition system.
-/

namespace Foverin

variable {F : Type}

/-! ## Messages -/

/-- `BROADCAST_CAP`. -/
def broadcastCap : ℕ := 64

/-- The tasks that publish. -/
inductive Publisher where
  | main
  | sensor
  deriving DecidableEq

/-- A line on the bus, and the task that sent it. -/
structure Message where
  publisher : Publisher
  line : String

/-- `snapshot_json`. -/
def snapshotJson [FloatOps F] (toJson : StateSnapshot F → Except String String)
    (s : AppState F) : Except String String := do
  let line ← toJson s.snapshot
  return line.push '\n'

/-! ## Tasks -/

/-- Where `main` stands, from the moment when it has started the other tasks. -/
inductive MainTask where
  | starting
  /-- `publish_snapshot` has taken the snapshot and not sent it yet. -/
  | publishing (line : String)
  /-- It waits for a signal. -/
  | online

/-- Where `sensor_loop` stands. -/
inductive SensorTask (F : Type) where
  /-- It has changes to make before it publishes. -/
  | changing (todo : List (AppState F → AppState F))
  | publishing (line : String)
  /-- It waits in its `select!`. -/
  | waiting
  | exited

/-- Where `accept_loop` stands. -/
inductive AcceptTask where
  | listening
  /-- It has subscribed for a new client. -/
  | subscribed (next : ℕ)
  /-- It has taken the snapshot that the client is greeted with. -/
  | greeting (next : ℕ) (line : String)
  | exited

/-- Where a forwarding task stands. -/
inductive ForwardTask where
  /-- It waits in `recv`. -/
  | receiving
  | writing (line : String)
  | stopped

/-- A connected client, with its receiver and its forwarding task. -/
structure Client where
  next : ℕ
  task : ForwardTask
  /-- The lines that were written to its socket. -/
  lines : List String
  /-- Whether some write has failed. -/
  writeError : Bool

/-- The daemon. -/
structure Daemon (F : Type) where
  app : AppState F
  bus : Broadcast broadcastCap Message
  main : MainTask
  sensor : SensorTask F
  accept : AcceptTask
  clients : List Client

/-- The daemon when its tasks have just been started. -/
def Daemon.start (governor memoryPath : String) : Daemon F :=
  { app := (AppState.new governor).setStatus ("memory policy — " ++ memoryPath)
    bus := .empty
    main := .starting
    sensor := .changing [AppState.setStatus "eBPF attached — aggregating every 5s"]
    accept := .listening
    clients := [] }

/-! ## Steps -/

/-- The steps of a forwarding task. -/
inductive Client.Step (bus : Broadcast broadcastCap Message) (c : Client) : Client → Prop where
  | receive {m : Message} {next : ℕ} (htask : c.task = .receiving)
      (hrecv : bus.recv c.next = (.message m, next)) :
      Step bus c { c with next := next, task := .writing m.line }
  | lagged {missed next : ℕ} (htask : c.task = .receiving)
      (hrecv : bus.recv c.next = (.lagged missed, next)) : Step bus c { c with next := next }
  | write {line : String} (htask : c.task = .writing line) :
      Step bus c { c with task := .receiving, lines := c.lines ++ [line] }
  | writeError {line : String} (htask : c.task = .writing line) :
      Step bus c { c with task := .stopped, writeError := true }

/-- The steps of the daemon. -/
inductive Daemon.Step [FloatOps F] (toJson : StateSnapshot F → Except String String)
    (d : Daemon F) : Daemon F → Prop where
  | mainSnapshot {line : String} (hmain : d.main = .starting)
      (hjson : snapshotJson toJson d.app = .ok line) :
      Step toJson d { d with main := .publishing line }
  | mainSkip {err : String} (hmain : d.main = .starting)
      (hjson : snapshotJson toJson d.app = .error err) : Step toJson d { d with main := .online }
  | mainSend {line : String} (hmain : d.main = .publishing line) :
      Step toJson d { d with bus := d.bus.send ⟨.main, line⟩, main := .online }
  | sensorRound (round : SensorRound F) (hsensor : d.sensor = .waiting) :
      Step toJson d { d with sensor := .changing round.changes }
  | sensorChange {change : AppState F → AppState F} {todo : List (AppState F → AppState F)}
      (hsensor : d.sensor = .changing (change :: todo)) :
      Step toJson d { d with app := change d.app, sensor := .changing todo }
  | sensorSnapshot {line : String} (hsensor : d.sensor = .changing [])
      (hjson : snapshotJson toJson d.app = .ok line) :
      Step toJson d { d with sensor := .publishing line }
  | sensorSkip {err : String} (hsensor : d.sensor = .changing [])
      (hjson : snapshotJson toJson d.app = .error err) :
      Step toJson d { d with sensor := .waiting }
  | sensorSend {line : String} (hsensor : d.sensor = .publishing line) :
      Step toJson d { d with bus := d.bus.send ⟨.sensor, line⟩, sensor := .waiting }
  -- a shutdown, or an error of the ring buffer
  | sensorExit (hsensor : d.sensor = .waiting) : Step toJson d { d with sensor := .exited }
  | acceptSubscribe (haccept : d.accept = .listening) :
      Step toJson d { d with accept := .subscribed d.bus.subscribe }
  | acceptSnapshot {next : ℕ} {line : String} (haccept : d.accept = .subscribed next)
      (hjson : snapshotJson toJson d.app = .ok line) :
      Step toJson d { d with accept := .greeting next line }
  | acceptSkip {next : ℕ} {err : String} (haccept : d.accept = .subscribed next)
      (hjson : snapshotJson toJson d.app = .error err) :
      Step toJson d
        { d with accept := .listening, clients := d.clients ++ [⟨next, .receiving, [], false⟩] }
  | acceptWrite {next : ℕ} {line : String} (haccept : d.accept = .greeting next line) :
      Step toJson d
        { d with accept := .listening, clients := d.clients ++ [⟨next, .receiving, [line], false⟩] }
  -- the result of the first write is not looked at: the client is served all the same
  | acceptWriteError {next : ℕ} {line : String} (haccept : d.accept = .greeting next line) :
      Step toJson d
        { d with accept := .listening, clients := d.clients ++ [⟨next, .receiving, [], true⟩] }
  | acceptExit (haccept : d.accept = .listening) : Step toJson d { d with accept := .exited }
  | forward {i : ℕ} {c c' : Client} (hclient : d.clients[i]? = some c)
      (hstep : c.Step d.bus c') : Step toJson d { d with clients := d.clients.set i c' }

variable [FloatOps F]

/-- The daemon, started under any governor and with any memory file. -/
def daemon (toJson : StateSnapshot F → Except String String) : Lts (Daemon F) where
  init d := ∃ governor memoryPath, d = Daemon.start governor memoryPath
  step := Daemon.Step toJson

end Foverin
