import Foverin.Brain.Credit
import Foverin.Memory.OrderFree

set_option relaxedAutoImplicit false
set_option autoImplicit false

/-!
# Sessions

A session is a run of the engine with restarts: the process stops, with or without a flush, and
`open` starts it again from the file.  Two sessions that see the same windows, readings and
answers of the file system decide the same and hold the same store, in whatever orders their
hash maps are walked.

## Main definitions

* `Foverin.Session`, `Foverin.SessionStep`, `Foverin.sessionMachine` — runs with restarts.
* `Foverin.SessionStep.SameSeen` — what two sessions have to agree on.
* `Foverin.Session.Stamped` — the invariant: distinct times of last use, and the pending credit
  is for the bucket that was used last.

## Main results

* `Foverin.Session.step_stamped`, `Foverin.Session.step_sameSeen` — one step.
* `Foverin.session_order_free` — whole sessions.
-/

namespace Foverin

open Finmap FloatOps

variable {F : Type}

/-! ## Sessions -/

/-- The engine, unless `open` has failed, and the file. -/
structure Session (F : Type) where
  running : Option (PolicyEngine F)
  disk : Disk

/-- A call of `decide`, or a restart: an optional flush, then `open`. -/
inductive SessionStep (F : Type) where
  | decide (env : DecideEnv F) (events : List ProcessEvent)
  | restart (flush : Option (SaveIo F)) (readOk : Bool) (order : IterOrder String (Bucket F))

/-- A session that starts without a memory file. -/
def Session.fresh (path : MemoryPath) (actions : List String) : Session F :=
  ⟨some (Policy.fresh path actions).engine, none⟩

/-- The file that a restart finds. -/
def Session.flushed (serde : Serde F) (s : Session F) (flush : Option (SaveIo F)) : Disk :=
  match s.running, flush with
  | some e, some io => (Policy.flush serde io ⟨e, s.disk⟩).2.disk
  | _, _ => s.disk

/-- What two sessions have to agree on at a step. -/
inductive SessionStep.SameSeen : SessionStep F → SessionStep F → Prop
  | decide {env env' : DecideEnv F} (hreadings : env.readings = env'.readings)
      (hlisted : env.listedGovernors = env'.listedGovernors) (hio : env.io.SameAnswers env'.io)
      (events : List ProcessEvent) : SameSeen (.decide env events) (.decide env' events)
  | restart (readOk : Bool) (order order' : IterOrder String (Bucket F)) :
      SameSeen (.restart none readOk order) (.restart none readOk order')
  | flush {io io' : SaveIo F} (hio : io.SameAnswers io') (readOk : Bool)
      (order order' : IterOrder String (Bucket F)) :
      SameSeen (.restart (some io) readOk order) (.restart (some io') readOk order')

variable [FloatOps F]

/-- One step of a session; a step returns a decision if it is a call on a running engine. -/
def Session.step (serde : Serde F) (path : MemoryPath) (actions : List String) (s : Session F) :
    SessionStep F → Session F × Option (PolicyDecision F)
  | .decide env events =>
    match s.running with
    | none => (s, none)
    | some e =>
      let (p, decided) := Policy.decide serde ⟨e, s.disk⟩ env events
      (⟨some p.engine, p.disk⟩, some decided.decision)
  | .restart flush readOk order =>
    let disk := s.flushed serde flush
    (⟨(PolicyEngine.open serde readOk order disk path actions).toOption, disk⟩, none)

/-- Runs of the engine with restarts. -/
def sessionMachine (serde : Serde F) (path : MemoryPath) (actions : List String) :
    Machine (Session F) (SessionStep F) (Option (PolicyDecision F)) :=
  ⟨Session.step serde path actions⟩

/-! ## One call of `decide` -/

namespace Policy

/-- Memory and file are stamped, and the pending credit is for the bucket that was used last. -/
structure Stamped (serde : Serde F) (p : Policy F) : Prop where
  stored : p.stored.Stamped serde
  current : ∀ c ∈ p.engine.pending, p.engine.memory.Current c.fingerprint

section Cycle

variable {serde : Serde F} {p p' : Policy F} {c c' : Cycle F}

lemma credited_tick : (p.credited serde c).memory.tick = p.engine.memory.tick := by
  unfold credited PolicyEngine.due
  split_ifs
  · cases p.engine.pending with
    | none => rfl
    | some prev => exact (Stored.step_update serde p.stored _ _ _ _ _).2.1
  · rfl

/-- A call advances the clock by one. -/
lemma decide_tick (env : DecideEnv F) (events : List ProcessEvent) :
    (p.decide serde env events).1.engine.memory.tick =
      p.engine.memory.tick.saturatingAdd 1 := by
  rw [decide_fst, cycle_memory, EpisodeMemory.touch_tick, credited_tick]
  rfl

/-- The credit that is due is for the bucket that was used last. -/
lemma Stamped.credited (hserde : serde.Strict) (h : p.Stamped serde) (c : Cycle F) :
    (p.credited serde c).Stamped serde := by
  unfold Policy.credited PolicyEngine.due
  split_ifs
  · cases hp : p.engine.pending with
    | none => exact h.stored
    | some prev => exact h.stored.update hserde (h.current prev hp) _ _ _ _
  · exact h.stored

/-- **One cycle** keeps the policy stamped. -/
theorem Stamped.cycle (hserde : serde.Strict) (h : p.Stamped serde)
    (htick : p.engine.memory.tick.toNat < 2 ^ 64 - 1) (c : Cycle F) :
    (p.cycle serde c).1.Stamped serde := by
  refine ⟨?_, fun prev hprev => ?_⟩
  · rw [cycle_stored, cycle_calls, Machine.final_concat]
    refine (h.credited hserde c).select ?_ _ _ _
    rw [credited_tick]
    exact htick
  · rw [cycle_pending] at hprev
    rw [← Option.some.inj hprev, cycle_memory]
    exact EpisodeMemory.touch_current _ _ _

/-- Two cycles with the same rewards, fingerprint and prior, in possibly other orders. -/
structure SameCycle (c c' : Cycle F) : Prop where
  io : c.env.io.SameAnswers c'.env.io
  reward : c.reward = c'.reward
  fingerprint : c.fingerprint = c'.fingerprint
  prior : c.prior = c'.prior

/-- The credits that are due lead to the same store. -/
lemma credited_sameReads (hserde : serde.Strict) (hblind : serde.OrderBlind)
    (he : p.engine = p'.engine) (hd : reads serde p.disk = reads serde p'.disk)
    (h : p.Stamped serde) (hc : SameCycle c c') :
    (p.credited serde c).SameReads serde (p'.credited serde c') := by
  obtain ⟨e, disk⟩ := p
  obtain ⟨e', disk'⟩ := p'
  change e = e' at he
  subst he
  unfold credited
  change Stored.SameReads serde ((storeMachine serde).final ⟨e.memory, disk⟩ (e.due c))
    ((storeMachine serde).final ⟨e.memory, disk'⟩ (e.due c'))
  have hw : Stored.SameReads serde ⟨e.memory, disk⟩ ⟨e.memory, disk'⟩ := ⟨rfl, hd⟩
  unfold PolicyEngine.due
  split_ifs
  · cases e.pending with
    | none => exact hw
    | some prev =>
      rw [hc.reward]
      exact (Stored.step_sameAnswers hserde hblind hw h.stored.1 (.update _ _ hc.io _ _ _)).1
  · exact hw

/-- **One cycle** does not depend on the orders. -/
theorem cycle_congr (hserde : serde.Strict) (hblind : serde.OrderBlind)
    (he : p.engine = p'.engine) (hd : reads serde p.disk = reads serde p'.disk)
    (h : p.Stamped serde) (hc : SameCycle c c') :
    (p.cycle serde c).1.engine = (p'.cycle serde c').1.engine ∧
      reads serde (p.cycle serde c).1.disk = reads serde (p'.cycle serde c').1.disk ∧
      (p.cycle serde c).2.selection = (p'.cycle serde c').2.selection := by
  obtain ⟨hmem, hdisk⟩ := credited_sameReads hserde hblind he hd h hc
  have hst := (h.credited hserde c).1
  have hsel : (p.cycle serde c).2.selection = (p'.cycle serde c').2.selection := by
    rw [cycle_selection, cycle_selection, ← hmem, hc.fingerprint, hc.prior,
      EpisodeMemory.select_fst, EpisodeMemory.select_fst]
  have htouch : (p.cycle serde c).1.engine.memory = (p'.cycle serde c').1.engine.memory := by
    rw [cycle_memory, cycle_memory, ← hmem, ← hc.fingerprint]
    exact hst.touch_congr _ _ _
  refine ⟨?_, hdisk, hsel⟩
  change ({ p.engine with
    memory := (p.cycle serde c).1.engine.memory
    pending := some ⟨c.fingerprint, (p.cycle serde c).2.selection.governor⟩
    primed := true } : PolicyEngine F) = { p'.engine with
    memory := (p'.cycle serde c').1.engine.memory
    pending := some ⟨c'.fingerprint, (p'.cycle serde c').2.selection.governor⟩
    primed := true }
  rw [he, htouch, hsel, hc.fingerprint]

end Cycle

end Policy

/-! ## Restarts -/

section Restart

variable {serde : Serde F} {disk disk' : Disk}

omit [FloatOps F] in
/-- Files that read the same open as the same store. -/
lemma open_congr (hfile : StampedFile serde disk) (hd : reads serde disk = reads serde disk')
    (readOk : Bool) (order order' : IterOrder String (Bucket F)) (path : MemoryPath)
    (actions : List String) :
    (EpisodeMemory.open serde readOk order disk path actions).toOption =
      (EpisodeMemory.open serde readOk order' disk' path actions).toOption := by
  rw [open_toOption, open_toOption, ← hd]
  cases hr : reads serde disk with
  | none => rfl
  | some r =>
    cases readOk with
    | false => rfl
    | true =>
      cases r with
      | none => rfl
      | some f =>
        obtain ⟨m, -, hm⟩ := hfile f hr
        simp only [hm byFingerprint, if_true, Option.bind_some, parseBuckets_toFile]

omit [FloatOps F] in
/-- A stamped file opens as a stamped store. -/
lemma open_stamped (hfile : StampedFile serde disk) {readOk : Bool}
    {order : IterOrder String (Bucket F)} {path : MemoryPath} {actions : List String}
    {m : EpisodeMemory F}
    (h : EpisodeMemory.open serde readOk order disk path actions = .ok m) : m.Stamped := by
  have hopt := open_toOption serde readOk order disk path actions
  rw [h] at hopt
  cases hr : reads serde disk with
  | none =>
    rw [hr] at hopt
    rw [Option.some.inj hopt]
    exact EpisodeMemory.stamped_of_empty rfl
  | some r =>
    rw [hr] at hopt
    cases readOk with
    | false => cases hopt
    | true =>
      cases r with
      | none => cases hopt
      | some f =>
        obtain ⟨m₀, hst, hm₀⟩ := hfile f hr
        rw [hm₀ byFingerprint] at hopt
        simp only [if_true, Option.bind_some, parseBuckets_toFile] at hopt
        rw [Option.some.inj hopt]
        exact hst.congr rfl rfl

omit [FloatOps F] in
lemma policyOpen_toOption (serde : Serde F) (readOk : Bool)
    (order : IterOrder String (Bucket F)) (disk : Disk) (path : MemoryPath)
    (actions : List String) :
    (PolicyEngine.open serde readOk order disk path actions).toOption =
      (EpisodeMemory.open serde readOk order disk path actions).toOption.map fun m =>
        ⟨m, .new, none, false⟩ := by
  unfold PolicyEngine.open
  cases EpisodeMemory.open serde readOk order disk path actions <;> rfl

end Restart

/-! ## One step -/

namespace Session

variable {serde : Serde F} {s s' : Session F} {i i' : SessionStep F}

/-- The file is stamped, and so is the engine if it runs. -/
structure Stamped (serde : Serde F) (s : Session F) : Prop where
  file : StampedFile serde s.disk
  running : ∀ e, s.running = some e → (⟨e, s.disk⟩ : Policy F).Stamped serde

/-- The clock of a running engine can advance. -/
def TickBelowMax (s : Session F) : Prop :=
  ∀ e, s.running = some e → e.memory.tick.toNat < 2 ^ 64 - 1

omit [FloatOps F] in
lemma stamped_fresh (serde : Serde F) (path : MemoryPath) (actions : List String) :
    (Session.fresh path actions : Session F).Stamped serde where
  file f hf := by cases hf
  running e he := by
    cases he
    exact ⟨⟨EpisodeMemory.stamped_of_empty rfl, fun f hf => by cases hf⟩, nofun⟩

omit [FloatOps F] in
lemma flushed_none (serde : Serde F) (s : Session F) : s.flushed serde none = s.disk := by
  unfold flushed
  cases s.running <;> rfl

lemma flushed_stamped (hserde : serde.Strict) (h : s.Stamped serde)
    (flush : Option (SaveIo F)) : StampedFile serde (s.flushed serde flush) := by
  unfold flushed
  split
  · rename_i e io he
    exact h.file.save hserde (h.running e he).stored.1 io
  · exact h.file

/-- **One step** keeps a session stamped. -/
theorem step_stamped (hserde : serde.Strict) (h : s.Stamped serde) (htick : s.TickBelowMax)
    (path : MemoryPath) (actions : List String) (i : SessionStep F) :
    (s.step serde path actions i).1.Stamped serde := by
  cases i with
  | decide env events =>
    cases hr : s.running with
    | none =>
      have hstep : (s.step serde path actions (.decide env events)).1 = s := by
        simp only [step, hr]
      rw [hstep]
      exact h
    | some e =>
      have hcycle : ((Policy.sampled ⟨e, s.disk⟩ env).cycle serde
          (Policy.decideCycle ⟨e, s.disk⟩ env events)).1.Stamped serde :=
        Policy.Stamped.cycle (p := Policy.sampled ⟨e, s.disk⟩ env) hserde
          ⟨(h.running e hr).stored, (h.running e hr).current⟩ (htick e hr) _
      rw [← Policy.decide_fst] at hcycle
      simp only [step, hr]
      exact ⟨hcycle.stored.2, fun e' he' => by cases he'; exact hcycle⟩
  | restart flush readOk order =>
    have hfile := flushed_stamped hserde h flush
    refine ⟨hfile, fun e he => ?_⟩
    change (PolicyEngine.open serde readOk order (s.flushed serde flush) path actions).toOption =
      some e at he
    rw [policyOpen_toOption] at he
    cases hm : EpisodeMemory.open serde readOk order (s.flushed serde flush) path actions with
    | error err =>
      rw [hm] at he
      cases he
    | ok m =>
      rw [hm] at he
      cases he
      exact ⟨⟨open_stamped hfile hm, hfile⟩, nofun⟩

/-- The same engine, and files that read the same. -/
structure Same (serde : Serde F) (s s' : Session F) : Prop where
  running : s.running = s'.running
  reads : reads serde s.disk = reads serde s'.disk

/-- What a decision says apart from its reason and its timing. -/
def view (o : Option (PolicyDecision F)) : Option (String × F × UInt64) :=
  o.map fun d => (d.governor, d.confidence, d.fingerprint)

lemma flushed_congr (hserde : serde.Strict) (hblind : serde.OrderBlind)
    (hs : Same serde s s') {io io' : SaveIo F} (hio : io.SameAnswers io') :
    Foverin.reads serde (s.flushed serde (some io)) =
      Foverin.reads serde (s'.flushed serde (some io')) := by
  unfold flushed
  rw [← hs.running]
  cases s.running with
  | none => exact hs.reads
  | some e => exact reads_save_congr hserde hblind hio e.memory hs.reads

lemma restart_congr (path : MemoryPath) (actions : List String)
    {flush flush' : Option (SaveIo F)} (readOk : Bool) (order order' : IterOrder String (Bucket F))
    (hfile : StampedFile serde (s.flushed serde flush))
    (hd : Foverin.reads serde (s.flushed serde flush) =
      Foverin.reads serde (s'.flushed serde flush')) :
    Same serde (s.step serde path actions (.restart flush readOk order)).1
      (s'.step serde path actions (.restart flush' readOk order')).1 := by
  refine ⟨?_, hd⟩
  change (PolicyEngine.open ..).toOption = (PolicyEngine.open ..).toOption
  rw [policyOpen_toOption, policyOpen_toOption,
    open_congr hfile hd readOk order order' path actions]

/-- **One step** does not depend on the orders.

**Proof sketch.** A call reads nothing but the engine and what was seen.  A restart reads the file,
which is accepted or rejected whatever the order of its entries is and gives the same table. -/
theorem step_sameSeen (hserde : serde.Strict) (hblind : serde.OrderBlind)
    (h : s.Stamped serde) (hs : Same serde s s') (path : MemoryPath) (actions : List String)
    (hi : i.SameSeen i') :
    Same serde (s.step serde path actions i).1 (s'.step serde path actions i').1 ∧
      view (s.step serde path actions i).2 = view (s'.step serde path actions i').2 := by
  cases hi with
  | @decide env env' hreadings hlisted hio events =>
    have hrunning := hs.running
    cases hr : s.running with
    | none =>
      rw [hr] at hrunning
      have hstep : ∀ env, s.step serde path actions (.decide env events) = (s, none) := by
        intro env
        simp only [step, hr]
      have hstep' : ∀ env, s'.step serde path actions (.decide env events) = (s', none) := by
        intro env
        simp only [step, ← hrunning]
      rw [hstep, hstep']
      exact ⟨hs, rfl⟩
    | some e =>
      rw [hr] at hrunning
      have hcycle : Policy.SameCycle (Policy.decideCycle ⟨e, s.disk⟩ env events)
          (Policy.decideCycle ⟨e, s'.disk⟩ env' events) := by
        refine ⟨hio, ?_, rfl, ?_⟩
        · simp only [Policy.decideCycle, hreadings]
        · simp only [Policy.decideCycle, hlisted]
      have hsampled : (Policy.sampled ⟨e, s.disk⟩ env).engine =
          (Policy.sampled ⟨e, s'.disk⟩ env').engine := by
        simp only [Policy.sampled, hreadings]
      obtain ⟨hengine, hdisk, hsel⟩ := Policy.cycle_congr hserde hblind hsampled hs.reads
        ⟨(h.running e hr).stored, (h.running e hr).current⟩ hcycle
      simp only [step, hr, ← hrunning]
      exact ⟨⟨congrArg some hengine, hdisk⟩, congrArg (fun sel : Selection F =>
        some (sel.governor, sel.confidence, fingerprintBits (encodeEvents events))) hsel⟩
  | restart readOk order order' =>
    have hd : Foverin.reads serde (s.flushed serde none) =
        Foverin.reads serde (s'.flushed serde none) := by
      rw [flushed_none, flushed_none, hs.reads]
    exact ⟨restart_congr path actions readOk order order' (flushed_stamped hserde h none) hd, rfl⟩
  | flush hio readOk order order' =>
    exact ⟨restart_congr path actions readOk order order' (flushed_stamped hserde h _)
      (flushed_congr hserde hblind hs hio), rfl⟩

end Session

/-! ## Whole sessions -/

section Runs

variable {serde : Serde F} {s s' : Session F} {ins ins' : List (SessionStep F)}

/-- The clock of a running engine can advance before every step of a session. -/
def TicksBelowMax (serde : Serde F) (path : MemoryPath) (actions : List String) (s : Session F)
    (ins : List (SessionStep F)) : Prop :=
  ∀ k < ins.length, ((sessionMachine serde path actions).final s (ins.take k)).TickBelowMax

lemma TicksBelowMax.tail {path : MemoryPath} {actions : List String} {i : SessionStep F}
    (h : TicksBelowMax serde path actions s (i :: ins)) :
    TicksBelowMax serde path actions (s.step serde path actions i).1 ins := fun k hk =>
  h (k + 1) (Nat.succ_lt_succ hk)

/-- Related sessions stay related and return the same. -/
lemma run_sameSeen (hserde : serde.Strict) (hblind : serde.OrderBlind) (path : MemoryPath)
    (actions : List String) (h : s.Stamped serde) (hs : Session.Same serde s s')
    (hins : List.Forall₂ SessionStep.SameSeen ins ins')
    (htick : TicksBelowMax serde path actions s ins) :
    ((sessionMachine serde path actions).final s ins).Stamped serde ∧
      Session.Same serde ((sessionMachine serde path actions).final s ins)
        ((sessionMachine serde path actions).final s' ins') ∧
      ((sessionMachine serde path actions).outputs s ins).map Session.view =
        ((sessionMachine serde path actions).outputs s' ins').map Session.view := by
  induction hins generalizing s s' with
  | nil => exact ⟨h, hs, rfl⟩
  | @cons i i' ins ins' hi _ ih =>
    obtain ⟨hsame, hview⟩ := Session.step_sameSeen hserde hblind h hs path actions hi
    have hst := Session.step_stamped hserde h (htick 0 (Nat.succ_pos _)) path actions i
    obtain ⟨hst', hsame', hviews⟩ := ih hst hsame htick.tail
    exact ⟨hst', hsame', congrArg₂ List.cons hview hviews⟩

/-- **Decisions do not depend on iteration orders.** Two sessions that start without a memory
file and see the same windows, readings, restarts and answers of the file system, in possibly
different orders, return the same governors, confidences and fingerprints and hold the same
engine after every step, as long as the clock stays below its maximum.  At every point the times
of last use are pairwise distinct, so that the bucket to evict is unique.

**Proof sketch.** The two sessions stay equal step by step (`Session.step_sameSeen`), because the
clock goes up at every selection and keeps the times of last use distinct. -/
theorem session_order_free (hserde : serde.Strict) (hblind : serde.OrderBlind)
    (path : MemoryPath) (actions : List String)
    (hins : List.Forall₂ SessionStep.SameSeen ins ins')
    (htick : TicksBelowMax serde path actions (.fresh path actions) ins) :
    let M := sessionMachine serde path actions
    let start : Session F := .fresh path actions
    (M.outputs start ins).map Session.view = (M.outputs start ins').map Session.view ∧
    ∀ k, (M.final start (ins.take k)).running = (M.final start (ins'.take k)).running ∧
      ∀ e, (M.final start (ins.take k)).running = some e →
        (∀ fp fp' b b', e.memory.buckets.lookup fp = some b →
          e.memory.buckets.lookup fp' = some b' → b.lastUsed = b'.lastUsed → fp = fp') ∧
        ∀ o o' : BucketOrder F, minKey o Bucket.evictKey e.memory.buckets =
          minKey o' Bucket.evictKey e.memory.buckets := by
  intro M start
  have hfresh := Session.stamped_fresh serde path actions
  refine ⟨(run_sameSeen hserde hblind path actions hfresh ⟨rfl, rfl⟩ hins htick).2.2,
    fun k => ?_⟩
  have hprefix : TicksBelowMax serde path actions (.fresh path actions) (ins.take k) := by
    intro j hj
    rw [List.length_take, lt_min_iff] at hj
    rw [List.take_take, min_eq_left hj.1.le]
    exact htick j hj.2
  obtain ⟨hst, hsame, -⟩ := run_sameSeen hserde hblind path actions hfresh ⟨rfl, rfl⟩
    (List.forall₂_take k hins) hprefix
  refine ⟨hsame.running, fun e he => ?_⟩
  have hstamped := (hst.running e he).stored.1
  exact ⟨hstamped.distinct, minKey_congr hstamped.evictKey⟩

end Runs

/-! ## A session in two orders -/

/-- The bucket of a window of `rustc` that has paid in full. -/
noncomputable def paidBucket : Bucket (ExtNum ℝ) :=
  ⟨1, 1, (∅ : Finmap fun _ : String => ActionStats (ExtNum ℝ)).insert "performance" ⟨1, .num 1⟩⟩

/-- The store after this window and an empty one. -/
noncomputable def twoWindows (dirty : UInt64) : EpisodeMemory (ExtNum ℝ) :=
  { (.fresh defaultMemoryPath ["performance", "powersave"] : EpisodeMemory (ExtNum ℝ)) with
    buckets := ((∅ : Buckets (ExtNum ℝ)).insert 1 paidBucket).insert 0 ⟨0, 2, ∅⟩
    tick := 2
    dirtySinceSave := dirty }

/-- The text of its record, with the buckets in one order or in the other. -/
def twoWindowsText (swapped : Bool) : String :=
  let paid := "    \"1\": \x7b\n      \"total_visits\": 1,\n      \"last_used\": 1,\n" ++
    "      \"actions\": \x7b\n        \"performance\": \x7b\n          \"visits\": 1,\n" ++
    "          \"ema_reward\": 1.0\n        \x7d\n      \x7d\n    \x7d"
  let empty := "    \"0\": \x7b\n      \"total_visits\": 0,\n      \"last_used\": 2,\n" ++
    "      \"actions\": \x7b\x7d\n    \x7d"
  "\x7b\n  \"tick\": 2,\n  \"buckets\": \x7b\n" ++
    (if swapped then empty ++ ",\n" ++ paid else paid ++ ",\n" ++ empty) ++ "\n  \x7d\n\x7d"

/-- A library that knows this record, and writes it as the order of the buckets demands. -/
noncomputable def Serde.twoOrders : Serde (ExtNum ℝ) :=
  .ofTexts [((twoWindows 0).toFile byFingerprint, twoWindowsText false),
    ((twoWindows 0).toFile byFingerprint, twoWindowsText true)]

/-- The calls of two windows, whatever the orders are. -/
lemma twoWindows_calls (serde : Serde (ExtNum ℝ)) (order order' order'' : BucketOrder (ExtNum ℝ))
    (io : SaveIo (ExtNum ℝ)) (prior prior' : String) :
    (storeMachine serde).final
        ⟨.fresh defaultMemoryPath ["performance", "powersave"], none⟩
        [.select order 1 prior, .update order' io 1 "performance" (.num 1),
          .select order'' 0 prior'] =
      ⟨twoWindows 1, none⟩ := by
  let empty : EpisodeMemory (ExtNum ℝ) := .fresh defaultMemoryPath ["performance", "powersave"]
  let selected : EpisodeMemory (ExtNum ℝ) :=
    { empty with buckets := (∅ : Buckets (ExtNum ℝ)).insert 1 ⟨0, 1, ∅⟩, tick := 1 }
  let paid : EpisodeMemory (ExtNum ℝ) :=
    { empty with
      buckets := (∅ : Buckets (ExtNum ℝ)).insert 1 paidBucket, tick := 1, dirtySinceSave := 1 }
  have hselected : empty.touch order 1 = selected := by
    have hempty : empty.buckets = ∅ := rfl
    have hlen : (∅ : Buckets (ExtNum ℝ)).len < maxBuckets := by decide
    unfold EpisodeMemory.touch
    dsimp only
    rw [hempty, makeRoom_of_lt order 1 hlen, entryOrNew_of_notMem Finmap.notMem_empty]
    rfl
  have hpaid : selected.credit order' 1 "performance" (.num 1) = paid := by
    have hlookup : selected.buckets.lookup 1 = some ⟨0, 1, ∅⟩ := lookup_insert _
    unfold EpisodeMemory.credit
    dsimp only
    rw [makeRoom_of_mem order' (mem_of_lookup_eq_some hlookup), entryOrNew_of_lookup hlookup,
      ExtNum.clamp_unit zero_le_one le_rfl]
    have hrecord : Bucket.record selected.tick "performance" (.num 1) ⟨0, 1, ∅⟩ = paidBucket := by
      unfold Bucket.record
      rw [lookup_empty]
      rfl
    rw [hrecord, show selected.buckets = (∅ : Buckets (ExtNum ℝ)).insert 1 ⟨0, 1, ∅⟩ from rfl,
      insert_insert]
    rfl
  have hlast : paid.touch order'' 0 = twoWindows 1 := by
    have hnew : (0 : UInt64) ∉ paid.buckets := by
      rw [Finmap.mem_insert, not_or]
      exact ⟨by decide, Finmap.notMem_empty⟩
    have hlen : paid.buckets.len < maxBuckets := by
      rw [len_insert_of_notMem Finmap.notMem_empty]
      decide
    unfold EpisodeMemory.touch
    dsimp only
    rw [makeRoom_of_lt order'' 0 hlen, entryOrNew_of_notMem hnew]
    rfl
  have hupdate : Stored.step serde ⟨selected, none⟩
      (.update order' io 1 "performance" (.num 1)) = (⟨paid, none⟩, ⟨none, none⟩) := by
    have hdirty : ¬ saveEvery ≤ paid.dirtySinceSave.toNat := by decide
    unfold Stored.step EpisodeMemory.update
    dsimp only
    rw [hpaid, if_neg hdirty]
  simp only [Machine.final_cons, Machine.final_nil, storeMachine, Stored.step_select, hselected,
    hupdate, hlast, empty]

/-- Two windows of a new engine on a busy machine, in any orders. -/
lemma twoWindows_run (serde : Serde (ExtNum ℝ)) {env env' : DecideEnv (ExtNum ℝ)}
    (hreadings : env.readings = busyReadings 1000)
    (hreadings' : env'.readings = busyReadings 1100) :
    ((policyMachine serde).final (.fresh defaultMemoryPath ["performance", "powersave"])
      [(env, windowOf 1), (env', [])]).stored = ⟨twoWindows 1, none⟩ := by
  have hinv := Policy.inv_fresh (F := ExtNum ℝ) defaultMemoryPath ["performance", "powersave"]
  have hfingerprint : fingerprint (windowOf 1) = 1 := fingerprint_windowOf (by decide)
  have hgovernor : (Policy.decide serde (.fresh defaultMemoryPath ["performance", "powersave"]) env
      (windowOf 1)).2.decision.governor = "performance" := by
    refine Policy.decide_new serde hinv env (Finmap.notMem_empty) ?_ List.mem_cons_self
    rw [softLabel_eq, hfingerprint]
    rfl
  obtain ⟨prior, prior', hcalls⟩ := two_calls serde hinv rfl (env, windowOf 1) (env', [])
  rw [Policy.decide_fingerprint, hgovernor] at hcalls
  dsimp only at hcalls
  have hempty : fingerprintBits (encodeEvents []) = 0 := by decide
  rw [hreadings, hreadings', busy_reward _ (by decide : (1000 : UInt64) < 1100), hempty,
    show fingerprintBits (encodeEvents (windowOf 1)) = 1 from hfingerprint] at hcalls
  rw [policyMachine_stored, hcalls]
  exact twoWindows_calls ..

/-- The answers of a session in one order or in the other. -/
noncomputable def orderedEnv (swapped : Bool) (total : UInt64) : DecideEnv (ExtNum ℝ) :=
  let order : BucketOrder (ExtNum ℝ) := if swapped then byFingerprint.reverse else byFingerprint
  { DecideEnv.busy total with updateOrder := order, selectOrder := order }

/-- A save that walks the buckets in one order or in the other. -/
noncomputable def orderedIo (swapped : Bool) : SaveIo (ExtNum ℝ) :=
  ⟨(orderedEnv swapped 0).selectOrder, true, if swapped then 1 else 0, .complete⟩

/-- The buckets of a file in one order or in the other. -/
def orderedFile (swapped : Bool) : IterOrder String (Bucket (ExtNum ℝ)) :=
  if swapped then (IterOrder.sorted (· ≤ ·)).reverse else IterOrder.sorted (· ≤ ·)

/-- Two windows, a restart, and one more window. -/
noncomputable def orderedSteps (swapped : Bool) : List (SessionStep (ExtNum ℝ)) :=
  [.decide (orderedEnv swapped 1000) (windowOf 1), .decide (orderedEnv swapped 1100) [],
    .restart (some (orderedIo swapped)) true (orderedFile swapped),
    .decide (orderedEnv swapped 1200) (windowOf 1)]

lemma twoOrders_nodup : ([((twoWindows 0).toFile byFingerprint, twoWindowsText false),
    ((twoWindows 0).toFile byFingerprint, twoWindowsText true)].map Prod.snd).Nodup := by
  have hne : twoWindowsText false ≠ twoWindowsText true := by decide +kernel
  simpa using hne

lemma twoWindows_finite (dirty : UInt64) : (twoWindows dirty).Finite := by
  intro fp b hb g s hs
  simp only [twoWindows, lookup_insert_eq_ite, lookup_empty] at hb
  split_ifs at hb <;> cases hb
  · rw [lookup_empty] at hs
    cases hs
  · simp only [paidBucket, lookup_insert_eq_ite, lookup_empty] at hs
    split_ifs at hs
    cases hs
    rfl

/-- The two texts have one size. -/
lemma twoOrders_strict : Serde.twoOrders.Strict ∧ Serde.twoOrders.OrderBlind := by
  have hsame : (twoWindowsText false).utf8ByteSize = (twoWindowsText true).utf8ByteSize := by
    decide +kernel
  refine ⟨ofTexts_strict twoOrders_nodup ?_ (size_eq_of_pair hsame),
    ofTexts_orderBlind (size_eq_of_pair hsame)⟩
  rintro e he
  rcases List.mem_pair.mp he with rfl | rfl <;> exact (toFile_finite _ _).mpr (twoWindows_finite 0)

/-- It writes the record in the order that is asked for, and reads both texts. -/
lemma twoOrders_spec (swapped : Bool) (order : BucketOrder (ExtNum ℝ)) (dirty : UInt64) :
    Serde.twoOrders.toStringPretty (if swapped then 1 else 0) ((twoWindows dirty).toFile order) =
        some (twoWindowsText swapped) ∧
      Serde.twoOrders.fromStr (twoWindowsText swapped) =
        some ((twoWindows 0).toFile byFingerprint) := by
  have hrecord : (twoWindows dirty).toFile order = (twoWindows 0).toFile byFingerprint :=
    toFile_congr order byFingerprint rfl rfl
  constructor
  · rw [hrecord]
    unfold Serde.twoOrders Serde.ofTexts
    cases swapped <;> simp
  · refine readText_of_mem twoOrders_nodup ?_
    cases swapped <;> simp

/-- The restart writes what was learned in its own order, and finds it. -/
lemma step_orderedRestart (swapped : Bool) {p : Policy (ExtNum ℝ)}
    (hp : p.stored = ⟨twoWindows 1, none⟩) :
    (Session.step Serde.twoOrders defaultMemoryPath ["performance", "powersave"]
      ⟨some p.engine, p.disk⟩ (.restart (some (orderedIo swapped)) true (orderedFile swapped))).1 =
        ⟨some ⟨twoWindows 0, .new, none, false⟩, some (twoWindowsText swapped).toUTF8⟩ := by
  obtain ⟨⟨memory, metrics, pending, primed⟩, disk⟩ := p
  obtain ⟨rfl, rfl⟩ : memory = twoWindows 1 ∧ disk = none :=
    ⟨congrArg Stored.memory hp, congrArg Stored.disk hp⟩
  obtain ⟨hwrites, -⟩ := twoOrders_spec swapped (orderedIo swapped).order 1
  obtain ⟨-, hreads⟩ := twoOrders_spec swapped (orderedIo swapped).order 0
  have hsave := save_complete (orderedIo swapped) none rfl rfl hwrites
  have hopen := open_written hreads (orderedFile swapped)
  change EpisodeMemory.open Serde.twoOrders true (orderedFile swapped)
    (some (twoWindowsText swapped).toUTF8) defaultMemoryPath ["performance", "powersave"] =
      .ok (twoWindows 0) at hopen
  unfold Session.step Session.flushed Policy.flush PolicyEngine.open
  dsimp only
  rw [hsave, hopen]
  rfl

/-- A call on a running engine advances its clock. -/
lemma step_decide_tick (serde : Serde (ExtNum ℝ)) (path : MemoryPath) (actions : List String)
    {s : Session (ExtNum ℝ)} {tick : UInt64} (h : ∀ e, s.running = some e → e.memory.tick = tick)
    (env : DecideEnv (ExtNum ℝ)) (events : List ProcessEvent) :
    ∀ e, (s.step serde path actions (.decide env events)).1.running = some e →
      e.memory.tick = tick.saturatingAdd 1 := by
  obtain ⟨running, disk⟩ := s
  intro e he
  cases running with
  | none => cases he
  | some e₀ =>
    obtain rfl := Option.some.inj he
    have htick : e₀.memory.tick = tick := h e₀ rfl
    rw [← htick]
    exact Policy.decide_tick env events

/-- The session up to its restart. -/
lemma orderedSteps_restart (swapped : Bool) :
    (sessionMachine Serde.twoOrders defaultMemoryPath ["performance", "powersave"]).final
      (.fresh defaultMemoryPath ["performance", "powersave"]) ((orderedSteps swapped).take 3) =
        ⟨some ⟨twoWindows 0, .new, none, false⟩, some (twoWindowsText swapped).toUTF8⟩ :=
  step_orderedRestart swapped (twoWindows_run Serde.twoOrders rfl rfl)

/-- **Two orders.** Two buckets are written in one order and in the other, and read back in one
order and in the other: the files differ, and the decisions and the engines do not. -/
theorem session_order_free_two_orders :
    let M := sessionMachine Serde.twoOrders defaultMemoryPath ["performance", "powersave"]
    let start : Session (ExtNum ℝ) := .fresh defaultMemoryPath ["performance", "powersave"]
    (M.outputs start (orderedSteps false)).map Session.view =
        (M.outputs start (orderedSteps true)).map Session.view ∧
      (M.final start ((orderedSteps false).take 3)).disk = some (twoWindowsText false).toUTF8 ∧
      (M.final start ((orderedSteps true).take 3)).disk = some (twoWindowsText true).toUTF8 ∧
      (M.final start ((orderedSteps false).take 4)).running =
        (M.final start ((orderedSteps true).take 4)).running := by
  intro M start
  have hdecide : ∀ total events, SessionStep.SameSeen (.decide (orderedEnv false total) events)
      (.decide (orderedEnv true total) events) := fun total events =>
    @SessionStep.SameSeen.decide _ (orderedEnv false total) (orderedEnv true total) rfl rfl
      ⟨rfl, rfl⟩ events
  have hrestart : SessionStep.SameSeen
      (.restart (some (orderedIo false)) true (orderedFile false))
      (.restart (some (orderedIo true)) true (orderedFile true)) :=
    @SessionStep.SameSeen.flush _ (orderedIo false) (orderedIo true) ⟨rfl, rfl⟩ true _ _
  have hins : List.Forall₂ SessionStep.SameSeen (orderedSteps false) (orderedSteps true) :=
    .cons (hdecide _ _) (.cons (hdecide _ _) (.cons hrestart (.cons (hdecide _ _) .nil)))
  have htick : TicksBelowMax Serde.twoOrders defaultMemoryPath ["performance", "powersave"]
      (.fresh defaultMemoryPath ["performance", "powersave"]) (orderedSteps false) := by
    have h₀ : ∀ e, start.running = some e → e.memory.tick = 0 := by
      rintro e ⟨⟩
      rfl
    have h₁ := step_decide_tick Serde.twoOrders defaultMemoryPath ["performance", "powersave"] h₀
      (orderedEnv false 1000) (windowOf 1)
    have h₂ := step_decide_tick Serde.twoOrders defaultMemoryPath ["performance", "powersave"] h₁
      (orderedEnv false 1100) []
    intro k hk e he
    have hcases : k = 0 ∨ k = 1 ∨ k = 2 ∨ k = 3 := by
      change k < 4 at hk
      omega
    rcases hcases with rfl | rfl | rfl | rfl
    · rw [h₀ e he]
      decide
    · rw [h₁ e he]
      decide
    · rw [h₂ e he]
      decide
    · rw [orderedSteps_restart] at he
      cases he
      decide
  have h := session_order_free twoOrders_strict.1 twoOrders_strict.2 defaultMemoryPath
    ["performance", "powersave"] hins htick
  exact ⟨h.1, congrArg Session.disk (orderedSteps_restart false),
    congrArg Session.disk (orderedSteps_restart true), (h.2 4).1⟩

end Foverin
