import Foverin.Lib.ExtNum
import Foverin.Lib.FiniteMap
import Foverin.Lib.Saturating
import Mathlib.Data.Prod.Lex
import Mathlib.Data.String.Basic

set_option relaxedAutoImplicit false
set_option autoImplicit false

/-!
# The episodic store

`foverin/src/memory.rs`, without its file operations: context fingerprints map to buckets, a
bucket keeps visit counts and an exponential moving average (EMA) of the rewards of each
governor, and a governor is selected by UCB1.

The `f32` arithmetic is a parameter `F` (`FloatOps`).  The bucket table is a hash map; every
operation that may walk over it takes the iteration order as an argument.

## Main definitions

* `Foverin.ActionStats`, `Foverin.Bucket`, `Foverin.EpisodeMemory` — the data.
* `Foverin.evictIfNeeded` — make room for one bucket.
* `Foverin.EpisodeMemory.select` — the UCB1 choice.
* `Foverin.EpisodeMemory.credit` — an update up to its autosave.
-/

namespace Foverin

open Finmap FloatOps

/-! ## Constants -/

/-- `MAX_BUCKETS`. -/
def maxBuckets : ℕ := 4096

/-- `SAVE_EVERY`: about a minute of five-second ticks. -/
def saveEvery : ℕ := 12

/-! ## Data -/

/-- The statistics of one governor in one bucket. -/
structure ActionStats (F : Type) where
  visits : UInt32
  emaReward : F
  deriving DecidableEq

/-- `Bucket`: the statistics of one fingerprint. -/
structure Bucket (F : Type) where
  totalVisits : UInt32
  lastUsed : UInt64
  actions : Finmap fun _ : String => ActionStats F
  deriving DecidableEq

/-- The bucket table. -/
abbrev Buckets (F : Type) := Finmap fun _ : UInt64 => Bucket F

/-- An iteration order of the bucket table. -/
abbrev BucketOrder (F : Type) := IterOrder UInt64 (Bucket F)

instance isTrans_toNat_le : IsTrans UInt64 fun a b => a.toNat ≤ b.toNat := ⟨fun _ _ _ => le_trans⟩

instance antisymm_toNat_le : Std.Antisymm fun a b : UInt64 => a.toNat ≤ b.toNat :=
  ⟨fun _ _ h h' => UInt64.toNat_inj.mp (le_antisymm h h')⟩

instance total_toNat_le : Std.Total fun a b : UInt64 => a.toNat ≤ b.toNat :=
  ⟨fun _ _ => le_total _ _⟩

/-- The buckets by increasing fingerprint: one possible iteration order. -/
def byFingerprint {F : Type} : BucketOrder F :=
  IterOrder.sorted fun a b : UInt64 => a.toNat ≤ b.toNat

/-- What the store does with its path: it shows it in error texts and creates the directory
above it. -/
structure MemoryPath where
  display : String
  /-- `Path::parent`. -/
  parent : Option String
  deriving DecidableEq

/-- `DEFAULT_MEMORY_PATH`; the parent of a bare file name is the empty path. -/
def defaultMemoryPath : MemoryPath := ⟨"foverin_memory.json", some ""⟩

/-- `EpisodeMemory`: the store.  `open` replaces an empty action list by a default, so that the
list is never empty. -/
structure EpisodeMemory (F : Type) where
  buckets : Buckets F
  actions : List String
  actions_ne : actions ≠ []
  tick : UInt64
  path : MemoryPath
  dirtySinceSave : UInt64

/-- `Selection`: the result of a UCB selection. -/
structure Selection (F : Type) where
  governor : String
  /-- Confidence percentage derived from visits and margin. -/
  confidence : F
  deriving DecidableEq

variable {F : Type}

/-- `Bucket::new`. -/
def Bucket.new (tick : UInt64) : Bucket F := ⟨0, tick, ∅⟩

/-! ## Eviction -/

/-- What `evict_if_needed` compares: the visits first, then the time of the last use. -/
def Bucket.evictKey (b : Bucket F) : ℕ ×ₗ ℕ := toLex (b.totalVisits.toNat, b.lastUsed.toNat)

/-- `evict_if_needed`: as long as the table is full, remove the first least bucket.  One bucket
goes in every round, so that the number of buckets is enough fuel. -/
def evictIfNeeded (order : BucketOrder F) (buckets : Buckets F) : Buckets F :=
  popMins order Bucket.evictKey maxBuckets buckets.len buckets

/-- Eviction unless the fingerprint is resident: the first step of `select` and of `update`. -/
def makeRoom (order : BucketOrder F) (fingerprint : UInt64) (buckets : Buckets F) : Buckets F :=
  if fingerprint ∈ buckets then buckets else evictIfNeeded order buckets

/-- `entry(fingerprint).or_insert_with(|| Bucket::new(tick))`, as a value. -/
def entryOrNew (fingerprint : UInt64) (tick : UInt64) (buckets : Buckets F) : Bucket F :=
  (buckets.lookup fingerprint).getD (Bucket.new tick)

section Arithmetic

variable [FloatOps F]

/-- `ActionStats::default`. -/
def ActionStats.default : ActionStats F := ⟨0, lit 0.5⟩

/-! ## Selection -/

/-- `ln_n` of a bucket: the logarithm of its visits (at least one) plus one. -/
def Bucket.lnN (b : Bucket F) : F := ln (ofNat (Max.max b.totalVisits.toNat 1) + lit 1)

/-- The visits and the reward estimate that `select` uses for an action: those recorded, or a
cold-start prior. -/
def Bucket.estimate (b : Bucket F) (priorGovernor action : String) : UInt32 × F :=
  match b.actions.lookup action with
  | some s => (s.visits, s.emaReward)
  | none => (0, if action = priorGovernor then lit 0.72 else lit 0.45)

/-- The upper confidence bound of an estimate, with `UCB_C = 0.7`. -/
def ucb (lnN : F) (visits : UInt32) (ema : F) : F :=
  ema + lit 0.7 * sqrt (lnN / (ofNat visits.toNat + lit 1))

/-- The local variables of the loop in `select`. -/
structure Scan (F : Type) where
  bestGov : String
  bestUcb : F
  secondUcb : F
  bestVisits : UInt32

/-- The loop variables before the first action. -/
def Scan.start (first : String) : Scan F := ⟨first, negInf, negInf, 0⟩

/-- One round of the loop in `select`. -/
def Scan.visit (b : Bucket F) (priorGovernor : String) (s : Scan F) (action : String) : Scan F :=
  let (visits, ema) := b.estimate priorGovernor action
  let u := ucb b.lnN visits ema
  if lt s.bestUcb u then
    { bestGov := action, bestUcb := u, secondUcb := s.bestUcb, bestVisits := visits }
  else if lt s.secondUcb u then { s with secondUcb := u }
  else s

/-- The confidence that `select` reports for the final loop variables. -/
def Scan.confidence (s : Scan F) : F :=
  let margin := if isFinite s.secondUcb then FloatOps.max (s.bestUcb - s.secondUcb) (lit 0)
    else lit 1
  let visitConf := FloatOps.min (ofNat s.bestVisits.toNat * lit 5) (lit 100)
  let marginConf := FloatOps.min (margin * lit 80) (lit 100)
  clamp (FloatOps.max visitConf marginConf) (lit 5) (lit 100)

/-- The loop of `select` over a list of actions. -/
def Bucket.scan (b : Bucket F) (priorGovernor : String) (actions : List String)
    (h : actions ≠ []) : Scan F :=
  actions.foldl (Scan.visit b priorGovernor) (Scan.start (actions.head h))

namespace EpisodeMemory

/-- The state after `select`: the tick advances and the bucket is resident and stamped. -/
def touch (order : BucketOrder F) (fingerprint : UInt64) (m : EpisodeMemory F) :
    EpisodeMemory F :=
  let tick := m.tick.saturatingAdd 1
  let buckets := makeRoom order fingerprint m.buckets
  let bucket := { entryOrNew fingerprint tick buckets with lastUsed := tick }
  { m with tick := tick, buckets := buckets.insert fingerprint bucket }

/-- `EpisodeMemory::select`: UCB1 selection of a governor for `fingerprint`.  The loop only
reads the bucket, after it has been stamped. -/
def select (order : BucketOrder F) (fingerprint : UInt64) (priorGovernor : String)
    (m : EpisodeMemory F) : Selection F × EpisodeMemory F :=
  let m' := m.touch order fingerprint
  let bucket := entryOrNew fingerprint m'.tick m'.buckets
  let s := bucket.scan priorGovernor m.actions m.actions_ne
  ({ governor := s.bestGov, confidence := s.confidence }, m')

end EpisodeMemory

/-! ## Credit -/

/-- The statistics after one more reward: the first reward replaces the default average, and
`EMA_ALPHA = 0.2` weighs every later one. -/
def ActionStats.record (reward : F) (s : ActionStats F) : ActionStats F :=
  { visits := s.visits.saturatingAdd 1
    emaReward :=
      if s.visits = 0 then reward
      else (lit 1 - lit 0.2) * s.emaReward + lit 0.2 * reward }

/-- The bucket after one more reward for `governor`. -/
def Bucket.record (tick : UInt64) (governor : String) (reward : F) (b : Bucket F) : Bucket F :=
  { totalVisits := b.totalVisits.saturatingAdd 1
    lastUsed := tick
    actions := b.actions.insert governor
      (((b.actions.lookup governor).getD ActionStats.default).record reward) }

/-- `EpisodeMemory::update` up to its autosave: credit `(fingerprint, governor)` with a reward
and count one unsaved update. -/
def EpisodeMemory.credit (order : BucketOrder F) (fingerprint : UInt64) (governor : String)
    (reward : F) (m : EpisodeMemory F) : EpisodeMemory F :=
  let reward := clamp reward (lit 0) (lit 1)
  let buckets := makeRoom order fingerprint m.buckets
  let bucket := entryOrNew fingerprint m.tick buckets
  { m with
    buckets := buckets.insert fingerprint (bucket.record m.tick governor reward)
    dirtySinceSave := m.dirtySinceSave.saturatingAdd 1 }

end Arithmetic

end Foverin
