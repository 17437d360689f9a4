import Foverin.Memory.Autosave
import Foverin.Memory.Averages
import Foverin.Memory.Record

set_option relaxedAutoImplicit false
set_option autoImplicit false

/-!
# Saving and opening

`open` undoes `save` as long as the averages of the store are finite numbers: a non-finite
average is written as `null`, which the reader rejects.  The averages stay finite under calls
with finite rewards, but a file can bring in an infinite one, because a JSON number may exceed
the range of `f32`.

## Main definitions

* `Foverin.EmaFinite` — the arithmetic of the averages stays within the finite numbers.
* `Foverin.Stored.Reached` — the stores that `open`, `select`, `update` and `save` lead to.

## Main results

* `Foverin.Stored.step_finite` — calls with finite rewards keep the averages finite.
* `Foverin.open_undoes_save` — the store is recovered from the file.
* `Foverin.infinite_average_does_not_reopen` — a store with an infinite average is not.
-/

namespace Foverin

open Finmap FloatOps

variable {F : Type}

/-! ## Finite averages -/

section Finite

variable [FloatOps F]

/-- The arithmetic of the averages does not leave the finite numbers. -/
class EmaFinite (F : Type) [FloatOps F] : Prop where
  /-- A finite reward is clamped to a finite one. -/
  clamp_finite : ∀ r : F, isFinite r = true → isFinite (clamp r (lit 0) (lit 1)) = true
  /-- One step of the moving average. -/
  mix_finite : ∀ e r : F, isFinite e = true → isFinite r = true →
    isFinite ((lit 1 - lit 0.2) * e + lit 0.2 * clamp r (lit 0) (lit 1)) = true

/-- Exact numbers are closed under the arithmetic of the averages. -/
instance {K : Type} [Field K] [LinearOrder K] [LogSqrt K] : EmaFinite (ExtNum K) where
  clamp_finite r hr := by
    obtain ⟨x, rfl⟩ := ExtNum.exists_num_of_isFinite hr
    rw [ExtNum.lit_eq, ExtNum.lit_eq, ExtNum.clamp_num, ExtNum.isFinite_num]
  mix_finite e r he hr := by
    obtain ⟨x, rfl⟩ := ExtNum.exists_num_of_isFinite he
    obtain ⟨y, rfl⟩ := ExtNum.exists_num_of_isFinite hr
    simp only [ExtNum.lit_eq, ExtNum.clamp_num, ExtNum.num_sub, ExtNum.num_mul, ExtNum.num_add,
      ExtNum.isFinite_num]

/-- A call whose reward, if it has one, is a finite number. -/
def StoreOp.RewardFinite : StoreOp F → Prop
  | .update _ _ _ _ r => isFinite r = true
  | _ => True

lemma Bucket.Finite.new (tick : UInt64) : (Bucket.new tick : Bucket F).Finite :=
  Bucket.Averages.new (P := fun e => isFinite e = true) tick

lemma emaClosed_finite [EmaFinite F] :
    EmaClosed (fun e : F => isFinite e = true) fun r => isFinite r = true :=
  ⟨EmaFinite.clamp_finite, EmaFinite.mix_finite⟩

/-- Calls with finite rewards keep the averages finite. -/
theorem Stored.step_finite [EmaFinite F] (serde : Serde F) {w : Stored F} (h : w.memory.Finite)
    {op : StoreOp F} (hop : op.RewardFinite) : (w.step serde op).1.memory.Finite := by
  have hrewards : op.Rewards fun r => isFinite r = true := by
    cases op with
    | update order io fp g r => exact hop
    | select order fp prior => trivial
    | save io => trivial
  exact step_averages serde emaClosed_finite h hrewards

/-! ## The round trip -/

/-- The stores that `open`, `select`, `update` and `save` lead to, in any order, from files with
finite averages and with finite rewards. -/
inductive Stored.Reached (serde : Serde F) : Stored F → Prop
  | opened {readOk : Bool} {order : IterOrder String (Bucket F)} {disk : Disk}
      {path : MemoryPath} {actions : List String} {m : EpisodeMemory F}
      (h : EpisodeMemory.open serde readOk order disk path actions = .ok m) (hm : m.Finite) :
      Reached serde ⟨m, disk⟩
  | called {w : Stored F} (h : Reached serde w) {op : StoreOp F} (hop : op.RewardFinite) :
      Reached serde (w.step serde op).1

lemma Stored.Reached.finite [EmaFinite F] {serde : Serde F} {w : Stored F}
    (h : w.Reached serde) : w.memory.Finite := by
  induction h with
  | opened h hm => exact hm
  | called h hop ih => exact Stored.step_finite serde ih hop

/-- Any calls with finite rewards. -/
lemma Stored.Reached.run {serde : Serde F} {w : Stored F} (h : w.Reached serde)
    {ops : List (StoreOp F)} (hops : ∀ op ∈ ops, op.RewardFinite) :
    ((storeMachine serde).final w ops).Reached serde :=
  (storeMachine serde).run_invariant (P := fun w => w.Reached serde) h
    (fun _ _ hop hw => hw.called hop) hops

/-- **`open` undoes `save`.** After a successful save of a reached store, opening the file with
the same actions gives the store that the save left in memory: the same clock, the same table,
and nothing to save.  Saving it again writes an equal record, and all later calls select and
learn the same on both, whatever the file system answers.

**Proof sketch.** The saved text is read back as the record of the store, whose keys are read back
as the fingerprints.  What `open` does not read back, the path and the actions, it is given; so the
two stores agree on all that later calls depend on. -/
theorem open_undoes_save [EmaFinite F] {serde : Serde F} (hserde : serde.ReadsBack)
    {w : Stored F} (hw : w.Reached serde) {io : SaveIo F}
    (hsave : Except.isOk (w.memory.save serde io w.disk).result = true)
    (order : IterOrder String (Bucket F)) :
    let r := w.memory.save serde io w.disk
    ∃ m, EpisodeMemory.open serde true order r.disk w.memory.path w.memory.actions = .ok m ∧
      m.tick = w.memory.tick ∧ m.buckets = w.memory.buckets ∧ m.dirtySinceSave = 0 ∧
      m = r.memory ∧
      (∀ o, m.toFile o = w.memory.toFile io.order) ∧
      ∀ (disk disk' : Disk) (ops ops' : List (StoreOp F)),
        List.Forall₂ StoreOp.SameCall ops ops' →
        ((storeMachine serde).outputs ⟨m, disk⟩ ops).map StoreOut.selection =
            ((storeMachine serde).outputs ⟨w.memory, disk'⟩ ops').map StoreOut.selection ∧
          ((storeMachine serde).final ⟨m, disk⟩ ops).memory.SameLearned
            ((storeMachine serde).final ⟨w.memory, disk'⟩ ops').memory := by
  intro r
  obtain ⟨json, hjson, hdisk⟩ := save_disk_of_ok hsave
  have hread : serde.fromStr json = some (w.memory.toFile io.order) :=
    hserde.readsBack io.layout _ json ((toFile_finite io.order w.memory).mpr hw.finite) hjson
  have hmem : r.memory = { w.memory with dirtySinceSave := 0 } := by
    change (w.memory.save serde io w.disk).memory = _
    rw [EpisodeMemory.save_memory, if_pos hsave]
  refine ⟨{ w.memory with dirtySinceSave := 0 }, ?_, rfl, rfl, rfl, hmem.symm, fun o => ?_,
    fun disk disk' ops ops' hops => ?_⟩
  · change EpisodeMemory.open serde true order (w.memory.save serde io w.disk).disk _ _ = _
    rw [hdisk]
    exact open_written hread order
  · exact toFile_congr o io.order rfl rfl
  · have hm : (⟨{ w.memory with dirtySinceSave := 0 }, disk⟩ : Stored F).memory.SameLearned
        (⟨w.memory, disk'⟩ : Stored F).memory := ⟨rfl, rfl, rfl, rfl⟩
    exact (run_sameCall serde serde hm hops).symm

/-- The text of the store after one more credit. -/
def learnedText : String := twoBucketsText "43" "3" "2" "0.6"

/-- A save of this store writes the text. -/
lemma save_learned (disk : Disk) :
    EpisodeMemory.save (.resaves (twoBuckets 43 3 2 (3 / 5) 0) learnedText) SaveIo.idle
        (twoBuckets 43 3 2 (3 / 5) 1) disk =
      ⟨.ok (), twoBuckets 43 3 2 (3 / 5) 0, some learnedText.toUTF8⟩ := by
  have hwritten : (Serde.resaves (twoBuckets 43 3 2 (3 / 5) 0) learnedText).toStringPretty 0
      ((twoBuckets 43 3 2 (3 / 5) 1).toFile byFingerprint) = some learnedText :=
    resaves_writes (by decide) 0 byFingerprint rfl rfl
  exact save_complete SaveIo.idle disk rfl rfl hwritten

/-- A store with two buckets is opened, learns, is saved and opened again: the greatest key, the
statistics of a governor that is not available and what was learned are all there. -/
theorem open_undoes_save_two_buckets :
    let serde := Serde.resaves (twoBuckets 43 3 2 (3 / 5) 0) learnedText
    let w := (storeMachine serde).final ⟨savedBuckets, some savedText.toUTF8⟩
      [.select byFingerprint 3 "performance",
        .update byFingerprint SaveIo.idle 3 "performance" (.num 1),
        .select byFingerprint 3 "performance"]
    let disk := (w.memory.save serde SaveIo.idle w.disk).disk
    disk = some learnedText.toUTF8 ∧
      ∃ m, EpisodeMemory.open serde true (IterOrder.sorted (· ≤ ·)).reverse disk
          defaultMemoryPath ["performance", "powersave"] = .ok m ∧
        m.tick = 43 ∧ m.buckets.lookup 18446744073709551615 = some ondemandBucket ∧
        m.buckets.lookup 3 = some (compileBucket 43 3 2 (3 / 5)) ∧ m.dirtySinceSave = 0 := by
  intro serde w disk
  have hstrict : serde.Strict :=
    resaves_strict (twoBuckets_finite 43 3 2 (3 / 5) 0) (by decide +kernel) (by decide +kernel)
  have hopened : (⟨savedBuckets, some savedText.toUTF8⟩ : Stored (ExtNum ℝ)).Reached serde :=
    .opened (resaves_opens (IterOrder.sorted (· ≤ ·)) savedBuckets rfl rfl rfl)
      savedBuckets_finite
  have hreached : w.Reached serde := by
    refine hopened.run ?_
    simp only [List.forall_mem_cons, List.not_mem_nil, false_implies, implies_true, and_true]
    exact ⟨trivial, rfl, trivial⟩
  have hw : w = ⟨twoBuckets 43 3 2 (3 / 5) 1, some savedText.toUTF8⟩ :=
    savedBuckets_round ..
  have hmemory : w.memory = twoBuckets 43 3 2 (3 / 5) 1 := congrArg Stored.memory hw
  have hsave : w.memory.save serde SaveIo.idle w.disk =
      ⟨.ok (), twoBuckets 43 3 2 (3 / 5) 0, some learnedText.toUTF8⟩ := by
    rw [hmemory]
    exact save_learned w.disk
  have hok : Except.isOk (w.memory.save serde SaveIo.idle w.disk).result = true := by
    rw [hsave]
    rfl
  obtain ⟨m, hopen, htick, hbuckets, hdirty, -⟩ :=
    open_undoes_save hstrict.toReadsBack hreached hok (IterOrder.sorted (· ≤ ·)).reverse
  have hpath : w.memory.path = defaultMemoryPath := by rw [hmemory]; rfl
  have hactions : w.memory.actions = ["performance", "powersave"] := by rw [hmemory]; rfl
  rw [hpath, hactions] at hopen
  rw [hmemory] at htick hbuckets
  refine ⟨congrArg SaveResult.disk hsave, m, hopen, htick, ?_, ?_, hdirty⟩
  · rw [hbuckets]
    exact lookup_twoBuckets_max 43 3 2 (3 / 5) 1
  · rw [hbuckets]
    exact lookup_twoBuckets 43 3 2 (3 / 5) 1

/-- A file with an average beyond the range of `f32`. -/
def overflowText : String :=
  "\x7b\"tick\":0,\"buckets\":\x7b\"7\":\x7b\"total_visits\":1,\"last_used\":0,\"actions\":" ++
    "\x7b\"powersave\":\x7b\"visits\":1,\"ema_reward\":1e39\x7d\x7d\x7d\x7d\x7d"

/-- The text that is written for it: `null` stands for the infinite average. -/
def nullText : String :=
  "\x7b\n  \"tick\": 0,\n  \"buckets\": \x7b\n    \"7\": \x7b\n      \"total_visits\": 1,\n" ++
    "      \"last_used\": 0,\n      \"actions\": \x7b\n        \"powersave\": \x7b\n" ++
    "          \"visits\": 1,\n          \"ema_reward\": null\n        \x7d\n      \x7d\n" ++
    "    \x7d\n  \x7d\n\x7d"

/-- The bucket that is read from it. -/
def infiniteBucket : Bucket (ExtNum ℝ) :=
  ⟨1, 0, (∅ : Finmap fun _ : String => ActionStats (ExtNum ℝ)).insert "powersave" ⟨1, .posInf⟩⟩

/-- A library that knows these two texts: it reads the number as infinity, writes that as `null`,
and does not read `null` as a number. -/
def Serde.overflowOnly : Serde (ExtNum ℝ) where
  toStringPretty _ f :=
    match (f.buckets.lookup "7").bind fun b => b.actions.lookup "powersave" with
    | some s => if s.emaReward.isFinite then none else some nullText
    | none => none
  fromStr s :=
    if s = overflowText then
      some ⟨0, (∅ : Finmap fun _ : String => Bucket (ExtNum ℝ)).insert "7" infiniteBucket⟩
    else none

/-- It writes no finite record. -/
lemma overflowOnly_readsBack : Serde.overflowOnly.ReadsBack where
  readsBack layout f json hf h := by
    unfold Serde.overflowOnly at h
    dsimp only at h
    split at h
    · rename_i s hs
      obtain ⟨b, hb, hbs⟩ := Option.bind_eq_some_iff.mp hs
      have hfin : s.emaReward.isFinite = true := hf _ b hb _ s hbs
      rw [if_pos hfin] at h
      cases h
    · cases h

/-- The store that the file opens as. -/
def infiniteMemory : EpisodeMemory (ExtNum ℝ) :=
  ⟨(∅ : Buckets (ExtNum ℝ)).insert 7 infiniteBucket, ["powersave"], List.cons_ne_nil _ _, 0,
    defaultMemoryPath, 0⟩

/-- **An infinite average is lost.** The file opens, the store is saved without an error, and the
saved file does not open.

**Proof sketch.** `1e39` is read as an infinite average, which is written as `null`, and `null` is
no number. -/
theorem infinite_average_does_not_reopen :
    Serde.overflowOnly.ReadsBack ∧
      EpisodeMemory.open Serde.overflowOnly true (IterOrder.sorted (· ≤ ·))
        (some overflowText.toUTF8) defaultMemoryPath ["powersave"] = .ok infiniteMemory ∧
      let r := infiniteMemory.save Serde.overflowOnly SaveIo.idle (some overflowText.toUTF8)
      Except.isOk r.result = true ∧
        Except.isOk (EpisodeMemory.open Serde.overflowOnly true (IterOrder.sorted (· ≤ ·)) r.disk
          defaultMemoryPath ["powersave"]) = false := by
  have hfile : infiniteMemory.toFile byFingerprint =
      ⟨0, (∅ : Finmap fun _ : String => Bucket (ExtNum ℝ)).insert "7" infiniteBucket⟩ := by
    have hkey : Decimal.printU64 7 = "7" := by decide
    rw [toFile_singleton byFingerprint rfl, hkey]
    rfl
  have hread : Serde.overflowOnly.fromStr overflowText =
      some (infiniteMemory.toFile byFingerprint) := by
    rw [hfile]
    simp [Serde.overflowOnly]
  have hnull : Serde.overflowOnly.fromStr nullText = none := by
    have hne : nullText ≠ overflowText := by decide
    simp [Serde.overflowOnly, hne]
  have hwrite : Serde.overflowOnly.toStringPretty 0 (infiniteMemory.toFile byFingerprint) =
      some nullText := by
    rw [hfile]
    simp [Serde.overflowOnly, infiniteBucket, lookup_insert, ExtNum.isFinite]
  have hsave := save_complete SaveIo.idle (some overflowText.toUTF8) rfl rfl hwrite
  refine ⟨overflowOnly_readsBack, open_written hread _, ?_⟩
  rw [hsave]
  refine ⟨rfl, open_rejected (fun text h => ?_) true _ defaultMemoryPath ["powersave"]⟩
  rw [String.toByteArray_inj.mp h]
  exact hnull

end Finite

end Foverin
