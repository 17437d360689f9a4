import Foverin.Lib.Decimal
import Foverin.Lib.Machine
import Foverin.Memory.Store

set_option relaxedAutoImplicit false
set_option autoImplicit false

/-!
# The memory file

The file operations of `foverin/src/memory.rs`: `open`, `save`, and the autosave inside
`update`.  The JSON library is a parameter (`Serde`), and so are the answers of the file system
(`SaveIo`).  The file at the store's path is a byte sequence, or absent (`Disk`).

`storeMachine` is the store together with its file, driven by calls of `select`, `update` and
`save` in any order.

## Main definitions

* `Foverin.MemoryFile`, `Foverin.Serde` — the persisted record and the JSON library.
* `Foverin.EpisodeMemory.open`, `Foverin.EpisodeMemory.save`, `Foverin.EpisodeMemory.update`.
* `Foverin.StoreOp`, `Foverin.storeMachine` — calls on a store and their runs.
-/

namespace Foverin

open Finmap FloatOps

variable {F : Type}

/-! ## The file format -/

/-- `MemoryFile`: the persisted record.  Bucket keys are decimal strings. -/
structure MemoryFile (F : Type) where
  tick : UInt64
  buckets : Finmap fun _ : String => Bucket F
  deriving DecidableEq

/-- The JSON library on `MemoryFile`.  The number stands for the order in which the library
walks over the hash maps of the record. -/
structure Serde (F : Type) where
  /-- `serde_json::to_string_pretty`. -/
  toStringPretty : ℕ → MemoryFile F → Option String
  /-- `serde_json::from_str`. -/
  fromStr : String → Option (MemoryFile F)

/-- The content of the file at the store's path; `none` where `is_file` is false. -/
abbrev Disk := Option ByteArray

/-! ## Opening -/

/-- The default of `open` for an empty action list. -/
def actionsOrDefault (actions : List String) : { l : List String // l ≠ [] } :=
  if h : actions = [] then ⟨["performance", "powersave"], by simp⟩ else ⟨actions, h⟩

/-- A bucket key of the file, read as `u64`. -/
def parseKey (k : String) : Except String UInt64 :=
  match Decimal.parseU64 k with
  | some key => .ok key
  | none => .error ("bucket key `" ++ k ++ "`")

/-- The loop of `open` over `file.buckets`: parse every key, in iteration order. -/
def parseBuckets (order : IterOrder String (Bucket F)) (file : MemoryFile F) :
    Except String (Buckets F) := do
  let entries ← (order.visit file.buckets).mapM fun e => do
    let key ← parseKey e.1
    return (⟨key, e.2⟩ : Σ _ : UInt64, Bucket F)
  return ofEntries entries

/-- `fs::read_to_string` followed by `serde_json::from_str`; `readOk` is the answer of the file
system. -/
def readFile (serde : Serde F) (readOk : Bool) (path : MemoryPath) (bytes : ByteArray) :
    Except String (MemoryFile F) :=
  match if readOk then String.fromUTF8? bytes else none with
  | none => .error ("read memory " ++ path.display)
  | some raw =>
    match serde.fromStr raw with
    | none => .error ("parse memory " ++ path.display)
    | some file => .ok file

namespace EpisodeMemory

/-- The store that `open` builds where there is no file. -/
def fresh (path : MemoryPath) (actions : List String) : EpisodeMemory F :=
  { buckets := ∅
    actions := (actionsOrDefault actions).1
    actions_ne := (actionsOrDefault actions).2
    tick := 0
    path := path
    dirtySinceSave := 0 }

/-- `EpisodeMemory::open`. -/
def «open» (serde : Serde F) (readOk : Bool) (order : IterOrder String (Bucket F)) (disk : Disk)
    (path : MemoryPath) (actions : List String) : Except String (EpisodeMemory F) :=
  match disk with
  | some bytes => do
    let file ← readFile serde readOk path bytes
    let buckets ← parseBuckets order file
    return {
      buckets := buckets
      actions := (actionsOrDefault actions).1
      actions_ne := (actionsOrDefault actions).2
      tick := file.tick
      path := path
      dirtySinceSave := 0 }
  | none => .ok (fresh path actions)

end EpisodeMemory

/-! ## Saving -/

/-- How `fs::write` ends: completely, before the target could be opened, or after it was
truncated and some of the bytes were written. -/
inductive WriteOutcome where
  | complete
  | notOpened
  | cutAt (bytes : ℕ)
  deriving DecidableEq

/-- The answers of the environment during one `save`. -/
structure SaveIo (F : Type) where
  /-- The order in which `save` copies the buckets. -/
  order : BucketOrder F
  /-- Whether `create_dir_all` succeeds. -/
  createDir : Bool
  /-- The order in which the JSON library walks over the record. -/
  layout : ℕ
  /-- How `fs::write` ends. -/
  write : WriteOutcome

/-- A JSON library for runs that never read or write a file. -/
def Serde.idle : Serde F := ⟨fun _ _ => none, fun _ => none⟩

/-- Answers for runs that never write a file. -/
def SaveIo.idle : SaveIo F := ⟨byFingerprint, true, 0, .complete⟩

/-- `fs::write`: create and truncate, then write the bytes. -/
def fsWrite (outcome : WriteOutcome) (contents : ByteArray) (disk : Disk) : Bool × Disk :=
  match outcome with
  | .complete => (true, some contents)
  | .notOpened => (false, disk)
  | .cutAt k => (false, some (contents.extract 0 k))

/-- What a `save` leaves behind. -/
structure SaveResult (F : Type) where
  result : Except String Unit
  memory : EpisodeMemory F
  disk : Disk

namespace EpisodeMemory

/-- The record that `save` writes: every bucket under its decimal key. -/
def toFile (order : BucketOrder F) (m : EpisodeMemory F) : MemoryFile F :=
  { tick := m.tick
    buckets := ofEntries ((order.visit m.buckets).map fun e => ⟨Decimal.printU64 e.1, e.2⟩) }

/-- `EpisodeMemory::save`: the counter is reset only after the write. -/
def save (serde : Serde F) (io : SaveIo F) (m : EpisodeMemory F) (disk : Disk) : SaveResult F :=
  match m.path.parent.filter (· ≠ "") with
  | some parent =>
    if io.createDir then write disk
    else ⟨.error ("create " ++ parent), m, disk⟩
  | none => write disk
where
  /-- Serialise and write. -/
  write (disk : Disk) : SaveResult F :=
    match serde.toStringPretty io.layout (m.toFile io.order) with
    | none => ⟨.error "serialize memory", m, disk⟩
    | some json =>
      match fsWrite io.write json.toUTF8 disk with
      | (true, disk) => ⟨.ok (), { m with dirtySinceSave := 0 }, disk⟩
      | (false, disk) => ⟨.error ("write memory " ++ m.path.display), m, disk⟩

end EpisodeMemory

/-! ## The store as a machine -/

/-- The store together with the file at its path. -/
structure Stored (F : Type) where
  memory : EpisodeMemory F
  disk : Disk

/-- A call on the store, with the answers of its environment. -/
inductive StoreOp (F : Type) where
  | select (order : BucketOrder F) (fingerprint : UInt64) (priorGovernor : String)
  | update (order : BucketOrder F) (io : SaveIo F) (fingerprint : UInt64) (governor : String)
      (reward : F)
  | save (io : SaveIo F)

/-- Whether a call is an update. -/
def StoreOp.isUpdate : StoreOp F → Bool
  | .update .. => true
  | _ => false

/-- What a call returns: the selection of a `select`, and whether a save that it attempted
succeeded. -/
structure StoreOut (F : Type) where
  selection : Option (Selection F)
  saved : Option Bool

variable [FloatOps F]

/-- `EpisodeMemory::update`: credit, then save once twelve updates are unsaved.  The outcome of
the save is dropped; it is part of the result here to state facts about it. -/
def EpisodeMemory.update (serde : Serde F) (order : BucketOrder F) (io : SaveIo F)
    (fingerprint : UInt64) (governor : String) (reward : F) (m : EpisodeMemory F) (disk : Disk) :
    Option Bool × Stored F :=
  let m := m.credit order fingerprint governor reward
  if saveEvery ≤ m.dirtySinceSave.toNat then
    let r := m.save serde io disk
    (some (Except.isOk r.result), ⟨r.memory, r.disk⟩)
  else (none, ⟨m, disk⟩)

/-- One call on the store. -/
def Stored.step (serde : Serde F) (w : Stored F) : StoreOp F → Stored F × StoreOut F
  | .select order fingerprint priorGovernor =>
    let (selection, m) := w.memory.select order fingerprint priorGovernor
    (⟨m, w.disk⟩, ⟨some selection, none⟩)
  | .update order io fingerprint governor reward =>
    let (saved, w') := w.memory.update serde order io fingerprint governor reward w.disk
    (w', ⟨none, saved⟩)
  | .save io =>
    let r := w.memory.save serde io w.disk
    (⟨r.memory, r.disk⟩, ⟨none, some (Except.isOk r.result)⟩)

/-- Calls on a store in any order. -/
def storeMachine (serde : Serde F) : Machine (Stored F) (StoreOp F) (StoreOut F) :=
  ⟨Stored.step serde⟩

end Foverin
