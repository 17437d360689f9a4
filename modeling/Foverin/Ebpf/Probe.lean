import Foverin.Brain.Fingerprint
import Foverin.Lib.Utf8

set_option relaxedAutoImplicit false
set_option autoImplicit false

/-!
# The kernel probe

`foverin-ebpf/src/main.rs`: on every successful `exec` the probe builds a `ProcessEvent` from the
path that the tracepoint carries, replaces the path by a token if the parent is Steam, and submits
the record to a ring buffer.

The helpers that the kernel offers are a parameter (`Kernel`); any of them may fail.

## Main definitions

* `Foverin.Kernel` — the answers of the kernel during one run.
* `Foverin.tryFoverin` — the probe.
* `Foverin.ProcessEvent.record` — the bytes of a record.
-/

namespace Foverin

/-! ## The kernel -/

/-- `TASK_COMM_LEN`. -/
def taskCommLen : ℕ := 16

/-- `STEAM_APP`. -/
def steamApp : List UInt8 := Utf8.encode "steam_app" ++ [0]

/-- The offsets in `task_struct` that the build script bakes in. -/
structure TaskOffsets where
  realParent : UInt64
  comm : UInt64

/-- What the kernel answers during one run of the probe. -/
structure Kernel where
  /-- Whether the scratch buffer is there. -/
  scratch : Bool
  tgid : UInt32
  /-- The address of the context. -/
  ctx : UInt64
  /-- The `__data_loc` field of the context, or an error code. -/
  dataLoc : Except UInt32 UInt32
  /-- `bpf_probe_read_kernel_str_bytes`: the buffer afterwards.  The result is dropped. -/
  readStr : UInt64 → Vector UInt8 filenameLen → Vector UInt8 filenameLen
  /-- `bpf_get_current_task`. -/
  currentTask : UInt64
  /-- `bpf_probe_read_kernel` on a pointer. -/
  readPtr : UInt64 → Option UInt64
  /-- `bpf_probe_read_kernel` on the name of a task. -/
  readComm : UInt64 → Option (Vector UInt8 taskCommLen)
  /-- Whether the ring buffer has room. -/
  reserve : Bool

/-! ## Lineage -/

/-- The loop of `comm_eq`; the name is shorter than the bytes it is compared with. -/
def commEqFrom : List UInt8 → List UInt8 → Bool
  | c :: _, [] => c == 0
  | c :: comm, b :: name => if c ≠ b then false else commEqFrom comm name
  | [], _ => false

/-- `comm_eq`. -/
def commEq (comm : Vector UInt8 taskCommLen) (name : List UInt8) : Bool :=
  if taskCommLen ≤ name.length then false else commEqFrom comm.toList name

/-- The name of the parent, as far as it can be read. -/
def Kernel.parentComm (k : Kernel) (offsets : TaskOffsets) : Option (Vector UInt8 taskCommLen) :=
  if k.currentTask = 0 then none
  else
    match k.readPtr (k.currentTask + offsets.realParent) with
    | none => none
    | some parent => if parent = 0 then none else k.readComm (parent + offsets.comm)

/-- `parent_comm_is_steam`. -/
def Kernel.parentCommIsSteam (k : Kernel) (offsets : TaskOffsets) : Bool :=
  match k.parentComm offsets with
  | none => false
  | some comm => commEq comm (Utf8.encode "steam")

/-- `write_steam_app`: the token, on a buffer that has been zeroed before. -/
def writeSteamApp (_filename : Vector UInt8 filenameLen) : Vector UInt8 filenameLen :=
  padded steamApp

/-! ## The probe -/

/-- The address of the path: the low half of `__data_loc` is its offset from the context. -/
def Kernel.filenamePtr (k : Kernel) (dataLoc : UInt32) : UInt64 :=
  k.ctx + (dataLoc &&& 0xffff).toUInt64

/-- `try_foverin`: the return code, and the event that is submitted, if any. -/
def tryFoverin (offsets : TaskOffsets) (k : Kernel) : Except UInt32 UInt32 × Option ProcessEvent :=
  if k.scratch then
    match k.dataLoc with
    | .error e => (.error e, none)
    | .ok dataLoc =>
      let filename := k.readStr (k.filenamePtr dataLoc) (Vector.replicate filenameLen 0)
      let filename := if k.parentCommIsSteam offsets then writeSteamApp filename else filename
      if k.reserve then (.ok 0, some ⟨k.tgid, filename⟩) else (.ok 0, none)
  else (.error 1, none)

/-- The bytes of a `ProcessEvent`: the process number in little-endian order, then the name. -/
def ProcessEvent.record (e : ProcessEvent) : List UInt8 :=
  [e.pid.toUInt8, (e.pid >>> 8).toUInt8, (e.pid >>> 16).toUInt8, (e.pid >>> 24).toUInt8] ++
    e.filename.toList

/-! ## What the probe submits -/

/-- The loop of `comm_eq` compares the bytes before the first NUL. -/
lemma commEqFrom_iff : ∀ (name comm : List UInt8), (∀ b ∈ name, b ≠ 0) →
    name.length < comm.length →
    (commEqFrom comm name = true ↔ comm.takeWhile (· ≠ 0) = name)
  | _, [], _, h => absurd h (Nat.not_lt_zero _)
  | [], c :: comm, _, _ => by
    by_cases hc : c = 0 <;> simp [commEqFrom, hc]
  | b :: name, c :: comm, hname, hlength => by
    rw [List.forall_mem_cons] at hname
    have ih := commEqFrom_iff name comm hname.2 (Nat.lt_of_succ_lt_succ hlength)
    unfold commEqFrom
    by_cases hcb : c = b
    · subst hcb
      rw [if_neg (by simp), ih, List.takeWhile_cons_of_pos (by simpa using hname.1)]
      simp
    · rw [if_pos hcb]
      by_cases hc : c = 0
      · simp [hc]
      · rw [List.takeWhile_cons_of_pos (by simpa using hc)]
        simp [hcb]

/-- The parent's name, read up to its first NUL, is that of Steam. -/
def Kernel.SteamParent (k : Kernel) (offsets : TaskOffsets) : Prop :=
  ∃ comm, k.parentComm offsets = some comm ∧
    comm.toList.takeWhile (· ≠ 0) = Utf8.encode "steam"

lemma Kernel.parentCommIsSteam_iff (k : Kernel) (offsets : TaskOffsets) :
    k.parentCommIsSteam offsets = true ↔ k.SteamParent offsets := by
  unfold parentCommIsSteam SteamParent
  cases k.parentComm offsets with
  | none => simp
  | some comm =>
    have hname : ∀ b ∈ Utf8.encode "steam", b ≠ 0 := by decide +kernel
    have hlength : (Utf8.encode "steam").length < comm.toList.length := by
      rw [Vector.length_toList]
      decide +kernel
    have hshort : ¬ taskCommLen ≤ (Utf8.encode "steam").length := by decide +kernel
    simp only [commEq, hshort, if_false, Option.some.injEq, exists_eq_left']
    exact commEqFrom_iff _ _ hname hlength

/-- The bytes of a path that fit into a record with a NUL after them. -/
def captured (path : List UInt8) : List UInt8 := path.take (filenameLen - 1)

/-- `bpf_probe_read_kernel_str_bytes` copies the path: as much of it as fits, with a NUL after
it, into the zeroed buffer. -/
def Kernel.CopiesPath (k : Kernel) (path : List UInt8) : Prop :=
  ∀ dataLoc, k.dataLoc = .ok dataLoc →
    k.readStr (k.filenamePtr dataLoc) (Vector.replicate filenameLen 0) = padded (captured path)

/-- **What is submitted**: the token for a child of Steam, else the captured path. -/
theorem tryFoverin_event {offsets : TaskOffsets} {k : Kernel} {path : List UInt8}
    (hcopies : k.CopiesPath path) {e : ProcessEvent} (h : (tryFoverin offsets k).2 = some e) :
    (k.SteamParent offsets → e = ⟨k.tgid, padded steamApp⟩) ∧
      (¬ k.SteamParent offsets → e = ⟨k.tgid, padded (captured path)⟩) := by
  rw [← k.parentCommIsSteam_iff offsets]
  unfold tryFoverin at h
  cases hloc : k.dataLoc with
  | error err =>
    rw [hloc] at h
    split_ifs at h
  | ok dataLoc =>
    rw [hloc] at h
    simp only [hcopies dataLoc hloc] at h
    split_ifs at h with hscratch hreserve hsteam
    · exact ⟨fun _ => (Option.some.inj h).symm, fun hno => absurd hsteam hno⟩
    · exact ⟨fun hyes => absurd hyes hsteam, fun _ => (Option.some.inj h).symm⟩

end Foverin
