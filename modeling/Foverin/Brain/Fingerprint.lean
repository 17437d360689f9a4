import Mathlib.Data.Rat.Defs
import Mathlib.Algebra.Order.Ring.Unbundled.Rat

set_option relaxedAutoImplicit false
set_option autoImplicit false

/-!
# Fingerprints

The encoding half of `foverin/src/brain.rs`: a window of process events becomes a multi-hot
vector over a fixed vocabulary, and the vector a bit set and a soft label.

The entries of the vector are the numbers 0 and 1, which `f32` holds exactly; they are rational
numbers here.

## Main definitions

* `Foverin.encodeEvents` — the multi-hot vector of a window.
* `Foverin.fingerprintBits` — its bit set.
* `Foverin.softLabel` — its label.
-/

namespace Foverin

/-! ## Events -/

/-- `FILENAME_LEN`. -/
def filenameLen : ℕ := 128

/-- `ProcessEvent`: a process that executed a new image. -/
structure ProcessEvent where
  pid : UInt32
  filename : Vector UInt8 filenameLen
  deriving DecidableEq

/-- A name as a record holds it: some bytes, with zeros after them. -/
def padded (bytes : List UInt8) : Vector UInt8 filenameLen :=
  Vector.ofFn fun i => bytes.getD i 0

/-- `filename_str`: the bytes before the first NUL, or `?` if they are not UTF-8. -/
def filenameStr (bytes : List UInt8) : String :=
  (String.fromUTF8? ⟨(bytes.takeWhile (· ≠ 0)).toArray⟩).getD "?"

/-- `basename`: what follows the last slash. -/
def basename (path : String) : String :=
  String.ofList (path.toList.reverse.takeWhile (· ≠ '/')).reverse

/-! ## Vocabulary -/

/-- `VOCAB`; its order is part of the fingerprint. -/
def vocab : List String :=
  [ -- build and compile toolchain
    "rustc", "cargo", "cc", "c++", "gcc", "g++", "clang", "clang++", "make", "gmake", "ninja",
    "cmake", "ld", "lld", "rust-lld", "collect2", "as",
    -- gaming
    "steam", "steamwebhelper", "steamos-logger", "steam_app", "csgo", "cs2", "dota2", "proton",
    "proton-run", "wine", "wine64", "wineserver", "lutris", "gamesoverlayui",
    -- browsing, media, light desktop
    "firefox", "chrome", "chromium", "brave", "msedge", "spotify", "code", "electron", "slack",
    "discord",
    -- shell and system noise
    "bash", "zsh", "sh", "fish", "systemd", "sshd", "sleep", "login", "sudo", "pacman"]

/-- `COMPILE_END`. -/
def compileEnd : ℕ := 17

/-- `GAMING_END`. -/
def gamingEnd : ℕ := 31

/-- `BROWSING_END`. -/
def browsingEnd : ℕ := 41

example : vocab.length = 51 := rfl

/-! ## Encoding -/

/-- `str::to_ascii_lowercase`. -/
def toAsciiLowercase (s : String) : String := String.ofList (s.toList.map Char.toLower)

/-- `str::strip_suffix`. -/
def stripSuffix (s suffix : String) : Option String :=
  if suffix.toList <:+ s.toList then
    some (String.ofList (s.toList.take (s.toList.length - suffix.toList.length)))
  else none

/-- The name that `encode_names` looks up: the lower-case base name without one `.exe`. -/
def normalizedName (name : String) : String :=
  let base := toAsciiLowercase (basename name)
  (stripSuffix base ".exe").getD base

/-- `encode_names`. -/
def encodeNames (names : List String) : List ℚ :=
  names.foldl (fun vec name =>
    match vocab.idxOf? (normalizedName name) with
    | some idx => vec.set idx 1
    | none => vec) (List.replicate vocab.length 0)

/-- `encode_events`. -/
def encodeEvents (events : List ProcessEvent) : List ℚ :=
  encodeNames (events.map fun e => filenameStr e.filename.toList)

/-- `fingerprint_bits`: bit `i` for a positive entry `i`, for the first 64 entries. -/
def fingerprintBits (multiHot : List ℚ) : UInt64 :=
  (multiHot.zipIdx.take 64).foldl (fun (bits : UInt64) (e : ℚ × ℕ) =>
    if 0 < e.1 then bits ||| (1 <<< UInt64.ofNat e.2) else bits) 0

example : fingerprintBits (encodeNames ["/usr/bin/rustc", "CARGO.EXE", "unknown"]) = 3 := by
  decide +kernel

/-! ## Labels -/

/-- `Workload`. -/
inductive Workload where
  | compiling
  | gaming
  | browsing
  | idle
  deriving DecidableEq

/-- `Workload::as_str`. -/
def Workload.asStr : Workload → String
  | .compiling => "COMPILING"
  | .gaming => "GAMING"
  | .browsing => "BROWSING"
  | .idle => "IDLE"

/-- The `hit` of `soft_label`: a positive entry in a range that lies within the vector. -/
def hit (multiHot : List ℚ) (start stop : ℕ) : Bool :=
  if stop ≤ multiHot.length then ((multiHot.take stop).drop start).any (0 < ·) else false

/-- `soft_label`: compiling before gaming before browsing before idle. -/
def softLabel (multiHot : List ℚ) : Workload :=
  if hit multiHot 0 compileEnd then .compiling
  else if hit multiHot compileEnd gamingEnd then .gaming
  else if hit multiHot gamingEnd browsingEnd then .browsing
  else .idle

example : softLabel (encodeNames ["firefox", "steam_app"]) = .gaming := by decide +kernel

/-! ## Priors -/

/-- `preferred_efficiency_governor`; the argument holds the words of cpu0's list of governors, if
it can be read. -/
def preferredEfficiencyGovernor (listed : Option (List String)) : String :=
  let isAvailable name := (listed.getD []).contains name
  if isAvailable "schedutil" then "schedutil"
  else if isAvailable "powersave" then "powersave"
  else "powersave"

/-- `Workload::prior_governor`. -/
def Workload.priorGovernor (listed : Option (List String)) : Workload → String
  | .compiling => "performance"
  | .gaming => "performance"
  | .browsing => preferredEfficiencyGovernor listed
  | .idle => preferredEfficiencyGovernor listed

/-- `resolve_prior`. -/
def resolvePrior (listed : Option (List String)) (workload : Workload) (actions : List String) :
    String :=
  let want := workload.priorGovernor listed
  if actions.contains want then want else actions.head?.getD "powersave"

end Foverin
