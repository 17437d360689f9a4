import Mathlib.Data.List.Induction
import Mathlib.Logic.Function.Basic
import Mathlib.Tactic.Tauto
import Foverin.Lib.Machine

set_option relaxedAutoImplicit false
set_option autoImplicit false

/-!
# The name of the socket

`main` and `bind_uds` of `foverin-daemon.rs`, as far as they touch `SOCKET_PATH`, and how
`foverin-cli.rs` connects.  Any number of daemons are started and end on one host, in any order and
at the same time; each of them may fail or be killed anywhere, and only one that is told to stop
removes the name again.

A socket that is bound keeps its name until somebody removes it, whoever that is; and a name that is
left behind refuses every client once its daemon has gone.

## Main definitions

* `Foverin.Host`, `Foverin.Host.advance` — the name, and the daemons that use it.
* `Foverin.cliMain` — what a client gets.
* `Foverin.SocketEvent.Clears`, `Foverin.SocketEvent.Orderly` — who removes the name, and one daemon
  at a time.

## Main results

* `Foverin.Host.Sole.step` — what holds as long as there is one daemon at a time.
* `Foverin.attach_exact` — which daemon a client reaches.
-/

namespace Foverin

/-! ## The name -/

/-- What `SOCKET_PATH` stands for: the socket of a daemon, or something else. -/
inductive Entry where
  /-- `everyone` tells whether its permissions let every user connect. -/
  | socket (owner : ℕ) (everyone : Bool)
  | other

/-- `fs::set_permissions` with `0o666`. -/
def Entry.forEveryone : Entry → Entry
  | .socket owner _ => .socket owner true
  | .other => .other

/-- Where a daemon stands. -/
inductive Phase where
  | starting
  /-- `bind_uds` has removed the old name. -/
  | removed
  /-- `bind_uds` has bound the socket. -/
  | bound
  /-- `bind_uds` has returned, and `main` goes on until a signal arrives. -/
  | online
  /-- `main` has been told to stop. -/
  | leaving
  /-- `main` has removed the name. -/
  | returning
  | ended
  deriving DecidableEq

/-- `accept_loop` has been started. -/
def Phase.serves : Phase → Bool
  | .online | .leaving | .returning => true
  | _ => false

/-- A daemon, and whether its listener is open. -/
structure Process where
  phase : Phase
  listening : Bool

/-- The daemons that are started on a host, by their process numbers. -/
structure Host where
  name : Option Entry
  process : ℕ → Process

namespace Host

/-- A host on which no daemon has got anywhere, with whatever was left under the name. -/
def boot (name : Option Entry) : Host := ⟨name, fun _ => ⟨.starting, false⟩⟩

variable (openUmask ok : Bool) (d : ℕ) (h : Host)

def put (p : Process) : Host := { h with process := Function.update h.process d p }

/-- The daemon gets on to another phase. -/
def move (phase : Phase) : Host := h.put d { h.process d with phase := phase }

/-- The daemon ends, and the kernel closes its listener. -/
def finish : Host := h.put d ⟨.ended, false⟩

/-- `fs::remove_file`, whose result is dropped. -/
def removeFile : Host := { h with name := if ok then none else h.name }

/-- `UnixListener::bind`, which fails if the name is taken. -/
def bind : Host :=
  if ok && h.name.isNone then
    { h.put d ⟨.bound, true⟩ with name := some (.socket d openUmask) }
  else h.finish d

/-- `fs::set_permissions`, on whatever the name stands for by then. -/
def setPermissions : Host :=
  match ok, h.name with
  | true, some entry => { h.move d .online with name := some entry.forEveryone }
  | _, _ => h.finish d

/-- The next call of a daemon on the name; the kernel may refuse it. -/
def advance : Host :=
  match (h.process d).phase with
  | .starting => (h.removeFile ok).move d .removed
  | .removed => h.bind openUmask ok d
  | .bound => h.setPermissions ok d
  | .leaving => (h.removeFile ok).move d .returning
  | .online | .returning | .ended => h

end Host

/-- What may happen next. -/
inductive SocketEvent where
  | advance (d : ℕ) (ok : Bool)
  /-- A signal tells the daemon to stop. -/
  | signal (d : ℕ)
  /-- `accept` fails: `accept_loop` returns and closes the listener. -/
  | acceptError (d : ℕ)
  /-- The daemon returns, with an error or without, or is killed. -/
  | exit (d : ℕ)
  /-- Somebody else removes the name, or puts something else there. -/
  | others (taken : Bool)

/-- One event. -/
def Host.step (openUmask : Bool) (h : Host) : SocketEvent → Host × Unit
  | .advance d ok => (h.advance openUmask ok d, ())
  | .signal d => (if (h.process d).phase = .online then h.move d .leaving else h, ())
  | .acceptError d =>
    (if (h.process d).phase.serves then h.put d { h.process d with listening := false } else h, ())
  | .exit d => (h.finish d, ())
  | .others taken => ({ h with name := if taken then some .other else none }, ())

/-- The host as a machine. -/
def socketMachine (openUmask : Bool) : Machine Host SocketEvent Unit := ⟨Host.step openUmask⟩

/-! ## Clients -/

/-- What `main` of the CLI does: it shows the dashboard of a daemon, or `run_fatal_unreachable`. -/
inductive CliMain where
  | dashboard (d : ℕ)
  | fatalUnreachable
  deriving DecidableEq

/-- `main` of the CLI: `UnixStream::connect` needs somebody who listens, and the permission to
write. -/
def cliMain (h : Host) (privileged : Bool) : CliMain :=
  match h.name with
  | some (.socket d everyone) =>
    if (h.process d).listening && (everyone || privileged) then .dashboard d else .fatalUnreachable
  | _ => .fatalUnreachable

/-! ## Who holds the name -/

namespace Host

/-- The name stands for the socket of a daemon. -/
def Names (h : Host) (d : ℕ) : Prop := ∃ everyone, h.name = some (.socket d everyone)

/-- A daemon is past its start and has not ended. -/
def Active (h : Host) (d : ℕ) : Prop :=
  (h.process d).phase ≠ .starting ∧ (h.process d).phase ≠ .ended

variable {d d' : ℕ} {h : Host}

@[simp] lemma put_process_self (p : Process) : (h.put d p).process d = p :=
  Function.update_self ..

lemma put_process_of_ne (p : Process) (hne : d ≠ d') : (h.put d' p).process d = h.process d :=
  Function.update_of_ne hne ..

/-- Another phase leaves the listener alone. -/
@[simp] lemma move_listening (phase : Phase) :
    ((h.move d' phase).process d).listening = (h.process d).listening := by
  by_cases hd : d = d'
  · subst hd
    rw [move, put_process_self]
  · rw [move, put_process_of_ne _ hd]

/-- Whoever listens after a listener has been closed has listened before. -/
lemma listening_of_close {phase : Phase}
    (hlistening : ((h.put d' ⟨phase, false⟩).process d).listening = true) :
    (h.process d).listening = true := by
  by_cases hd : d = d'
  · subst hd
    rw [put_process_self] at hlistening
    cases hlistening
  · rwa [put_process_of_ne _ hd] at hlistening

/-- A name keeps its owner when its permissions change. -/
lemma forEveryone_eq_socket {entry : Entry} {everyone : Bool}
    (hentry : entry.forEveryone = .socket d everyone) : ∃ before, entry = .socket d before := by
  cases entry with
  | socket owner before =>
    cases hentry
    exact ⟨before, rfl⟩
  | other => cases hentry

/-- **A client** that may write to every socket reaches the daemon that the name stands for, if it
listens. -/
theorem cliMain_iff : cliMain h true = .dashboard d ↔
    h.Names d ∧ (h.process d).listening = true := by
  unfold cliMain Names
  cases hname : h.name with
  | none => simp
  | some entry =>
    cases entry with
    | other => simp
    | socket owner everyone =>
      simp only [Bool.or_true, Bool.and_true, Option.some.injEq, Entry.socket.injEq]
      by_cases hlistening : (h.process owner).listening = true
      · rw [if_pos hlistening, CliMain.dashboard.injEq]
        constructor
        · rintro rfl
          exact ⟨⟨everyone, rfl, rfl⟩, hlistening⟩
        · rintro ⟨⟨_, howner, -⟩, -⟩
          exact howner
      · rw [if_neg hlistening]
        constructor
        · nofun
        · rintro ⟨⟨_, rfl, -⟩, hd⟩
          exact absurd hd hlistening

/-! ## Calls and events -/

/-- What a call of a daemon does. -/
inductive Advance (openUmask ok : Bool) (d : ℕ) (h : Host) : Host → Prop where
  | remove (hphase : (h.process d).phase = .starting) :
      Advance openUmask ok d h ((h.removeFile ok).move d .removed)
  | bind (hok : ok = true) (hphase : (h.process d).phase = .removed) (hname : h.name = none) :
      Advance openUmask ok d h
        { h.put d ⟨.bound, true⟩ with name := some (.socket d openUmask) }
  | open {entry : Entry} (hphase : (h.process d).phase = .bound) (hname : h.name = some entry) :
      Advance openUmask ok d h { h.move d .online with name := some entry.forEveryone }
  | fail (hphase : (h.process d).phase = .removed ∨ (h.process d).phase = .bound) :
      Advance openUmask ok d h (h.finish d)
  | leave (hphase : (h.process d).phase = .leaving) :
      Advance openUmask ok d h ((h.removeFile ok).move d .returning)
  | idle (hphase : (h.process d).phase ≠ .starting ∧ (h.process d).phase ≠ .leaving) :
      Advance openUmask ok d h h

variable (openUmask : Bool)

/-- A call of a daemon does one of these. -/
lemma advance_advance (ok : Bool) (d : ℕ) (h : Host) :
    Advance openUmask ok d h (h.advance openUmask ok d) := by
  unfold advance
  cases hphase : (h.process d).phase with
  | starting => exact .remove hphase
  | leaving => exact .leave hphase
  | removed =>
    unfold Host.bind
    dsimp only
    split_ifs with hbind
    · rw [Bool.and_eq_true, Option.isNone_iff_eq_none] at hbind
      exact .bind hbind.1 hphase hbind.2
    · exact .fail (.inl hphase)
  | bound =>
    unfold setPermissions
    cases hname : h.name with
    | none => cases ok <;> exact .fail (.inr hphase)
    | some entry =>
      cases ok with
      | false => exact .fail (.inr hphase)
      | true => exact .open hphase hname
  | online | returning | ended => exact .idle (by simp [hphase])

/-- A daemon that finds the name free binds its socket. -/
lemma advance_bind {d : ℕ} {h : Host} (hphase : (h.process d).phase = .removed)
    (hname : h.name = none) : h.advance openUmask true d =
      { h.put d ⟨.bound, true⟩ with name := some (.socket d openUmask) } := by
  unfold advance Host.bind
  rw [hphase, hname]
  rfl

end Host

/-- The name is gone after this, or stands for something else. -/
def SocketEvent.Clears (h : Host) : SocketEvent → Prop
  | .advance d ok => ok = true ∧ ((h.process d).phase = .starting ∨ (h.process d).phase = .leaving)
  | .others _ => True
  | _ => False

namespace Host

variable (openUmask : Bool) {ok : Bool} {d d' : ℕ} {h h' : Host} {e : SocketEvent}

/-- The name is kept by a call that does not clear it. -/
lemma Advance.names (hadvance : Advance openUmask ok d' h h') (hnames : h.Names d)
    (hclears : ¬ (SocketEvent.advance d' ok).Clears h) : h'.Names d := by
  obtain ⟨everyone, hname⟩ := hnames
  cases hadvance with
  | remove hphase =>
    cases ok with
    | false => exact ⟨everyone, hname⟩
    | true => exact absurd ⟨rfl, .inl hphase⟩ hclears
  | leave hphase =>
    cases ok with
    | false => exact ⟨everyone, hname⟩
    | true => exact absurd ⟨rfl, .inr hphase⟩ hclears
  | bind _ _ hnone => cases hname.symm.trans hnone
  | «open» _ hentry =>
    cases hname.symm.trans hentry
    exact ⟨true, rfl⟩
  | fail | idle => exact ⟨everyone, hname⟩

/-- **The name is kept** by what does not clear it. -/
theorem Names.step (hnames : h.Names d) (hclears : ¬ e.Clears h) :
    (h.step openUmask e).1.Names d := by
  cases e with
  | advance d' ok => exact (advance_advance openUmask ok d' h).names openUmask hnames hclears
  | signal d' =>
    unfold Host.step
    dsimp only
    split_ifs <;> exact hnames
  | acceptError d' =>
    unfold Host.step
    dsimp only
    split_ifs <;> exact hnames
  | exit d' => exact hnames
  | others taken => exact absurd trivial hclears

/-- Who is named after a call and listens: it was before, or it has just bound the socket. -/
lemma Advance.of_names (hadvance : Advance openUmask ok d' h h') (hnames : h'.Names d)
    (hlistening : (h'.process d).listening = true) :
    (h.Names d ∧ (h.process d).listening = true ∧ ¬ (SocketEvent.advance d' ok).Clears h) ∨
      d' = d ∧ ok = true ∧ (h.process d).phase = .removed ∧ h.name = none := by
  obtain ⟨everyone, hname⟩ := hnames
  cases hadvance with
  | remove | leave =>
    cases ok with
    | false =>
      rw [move_listening] at hlistening
      exact .inl ⟨⟨everyone, hname⟩, hlistening, fun hclears => nomatch hclears.1⟩
    | true => cases hname
  | bind hok hphase hnone =>
    cases hname
    exact .inr ⟨rfl, hok, hphase, hnone⟩
  | @«open» entry hphase hentry =>
    obtain ⟨before, rfl⟩ := forEveryone_eq_socket (Option.some.inj hname)
    have hkept : ((h.move d' .online).process d).listening = true := hlistening
    rw [move_listening] at hkept
    exact .inl ⟨⟨before, hentry⟩, hkept, by simp [SocketEvent.Clears, hphase]⟩
  | fail hphase =>
    have hclears : ¬ (SocketEvent.advance d' ok).Clears h := by
      rcases hphase with hphase | hphase <;> simp [SocketEvent.Clears, hphase]
    exact .inl ⟨⟨everyone, hname⟩, listening_of_close hlistening, hclears⟩
  | idle hphase =>
    exact .inl ⟨⟨everyone, hname⟩, hlistening, by simp [SocketEvent.Clears, hphase]⟩

/-- **Who is named after a step** and listens.

**Proof sketch.** Only the `bind` of a daemon makes the name stand for it, and no event makes a
daemon that has stopped listening listen again. -/
theorem of_names_step (hnames : (h.step openUmask e).1.Names d)
    (hlistening : ((h.step openUmask e).1.process d).listening = true) :
    (h.Names d ∧ (h.process d).listening = true ∧ ¬ e.Clears h) ∨
      e = .advance d true ∧ (h.process d).phase = .removed ∧ h.name = none := by
  cases e with
  | advance d' ok =>
    rcases (advance_advance openUmask ok d' h).of_names openUmask hnames hlistening with
      hkept | ⟨rfl, rfl, hbound⟩
    · exact .inl hkept
    · exact .inr ⟨rfl, hbound⟩
  | signal d' =>
    unfold Host.step at hnames hlistening
    dsimp only at hnames hlistening
    split_ifs at hnames hlistening
    · rw [move_listening] at hlistening
      exact .inl ⟨hnames, hlistening, id⟩
    · exact .inl ⟨hnames, hlistening, id⟩
  | acceptError d' =>
    unfold Host.step at hnames hlistening
    dsimp only at hnames hlistening
    split_ifs at hnames hlistening
    · exact .inl ⟨hnames, listening_of_close hlistening, id⟩
    · exact .inl ⟨hnames, hlistening, id⟩
  | exit d' => exact .inl ⟨hnames, listening_of_close hlistening, id⟩
  | others taken =>
    obtain ⟨everyone, hname⟩ := hnames
    cases taken <;> cases hname

end Host

/-! ## The last daemon to bind -/

/-- The host after some events. -/
def hostAfter (openUmask : Bool) (name : Option Entry) (es : List SocketEvent) : Host :=
  (socketMachine openUmask).final (.boot name) es

/-- The daemon has bound the socket, and nobody has removed the name since. -/
def Holds (openUmask : Bool) (name : Option Entry) (es : List SocketEvent) (d : ℕ) : Prop :=
  ∃ before after, es = before ++ .advance d true :: after ∧
    ((hostAfter openUmask name before).process d).phase = .removed ∧
    (hostAfter openUmask name before).name = none ∧
    (socketMachine openUmask).Along (fun h e => ¬ e.Clears h)
      (hostAfter openUmask name (before ++ [.advance d true])) after

section Holds

variable {openUmask : Bool} {name : Option Entry} {es : List SocketEvent} {d : ℕ}

lemma hostAfter_concat (e : SocketEvent) : hostAfter openUmask name (es ++ [e]) =
    ((hostAfter openUmask name es).step openUmask e).1 :=
  (socketMachine openUmask).final_concat (.boot name) es e

lemma hostAfter_append (es' : List SocketEvent) : hostAfter openUmask name (es ++ es') =
    (socketMachine openUmask).final (hostAfter openUmask name es) es' :=
  (socketMachine openUmask).final_append (.boot name) es es'

/-- What is held is named. -/
lemma Holds.names (h : Holds openUmask name es d) : (hostAfter openUmask name es).Names d := by
  obtain ⟨before, after, rfl, hphase, hnone, hkept⟩ := h
  have hbound : (hostAfter openUmask name (before ++ [.advance d true])).Names d := by
    rw [hostAfter_concat]
    exact ⟨openUmask, congrArg Host.name (Host.advance_bind openUmask hphase hnone)⟩
  rw [List.append_cons, hostAfter_append]
  exact hkept.invariant (P := fun h => h.Names d) _ hbound
    fun _ _ hclears hnames => hnames.step openUmask hclears

/-- Another event that does not remove the name. -/
lemma Holds.concat {e : SocketEvent} (h : Holds openUmask name es d)
    (he : ¬ e.Clears (hostAfter openUmask name es)) : Holds openUmask name (es ++ [e]) d := by
  obtain ⟨before, after, rfl, hphase, hnone, hkept⟩ := h
  refine ⟨before, after ++ [e], by simp, hphase, hnone, hkept.concat _ ?_⟩
  rwa [← hostAfter_append, ← List.append_cons]

/-- **What is named and listens is held**, by induction on the events. -/
theorem holds_of_names (hnames : (hostAfter openUmask name es).Names d)
    (hlistening : ((hostAfter openUmask name es).process d).listening = true) :
    Holds openUmask name es d := by
  induction es using List.reverseRecOn with
  | nil => cases hlistening
  | append_singleton es e ih =>
    rw [hostAfter_concat] at hnames hlistening
    rcases Host.of_names_step openUmask hnames hlistening with
      ⟨hnamed, hlistened, hclears⟩ | ⟨rfl, hphase, hnone⟩
    · exact (ih hnamed hlistened).concat hclears
    · exact ⟨es, [], rfl, hphase, hnone, trivial⟩

end Holds

/-! ## One daemon at a time -/

/-- A daemon is started only when all others have ended, and may remove what it finds; and nobody
else touches the name. -/
def SocketEvent.Orderly (h : Host) : SocketEvent → Prop
  | .advance d ok => (h.process d).phase = .starting → ok = true ∧ ∀ d' ≠ d, ¬ h.Active d'
  | .others _ => False
  | _ => True

/-- What the name stands for while a daemon is in some phase. -/
def Process.Fits (p : Process) (name : Option Entry) (d : ℕ) : Prop :=
  match p.phase with
  | .starting | .ended => p.listening = false
  | .removed => name = none
  | .bound => ∃ everyone, name = some (.socket d everyone)
  | .online | .leaving => name = some (.socket d true)
  | .returning => name = none ∨ name = some (.socket d true)

namespace Host

/-- There is one daemon at most, and the name is its own. -/
structure Sole (h : Host) : Prop where
  eq_of_active : ∀ {d d'}, h.Active d → h.Active d' → d = d'
  fits : ∀ d, (h.process d).Fits h.name d

variable {openUmask ok : Bool} {d d' : ℕ} {h h' : Host} {e : SocketEvent}

lemma not_active :
    ¬ h.Active d ↔ (h.process d).phase = .starting ∨ (h.process d).phase = .ended := by
  unfold Active
  tauto

/-- The name does not matter to a daemon that is not running. -/
lemma fits_of_not_active (hactive : ¬ h.Active d) (name : Option Entry) :
    (h.process d).Fits name d ↔ (h.process d).listening = false := by
  unfold Process.Fits
  rcases not_active.mp hactive with hphase | hphase <;> rw [hphase]

/-- The only daemon takes a step. -/
lemma Sole.put (hsole : h.Sole) (halone : ∀ d' ≠ d, ¬ h.Active d') {p : Process}
    {name : Option Entry} (hfits : p.Fits name d) : Sole { h.put d p with name := name } := by
  have hother : ∀ d' ≠ d, (h.put d p).process d' = h.process d' :=
    fun d' hne => put_process_of_ne p hne
  have hinactive : ∀ d' ≠ d, ¬ Active { h.put d p with name := name } d' := by
    intro d' hne
    unfold Active
    rw [hother d' hne]
    exact halone d' hne
  refine ⟨fun {d₁ d₂} h₁ h₂ => ?_, fun d' => ?_⟩
  · by_contra hne
    by_cases hd : d₁ = d
    · exact hinactive d₂ (fun hd₂ => hne (hd.trans hd₂.symm)) h₂
    · exact hinactive d₁ hd h₁
  · by_cases hd : d' = d
    · subst hd
      rwa [put_process_self]
    · rw [fits_of_not_active (hinactive d' hd), hother d' hd,
        ← fits_of_not_active (halone d' hd) h.name]
      exact hsole.fits d'

/-- A daemon ends, whether it is running or not. -/
lemma Sole.finish (hsole : h.Sole) (d : ℕ) : (h.finish d).Sole := by
  have hother : ∀ d' ≠ d, (h.finish d).process d' = h.process d' :=
    fun d' hne => put_process_of_ne _ hne
  have hended : (h.finish d).process d = ⟨.ended, false⟩ := put_process_self _
  have hactive : ∀ {d'}, (h.finish d).Active d' → h.Active d' := by
    intro d' hd'
    have hne : d' ≠ d := by
      rintro rfl
      exact hd'.2 (congrArg Process.phase hended)
    unfold Active at hd' ⊢
    rwa [hother d' hne] at hd'
  refine ⟨fun h₁ h₂ => hsole.eq_of_active (hactive h₁) (hactive h₂), fun d' => ?_⟩
  by_cases hd : d' = d
  · subst hd
    rw [hended]
    rfl
  · rw [hother d' hd]
    exact hsole.fits d'

/-- A daemon that runs is the only one. -/
lemma Sole.alone (hsole : h.Sole) (hactive : h.Active d) : ∀ d' ≠ d, ¬ h.Active d' :=
  fun _ hne hactive' => hne (hsole.eq_of_active hactive' hactive)

/-- A daemon in any other phase runs. -/
lemma active_of_phase {phase : Phase} (hphase : (h.process d).phase = phase)
    (hstarting : phase ≠ .starting) (hended : phase ≠ .ended) : h.Active d := by
  rw [← hphase] at hstarting hended
  exact ⟨hstarting, hended⟩

/-- What a daemon may rely on in its phase. -/
lemma Sole.fits_eq (hsole : h.Sole) {phase : Phase} (hphase : (h.process d).phase = phase) :
    (⟨phase, (h.process d).listening⟩ : Process).Fits h.name d := by
  rw [← hphase]
  exact hsole.fits d

/-- A call of a daemon. -/
lemma Sole.advance (hsole : h.Sole) (hadvance : Advance openUmask ok d h h')
    (horderly : (SocketEvent.advance d ok).Orderly h) : h'.Sole := by
  cases hadvance with
  | remove hphase =>
    obtain ⟨rfl, halone⟩ := horderly hphase
    have hremoved : (⟨.removed, (h.process d).listening⟩ : Process).Fits none d := rfl
    exact hsole.put halone hremoved
  | bind hok hphase hnone =>
    have halone := hsole.alone (active_of_phase hphase nofun nofun)
    have hbound : (⟨.bound, true⟩ : Process).Fits (some (.socket d openUmask)) d :=
      ⟨openUmask, rfl⟩
    exact hsole.put halone hbound
  | @«open» entry hphase hentry =>
    have halone := hsole.alone (active_of_phase hphase nofun nofun)
    obtain ⟨everyone, hname⟩ := hsole.fits_eq hphase
    obtain rfl : entry = .socket d everyone := Option.some.inj (hentry.symm.trans hname)
    have honline : (⟨.online, (h.process d).listening⟩ : Process).Fits
        (some (.socket d true)) d := rfl
    exact hsole.put halone honline
  | fail => exact hsole.finish d
  | leave hphase =>
    have halone := hsole.alone (active_of_phase hphase nofun nofun)
    have hname : h.name = some (.socket d true) := hsole.fits_eq hphase
    have hreturning : (⟨.returning, (h.process d).listening⟩ : Process).Fits
        (if ok then none else h.name) d := by
      cases ok with
      | true => exact .inl rfl
      | false => exact .inr hname
    exact hsole.put halone hreturning
  | idle => exact hsole

/-- **One daemon at a time** stays that way with every orderly event.

**Proof sketch.** A daemon that advances is the active one, or starts while no other one is active.
What it makes of the name fits its next phase, and nobody else touches the name. -/
theorem Sole.step (hsole : h.Sole) (horderly : e.Orderly h) : (h.step openUmask e).1.Sole := by
  cases e with
  | advance d ok => exact hsole.advance (advance_advance openUmask ok d h) horderly
  | signal d =>
    unfold Host.step
    dsimp only
    split_ifs with hphase
    · have halone := hsole.alone (active_of_phase hphase nofun nofun)
      have hname : h.name = some (.socket d true) := hsole.fits_eq hphase
      have hleaving : (⟨.leaving, (h.process d).listening⟩ : Process).Fits h.name d := hname
      exact hsole.put halone hleaving
    · exact hsole
  | acceptError d =>
    unfold Host.step
    dsimp only
    split_ifs with hserves
    · have hfits := hsole.fits d
      have hactive : h.Active d := by
        unfold Active
        constructor <;> intro hphase <;> simp [hphase, Phase.serves] at hserves
      have hdeaf : (⟨(h.process d).phase, false⟩ : Process).Fits h.name d := by
        unfold Process.Fits at hfits ⊢
        cases hphase : (h.process d).phase with
        | starting | ended => rfl
        | removed | bound | online | leaving | returning =>
          rw [hphase] at hfits
          exact hfits
      exact hsole.put (hsole.alone hactive) hdeaf
    · exact hsole
  | exit d => exact hsole.finish d
  | others taken => exact horderly.elim

end Host

/-! ## Attaching -/

/-- Before anything happens nobody runs. -/
lemma sole_boot (name : Option Entry) : (Host.boot name).Sole :=
  ⟨fun h => absurd rfl h.1, fun _ => rfl⟩

section Attach

variable {h : Host} {d : ℕ}

/-- **Everybody reaches** a daemon whose socket is open to all. -/
theorem cliMain_of_online (hname : h.name = some (.socket d true))
    (hlistening : (h.process d).listening = true) (privileged : Bool) :
    cliMain h privileged = .dashboard d := by
  unfold cliMain
  rw [hname]
  dsimp only
  rw [hlistening, if_pos (by simp)]

/-- Nobody reaches a daemon that does not listen. -/
lemma listening_of_cliMain {privileged : Bool} (hclient : cliMain h privileged = .dashboard d) :
    (h.process d).listening = true := by
  unfold cliMain at hclient
  split at hclient
  · split_ifs at hclient with hopen
    cases hclient
    rw [Bool.and_eq_true] at hopen
    exact hopen.1
  · cases hclient

end Attach

/-- **Attaching to a daemon.** However daemons start, run, fail, are killed and end on a host, at
the same time or not, and whoever else uses the name: a client that may write to every socket
reaches exactly the daemon that has bound the socket and still listens, provided that nobody has
removed the name since.  As long as daemons run one at a time, whatever was left under the name, no
daemon finds the name taken, every client reaches a daemon that is online and listens, and a client
never reaches another one than the only daemon that runs.

**Proof sketch.** A daemon that listens and that the name stands for has bound it, and nobody has
cleared it since, by induction on the history from its end.  When daemons run one at a time the
name always fits the phase of the active one, so that a `bind` finds it free. -/
theorem attach_exact (openUmask : Bool) (name : Option Entry) (es : List SocketEvent) (d : ℕ) :
    (cliMain (hostAfter openUmask name es) true = .dashboard d ↔
      Holds openUmask name es d ∧ ((hostAfter openUmask name es).process d).listening = true) ∧
    ((socketMachine openUmask).Along (fun h e => e.Orderly h) (.boot name) es →
      (((hostAfter openUmask name es).process d).phase = .removed →
        (hostAfter openUmask name (es ++ [.advance d true])).process d = ⟨.bound, true⟩) ∧
      ((hostAfter openUmask name es).process d = ⟨.online, true⟩ →
        ∀ privileged, cliMain (hostAfter openUmask name es) privileged = .dashboard d) ∧
      ∀ privileged, cliMain (hostAfter openUmask name es) privileged = .dashboard d →
        (hostAfter openUmask name es).Active d ∧
          ∀ d' ≠ d, ¬ (hostAfter openUmask name es).Active d') := by
  refine ⟨?_, fun horderly => ?_⟩
  · rw [Host.cliMain_iff]
    constructor
    · rintro ⟨hnames, hlistening⟩
      exact ⟨holds_of_names hnames hlistening, hlistening⟩
    · rintro ⟨hholds, hlistening⟩
      exact ⟨hholds.names, hlistening⟩
  · have hsole : (hostAfter openUmask name es).Sole :=
      horderly.invariant (P := Host.Sole) _ (sole_boot name) fun _ _ he hsole => hsole.step he
    refine ⟨fun hphase => ?_, fun honline privileged => ?_, fun privileged hclient => ?_⟩
    · have hnone : (hostAfter openUmask name es).name = none := hsole.fits_eq hphase
      rw [hostAfter_concat]
      exact (congrFun (congrArg Host.process (Host.advance_bind openUmask hphase hnone)) d).trans
        (Host.put_process_self _)
    · have hname : (hostAfter openUmask name es).name = some (.socket d true) :=
        hsole.fits_eq (congrArg Process.phase honline)
      exact cliMain_of_online hname (congrArg Process.listening honline) privileged
    · have hactive : (hostAfter openUmask name es).Active d := by
        by_contra hinactive
        have hdeaf := (Host.fits_of_not_active hinactive _).mp (hsole.fits d)
        rw [listening_of_cliMain hclient] at hdeaf
        cases hdeaf
      exact ⟨hactive, hsole.alone hactive⟩

/-- A daemon is killed, and the next one is started. -/
def restart : List SocketEvent :=
  [.advance 0 true, .advance 0 true, .advance 0 true, .exit 0,
    .advance 1 true, .advance 1 true, .advance 1 true]

/-- Everybody reaches the second daemon, in spite of the name that the first one has left. -/
theorem attach_exact_restart : cliMain (hostAfter false none restart) false = .dashboard 1 := by
  have hnobody : ∀ d' ≠ 1, ¬ (hostAfter false none (restart.take 4)).Active d' := by
    rintro (_ | d') hne ⟨hstarting, hended⟩
    · exact hended rfl
    · exact hstarting rfl
  have horderly : (socketMachine false).Along (fun h e => e.Orderly h) (.boot none) restart :=
    ⟨fun _ => ⟨rfl, fun _ _ hactive => hactive.1 rfl⟩, nofun, nofun, trivial,
      fun _ => ⟨rfl, hnobody⟩, nofun, nofun, trivial⟩
  exact ((attach_exact false none restart 1).2 horderly).2.1 rfl false

end Foverin
