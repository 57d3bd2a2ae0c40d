/-
# The recorder of the console

`start_recording` and `stop_recording`, called by any number of HTTP threads, and
`destroy_node`, as one guarded machine at the granularity of the lock-protected sections and
of the process calls.

| phase | code | events |
| :-- | :-- | :-- |
| `checking` | `recording and recording.poll() is None`, locked | `alreadyRecording`, `checked` |
| `testingDisk` | `free is not None and free < min_free_gb` | `diskLow`, `diskOk` |
| `spawning` | `subprocess.Popen(cmd, ..)` | `spawnFailed`, `spawn` |
| `storing p` | `self.state.recording = proc`, locked | `store` |
| `taking` | `proc = ..recording`, `..recording = None`, locked | `take` |
| `polling p` | `proc and proc.poll() is None`, `proc.terminate()` | `notRecording`, `terminate` |
| `waiting p` | `proc.wait(timeout=10)` | `waited`, `timedOut` |
| `killing p` | `proc.kill()` | `kill` |
| `killed p` | `return None` | `leave` |

A recorder may exit at any time, asked or not (`exit`).  `kill` only sends the signal: nothing
waits for a killed process, and until it has exited it is live.
`destroy_node` is the main thread's: its `stop_recording`, then `httpd.shutdown()`.  That ends
the accepting of connections only: threads that serve one go on, and may take further requests
from it (`protocol_version` is HTTP/1.1), so calls may begin at any time.
-/
import JetsonPerception.Lib.Machine
import Mathlib.Logic.Function.Basic

namespace JetsonPerception.Console

/-- Who calls: the main thread, in `destroy_node`, or an HTTP thread. -/
inductive Thread where
  | main
  | http (i : ℕ)
  deriving DecidableEq

/-- Where a call is; processes are numbered as they are spawned. -/
inductive Phase where
  | idle
  | checking | testingDisk | spawning
  | storing (proc : ℕ)
  | taking
  | polling (proc : Option ℕ)
  | waiting (proc : ℕ) | killing (proc : ℕ) | killed (proc : ℕ)
  deriving DecidableEq

/-- The recorder that a call of `stop_recording` has taken. -/
def Phase.taken? : Phase → Option ℕ
  | .polling proc => proc
  | .waiting p | .killing p | .killed p => some p
  | _ => none

/-- The recorder that a call has in its local variable. -/
def Phase.held? : Phase → Option ℕ
  | .storing p => some p
  | phase => phase.taken?

/-- Where `destroy_node` is: not called, in `stop_recording`, in `httpd.shutdown()`, done. -/
inductive Destroy where
  | notCalled | stopping | closing | returned
  deriving DecidableEq

structure Recorder where
  /-- `state.recording`. -/
  recording : Option ℕ := none
  calls : Thread → Phase := fun _ => .idle
  destroy : Destroy := .notCalled
  spawned : ℕ := 0
  /-- The processes that have not exited. -/
  live : ℕ → Bool := fun _ => false
  /-- The processes that `kill` has been called for. -/
  killed : ℕ → Bool := fun _ => false

namespace Recorder

inductive Event where
  | startRecording (i : ℕ) | stopRecording (i : ℕ) | destroyNode
  | alreadyRecording (t : Thread) | checked (t : Thread)
  | diskLow (t : Thread) | diskOk (t : Thread)
  | spawnFailed (t : Thread) | spawn (t : Thread)
  | store (t : Thread) (proc : ℕ)
  | take (t : Thread)
  | notRecording (t : Thread) (proc : Option ℕ) | terminate (t : Thread) (proc : ℕ)
  | waited (t : Thread) (proc : ℕ) | timedOut (t : Thread) (proc : ℕ)
  | kill (t : Thread) (proc : ℕ) | leave (t : Thread) (proc : ℕ)
  | stopped | shutDown
  | exit (proc : ℕ)
  deriving DecidableEq

/-- The process is live and has not been killed. -/
def runs (s : Recorder) (proc : ℕ) : Bool := s.live proc && !s.killed proc

/-- `proc and proc.poll() is None`. -/
def polls (s : Recorder) (proc : Option ℕ) : Bool := proc.any s.live

/-- When an event may happen. -/
def guard (s : Recorder) : Event → Prop
  | .startRecording i => s.calls (.http i) = .idle
  | .stopRecording i => s.calls (.http i) = .idle
  | .destroyNode => s.destroy = .notCalled
  | .alreadyRecording t => s.calls t = .checking ∧ s.polls s.recording = true
  | .checked t => s.calls t = .checking ∧ s.polls s.recording = false
  | .diskLow t => s.calls t = .testingDisk
  | .diskOk t => s.calls t = .testingDisk
  | .spawnFailed t => s.calls t = .spawning
  | .spawn t => s.calls t = .spawning
  | .store t proc => s.calls t = .storing proc
  | .take t => s.calls t = .taking
  | .notRecording t proc => s.calls t = .polling proc ∧ s.polls proc = false
  | .terminate t proc => s.calls t = .polling (some proc) ∧ s.live proc = true
  | .waited t proc => s.calls t = .waiting proc ∧ s.live proc = false
  | .timedOut t proc => s.calls t = .waiting proc ∧ s.live proc = true
  | .kill t proc => s.calls t = .killing proc
  | .leave t proc => s.calls t = .killed proc
  | .stopped => s.destroy = .stopping ∧ s.calls .main = .idle
  | .shutDown => s.destroy = .closing
  | .exit proc => s.live proc = true

/-- The call of thread `t` goes on to `phase`. -/
def goto (s : Recorder) (t : Thread) (phase : Phase) : Recorder :=
  { s with calls := Function.update s.calls t phase }

/-- The process is gone. -/
def bury (s : Recorder) (proc : ℕ) : Recorder :=
  { s with live := Function.update s.live proc false }

/-- Where an event leads. -/
def act (s : Recorder) : Event → Recorder
  | .startRecording i => s.goto (.http i) .checking
  | .stopRecording i => s.goto (.http i) .taking
  | .destroyNode => { s.goto .main .taking with destroy := .stopping }
  | .alreadyRecording t => s.goto t .idle
  | .checked t => s.goto t .testingDisk
  | .diskLow t => s.goto t .idle
  | .diskOk t => s.goto t .spawning
  | .spawnFailed t => s.goto t .idle
  | .spawn t =>
      { s.goto t (.storing s.spawned) with
        spawned := s.spawned + 1, live := Function.update s.live s.spawned true }
  | .store t proc => { s.goto t .idle with recording := some proc }
  | .take t => { s.goto t (.polling s.recording) with recording := none }
  | .notRecording t _ => s.goto t .idle
  | .terminate t proc => s.goto t (.waiting proc)
  | .waited t _ => s.goto t .idle
  | .timedOut t proc => s.goto t (.killing proc)
  | .kill t proc => { s.goto t (.killed proc) with killed := Function.update s.killed proc true }
  | .leave t _ => s.goto t .idle
  | .stopped => { s with destroy := .closing }
  | .shutDown => { s with destroy := .returned }
  | .exit proc => s.bury proc

/-- The recorder under concurrent requests. -/
def machine : GuardedMachine Recorder Event := ⟨guard, act⟩

instance (s : Recorder) (e : Event) : Decidable (machine.guard s e) := by
  show Decidable (guard s e)
  cases e <;> dsimp only [guard] <;> infer_instance

/-! ## No recorder is orphaned or doubled -/

/-- No call of `start_recording` or `stop_recording` is in progress, nor `destroy_node`. -/
def Quiet (s : Recorder) : Prop :=
  (∀ t, s.calls t = .idle) ∧ (s.destroy = .notCalled ∨ s.destroy = .returned)

/-- At rest the only recorder that may be live is the one in `state.recording`; and none is
once `destroy_node` has returned. -/
structure Tidy (s : Recorder) : Prop where
  one : s.Quiet → ∀ p q, s.live p = true → s.live q = true → p = q
  held : s.Quiet → ∀ p, s.live p = true → s.recording = some p
  none : s.destroy = .returned → ∀ p, s.live p = false

/-- `destroy_node` has taken `state.recording`. -/
def Taken (s : Recorder) : Prop := s.destroy ≠ .notCalled ∧ s.calls .main ≠ .taking

/-- The steps that let nothing slip: a recorder is stored over none that is live; a stop that has
killed its recorder returns when that has exited; when `destroy_node` takes the field no call
holds a live recorder it has yet to store, and none is spawned afterwards; and `destroy_node`
returns when no other call has a live recorder to stop. -/
def Orderly (s : Recorder) : Event → Prop
  | .store _ _ => ∀ p ∈ s.recording, s.live p = false
  | .leave _ proc => s.live proc = false
  | .take .main => ∀ t p, s.calls t = .storing p → s.live p = false
  | .spawn _ => ¬ s.Taken
  | .shutDown => ∀ t p, (s.calls t).taken? = some p → s.live p = false
  | _ => True

/-! ### The invariant -/

/-- A live recorder is in the field or in the hands of a call; once `destroy_node` has taken
the field, neither it nor a call that may still store holds a live one; and once it has
returned there is none. -/
structure Owned (s : Recorder) : Prop where
  owned : ∀ p, s.live p = true → s.recording = some p ∨ ∃ t, (s.calls t).held? = some p
  field : s.Taken → ∀ p ∈ s.recording, s.live p = false
  stored : s.Taken → ∀ t p, s.calls t = .storing p → s.live p = false
  idle : s.destroy ≠ .stopping → s.calls .main = .idle
  none : s.destroy = .returned → ∀ p, s.live p = false

theorem live_of_runs {s : Recorder} {proc : ℕ} (h : s.runs proc = true) : s.live proc = true :=
  (Bool.and_eq_true _ _ ▸ h).1

@[simp] theorem goto_calls (s : Recorder) (t u : Thread) (phase : Phase) :
    (s.goto t phase).calls u = if u = t then phase else s.calls u :=
  Function.update_apply ..

variable {s : Recorder} {t : Thread} {phase : Phase}

theorem Taken.of_goto (ht : t = .main → s.calls t ≠ .taking) (h : (s.goto t phase).Taken) :
    s.Taken := by
  refine ⟨h.1, ?_⟩
  by_cases hm : t = .main
  · exact hm ▸ ht hm
  · have hcalls := h.2
    rwa [goto_calls, if_neg (Ne.symm hm)] at hcalls

/-- While `destroy_node` is not in `stop_recording` the main thread makes no call, so the
calls that go on are others. -/
theorem idle_goto (h : Owned s) (ht : t = .main → s.calls t ≠ .idle)
    (hd : s.destroy ≠ .stopping) : (s.goto t phase).calls .main = .idle := by
  have hidle := h.idle hd
  rw [goto_calls]
  split
  · next hm => exact absurd (hm ▸ hidle) (ht hm.symm)
  · exact hidle

/-- A call may go on if it lets go of no live recorder and takes up none. -/
theorem Owned.goto (h : Owned s) (ht : t = .main → s.calls t ≠ .taking ∧ s.calls t ≠ .idle)
    (hkeep : ∀ p, (s.calls t).held? = some p → s.live p = true → phase.held? = some p)
    (hns : ∀ p, phase ≠ .storing p) : Owned (s.goto t phase) where
  owned p hp := by
    rcases h.owned p hp with hrec | ⟨u, hu⟩
    · exact .inl hrec
    · refine .inr ⟨u, ?_⟩
      rw [goto_calls]
      split
      · subst u
        exact hkeep p hu hp
      · exact hu
  field htk := h.field (htk.of_goto fun hm => (ht hm).1)
  stored htk u p hu := by
    rw [goto_calls] at hu
    split at hu
    · exact absurd hu (hns p)
    · exact h.stored (htk.of_goto fun hm => (ht hm).1) u p hu
  idle hd := idle_goto h (fun hm => (ht hm).2) hd
  none := h.none

/-- A recorder may go at any time. -/
theorem Owned.bury (h : Owned s) (proc : ℕ) : Owned (s.bury proc) := by
  have hlive : ∀ p, (s.bury proc).live p = true → s.live p = true := by
    intro p hp
    simp only [Recorder.bury, Function.update_apply] at hp
    split at hp
    · cases hp
    · exact hp
  have hdead : ∀ p, s.live p = false → (s.bury proc).live p = false := by
    intro p hp
    simp only [Recorder.bury, Function.update_apply]
    split
    · rfl
    · exact hp
  constructor
  case owned =>
      intro p hp
      exact h.owned p (hlive p hp)
  case field =>
      intro htk p hp
      exact hdead p (h.field htk p hp)
  case stored =>
      intro htk u p hu
      exact hdead p (h.stored htk u p hu)
  case idle => exact h.idle
  case none =>
      intro hd p
      exact hdead p (h.none hd p)

/-- A call other than `t` still holds what it held. -/
theorem held_goto {u : Thread} {p : ℕ} (hu : (s.calls u).held? = some p)
    (ht : (s.calls t).held? ≠ some p) : ((s.goto t phase).calls u).held? = some p := by
  have hne : u ≠ t := by
    rintro rfl
    exact ht hu
  rw [goto_calls, if_neg hne]
  exact hu

/-- The call that goes on holds what its new phase says. -/
theorem held_goto_self {p : ℕ} (hp : phase.held? = some p) :
    ((s.goto t phase).calls t).held? = some p := by
  rw [goto_calls, if_pos rfl]
  exact hp

theorem Owned.destroyNode (h : Owned s) (hg : s.destroy = .notCalled) :
    Owned (act s .destroyNode) := by
  have hmain : s.calls .main = .idle := h.idle (by rw [hg]; exact nofun)
  have htaking : (s.goto .main .taking).calls .main = .taking := by simp
  constructor
  case owned =>
      intro p hp
      rcases h.owned p hp with hrec | ⟨u, hu⟩
      · exact .inl hrec
      · have hnone : (s.calls .main).held? ≠ some p := by
          rw [hmain]
          exact nofun
        exact .inr ⟨u, held_goto hu hnone⟩
  case field =>
      intro htk
      exact absurd htaking htk.2
  case stored =>
      intro htk
      exact absurd htaking htk.2
  case idle =>
      intro hd
      exact absurd rfl hd
  case none => exact nofun

/-- A recorder spawned before `destroy_node` takes the field is its call's. -/
theorem Owned.spawn (h : Owned s) (hg : s.calls t = .spawning) (ho : ¬ s.Taken) :
    Owned (act s (.spawn t)) := by
  have hfree : ¬ (s.goto t (.storing s.spawned)).Taken := by
    intro htk
    exact ho (htk.of_goto fun _ => by rw [hg]; exact nofun)
  constructor
  case owned =>
      intro p hp
      by_cases hnew : p = s.spawned
      · subst hnew
        exact .inr ⟨t, held_goto_self rfl⟩
      · have hp : s.live p = true := by simpa [act, Function.update_apply, hnew] using hp
        rcases h.owned p hp with hrec | ⟨u, hu⟩
        · exact .inl hrec
        · exact .inr ⟨u, held_goto hu (by rw [hg]; exact nofun)⟩
  case field =>
      intro htk
      exact absurd htk hfree
  case stored =>
      intro htk
      exact absurd htk hfree
  case idle =>
      intro hd
      exact idle_goto h (fun _ => by rw [hg]; exact nofun) hd
  case none =>
      intro hd
      have hd : s.destroy = .returned := hd
      have hidle := h.idle (by rw [hd]; exact nofun)
      exact absurd ⟨by rw [hd]; exact nofun, by rw [hidle]; exact nofun⟩ ho

/-- Storing over no live recorder loses none. -/
theorem Owned.store {proc : ℕ} (h : Owned s) (hg : s.calls t = .storing proc)
    (ho : ∀ p ∈ s.recording, s.live p = false) : Owned (act s (.store t proc)) := by
  have hbusy : t = .main → s.calls t ≠ .taking := fun _ => by rw [hg]; exact nofun
  constructor
  case owned =>
      intro p hp
      have hp : s.live p = true := hp
      rcases h.owned p hp with hrec | ⟨u, hu⟩
      · rw [ho p hrec] at hp
        cases hp
      · by_cases hproc : proc = p
        · exact .inl (congrArg some hproc)
        · have hother : (s.calls t).held? ≠ some p := by
            rw [hg]
            exact fun heq => hproc (Option.some.inj heq)
          exact .inr ⟨u, held_goto hu hother⟩
  case field =>
      intro htk p hp
      obtain rfl := Option.some.inj hp
      exact h.stored (htk.of_goto hbusy) t proc hg
  case stored =>
      intro htk u p hu
      have hu : (s.goto t .idle).calls u = .storing p := hu
      rw [goto_calls] at hu
      split at hu
      · cases hu
      · exact h.stored (htk.of_goto hbusy) u p hu
  case idle =>
      intro hd
      exact idle_goto h (fun _ => by rw [hg]; exact nofun) hd
  case none => exact h.none

/-- What is taken out of the field is in the hands of the call that took it. -/
theorem Owned.take (h : Owned s) (hg : s.calls t = .taking) (ho : Orderly s (.take t)) :
    Owned (act s (.take t)) := by
  constructor
  case owned =>
      intro p hp
      rcases h.owned p hp with hrec | ⟨u, hu⟩
      · exact .inr ⟨t, held_goto_self (by rw [hrec]; rfl)⟩
      · exact .inr ⟨u, held_goto hu (by rw [hg]; exact nofun)⟩
  case field => exact nofun
  case stored =>
      intro htk u p hu
      have hph : (s.goto t (.polling s.recording)).calls u = .storing p := hu
      rw [goto_calls] at hph
      split at hph
      · cases hph
      · cases t with
        | main => exact ho u p hph
        | http i =>
            have htk : (s.goto (.http i) (.polling s.recording)).Taken := htk
            exact h.stored (htk.of_goto fun hm => by cases hm) u p hph
  case idle =>
      intro hd
      exact idle_goto h (fun _ => by rw [hg]; exact nofun) hd
  case none => exact h.none

theorem Owned.stopped (h : Owned s) (hg : guard s .stopped) : Owned (act s .stopped) := by
  have htk : s.Taken := ⟨by rw [hg.1]; exact nofun, by rw [hg.2]; exact nofun⟩
  exact ⟨h.owned, fun _ => h.field htk, fun _ => h.stored htk, fun _ => hg.2, nofun⟩

/-- `destroy_node` returns to no live recorder. -/
theorem Owned.shutDown (h : Owned s) (hg : s.destroy = .closing)
    (ho : Orderly s .shutDown) : Owned (act s .shutDown) := by
  have hidle : s.calls .main = .idle := h.idle (by rw [hg]; exact nofun)
  have htk : s.Taken := ⟨by rw [hg]; exact nofun, by rw [hidle]; exact nofun⟩
  have hheld : ∀ u p, (s.calls u).held? = some p → s.live p = false := by
    intro u p hu
    have htaken := ho u p
    cases hph : s.calls u with
    | storing q =>
        rw [hph] at hu
        obtain rfl := Option.some.inj hu
        exact h.stored htk u q hph
    | _ =>
        rw [hph] at hu htaken
        exact htaken hu
  refine ⟨h.owned, fun _ => h.field htk, fun _ => h.stored htk, fun _ => hidle, ?_⟩
  intro _ p
  show s.live p = false
  cases hlive : s.live p with
  | false => rfl
  | true =>
      rcases h.owned p hlive with hrec | ⟨u, hu⟩
      · rw [← hlive, h.field htk p hrec]
      · rw [← hlive, hheld u p hu]

theorem Owned.step (s : Recorder) (e : Event) (h : Owned s) (hg : guard s e)
    (ho : Orderly s e) : Owned (act s e) := by
  cases e <;> simp only [guard] at hg
  case startRecording i =>
      exact h.goto nofun (by rw [hg]; exact nofun) nofun
  case stopRecording i =>
      exact h.goto nofun (by rw [hg]; exact nofun) nofun
  case alreadyRecording t | checked t =>
      exact h.goto (by rw [hg.1]; exact fun _ => ⟨nofun, nofun⟩) (by rw [hg.1]; exact nofun) nofun
  case diskLow t | diskOk t | spawnFailed t =>
      exact h.goto (by rw [hg]; exact fun _ => ⟨nofun, nofun⟩) (by rw [hg]; exact nofun) nofun
  case destroyNode => exact h.destroyNode hg
  case spawn t => exact h.spawn hg ho
  case store t proc => exact h.store hg ho
  case take t => exact h.take hg ho
  case stopped => exact h.stopped hg
  case shutDown => exact h.shutDown hg ho
  case notRecording t proc =>
      obtain ⟨hph, hpoll⟩ := hg
      refine h.goto (by rw [hph]; exact fun _ => ⟨nofun, nofun⟩) (fun p hp hlive => ?_) nofun
      rw [hph] at hp
      obtain rfl : proc = some p := hp
      have hdead : s.live p = false := hpoll
      rw [hdead] at hlive
      cases hlive
  case terminate t proc | timedOut t proc =>
      refine h.goto (by rw [hg.1]; exact fun _ => ⟨nofun, nofun⟩) (fun p hp _ => ?_) nofun
      rw [hg.1] at hp
      exact hp
  case waited t proc =>
      refine h.goto (by rw [hg.1]; exact fun _ => ⟨nofun, nofun⟩) (fun p hp hlive => ?_) nofun
      rw [hg.1] at hp
      obtain rfl := Option.some.inj hp
      rw [hg.2] at hlive
      cases hlive
  case kill t proc =>
      have hkilled : Owned (s.goto t (.killed proc)) := by
        refine h.goto (by rw [hg]; exact fun _ => ⟨nofun, nofun⟩) (fun p hp _ => ?_) nofun
        rw [hg] at hp
        exact hp
      exact ⟨hkilled.owned, hkilled.field, hkilled.stored, hkilled.idle, hkilled.none⟩
  case leave t proc =>
      refine h.goto (by rw [hg]; exact fun _ => ⟨nofun, nofun⟩) (fun p hp hlive => ?_) nofun
      rw [hg] at hp
      obtain rfl := Option.some.inj hp
      have hdead : s.live proc = false := ho
      rw [hdead] at hlive
      cases hlive
  case exit proc => exact h.bury proc

theorem Owned.init : Owned {} :=
  ⟨nofun, fun htk => absurd rfl htk.1, fun htk => absurd rfl htk.1, fun _ => rfl, nofun⟩

theorem owned {es : List Event} (h : (machine.restrict Orderly).Run {} es s) : Owned s :=
  h.inv_restrict Owned (fun s e hs hg ho => hs.step s e hg ho) .init

theorem Owned.tidy (h : Owned s) : Tidy s := by
  have hheld : s.Quiet → ∀ p, s.live p = true → s.recording = some p := by
    intro hq p hp
    rcases h.owned p hp with hrec | ⟨u, hu⟩
    · exact hrec
    · rw [hq.1 u] at hu
      cases hu
  refine ⟨fun hq p q hp hp' => ?_, hheld, h.none⟩
  have hpq : some p = some q := (hheld hq p hp).symm.trans (hheld hq q hp')
  exact Option.some.inj hpq

/-- **No orphaned or doubled recorder** in any run whose steps let nothing slip. -/
theorem recorder_tidy {es : List Event} (h : (machine.restrict Orderly).Run {} es s) : Tidy s :=
  (owned h).tidy

/-- One recording, started by one request and stopped by another, which has to kill it and is
still there when it exits. -/
def recorded : List Event :=
  [.startRecording 0, .checked (.http 0), .diskOk (.http 0), .spawn (.http 0),
    .store (.http 0) 0, .stopRecording 1, .take (.http 1), .terminate (.http 1) 0,
    .timedOut (.http 1) 0, .kill (.http 1) 0, .exit 0, .leave (.http 1) 0]

theorem recorder_tidy_recorded : Tidy (recorded.foldl act {}) := by
  have h : (machine.restrict Orderly).Admits {} recorded :=
    ⟨⟨rfl, trivial⟩, ⟨⟨rfl, rfl⟩, trivial⟩, ⟨rfl, trivial⟩, ⟨rfl, fun htk => htk.1 rfl⟩,
      ⟨rfl, nofun⟩, ⟨rfl, trivial⟩, ⟨rfl, trivial⟩, ⟨⟨rfl, rfl⟩, trivial⟩, ⟨⟨rfl, rfl⟩, trivial⟩,
      ⟨rfl, trivial⟩, ⟨rfl, trivial⟩, ⟨rfl, rfl⟩, trivial⟩
  exact recorder_tidy (GuardedMachine.Run.of_admits h)

/-- Two requests to start pass the check before either has stored its recorder. -/
def doubled : List Event :=
  [.startRecording 0, .startRecording 1, .checked (.http 0), .checked (.http 1),
    .diskOk (.http 0), .diskOk (.http 1), .spawn (.http 0), .spawn (.http 1),
    .store (.http 0) 0, .store (.http 1) 1]

theorem recorder_doubled : ¬ ∀ es s, machine.Run {} es s → Tidy s := by
  intro hall
  have h := hall doubled _ (.of_admits (by decide))
  have hquiet : Quiet (doubled.foldl act {}) := by
    refine ⟨fun t => ?_, .inl rfl⟩
    simp only [doubled, List.foldl, act, goto, Function.update_apply]
    repeat' split
    all_goals rfl
  exact absurd (h.one hquiet 0 1 rfl rfl) (by decide)

end Recorder

end JetsonPerception.Console
