/-
# The threads of the console do what the recorder's machine does

The machine of `JetsonPerception.Console.Recorder` moves call by call; the threads of
`JetsonPerception.Console.Processes` run programs that do much else.  Each step of a thread is none
of the machine's, one or two (`Accounts.step`):

| a step of the machine | is, of a thread |
| :-- | :-- |
| `startRecording`, `stopRecording` | the `acquire` that begins the first section |
| `alreadyRecording`, `checked` | the answer of `poll` in it, or its end with nothing to poll |
| `store`, `take` | the update of `state.recording` in a section |
| `notRecording`, `terminate` | the answer of `poll` outside of it |
| `waited`, `timedOut` | the answer of `wait` |
| `kill`, `leave` | the answer of `kill` |
| `stopped`, `shutDown` | the return of `httpd.shutdown()` |

So what holds of every run of the machine holds of the console (`console_refines`).
-/
import JetsonPerception.Console.Processes

namespace JetsonPerception.Console.Lock

open Monitor Post

variable {site : Site}

/-! ## What the machine does -/

/-- The thread whose step an event is; a process exits by itself. -/
def caller : Recorder.Event → Option Thread
  | .startRecording i | .stopRecording i => some (.http i)
  | .destroyNode | .stopped | .shutDown => some .main
  | .alreadyRecording t | .checked t | .diskLow t | .diskOk t | .spawnFailed t | .spawn t
  | .store t _ | .take t | .notRecording t _ | .terminate t _ | .waited t _ | .timedOut t _
  | .kill t _ | .leave t _ => some t
  | .exit _ => none

def processesOf (r : Recorder) : Processes := ⟨r.spawned, r.live, r.killed⟩

/-- What has been done to the processes. -/
def Processes.on (ps : Processes) : Deed → Processes
  | .ask _ call a => ps.after call a
  | _ => ps

/-- What is known in a deed is so, and so is what is answered. -/
def Holds (r : Recorder) (d : Deed) : Prop :=
  d.Holds r.recording ∧ ∀ x ∈ d.answer, (processesOf r).Answers x.1 x.2

theorem Holds.answers {r : Recorder} {known : Option (Option ℕ)} {call : Call} {a : Answer}
    (h : Holds r (.ask known call a)) : (processesOf r).Answers call a := h.2 _ rfl

/-- The call has gone on to `phase` by this deed. -/
def gone (r : Recorder) (t : Thread) (d : Deed) (phase : Phase) : Recorder where
  recording := Monitor.Deed.leaves r.recording (some d)
  calls := Function.update r.calls t phase
  destroy := r.destroy
  spawned := ((processesOf r).on d).spawned
  live := ((processesOf r).on d).live
  killed := ((processesOf r).on d).killed

variable {r r' : Recorder} {t : Thread} {phase phase' : Phase} {d : Deed}

theorem Processes.on_quiet (h : Quiet d) (ps : Processes) : ps.on d = ps := by
  cases d with
  | ask known call a =>
      cases call with
      | popen cmd =>
          have hfailed : a.ok = false := h
          simp [Processes.on, Processes.after, hfailed]
      | kill p => exact h.elim
      | _ => rfl
  | _ => rfl

theorem gone_quiet (h : Quiet d) (hholds : Holds r d) (hcalls : r.calls t = phase) :
    gone r t d phase = r := by
  have hrec : Monitor.Deed.leaves r.recording (some d) = r.recording := by
    cases d with
    | update b b' =>
        have hb : r.recording = b := hholds.1
        exact (show b' = b from h).trans hb.symm
    | _ => rfl
  rw [gone, hrec, Processes.on_quiet h, ← hcalls, Function.update_eq_self]
  rfl

/-- One event of the machine. -/
theorem gone_single {e : Recorder.Event} (hcaller : caller e = some t)
    (hguard : Recorder.guard r e) (hact : Recorder.act r e = gone r t d phase') :
    ∃ es, Recorder.machine.Run r es (gone r t d phase') ∧ ∀ e ∈ es, caller e = some t := by
  refine ⟨[e], ?_, by simpa using hcaller⟩
  rw [← hact]
  exact .single (M := Recorder.machine) hguard

/-- **Where a call goes, the machine can follow.** -/
theorem Goes.run (h : Goes phase d phase') (hcalls : r.calls t = phase) (hholds : Holds r d) :
    ∃ es, Recorder.machine.Run r es (gone r t d phase') ∧ ∀ e ∈ es, caller e = some t := by
  cases h with
  | quiet hquiet =>
      refine ⟨[], ?_, nofun⟩
      rw [gone_quiet hquiet hholds hcalls]
      exact .refl
  | nothing =>
      have hnone : r.recording = none := hholds.1
      exact gone_single (e := .checked t) rfl ⟨hcalls, by rw [hnone]; rfl⟩ rfl
  | @alreadyRecording p a hok =>
      have hrec : r.recording = some p := hholds.1 _ rfl
      have hlive : a.ok = r.live p := hholds.answers
      refine gone_single (e := .alreadyRecording t) rfl ⟨hcalls, ?_⟩ rfl
      rw [hrec]
      exact hlive.symm.trans hok
  | @checked p a hok =>
      have hrec : r.recording = some p := hholds.1 _ rfl
      have hlive : a.ok = r.live p := hholds.answers
      refine gone_single (e := .checked t) rfl ⟨hcalls, ?_⟩ rfl
      rw [hrec]
      exact hlive.symm.trans hok
  | diskLow => exact gone_single (e := .diskLow t) rfl hcalls rfl
  | diskOk => exact gone_single (e := .diskOk t) rfl hcalls rfl
  | @spawnFailed cmd a hok =>
      have hquiet : Quiet (.ask none (.popen cmd) a) := hok
      refine gone_single (e := .spawnFailed t) rfl hcalls ?_
      rw [gone, Processes.on_quiet hquiet]
      rfl
  | @spawn cmd a hok =>
      have hproc : a.proc = r.spawned := hholds.answers hok
      refine gone_single (e := .spawn t) rfl hcalls ?_
      simp [gone, Processes.on, Processes.after, hok, hproc, Recorder.act, Recorder.goto,
        processesOf, Monitor.Deed.leaves]
  | @store p b => exact gone_single (e := .store t p) rfl hcalls rfl
  | @take b =>
      have hb : r.recording = b := hholds.1
      subst hb
      exact gone_single (e := .take t) rfl hcalls rfl
  | neverStarted => exact gone_single (e := .notRecording t none) rfl ⟨hcalls, rfl⟩ rfl
  | @notRecording p a hok =>
      have hlive : a.ok = r.live p := hholds.answers
      exact gone_single (e := .notRecording t (some p)) rfl ⟨hcalls, hlive.symm.trans hok⟩ rfl
  | @terminate p a hok =>
      have hlive : a.ok = r.live p := hholds.answers
      exact gone_single (e := .terminate t p) rfl ⟨hcalls, hlive.symm.trans hok⟩ rfl
  | @waited p a hok =>
      have hlive : a.ok = !r.live p := hholds.answers
      rw [hok, eq_comm, Bool.not_eq_true'] at hlive
      exact gone_single (e := .waited t p) rfl ⟨hcalls, hlive⟩ rfl
  | @timedOut p a hok =>
      have hlive : a.ok = !r.live p := hholds.answers
      rw [hok, eq_comm, Bool.not_eq_false'] at hlive
      exact gone_single (e := .timedOut t p) rfl ⟨hcalls, hlive⟩ rfl
  | @kill p a =>
      -- the call of `kill`, and then the return
      refine ⟨[.kill t p, .leave t p], ?_, by simp [caller]⟩
      have hcalled : (Recorder.act r (.kill t p)).calls t = .killed p := Function.update_self ..
      have hlast : Recorder.act (Recorder.act r (.kill t p)) (.leave t p) =
          gone r t (.ask none (.kill p) a) .idle := by
        simp [gone, Recorder.act, Recorder.goto, Processes.on, Processes.after, processesOf,
          Monitor.Deed.leaves]
      rw [← hlast]
      exact .cons (M := Recorder.machine) hcalls (.single (M := Recorder.machine) hcalled)

/-! ## Step by step -/

def index : Thread → ℕ
  | .main => 0
  | .http i => i + 1

def threadOf : ℕ → Thread
  | 0 => .main
  | i + 1 => .http i

theorem index_threadOf (i : ℕ) : index (threadOf i) = i := by
  cases i <;> rfl

theorem index_eq_iff {t : Thread} {i : ℕ} : index t = i ↔ t = threadOf i := by
  constructor
  · rintro rfl
    cases t <;> rfl
  · rintro rfl
    exact index_threadOf i

/-- What the machine would be, with its calls where the threads are. -/
def Host.account (h : Host) (stage : ℕ → Stage) : Recorder where
  recording := h.threads.shared.recording
  calls t := (stage (index t)).phase
  destroy := (stage 0).destroy
  spawned := h.processes.spawned
  live := h.processes.live
  killed := h.processes.killed

/-- The threads that are given jobs that record. -/
def Within (S : ℕ → Bool) (_ : Host) : Happening → Prop
  | .thread (.start i j) => j.records = true → S i = true
  | _ => True

/-- Only those threads call. -/
def CallersIn (S : ℕ → Bool) (_ : Recorder) (e : Recorder.Event) : Prop :=
  ∀ t, caller e = some t → S (index t) = true

/-- The stages that a thread can be at. -/
def Role (S : ℕ → Bool) (i : ℕ) : Stage → Prop
  | .aside => i = 0 ∨ S i = false
  | .serving _ => i ≠ 0 ∧ S i = true
  | .destroying _ | .returned => i = 0 ∧ S i = true

/-- The machine is where the threads and the processes are. -/
structure Accounts (S : ℕ → Bool) (h : Host) (stage : ℕ → Stage) : Prop where
  following : Following recorder stage h.threads
  role : ∀ i, Role S i (stage i)
  spinning : h.spinning = true ↔ stage 0 = .aside

variable {S : ℕ → Bool} {h : Host} {stage : ℕ → Stage} {e : Event Answer Job} {i : ℕ} {j : Job}

theorem calls_update (stage : ℕ → Stage) (i : ℕ) (l : Stage) :
    (fun t => (Function.update stage i l (index t)).phase) =
      Function.update (fun t => (stage (index t)).phase) (threadOf i) l.phase := by
  funext t
  rw [Function.update_apply, Function.update_apply]
  by_cases ht : index t = i
  · rw [if_pos ht, if_pos (index_eq_iff.mp ht)]
  · rw [if_neg ht, if_neg fun h => ht (index_eq_iff.mpr h)]

/-- What a deed tells of the host. -/
theorem holds_of_deed (hg : Host.guard h (.thread e)) {d : Deed}
    (hd : h.threads.deed State.recording e = some d) : Holds (h.account stage) d := by
  refine ⟨Threads.deed_holds hd, fun x hx => hg.2.2 x ?_⟩
  rw [Threads.answered_eq State.recording, hd]
  exact hx

theorem processes_act (site : Site) (h : Host) (e : Event Answer Job) :
    (Host.act site h (.thread e)).processes =
      match h.threads.deed State.recording e with
      | some d => h.processes.on d
      | none => h.processes := by
  rw [Host.act, Threads.answered_eq State.recording]
  cases h.threads.deed State.recording e with
  | none => rfl
  | some d => cases d <;> rfl

/-- The machine after a deed. -/
theorem account_deed (hf : Following recorder stage h.threads) (hg : Host.guard h (.thread e))
    {d : Deed} (hd : h.threads.deed State.recording e = some d) (l' : Stage) :
    (Host.act site h (.thread e)).account (Function.update stage e.thread l') =
      { gone (h.account stage) (threadOf e.thread) d l'.phase with
        destroy := (Function.update stage e.thread l' 0).destroy } := by
  have hpart := hf.part_act (job site) hg.1
  have hprocesses := processes_act site h e
  rw [show h.threads.deed recorder.part e = some d from hd] at hpart
  rw [hd] at hprocesses
  have hrec : (Host.act site h (.thread e)).threads.shared.recording =
      Monitor.Deed.leaves h.threads.shared.recording (some d) := hpart
  rw [Host.account, gone, hrec, hprocesses, calls_update]
  rfl

/-- The machine after a step without one. -/
theorem account_still (hf : Following recorder stage h.threads) (hg : Host.guard h (.thread e))
    (hd : h.threads.deed State.recording e = none) :
    (Host.act site h (.thread e)).account stage = h.account stage := by
  have hpart := hf.part_act (job site) hg.1
  have hprocesses := processes_act site h e
  rw [show h.threads.deed recorder.part e = none from hd] at hpart
  rw [hd] at hprocesses
  have hrec : (Host.act site h (.thread e)).threads.shared.recording =
      h.threads.shared.recording := hpart
  rw [Host.account, Host.account, hrec, hprocesses]

theorem destroy_update (stage : ℕ → Stage) (i : ℕ) (l : Stage) :
    (Function.update stage i l 0).destroy = if i = 0 then l.destroy else (stage 0).destroy := by
  rw [Function.update_apply]
  by_cases h0 : i = 0
  · rw [if_pos h0, if_pos h0.symm]
  · rw [if_neg h0, if_neg (Ne.symm h0)]

/-- What a thread is given it follows from a stage that is its own. -/
theorem Accounts.starts (ha : Accounts S h stage) (hg : Host.guard h (.thread (.start i j)))
    (hw : Within S h (.thread (.start i j))) :
    ∃ l', Moves (stage i) (.start j) l' ∧ (job site j).Follows recorder l' none := by
  have hrests : (stage i).Rests := by
    have hi := ha.following i
    rw [show h.threads.prog i = .done from hg.1] at hi
    exact hi.2
  have hgives : if i = 0 then j.onMain = true ∧ h.spinning = true else j.onMain = false := hg.2.1
  cases hrecords : j.records with
  | false =>
      refine ⟨stage i, .quiet ?_, job_follows hrests hrecords⟩
      cases j <;> first | rfl | cases hrecords
  | true =>
      have hS : S i = true := hw hrecords
      have hrole := ha.role i
      cases j with
      | doPost target length =>
          have hi : i ≠ 0 := by
            rintro rfl
            exact Bool.noConfusion hgives.1
          cases hl : stage i with
          | aside =>
              rw [hl] at hrole
              rcases hrole with h0 | hno
              · exact absurd h0 hi
              · rw [hS] at hno
                cases hno
          | serving phase =>
              rw [hl] at hrests
              obtain rfl := Stage.idle_of_rests hrests
              exact ⟨_, .quiet rfl, post_follows target length⟩
          | destroying phase | returned =>
              rw [hl] at hrole
              exact absurd hrole.1 hi
      | destroyNode =>
          have hi : i = 0 := by
            by_contra hi
            rw [if_neg hi] at hgives
            exact Bool.noConfusion hgives
          subst hi
          rw [ha.spinning.mp hgives.2]
          exact ⟨_, .destroyNode, destroyNode_follows⟩
      | _ => cases hrecords

/-- A move keeps a thread to its role. -/
theorem Moves.role {l l' : Stage} (h : Moves l d l') (hrole : Role S i l)
    (hstart : d = .start .destroyNode → i = 0 ∧ S i = true) : Role S i l' := by
  cases h with
  | destroyNode => exact hstart rfl
  | _ => exact hrole

theorem caller_in {es : List Recorder.Event} (hrun : Recorder.machine.Run r es r')
    (hcaller : ∀ e ∈ es, caller e = some (threadOf i)) (hS : S i = true) :
    (Recorder.machine.restrict (CallersIn S)).Run r es r' := by
  refine hrun.restrict_of fun _ e he t ht => ?_
  rw [hcaller e he] at ht
  obtain rfl := Option.some.inj ht
  rw [index_threadOf]
  exact hS

/-- The thread `i` has moved; number 0 is where `destroy_node` is. -/
def moved (r : Recorder) (i : ℕ) (d : Deed) (l' : Stage) : Recorder :=
  { gone r (threadOf i) d l'.phase with destroy := if i = 0 then l'.destroy else r.destroy }

theorem moved_of_same {l l' : Stage} (hdestroy : i = 0 → r.destroy = l.destroy)
    (hsame : l'.destroy = l.destroy) : moved r i d l' = gone r (threadOf i) d l'.phase := by
  have hd : (if i = 0 then l'.destroy else r.destroy) = r.destroy := by
    split
    · next h0 => rw [hsame, hdestroy h0]
    · rfl
  rw [moved, hd]
  rfl

/-- **Whatever a thread does, the machine can follow.** -/
theorem Moves.run {l l' : Stage} (h : Moves l d l') (hrole : Role S i l)
    (hstart : d = .start .destroyNode → i = 0 ∧ S i = true)
    (hcalls : r.calls (threadOf i) = l.phase) (hdestroy : i = 0 → r.destroy = l.destroy)
    (hholds : Holds r d) :
    ∃ es, (Recorder.machine.restrict (CallersIn S)).Run r es (moved r i d l') := by
  cases h with
  | aside hquiet | returned hquiet =>
      refine ⟨[], ?_⟩
      rw [moved_of_same hdestroy rfl, gone_quiet hquiet hholds hcalls]
      exact .refl
  | @serving phase phase' _ hgoes =>
      obtain ⟨es, hrun, hcaller⟩ := hgoes.run hcalls hholds
      have hsame : moved r i d (.serving phase') = _ := moved_of_same hdestroy rfl
      rw [hsame]
      exact ⟨es, caller_in hrun hcaller hrole.2⟩
  | @destroying phase phase' _ hgoes =>
      obtain ⟨es, hrun, hcaller⟩ := hgoes.run hcalls hholds
      have hsame : moved r i d (.destroying phase') = _ := moved_of_same hdestroy rfl
      rw [hsame]
      exact ⟨es, caller_in hrun hcaller hrole.2⟩
  | startRecording =>
      obtain ⟨k, rfl⟩ := Nat.exists_eq_succ_of_ne_zero hrole.1
      have hrun : Recorder.machine.Run r [.startRecording k] (moved r (k + 1) .acquire
          (.serving .checking)) := .single (M := Recorder.machine) hcalls
      exact ⟨_, caller_in hrun (by simp [caller, threadOf]) hrole.2⟩
  | stopRecording =>
      obtain ⟨k, rfl⟩ := Nat.exists_eq_succ_of_ne_zero hrole.1
      have hrun : Recorder.machine.Run r [.stopRecording k] (moved r (k + 1) .acquire
          (.serving .taking)) := .single (M := Recorder.machine) hcalls
      exact ⟨_, caller_in hrun (by simp [caller, threadOf]) hrole.2⟩
  | destroyNode =>
      obtain ⟨rfl, hS⟩ := hstart rfl
      have hrun : Recorder.machine.Run r [.destroyNode] (moved r 0 (.start .destroyNode)
          (.destroying .taking)) := .single (M := Recorder.machine) (hdestroy rfl)
      exact ⟨_, caller_in hrun (by simp [caller, threadOf]) hS⟩
  | @shutDown a =>
      obtain ⟨rfl, hS⟩ := hrole
      have hsame : moved r 0 (.ask none .shutdown a) .returned =
          { r with destroy := .returned } := by
        have hcalls : Function.update r.calls .main .idle = r.calls :=
          (congrArg (Function.update r.calls .main) hcalls.symm).trans (Function.update_eq_self ..)
        show { gone r .main _ .idle with destroy := .returned } = _
        rw [gone, hcalls]
        rfl
      have hrun : Recorder.machine.Run r [.stopped, .shutDown] { r with destroy := .returned } :=
        .cons ⟨hdestroy rfl, hcalls⟩ (.single (M := Recorder.machine) rfl)
      rw [hsame]
      exact ⟨_, caller_in hrun (by simp [caller, threadOf]) hS⟩

/-- Only the main thread is given `destroy_node`. -/
theorem destroys (hg : Host.guard h (.thread e)) (hends : Host.ends e = true) :
    e = .start 0 .destroyNode := by
  cases e with
  | start i j =>
      cases j with
      | destroyNode =>
          have hgives : if i = 0 then _ else _ := hg.2.1
          split at hgives
          · next hi => rw [hi]
          · exact Bool.noConfusion hgives
      | _ => cases hends
  | _ => cases hends

/-- The executor spins until `destroy_node` is called, and only then. -/
theorem Accounts.spins (ha : Accounts S h stage) (hg : Host.guard h (.thread e)) {d : Deed}
    (hd : h.threads.deed State.recording e = some d) {l' : Stage}
    (hmove : Moves (stage e.thread) d l') :
    (Host.act site h (.thread e)).spinning = true ↔
      Function.update stage e.thread l' 0 = .aside := by
  show (h.spinning && !Host.ends e) = true ↔ _
  rw [Bool.and_eq_true, ha.spinning, Bool.not_eq_true']
  cases hends : Host.ends e with
  | true =>
      obtain rfl := destroys hg hends
      cases hd
      have hl : l' ≠ .aside := by
        rintro rfl
        generalize stage (Event.thread (.start 0 Job.destroyNode)) = l at hmove
        cases hmove with
        | aside hquiet => cases hquiet
      simp [Event.thread, hl]
  | false =>
      by_cases hi : e.thread = 0
      · rw [hi, Function.update_self]
        rw [hi] at hmove
        refine ⟨fun h0 => ?_, fun hl => ⟨?_, rfl⟩⟩
        · rw [h0.1] at hmove
          cases hmove with
          | aside => rfl
          | destroyNode =>
              rw [Threads.deed_start hd] at hends
              cases hends
        · subst hl
          generalize stage 0 = l at hmove
          cases hmove
          rfl
      · rw [Function.update_of_ne (Ne.symm hi)]
        simp

/-- **A step of any thread** is none, one or two of the machine. -/
theorem Accounts.step (site : Site) (ha : Accounts S h stage) (hg : Host.guard h (.thread e))
    (hw : Within S h (.thread e)) :
    ∃ stage' es, Accounts S (Host.act site h (.thread e)) stage' ∧
      (Recorder.machine.restrict (CallersIn S)).Run (h.account stage) es
        ((Host.act site h (.thread e)).account stage') := by
  obtain ⟨l', htakes, hfollowing⟩ := ha.following.step (job site) hg.1 fun i j he => by
    subst he
    exact ha.starts hg hw
  refine ⟨Function.update stage e.thread l', ?_⟩
  cases hd : h.threads.deed State.recording e with
  | none =>
      have hsame : l' = stage e.thread := by
        rw [show h.threads.deed recorder.part e = none from hd] at htakes
        exact htakes
      have hgoes : Host.ends e = false := by
        cases e <;> first | rfl | cases hd
      rw [hsame, Function.update_eq_self] at hfollowing ⊢
      refine ⟨[], ⟨hfollowing, ha.role, ?_⟩, ?_⟩
      · rw [← ha.spinning, Host.act, hgoes]
        simp
      · rw [account_still ha.following hg hd]
        exact .refl
  | some d =>
      rw [show h.threads.deed recorder.part e = some d from hd] at htakes
      have hmove : Moves (stage e.thread) d l' := htakes
      have hrole := ha.role e.thread
      have hstart : d = .start .destroyNode → e.thread = 0 ∧ S e.thread = true := by
        rintro rfl
        have he : e = .start e.thread .destroyNode := Threads.deed_start hd
        have h0 := destroys hg (by rw [he]; rfl)
        rw [h0] at hw ⊢
        exact ⟨rfl, hw rfl⟩
      obtain ⟨es, hrun⟩ := hmove.run (r := h.account stage) hrole hstart
        (congrArg (fun i => (stage i).phase) (index_threadOf e.thread))
        (fun h0 => congrArg (fun i => (stage i).destroy) h0.symm) (holds_of_deed hg hd)
      refine ⟨es, ⟨hfollowing, fun i => ?_, ha.spins hg hd hmove⟩, ?_⟩
      · rw [Function.update_apply]
        split
        · next hi => exact hi ▸ hmove.role hrole hstart
        · exact ha.role i
      · rw [account_deed ha.following hg hd, destroy_update]
        exact hrun

/-- A process exits. -/
theorem Accounts.exit (site : Site) (ha : Accounts S h stage) {proc : ℕ}
    (hg : Host.guard h (.exit proc)) :
    Accounts S (Host.act site h (.exit proc)) stage ∧
      (Recorder.machine.restrict (CallersIn S)).Run (h.account stage) [.exit proc]
        ((Host.act site h (.exit proc)).account stage) := by
  refine ⟨⟨ha.following, ha.role, ha.spinning⟩, ?_⟩
  exact .single (M := Recorder.machine.restrict (CallersIn S)) ⟨hg, nofun⟩

/-- Where the threads are at first. -/
def opening (S : ℕ → Bool) (i : ℕ) : Stage :=
  if i ≠ 0 ∧ S i = true then .serving .idle else .aside

theorem opening_phase (S : ℕ → Bool) (i : ℕ) : (opening S i).phase = .idle := by
  rw [opening]
  split <;> rfl

theorem Accounts.init (S : ℕ → Bool) : Accounts S {} (opening S) where
  following i := by
    refine ⟨rfl, ?_⟩
    show (opening S i).Rests
    rw [opening]
    split <;> trivial
  role i := by
    rw [opening]
    split
    · next h => exact h
    · next h =>
        rcases Nat.eq_zero_or_pos i with h0 | hpos
        · exact .inl h0
        · exact .inr (Bool.eq_false_iff.mpr fun hS => h ⟨hpos.ne', hS⟩)
  spinning := ⟨fun _ => rfl, fun _ => rfl⟩

theorem account_init (S : ℕ → Bool) : ({} : Host).account (opening S) = {} := by
  have hcalls : (fun t => (opening S (index t)).phase) = fun _ => Phase.idle := by
    funext t
    exact opening_phase S _
  rw [Host.account, hcalls]
  rfl

/-! ## Every run -/

variable {hs : List Happening}

theorem accounts (hrun : ((Host.machine site).restrict (Within S)).Run {} hs h) :
    ∃ es stage, (Recorder.machine.restrict (CallersIn S)).Run {} es (h.account stage) ∧
      Accounts S h stage := by
  let R : Host → Recorder → Prop := fun h r => ∃ stage, r = h.account stage ∧ Accounts S h stage
  have hstep : ∀ h x r, R h r → ((Host.machine site).restrict (Within S)).guard h x →
      ∃ es r', (Recorder.machine.restrict (CallersIn S)).Run r es r' ∧
        R (Host.act site h x) r' := by
    rintro h x _ ⟨stage, rfl, ha⟩ ⟨hg, hw⟩
    cases x with
    | thread e =>
        obtain ⟨stage', es, ha', hes⟩ := ha.step site hg hw
        exact ⟨es, _, hes, stage', rfl, ha'⟩
    | exit proc =>
        obtain ⟨ha', hes⟩ := ha.exit site hg
        exact ⟨_, _, hes, stage, rfl, ha'⟩
  obtain ⟨es, _, hrecorder, stage, rfl, ha⟩ :=
    hrun.simulate hstep ⟨opening S, (account_init S).symm, .init S⟩
  exact ⟨es, stage, hrecorder, ha⟩

theorem within_all (x : Happening) : Within (fun _ => true) h x := by
  cases x with
  | thread e => cases e <;> first | trivial | exact fun _ => rfl
  | exit proc => trivial

/-- A thread that has nothing to do is in no call. -/
theorem Accounts.rests (ha : Accounts S h stage) (hdone : h.threads.prog i = .done) :
    (stage i).Rests := by
  have hi := ha.following i
  rw [hdone] at hi
  exact hi.2

theorem Stage.phase_of_rests {l : Stage} (hl : l.Rests) : l.phase = .idle := by
  cases l with
  | serving phase => exact Stage.idle_of_rests hl
  | destroying phase => exact hl.elim
  | _ => rfl

/-- `destroy_node` has returned. -/
theorem Accounts.returned (ha : Accounts S h stage) (hended : h.spinning = false)
    (hdone : h.threads.prog 0 = .done) : (stage 0).destroy = .returned := by
  have hrests := ha.rests hdone
  have hrole := ha.role 0
  cases hl : stage 0 with
  | aside =>
      rw [ha.spinning.mpr hl] at hended
      cases hended
  | serving phase =>
      rw [hl] at hrole
      exact absurd rfl hrole.1
  | destroying phase =>
      rw [hl] at hrests
      exact hrests.elim
  | returned => rfl

/-- **The threads of the console do what `Recorder.machine` does**, whatever else they do, and
whenever processes exit: every run of them is one of the machine, with the same recorder in
`state.recording`, the same processes, calls where there are jobs, and `destroy_node` where the
main thread is. -/
theorem console_refines (hrun : (Host.machine site).Run {} hs h) :
    ∃ es r, Recorder.machine.Run {} es r ∧ r.recording = h.threads.shared.recording ∧
      r.spawned = h.processes.spawned ∧ r.live = h.processes.live ∧
      r.killed = h.processes.killed ∧
      (∀ t, h.threads.prog (index t) = .done → r.calls t = .idle) ∧
      (r.destroy = .notCalled ↔ h.spinning = true) ∧
      (h.spinning = false → h.threads.prog 0 = .done → r.destroy = .returned) := by
  obtain ⟨es, stage, hrecorder, ha⟩ := accounts (hrun.restrict_of fun _ x _ => within_all x)
  have hrole := ha.role 0
  refine ⟨es, _, hrecorder.of_restrict, rfl, rfl, rfl, rfl, fun t hdone => ?_, ?_, ?_⟩
  · exact Stage.phase_of_rests (ha.rests hdone)
  · rw [ha.spinning]
    show (stage 0).destroy = .notCalled ↔ _
    cases hl : stage 0 with
    | serving phase =>
        rw [hl] at hrole
        exact absurd rfl hrole.1
    | _ => simp [Stage.destroy]
  · exact fun hended hdone => ha.returned hended hdone

/-- A recording is started, and ends by itself. -/
def recordedAlone : List Happening :=
  [.thread (.start 1 (.doPost "/api/record/start" 0)), .thread (.acquire 1), .thread (.read 1),
    .thread (.release 1), .thread (.ask 1 {}), .thread (.ask 1 {}), .thread (.ask 1 {}),
    .thread (.acquire 1), .thread (.ask 1 {}), .thread (.update 1), .thread (.release 1),
    .thread (.client 1 {}), .thread (.client 1 {})]

theorem console_refines_recordedAlone :
    ∃ es r, Recorder.machine.Run {} es r ∧ r.recording = some 0 ∧ r.live 0 = true := by
  have hrun : (Host.machine plainSite).Run {} recordedAlone
      (recordedAlone.foldl (Host.act plainSite) {}) := by
    refine .of_admits ?_
    decide +kernel
  obtain ⟨es, r, hr, hrec, -, hlive, -⟩ := console_refines hrun
  exact ⟨es, r, hr, hrec, by rw [hlive]; decide +kernel⟩

end JetsonPerception.Console.Lock
