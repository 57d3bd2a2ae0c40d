/-
# The recorder in the hands of the console's threads

The threads of `JetsonPerception.Console.Lock` with the processes that they spawn, poll and kill.
`poll` and `wait` tell of a process what is so, and a process may exit at any time; one that is
killed is still there until it does.

`Recorder.machine` says in which phases a call of `start_recording` or `stop_recording` is.  Here
these phases are the stages of a protocol, for `state.recording`, which is what the lock is for.
Function by function, every job of the console follows it: the two calls from phase to phase, under
the lock where the machine says so, and everything else without touching the recorder.
-/
import JetsonPerception.Console.Bystander
import JetsonPerception.Console.Recorder

namespace JetsonPerception.Console.Lock

open Monitor Post

/-! ## Threads and processes -/

/-- The processes spawned so far; those are live that have not exited. -/
structure Processes where
  spawned : ℕ := 0
  live : ℕ → Bool := fun _ => false
  /-- Those that `kill` has been called for. -/
  killed : ℕ → Bool := fun _ => false

/-- The process is live and has not been killed. -/
def Processes.runs (ps : Processes) (proc : ℕ) : Bool := ps.live proc && !ps.killed proc

def Processes.exit (ps : Processes) (proc : ℕ) : Processes :=
  { ps with live := Function.update ps.live proc false }

/-- The processes may answer so: `poll` tells whether one has exited, and `wait` returns when it
has, and else runs into its timeout. -/
def Processes.Answers (ps : Processes) : Call → Answer → Prop
  | .poll proc, a => a.ok = ps.live proc
  | .popen _, a => a.ok = true → a.proc = ps.spawned
  | .wait proc, a => a.ok = !ps.live proc
  | _, _ => True

instance (ps : Processes) (call : Call) (a : Answer) : Decidable (ps.Answers call a) := by
  cases call <;> dsimp only [Processes.Answers] <;> infer_instance

/-- What a call that is answered so has done to the processes. -/
def Processes.after (ps : Processes) : Call → Answer → Processes
  | .popen _, a =>
      if a.ok then
        { ps with spawned := ps.spawned + 1, live := Function.update ps.live ps.spawned true }
      else ps
  | .kill proc, _ => { ps with killed := Function.update ps.killed proc true }
  | _, _ => ps

/-- The console and its processes. -/
structure Host where
  threads : Threads State Answer Call := start
  processes : Processes := {}
  /-- `rclpy.spin` goes on. -/
  spinning : Bool := true

/-- The callbacks of the executor, and what follows its end, are the main thread's, number 0. -/
def Job.onMain : Job → Bool
  | .onCompressed .. | .onRate .. | .onInfo .. | .manageImageSub | .destroyNode => true
  | .doGet .. | .doPost .. | .canReader .. => false

/-- A job that calls `start_recording` or `stop_recording`. -/
def Job.records : Job → Bool
  | .doPost target _ => pathOf target = "/api/record/start" ∨ pathOf target = "/api/record/stop"
  | .destroyNode => true
  | _ => false

def Job.isDestroy : Job → Bool
  | .destroyNode => true
  | _ => false

inductive Happening where
  | thread (e : Event Answer Job)
  | exit (proc : ℕ)

namespace Host

/-- Who may be given which job. -/
def Gives (h : Host) : Event Answer Job → Prop
  | .start i j => if i = 0 then j.onMain = true ∧ h.spinning = true else j.onMain = false
  | _ => True

/-- When something may happen. -/
def guard (h : Host) : Happening → Prop
  | .thread e => Monitor.guard h.threads e ∧ h.Gives e ∧
      ∀ x ∈ h.threads.answered e, h.processes.Answers x.1 x.2
  | .exit proc => h.processes.live proc = true

/-- `rclpy.spin` has ended, since `destroy_node` is called. -/
def ends : Event Answer Job → Bool
  | .start _ j => j.isDestroy
  | _ => false

/-- Where it leads. -/
def act (site : Site) (h : Host) : Happening → Host
  | .thread e =>
      { threads := Monitor.act (job site) h.threads e
        processes :=
          match h.threads.answered e with
          | some (call, a) => h.processes.after call a
          | none => h.processes
        spinning := h.spinning && !ends e }
  | .exit proc => { h with processes := h.processes.exit proc }

def machine (site : Site) : GuardedMachine Host Happening := ⟨guard, act site⟩

instance (h : Host) (e : Event Answer Job) : Decidable (h.Gives e) := by
  cases e <;> dsimp only [Gives] <;> infer_instance

instance (site : Site) (h : Host) (x : Happening) : Decidable ((machine site).guard h x) := by
  show Decidable (h.guard x)
  cases x with
  | thread e =>
      haveI : Decidable (Monitor.guard h.threads e) := decidable_of_iff _ (h.threads.ready_iff e)
      dsimp only [guard]
      infer_instance
  | exit proc => dsimp only [guard]; infer_instance

end Host

/-! ## The protocol of a call -/

/-- Where a thread is, as far as the recorder is concerned: it never has to do with it, or serves
requests, or is the main thread in `destroy_node`, or behind that. -/
inductive Stage where
  | aside
  | serving (phase : Phase)
  | destroying (phase : Phase)
  | returned

def Stage.phase : Stage → Phase
  | .serving phase | .destroying phase => phase
  | .aside | .returned => .idle

def Stage.destroy : Stage → Destroy
  | .destroying _ => .stopping
  | .returned => .returned
  | .aside | .serving _ => .notCalled

/-- What a thread does between its calls. -/
def Stage.Rests : Stage → Prop
  | .aside | .serving .idle | .returned => True
  | _ => False

theorem Stage.idle_of_rests {phase : Phase} (h : (Stage.serving phase).Rests) : phase = .idle := by
  cases phase <;> first | rfl | exact h.elim

abbrev Deed := Monitor.Deed Answer Call Job (Option ℕ)

/-- The recorder is let be. -/
def Quiet : Deed → Prop
  | .start j => j.isDestroy = false
  | .update b b' => b' = b
  | .ask _ (.popen _) a => a.ok = false
  | .ask _ (.kill _) _ => False
  | _ => True

/-- A call goes on. -/
inductive Goes : Phase → Deed → Phase → Prop
  | quiet {phase : Phase} {d : Deed} (h : Quiet d) : Goes phase d phase
  | nothing : Goes .checking (.release none) .testingDisk
  | alreadyRecording {p : ℕ} {a : Answer} (h : a.ok = true) :
      Goes .checking (.ask (some (some p)) (.poll p) a) .idle
  | checked {p : ℕ} {a : Answer} (h : a.ok = false) :
      Goes .checking (.ask (some (some p)) (.poll p) a) .testingDisk
  | diskLow {a : Answer} : Goes .testingDisk (.ask none .statvfs a) .idle
  | diskOk {a : Answer} : Goes .testingDisk (.ask none .statvfs a) .spawning
  | spawnFailed {cmd : List String} {a : Answer} (h : a.ok = false) :
      Goes .spawning (.ask none (.popen cmd) a) .idle
  | spawn {cmd : List String} {a : Answer} (h : a.ok = true) :
      Goes .spawning (.ask none (.popen cmd) a) (.storing a.proc)
  | store {p : ℕ} {b : Option ℕ} : Goes (.storing p) (.update b (some p)) .idle
  | take {b : Option ℕ} : Goes .taking (.update b none) (.polling b)
  | neverStarted {b : Option ℕ} : Goes (.polling none) (.release b) .idle
  | notRecording {p : ℕ} {a : Answer} (h : a.ok = false) :
      Goes (.polling (some p)) (.ask none (.poll p) a) .idle
  | terminate {p : ℕ} {a : Answer} (h : a.ok = true) :
      Goes (.polling (some p)) (.ask none (.poll p) a) (.waiting p)
  | waited {p : ℕ} {a : Answer} (h : a.ok = true) : Goes (.waiting p) (.ask none (.wait p) a) .idle
  | timedOut {p : ℕ} {a : Answer} (h : a.ok = false) :
      Goes (.waiting p) (.ask none (.wait p) a) (.killing p)
  | kill {p : ℕ} {a : Answer} : Goes (.killing p) (.ask none (.kill p) a) .idle

/-- From stage to stage. -/
inductive Moves : Stage → Deed → Stage → Prop
  | aside {d : Deed} (h : Quiet d) : Moves .aside d .aside
  | startRecording : Moves (.serving .idle) .acquire (.serving .checking)
  | stopRecording : Moves (.serving .idle) .acquire (.serving .taking)
  | serving {phase phase' : Phase} {d : Deed} (h : Goes phase d phase') :
      Moves (.serving phase) d (.serving phase')
  | destroyNode : Moves .aside (.start .destroyNode) (.destroying .taking)
  | destroying {phase phase' : Phase} {d : Deed} (h : Goes phase d phase') :
      Moves (.destroying phase) d (.destroying phase')
  | shutDown {a : Answer} : Moves (.destroying .idle) (.ask none .shutdown a) .returned
  | returned {d : Deed} (h : Quiet d) : Moves .returned d .returned

/-- What the lock is for here: `state.recording`. -/
def recorder : Protocol State Answer Call Job (Option ℕ) Stage :=
  ⟨State.recording, Stage.Rests, Moves⟩

/-! ## Function by function -/

variable {site : Site} {l : Stage} {known : Option (Option ℕ)}

theorem Moves.quiet {d : Deed} (h : Quiet d) : Moves l d l := by
  cases l with
  | aside => exact .aside h
  | serving phase => exact .serving (.quiet h)
  | destroying phase => exact .destroying (.quiet h)
  | returned => exact .returned h

theorem quiet_follows {call : Call} {k : Answer → Program}
    (hcall : ∀ a, Quiet (.ask known call a)) (hk : ∀ a, (k a).Follows recorder l known) :
    (Prog.ask call k).Follows recorder l known :=
  fun a => ⟨l, .quiet (hcall a), hk a⟩

/-- Nobody has to record. -/
theorem looksOn (l : Stage) : Bystands recorder l where
  acquire := .quiet trivial
  release _ := .quiet trivial
  update _ := .quiet rfl
  ask known call a hplain := by
    refine .quiet ?_
    cases call with
    | popen cmd | kill proc => cases hplain
    | _ => trivial
  part _ _ hrecording _ := hrecording

theorem snapshot_follows {k : Option String → Option String → Program} (hl : l.Rests)
    (hk : ∀ p err, (k p err).Follows recorder l none) :
    (snapshot site k).Follows recorder l none := by
  refine section_follows (looksOn _) fun st => ?_
  cases st.frameJpeg with
  | none => exact hk _ _
  | some jpeg =>
      refine quiet_follows (fun _ => trivial) fun _ => quiet_follows (fun _ => trivial) fun _ => ?_
      exact .ite (fun _ => hk _ _) fun _ => done_follows hl

/-- What a thread is given that does not record. -/
theorem job_follows (hl : l.Rests) {j : Job} (hj : j.records = false) :
    (job site j).Follows recorder l none := by
  cases j with
  | onCompressed data format =>
      refine acquire_follows (looksOn l) fun b => monotonic_follows (looksOn l) fun _ => ?_
      exact ⟨b, l, fun _ hst => hst, .quiet rfl, release_follows (looksOn l) (done_follows hl)⟩
  | doPost target length =>
      have hpath : ¬ (pathOf target = "/api/record/start" ∨ pathOf target = "/api/record/stop") :=
        of_decide_eq_false hj
      exact doPost_follows (looksOn l) hl (fun h => absurd (.inl h) hpath)
        (fun h => absurd (.inr h) hpath) (fun _ _ => snapshot_follows hl) length
  | destroyNode => cases hj
  | _ => exact plain_follows (looksOn l) hl rfl

/-! ### The two that record -/

/-- A call with a branch for each answer. -/
theorem branch_follows {call : Call} {p q : Answer → Program} (yes : Answer → Stage) (no : Stage)
    (hyes : ∀ a, a.ok = true →
      Moves l (.ask known call a) (yes a) ∧ (p a).Follows recorder (yes a) known)
    (hno : ∀ a, a.ok = false → Moves l (.ask known call a) no ∧ (q a).Follows recorder no known) :
    (Prog.ask call fun a => if a.ok then p a else q a).Follows recorder l known := by
  intro a
  dsimp only
  cases h : a.ok with
  | true => exact ⟨yes a, hyes a h⟩
  | false => exact ⟨no, hno a h⟩

/-- `stop_recording`, from its section on, of an HTTP thread and of the main thread. -/
theorem taking_follows {stage : Phase → Stage} {k : Option String → Program}
    (hstage : ∀ {phase d phase'}, Goes phase d phase' → Moves (stage phase) d (stage phase'))
    (hk : ∀ err, (k err).Follows recorder (stage .idle) none) (b : Option ℕ) :
    (Prog.read fun st => .update (fun st => { st with recording := none }) <| .release <|
      match st.recording with
      | none => k (some "not recording")
      | some proc => .ask (.poll proc) fun a =>
          if a.ok then
            .ask (.terminate proc) fun _ => .ask (.wait proc) fun a =>
              if a.ok then k none else .ask (.kill proc) fun _ => k none
          else k (some "not recording") : Program).Follows recorder (stage .taking) (some b) := by
  intro st hst
  have hrec : st.recording = b := hst b rfl
  refine ⟨none, stage (.polling b), fun _ _ => rfl, hstage .take, none, ?_⟩
  rw [hrec]
  cases b with
  | none => exact ⟨stage .idle, rfl, hstage .neverStarted, hk _⟩
  | some p =>
      refine ⟨stage (.polling (some p)), rfl, hstage (.quiet trivial), ?_⟩
      refine branch_follows (fun _ => stage (.waiting p)) (stage .idle) (fun a hpoll => ?_)
        fun a hpoll => ?_
      · refine ⟨hstage (.terminate hpoll), fun a => ⟨_, hstage (.quiet trivial), ?_⟩⟩
        refine branch_follows (fun _ => stage .idle) (stage (.killing p)) (fun a hwait => ?_)
          fun a hwait => ?_
        · exact ⟨hstage (.waited hwait), hk _⟩
        · exact ⟨hstage (.timedOut hwait), fun a => ⟨_, hstage .kill, hk _⟩⟩
      · exact ⟨hstage (.notRecording hpoll), hk _⟩

theorem stopRecording_follows {k : Option String → Program}
    (hk : ∀ err, (k err).Follows recorder (.serving .idle) none) :
    (stopRecording k).Follows recorder (.serving .idle) none :=
  ⟨rfl, _, .stopRecording, taking_follows .serving hk⟩

theorem destroyNode_follows : destroyNode.Follows recorder (.destroying .taking) none := by
  refine quiet_follows (fun _ => trivial) fun _ => ⟨rfl, _, .quiet trivial, ?_⟩
  refine taking_follows (k := fun _ => .ask .shutdown fun _ => .ask .destroyNode fun _ => .done)
    .destroying fun _ => ?_
  intro a
  refine ⟨_, .shutDown, ?_⟩
  exact quiet_follows (fun _ => trivial) fun _ => done_follows trivial

theorem startRecording_follows {k : Option String → Program}
    (hk : ∀ err, (k err).Follows recorder (.serving .idle) none) :
    (startRecording site k).Follows recorder (.serving .idle) none := by
  -- what follows the check
  have hfree : (Prog.ask .statvfs fun a =>
      let free := Post.diskFreeGb a.size
      if free.any (· < site.minFreeGb) then k (some (diskLow site.toConfig (free.getD 0)))
      else .ask .strftime fun stamp =>
        .ask (.popen (recordCmd site.toConfig stamp.text)) fun a =>
          if a.ok then
            .acquire <| monotonic fun now =>
            .update (fun st => { st with
              recording := some a.proc
              recordPath := recordPath site.toConfig stamp.text
              recordStarted := now }) <|
            .release <| k none
          else k (some a.text) : Program).Follows recorder (.serving .testingDisk) none := by
    intro a
    dsimp only
    split
    · exact ⟨_, .serving .diskLow, hk _⟩
    · refine ⟨_, .serving .diskOk, quiet_follows (fun _ => trivial) fun stamp => ?_⟩
      refine branch_follows (fun a => .serving (.storing a.proc)) (.serving .idle)
        (fun a hspawn => ?_) fun a hspawn => ?_
      · refine ⟨.serving (.spawn hspawn), acquire_follows (looksOn _) fun b => ?_⟩
        refine monotonic_follows (looksOn _) fun _ => ?_
        refine ⟨some a.proc, _, fun _ _ => rfl, .serving .store, ?_⟩
        exact release_follows (looksOn _) (hk _)
      · exact ⟨.serving (.spawnFailed hspawn), hk _⟩
  refine ⟨rfl, _, .startRecording, fun b st hst => ?_⟩
  have hrec : st.recording = b := hst b rfl
  dsimp only
  rw [hrec]
  cases b with
  | none => exact ⟨none, _, rfl, .serving .nothing, hfree⟩
  | some p =>
      refine branch_follows (fun _ => .serving .idle) (.serving .testingDisk) (fun a hpoll => ?_)
        fun a hpoll => ?_
      · exact ⟨.serving (.alreadyRecording hpoll), release_follows (looksOn _) (hk _)⟩
      · exact ⟨.serving (.checked hpoll), release_follows (looksOn _) hfree⟩

theorem post_follows (target : String) (length : ℕ) :
    (doPost site target length).Follows recorder (.serving .idle) none :=
  doPost_follows (looksOn (.serving .idle)) trivial (fun _ _ => startRecording_follows)
    (fun _ _ => stopRecording_follows) (fun _ _ => snapshot_follows trivial) length

end JetsonPerception.Console.Lock
