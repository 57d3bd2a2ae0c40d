/-
# The files that the console's threads save

`snapshot` of `JetsonPerception.Console.Lock` saves its file in one call.  Here the file is opened
in that call, which empties it, and written a few bytes at a time, while the other threads go on;
some of them may have the same file open.  `time.strftime` tells the second it is asked in.

`Snapshots.machine` has the calls of `snapshot()` alone; its phases are the stages of a protocol for
`state.frame_jpeg`.

| a step of the machine | is, of a thread |
| :-- | :-- |
| `call` | the `acquire` of its `get_frame` |
| `noFrame`, `capture` | the `release` of it |
| `name` | the answer of `strftime` |
| `open`, `write` | a step of its file |
| `openFailed`, `failed`, `done` | the answer of `save` |
| `frame` | the update in `_on_compressed` |

So every run of the threads is one of the machine (`snapshots_refine`).  As long as no snapshot
finds a file of its name, none is lost, nor is what was there before (`snapshots_saved`).
-/
import JetsonPerception.Console.Bystander
import JetsonPerception.Console.Snapshot
import Mathlib.Data.Rat.Floor

namespace JetsonPerception.Console.Lock

open Monitor Post

/-! ## Threads and files -/

/-- The console, the files, and what is being written of them. -/
structure Disk where
  threads : Threads State Answer Call := start
  files : String → Option (List UInt8) := fun _ => none
  /-- For a thread whose file is open, how much of it is written. -/
  written : ℕ → Option ℕ := fun _ => none
  /-- What has been saved. -/
  saved : List (String × List UInt8) := []

/-- The file that a thread is saving, or is about to. -/
def saving (s : Threads State Answer Call) (i : ℕ) : Option (String × List UInt8) :=
  match s.prog i with
  | .ask (.save path bytes) _ => some (path, bytes)
  | _ => none

namespace Disk

inductive Happening where
  | thread (e : Event Answer Job)
  | open (i : ℕ)
  | write (i n : ℕ)

section

variable (site : Site) (strftime : ℤ → String)

/-- A thread may be answered so: its file is saved when all of it is written. -/
def answers (d : Disk) (i : ℕ) : Call → Answer → Bool
  | .strftime, a => a.text = strftime ⌊a.now⌋
  | .save _ bytes, a => !a.ok || d.written i = some bytes.length
  | _, _ => true

/-- When something may happen. -/
def guard (d : Disk) : Happening → Prop
  | .thread e => Monitor.guard d.threads e ∧
      ∀ x ∈ d.threads.answered e, d.answers strftime e.thread x.1 x.2 = true
  | .open i =>
      match saving d.threads i with
      | some _ => d.written i = none
      | none => False
  | .write i n =>
      match saving d.threads i, d.written i with
      | some (_, bytes), some k => 0 < n ∧ k + n ≤ bytes.length
      | _, _ => False

/-- An answer to thread `i`; the file is closed in any case. -/
def after (d : Disk) (i : ℕ) : Option (Call × Answer) → Disk
  | some (.save path bytes, a) =>
      { d with
        written := Function.update d.written i none
        saved := if a.ok then d.saved ++ [(path, bytes)] else d.saved }
  | _ => d

/-- Where it leads. -/
def act (d : Disk) : Happening → Disk
  | .thread e =>
      { d.after e.thread (d.threads.answered e) with
        threads := Monitor.act (job site) d.threads e }
  | .open i =>
      match saving d.threads i with
      | some (path, _) =>
          { d with
            files := Function.update d.files path (some [])
            written := Function.update d.written i (some 0) }
      | none => d
  | .write i n =>
      match saving d.threads i, d.written i with
      | some (path, bytes), some k =>
          { d with
            files := Function.update d.files path
              (some (overwrite ((d.files path).getD []) k ((bytes.drop k).take n)))
            written := Function.update d.written i (some (k + n)) }
      | _, _ => d

def machine : GuardedMachine Disk Happening := ⟨guard strftime, act site⟩

instance (d : Disk) (x : Happening) : Decidable ((machine site strftime).guard d x) := by
  show Decidable (guard strftime d x)
  cases x with
  | thread e =>
      haveI : Decidable (Monitor.guard d.threads e) := decidable_of_iff _ (d.threads.ready_iff e)
      dsimp only [guard]
      infer_instance
  | «open» i => dsimp only [guard]; split <;> infer_instance
  | write i n => dsimp only [guard]; split <;> infer_instance

end

/-! ## The protocol of a call -/

abbrev Deed := Monitor.Deed Answer Call Job (Option (List UInt8))

/-- Neither the frame nor a file is touched. -/
def Still : Deed → Prop
  | .update b b' => b' = b
  | .ask _ (.save ..) _ => False
  | _ => True

/-- From phase to phase, where only frames in `F` come; `opening` is for all the time in which the
file is saved. -/
inductive Shoots (site : Site) (F : List UInt8 → Prop) : Shot → Deed → Shot → Prop
  | still {shot : Shot} {d : Deed} (h : Still d) : Shoots site F shot d shot
  | frame {shot : Shot} {b : Option (List UInt8)} {jpeg : List UInt8} (h : F jpeg) :
      Shoots site F shot (.update b (some jpeg)) shot
  | call : Shoots site F .idle .acquire .capturing
  | noFrame : Shoots site F .capturing (.release none) .idle
  | capture {jpeg : List UInt8} : Shoots site F .capturing (.release (some jpeg)) (.naming jpeg)
  | name {jpeg : List UInt8} {a : Answer} : Shoots site F (.naming jpeg) (.ask none .strftime a)
      (.opening jpeg (snapshotPath site.toConfig a.text))
  | save {jpeg : List UInt8} {path : String} {a : Answer} :
      Shoots site F (.opening jpeg path) (.ask none (.save path jpeg) a) .idle

/-- What the lock is for here: `state.frame_jpeg`. -/
def shots (site : Site) (F : List UInt8 → Prop) :
    Protocol State Answer Call Job (Option (List UInt8)) Shot :=
  ⟨State.frameJpeg, (· = .idle), Shoots site F⟩

/-- A frame that comes is in `F`. -/
def Job.Brings (F : List UInt8 → Prop) : Job → Prop
  | .onCompressed data _ => F data
  | _ => True

/-! ## Function by function -/

variable {site : Site} {F : List UInt8 → Prop} {shot : Shot}

/-- Nobody has to take a snapshot. -/
theorem looksOn (shot : Shot) : Bystands (shots site F) shot where
  acquire := .still trivial
  release _ := .still trivial
  update _ := .still rfl
  ask known call a hplain := by
    refine .still ?_
    cases call with
    | save path bytes => cases hplain
    | _ => trivial
  part _ _ _ hframe := hframe

theorem still_follows {known : Option (Option (List UInt8))} {call : Call} {k : Answer → Program}
    (hcall : ∀ a, Still (.ask known call a)) (hk : ∀ a, (k a).Follows (shots site F) shot known) :
    (Prog.ask call k).Follows (shots site F) shot known :=
  fun a => ⟨shot, .still (hcall a), hk a⟩

/-- A section that writes something else. -/
theorem written_follows {f : State → State} {k : Program}
    (hf : ∀ st, (f st).frameJpeg = st.frameJpeg) {b : Option (List UInt8)}
    (hk : k.Follows (shots site F) shot none) :
    (Prog.update f <| .release k).Follows (shots site F) shot (some b) :=
  ⟨b, shot, fun st hst => (hf st).trans hst, .still rfl, release_follows (looksOn shot) hk⟩

theorem startRecording_follows {k : Option String → Program}
    (hk : ∀ err, (k err).Follows (shots site F) shot none) :
    (startRecording site k).Follows (shots site F) shot none := by
  have hl : Bystands (shots site F) shot := looksOn shot
  have hpopen : ∀ cmd (k : Answer → Program), (∀ a, (k a).Follows (shots site F) shot none) →
      (Prog.ask (.popen cmd) k).Follows (shots site F) shot none :=
    fun _ _ => still_follows fun _ => trivial
  refine acquire_follows hl fun b st _ => polls_follows hl fun rec => .ite (fun _ => ?_) fun _ => ?_
  · exact release_follows hl (hk _)
  · refine release_follows hl (ask_follows hl rfl fun a => .ite (fun _ => hk _) fun _ => ?_)
    refine still_follows (fun _ => trivial) fun stamp => hpopen _ _ fun a => ?_
    refine .ite (fun _ => ?_) fun _ => hk _
    refine acquire_follows hl fun b => monotonic_follows hl fun _ => ?_
    exact written_follows (fun _ => rfl) (hk _)

theorem stopRecording_follows {k : Option String → Program}
    (hk : ∀ err, (k err).Follows (shots site F) shot none) :
    (stopRecording k).Follows (shots site F) shot none := by
  have hl : Bystands (shots site F) shot := looksOn shot
  refine acquire_follows hl fun b st _ => written_follows (fun _ => rfl) ?_
  cases st.recording with
  | none => exact hk _
  | some proc =>
      refine ask_follows hl rfl fun _ => .ite (fun _ => ?_) fun _ => hk _
      refine still_follows (fun _ => trivial) fun _ => still_follows (fun _ => trivial) fun _ => ?_
      exact .ite (fun _ => hk _) fun _ => still_follows (fun _ => trivial) fun _ => hk _

theorem snapshot_follows {k : Option String → Option String → Program}
    (hk : ∀ p err, (k p err).Follows (shots site F) .idle none) :
    (snapshot site k).Follows (shots site F) .idle none := by
  refine ⟨rfl, .capturing, .call, fun b st hst => ?_⟩
  have hframe : st.frameJpeg = b := hst b rfl
  dsimp only
  rw [hframe]
  cases b with
  | none => exact ⟨none, .idle, rfl, .noFrame, hk _ _⟩
  | some jpeg =>
      refine ⟨some jpeg, .naming jpeg, rfl, .capture, fun stamp => ⟨_, .name, fun a => ?_⟩⟩
      exact ⟨.idle, .save, .ite (fun _ => hk _ _) fun _ => done_follows rfl⟩

/-- **Every job of the console follows the protocol.** -/
theorem jobs_follow {j : Job} (hj : Job.Brings F j) :
    (job site j).Follows (shots site F) .idle none := by
  have hl : Bystands (shots site F) .idle := looksOn .idle
  have hdone : (Prog.done : Program).Follows (shots site F) .idle none := done_follows rfl
  cases j with
  | doPost target length =>
      exact doPost_follows hl rfl (fun _ _ => startRecording_follows)
        (fun _ _ => stopRecording_follows) (fun _ _ => snapshot_follows) length
  | onCompressed data format =>
      refine acquire_follows hl fun b => monotonic_follows hl fun _ => ?_
      exact ⟨some data, .idle, fun _ _ => rfl, .frame hj, release_follows hl hdone⟩
  | destroyNode =>
      refine ask_follows hl rfl fun _ => stopRecording_follows fun _ => ?_
      exact ask_follows hl rfl fun _ => ask_follows hl rfl fun _ => hdone
  | _ => exact plain_follows hl rfl rfl

/-! ## What the machine would be -/

/-- A phase, with what is written of the file once it is open. -/
def progress (shot : Shot) (written : Option ℕ) : Shot :=
  match shot, written with
  | .opening jpeg path, some k => .writing jpeg path k
  | shot, _ => shot

theorem progress_none (shot : Shot) : progress shot none = shot := by
  cases shot <;> rfl

def account (d : Disk) (stage : ℕ → Shot) : Snapshots where
  frame := d.threads.shared.frameJpeg
  files := d.files
  calls i := progress (stage i) (d.written i)
  returned := d.saved

/-- The machine is where the threads and the files are: only a file that is being saved is open. -/
structure Accounts (site : Site) (F : List UInt8 → Prop) (d : Disk) (stage : ℕ → Shot) : Prop where
  following : Following (shots site F) stage d.threads
  busy : ∀ i k, d.written i = some k → ∃ path bytes, saving d.threads i = some (path, bytes)

variable {strftime : ℤ → String} {d : Disk} {stage : ℕ → Shot} {e : Event Answer Job} {i k n : ℕ}
  {path : String} {bytes : List UInt8}

theorem saving_eq (h : saving d.threads i = some (path, bytes)) :
    ∃ k, d.threads.prog i = .ask (.save path bytes) k := by
  rw [saving] at h
  split at h
  · next hp =>
      cases h
      exact ⟨_, hp⟩
  · cases h

/-- Who saves has taken a snapshot. -/
theorem Accounts.opening (ha : Accounts site F d stage)
    (hsaving : saving d.threads i = some (path, bytes)) : stage i = .opening bytes path := by
  obtain ⟨k, hp⟩ := saving_eq hsaving
  have hi := ha.following i
  rw [hp] at hi
  obtain ⟨l', hmove, -⟩ := hi {}
  generalize stage i = shot at hmove
  generalize Threads.knows (shots site F).part d.threads i = known at hmove
  cases hmove with
  | still h => exact h.elim
  | save => rfl

/-- No file of a thread is open that is not saving. -/
theorem Accounts.closed (ha : Accounts site F d stage)
    (hstage : ∀ jpeg path, stage i ≠ .opening jpeg path) : d.written i = none := by
  cases hk : d.written i with
  | none => rfl
  | some k =>
      obtain ⟨path, bytes, hsaving⟩ := ha.busy i k hk
      exact absurd (ha.opening hsaving) (hstage bytes path)

/-! ## Step by step -/

/-- Frames in `F` come, and no file is opened that is there already. -/
def Clear (F : List UInt8 → Prop) (s : Snapshots) : Snapshots.Event → Prop
  | .frame jpeg => F jpeg
  | .open _ _ path => s.files path = none
  | _ => True

/-- One event of the machine, other than opening a file. -/
theorem single {s t : Snapshots} {e : Snapshots.Event}
    (hguard : Snapshots.guard s e) (hact : Snapshots.act site.toConfig strftime s e = t)
    (hclear : ∀ s, Clear F s e) :
    ∃ es, (Snapshots.machine site.toConfig strftime).Run s es t ∧ ∀ s, ∀ e ∈ es, Clear F s e := by
  refine ⟨[e], ?_, by simpa using hclear⟩
  rw [← hact]
  exact .single (M := Snapshots.machine site.toConfig strftime) hguard

theorem calls_update (stage : ℕ → Shot) (written : ℕ → Option ℕ) (i : ℕ) (shot : Shot)
    (w : Option ℕ) :
    (fun j => progress (Function.update stage i shot j) (Function.update written i w j)) =
      Function.update (fun j => progress (stage j) (written j)) i (progress shot w) := by
  funext j
  by_cases hj : j = i
  · subst hj
    simp
  · simp [hj]

/-- The machine after a step of a thread that is not the end of a file. -/
theorem account_thread (ha : Accounts site F d stage) (hg : guard strftime d (.thread e))
    (hafter : d.after e.thread (d.threads.answered e) = d) (shot : Shot) :
    (act site d (.thread e)).account (Function.update stage e.thread shot) =
      { (d.account stage).goto e.thread (progress shot (d.written e.thread)) with
        frame := Monitor.Deed.leaves d.threads.shared.frameJpeg
          (d.threads.deed State.frameJpeg e) } := by
  have hpart := ha.following.part_act (job site) hg.1
  have hframe : (Monitor.act (job site) d.threads e).shared.frameJpeg =
      Monitor.Deed.leaves d.threads.shared.frameJpeg (d.threads.deed State.frameJpeg e) := hpart
  have hcalls := calls_update stage d.written e.thread shot (d.written e.thread)
  rw [Function.update_eq_self] at hcalls
  rw [act, hafter, account, hframe, hcalls]
  rfl

/-- The machine after the end of a file. -/
theorem account_saved (ha : Accounts site F d stage) (hg : guard strftime d (.thread e))
    {a : Answer} (hanswered : d.threads.answered e = some (.save path bytes, a)) :
    (act site d (.thread e)).account (Function.update stage e.thread .idle) =
      { (d.account stage).goto e.thread .idle with
        returned := if a.ok then d.saved ++ [(path, bytes)] else d.saved } := by
  have hpart := ha.following.part_act (job site) hg.1
  have hleaves : Monitor.Deed.leaves d.threads.shared.frameJpeg
      (d.threads.deed State.frameJpeg e) = d.threads.shared.frameJpeg := by
    rw [Threads.answered_eq State.frameJpeg] at hanswered
    cases hd : d.threads.deed State.frameJpeg e with
    | none => rfl
    | some dd =>
        rw [hd] at hanswered
        cases dd with
        | update b b' => cases hanswered
        | _ => rfl
  have hframe : (Monitor.act (job site) d.threads e).shared.frameJpeg =
      d.threads.shared.frameJpeg := hpart.trans hleaves
  rw [act, hanswered, account, hframe, after, calls_update]
  rfl

/-- A call that is answered otherwise than by saving a file. -/
theorem after_of_still {dd : Deed} (hd : d.threads.deed State.frameJpeg e = some dd)
    (hsave : ∀ known path bytes a, dd ≠ .ask known (.save path bytes) a) :
    d.after e.thread (d.threads.answered e) = d := by
  rw [Threads.answered_eq State.frameJpeg, hd]
  cases dd with
  | ask known call a =>
      cases call with
      | save path bytes => exact absurd rfl (hsave known path bytes a)
      | _ => rfl
  | _ => rfl

theorem after_written_other {answer : Option (Call × Answer)} {j : ℕ} (hj : j ≠ i) :
    (d.after i answer).written j = d.written j := by
  unfold after
  split
  · exact Function.update_of_ne hj ..
  · rfl

/-- Whose step it is has no file open any more. -/
theorem Accounts.closes (ha : Accounts site F d stage) (hg : guard strftime d (.thread e)) :
    (d.after e.thread (d.threads.answered e)).written e.thread = none := by
  cases hwritten : d.written e.thread with
  | none =>
      unfold after
      split
      · exact Function.update_self ..
      · exact hwritten
  | some k =>
      obtain ⟨path, bytes, hsaving⟩ := ha.busy _ _ hwritten
      obtain ⟨k, hp⟩ := saving_eq hsaving
      obtain ⟨a, hanswered⟩ := Threads.answered_of_asks hg.1 hp
      rw [hanswered]
      exact Function.update_self ..

theorem Accounts.busy_thread (ha : Accounts site F d stage) (hg : guard strftime d (.thread e))
    (i k : ℕ) (hwritten : (act site d (.thread e)).written i = some k) :
    ∃ path bytes, saving (act site d (.thread e)).threads i = some (path, bytes) := by
  have hwritten : (d.after e.thread (d.threads.answered e)).written i = some k := hwritten
  by_cases hi : i = e.thread
  · rw [hi, ha.closes hg] at hwritten
    cases hwritten
  · rw [after_written_other hi] at hwritten
    have hprog := act_prog_other (job site) d.threads e hi
    show ∃ path bytes, saving (Monitor.act (job site) d.threads e) i = some (path, bytes)
    rw [saving, hprog]
    exact ha.busy i k hwritten

theorem goto_same {s : Snapshots} {shot : Shot} (h : s.calls i = shot) : s.goto i shot = s := by
  rw [Snapshots.goto, ← h, Function.update_eq_self]

/-- **What a thread does, the machine can follow.** -/
theorem Accounts.follow (ha : Accounts site F d stage) (hg : guard strftime d (.thread e))
    {dd : Deed} (hd : d.threads.deed State.frameJpeg e = some dd) {shot : Shot}
    (hmove : Shoots site F (stage e.thread) dd shot) :
    ∃ es, (Snapshots.machine site.toConfig strftime).Run (d.account stage) es
      ((act site d (.thread e)).account (Function.update stage e.thread shot)) ∧
      ∀ s, ∀ e ∈ es, Clear F s e := by
  have hholds := Threads.deed_holds hd
  have hcalls : (d.account stage).calls e.thread =
      progress (stage e.thread) (d.written e.thread) := rfl
  have hafter := after_of_still hd
  have hthread := fun hsave => account_thread ha hg (hafter hsave) shot
  rw [hd] at hthread
  generalize hstage : stage e.thread = before at hmove hcalls
  -- a call that has not come to its file has none open
  have hclosed : (∀ jpeg path, before ≠ .opening jpeg path) →
      d.written e.thread = none := fun h => ha.closed (hstage ▸ h)
  cases hmove with
  | still hstill =>
      refine ⟨[], ?_, by simp⟩
      have hframe : Monitor.Deed.leaves d.threads.shared.frameJpeg (some dd) =
          d.threads.shared.frameJpeg := by
        cases dd with
        | update b b' => exact (show b' = b from hstill).trans (Eq.symm hholds)
        | _ => rfl
      rw [hthread (by rintro known path bytes a rfl; exact hstill), goto_same hcalls, hframe]
      exact .refl
  | @frame _ b jpeg hjpeg =>
      rw [hthread (by simp), goto_same hcalls]
      exact single (e := .frame jpeg) trivial rfl fun _ => hjpeg
  | call =>
      rw [hclosed (by simp)] at hcalls hthread
      rw [hthread (by simp)]
      exact single (e := .call e.thread) hcalls rfl fun _ => trivial
  | noFrame =>
      rw [hclosed (by simp)] at hcalls hthread
      rw [hthread (by simp)]
      exact single (e := .noFrame e.thread) ⟨hcalls, hholds⟩ rfl fun _ => trivial
  | @capture jpeg =>
      rw [hclosed (by simp)] at hcalls hthread
      rw [hthread (by simp)]
      exact single (e := .capture e.thread jpeg) ⟨hcalls, hholds⟩ rfl fun _ => trivial
  | @name jpeg a =>
      rw [hclosed (by simp)] at hcalls hthread
      rw [hthread (by simp)]
      have hanswered : d.threads.answered e = some (.strftime, a) := by
        rw [Threads.answered_eq State.frameJpeg, hd]
        rfl
      have htext : a.text = strftime ⌊a.now⌋ := of_decide_eq_true (hg.2 _ hanswered)
      refine single (e := .name e.thread jpeg ⌊a.now⌋) hcalls ?_ fun _ => trivial
      rw [Snapshots.act, ← htext]
      rfl
  | @save jpeg path a =>
      have hanswered : d.threads.answered e = some (.save path jpeg, a) := by
        rw [Threads.answered_eq State.frameJpeg, hd]
        rfl
      have hwhole : a.ok = true → d.written e.thread = some jpeg.length := by
        intro hok
        have hanswer := hg.2 _ hanswered
        simp only [answers, hok, Bool.not_true, Bool.false_or] at hanswer
        exact of_decide_eq_true hanswer
      rw [account_saved ha hg hanswered]
      cases hok : a.ok with
      | true =>
          rw [hwhole hok] at hcalls
          exact single (e := .done e.thread jpeg path) hcalls rfl fun _ => trivial
      | false =>
          cases hwritten : d.written e.thread with
          | none =>
              rw [hwritten] at hcalls
              exact single (e := .openFailed e.thread jpeg path) hcalls rfl fun _ => trivial
          | some k =>
              rw [hwritten] at hcalls
              exact single (e := .failed e.thread jpeg path k) hcalls rfl fun _ => trivial

/-- Only frames in `F` come. -/
def Given (F : List UInt8 → Prop) (_ : Disk) : Happening → Prop
  | .thread (.start _ j) => Job.Brings F j
  | _ => True

/-- **A step of any thread** is none or one of the machine, and never one that opens a file. -/
theorem Accounts.thread (ha : Accounts site F d stage) (hg : guard strftime d (.thread e))
    (hbrings : Given F d (.thread e)) :
    ∃ stage' es, Accounts site F (act site d (.thread e)) stage' ∧
      (Snapshots.machine site.toConfig strftime).Run (d.account stage) es
        ((act site d (.thread e)).account stage') ∧ ∀ s, ∀ e ∈ es, Clear F s e := by
  obtain ⟨shot, htakes, hfollowing⟩ := ha.following.step (job site) hg.1 fun i j he => by
    subst he
    have hdone : d.threads.prog i = .done := hg.1
    have hi := ha.following i
    rw [hdone] at hi
    rw [show stage i = .idle from hi.2]
    exact ⟨.idle, .still trivial, jobs_follow hbrings⟩
  refine ⟨Function.update stage e.thread shot, ?_⟩
  cases hd : d.threads.deed State.frameJpeg e with
  | some dd =>
      rw [show d.threads.deed (shots site F).part e = some dd from hd] at htakes
      obtain ⟨es, hrun, hclear⟩ := ha.follow hg hd htakes
      exact ⟨es, ⟨hfollowing, ha.busy_thread hg⟩, hrun, hclear⟩
  | none =>
      rw [show d.threads.deed (shots site F).part e = none from hd] at htakes
      obtain rfl : shot = stage e.thread := htakes
      have hafter : d.after e.thread (d.threads.answered e) = d := by
        rw [Threads.answered_eq State.frameJpeg, hd]
        rfl
      have hsame : (d.account stage).goto e.thread
          (progress (stage e.thread) (d.written e.thread)) = d.account stage := goto_same rfl
      refine ⟨[], ⟨hfollowing, ha.busy_thread hg⟩, ?_, by simp⟩
      rw [account_thread ha hg hafter, hd, hsame]
      exact .refl

/-- A file goes on. -/
theorem Accounts.file (ha : Accounts site F d stage)
    (hsaving : saving d.threads i = some (path, bytes)) (files : String → Option (List UInt8)) :
    Accounts site F { d with files, written := Function.update d.written i (some k) } stage where
  following := ha.following
  busy j k' hj := by
    by_cases hji : j = i
    · rw [hji]
      exact ⟨path, bytes, hsaving⟩
    · have hj : Function.update d.written i (some k) j = some k' := hj
      rw [Function.update_of_ne hji] at hj
      exact ha.busy j k' hj

theorem account_file (ha : Accounts site F d stage)
    (hsaving : saving d.threads i = some (path, bytes)) (content : List UInt8) :
    ({ d with
        files := Function.update d.files path (some content)
        written := Function.update d.written i (some k) } : Disk).account stage =
      ((d.account stage).goto i (.writing bytes path k)).put path content := by
  have hcalls := calls_update stage d.written i (stage i) (some k)
  rw [Function.update_eq_self, ha.opening hsaving] at hcalls
  rw [account, hcalls]
  rfl

/-- A file is opened. -/
theorem Accounts.open (ha : Accounts site F d stage) (hg : guard strftime d (.open i)) :
    ∃ path bytes, saving d.threads i = some (path, bytes) ∧
      Accounts site F (act site d (.open i)) stage ∧
      (Snapshots.machine site.toConfig strftime).guard (d.account stage) (.open i bytes path) ∧
      Snapshots.act site.toConfig strftime (d.account stage) (.open i bytes path) =
        (act site d (.open i)).account stage := by
  cases hsaving : saving d.threads i with
  | none =>
      simp only [guard, hsaving] at hg
  | some file =>
      obtain ⟨path, bytes⟩ := file
      simp only [guard, hsaving] at hg
      simp only [act, hsaving]
      refine ⟨path, bytes, rfl, ha.file hsaving _, ?_, (account_file ha hsaving []).symm⟩
      show progress (stage i) (d.written i) = .opening bytes path
      rw [ha.opening hsaving, hg, progress_none]

/-- A file is written. -/
theorem Accounts.write (ha : Accounts site F d stage) (hg : guard strftime d (.write i n)) :
    ∃ path bytes k, Accounts site F (act site d (.write i n)) stage ∧
      (Snapshots.machine site.toConfig strftime).guard (d.account stage)
        (.write i bytes path k n) ∧
      Snapshots.act site.toConfig strftime (d.account stage) (.write i bytes path k n) =
        (act site d (.write i n)).account stage := by
  cases hsaving : saving d.threads i with
  | none => simp only [guard, hsaving] at hg
  | some file =>
      obtain ⟨path, bytes⟩ := file
      cases hwritten : d.written i with
      | none => simp only [guard, hsaving, hwritten] at hg
      | some k =>
          simp only [guard, hsaving, hwritten] at hg
          simp only [act, hsaving, hwritten]
          refine ⟨path, bytes, k, ha.file hsaving _, ⟨?_, hg⟩, (account_file ha hsaving _).symm⟩
          show progress (stage i) (d.written i) = .writing bytes path k
          rw [ha.opening hsaving, hwritten]
          rfl

theorem Accounts.init (files : String → Option (List UInt8)) :
    Accounts site F { files } fun _ => .idle where
  following _ := ⟨rfl, rfl⟩
  busy _ _ h := by cases h

/-! ## Every run -/

variable {files : String → Option (List UInt8)} {hs : List Happening}

theorem given_all (x : Happening) : Given (fun _ => True) d x := by
  cases x with
  | thread e =>
      cases e with
      | start i j => cases j <;> trivial
      | _ => trivial
  | _ => trivial

/-- **What the console's threads do to the frame and to the files, `Snapshots.machine` does**,
whatever else they do: every run of them is one of the machine, with the same files, the same
frame, and the same snapshots saved. -/
theorem snapshots_refine (hrun : (machine site strftime).Run { files } hs d) :
    ∃ es s, (Snapshots.machine site.toConfig strftime).Run { files } es s ∧
      s.frame = d.threads.shared.frameJpeg ∧ s.files = d.files ∧ s.returned = d.saved ∧
      ∀ i, d.threads.prog i = .done → s.calls i = .idle := by
  let R : Disk → Snapshots → Prop :=
    fun d s => ∃ stage, s = d.account stage ∧ Accounts site (fun _ => True) d stage
  have hstep : ∀ d x s, R d s → (machine site strftime).guard d x →
      ∃ es s', (Snapshots.machine site.toConfig strftime).Run s es s' ∧ R (act site d x) s' := by
    rintro d x _ ⟨stage, rfl, ha⟩ hg
    cases x with
    | thread e =>
        obtain ⟨stage', es, ha', hes, -⟩ := ha.thread hg (given_all _)
        exact ⟨es, _, hes, stage', rfl, ha'⟩
    | «open» i =>
        obtain ⟨path, bytes, -, ha', hguard, hact⟩ := ha.open hg
        exact ⟨_, _, .single hguard, stage, hact, ha'⟩
    | write i n =>
        obtain ⟨path, bytes, k, ha', hguard, hact⟩ := ha.write hg
        exact ⟨_, _, .single hguard, stage, hact, ha'⟩
  obtain ⟨es, _, hes, stage, rfl, ha⟩ := hrun.simulate hstep ⟨_, rfl, .init files⟩
  refine ⟨es, _, hes, rfl, rfl, rfl, fun i hdone => ?_⟩
  have hi := ha.following i
  rw [hdone] at hi
  have hidle : stage i = .idle := hi.2
  show progress (stage i) (d.written i) = .idle
  rw [hidle]
  rfl

/-- A frame comes, and a snapshot is taken of it, in that second. -/
def shown (data : List UInt8) (second : ℕ) : List Happening :=
  [.thread (.start 0 (.onCompressed data "jpeg")), .thread (.acquire 0), .thread (.ask 0 {}),
    .thread (.update 0), .thread (.release 0), .thread (.start 1 (.doPost "/api/snapshot" 0)),
    .thread (.acquire 1), .thread (.read 1), .thread (.release 1),
    .thread (.ask 1 { now := second, text := toString second }), .open 1, .write 1 1,
    .write 1 (data.length - 1), .thread (.ask 1 {}), .thread (.client 1 {}),
    .thread (.client 1 {})]

def twoSnapshots : List Happening := shown [1, 2] 5 ++ shown [3, 4, 5] 6

/-- A file that was there before. -/
def notes (path : String) : Option (List UInt8) := if path = "notes" then some [9] else none

theorem snapshots_refine_twoSnapshots : ∃ es s,
    (Snapshots.machine plainSite.toConfig fun n => toString n).Run { files := notes } es s ∧
      s.files "notes" = some [9] ∧ s.files (snapshotPath plainSite.toConfig "5") = some [1, 2] ∧
      s.returned.length = 2 := by
  have hrun : (machine plainSite fun n => toString n).Run { files := notes } twoSnapshots
      (twoSnapshots.foldl (act plainSite) { files := notes }) := by
    refine .of_admits ?_
    decide +kernel
  obtain ⟨es, s, hes, -, hfiles, hreturned, -⟩ := snapshots_refine hrun
  refine ⟨es, s, hes, ?_, ?_, ?_⟩
  · rw [hfiles]
    decide +kernel
  · rw [hfiles]
    decide +kernel
  · rw [hreturned]
    decide +kernel

/-! ## No file is lost -/

/-- A snapshot does not find a file of its name. -/
def Fresh (d : Disk) : Happening → Prop
  | .open i => ∀ file ∈ saving d.threads i, d.files file.1 = none
  | _ => True

instance (d : Disk) (x : Happening) :
    Decidable (((machine site strftime).restrict Fresh).guard d x) := by
  haveI : Decidable (Fresh d x) := by
    cases x <;> dsimp only [Fresh] <;> infer_instance
  exact inferInstanceAs (Decidable (_ ∧ _))

def Shot.Holds (F : List UInt8 → Prop) : Shot → Prop
  | .naming jpeg | .opening jpeg _ | .writing jpeg _ _ => F jpeg
  | _ => True

/-- What is kept as long as no file is opened that is there already: each file belongs to one call,
or to what was there in the beginning. -/
structure Lasting (F : List UInt8 → Prop) (files : String → Option (List UInt8)) (s : Snapshots) :
    Prop where
  sound : s.Sound
  old : ∀ path content, files path = some content → s.files path = some content
  older : ∀ path, files path ≠ none → (∀ r ∈ s.returned, r.1 ≠ path) ∧
    ∀ i jpeg k, s.calls i ≠ .writing jpeg path k
  alone : ∀ i j jpeg bytes path k l, s.calls i = .writing jpeg path k →
    s.calls j = .writing bytes path l → i = j
  unsaved : ∀ i jpeg path k, s.calls i = .writing jpeg path k → ∀ r ∈ s.returned, r.1 ≠ path
  once : (s.returned.map Prod.fst).Nodup
  frame : ∀ jpeg, s.frame = some jpeg → F jpeg
  calls : ∀ i, Shot.Holds F (s.calls i)
  received : ∀ r ∈ s.returned, F r.2

variable {s : Snapshots} {jpeg : List UInt8}

/-- A call goes on without a file. -/
theorem Lasting.goto (h : Lasting F files s) {shot : Shot}
    (hshot : ∀ jpeg path k, shot ≠ .writing jpeg path k) (hholds : Shot.Holds F shot) :
    Lasting F files (s.goto i shot) := by
  have hbefore : ∀ {j jpeg path k}, (s.goto i shot).calls j = .writing jpeg path k →
      s.calls j = .writing jpeg path k := by
    intro j jpeg path k hj
    rcases Snapshots.goto_calls hj with ⟨-, hnew⟩ | ⟨-, hold⟩
    · exact absurd hnew.symm (hshot _ _ _)
    · exact hold
  constructor
  case sound => exact h.sound.goto hshot
  case old => exact h.old
  case older =>
      intro path hpath
      refine ⟨(h.older path hpath).1, fun j jpeg k hj => ?_⟩
      exact (h.older path hpath).2 j jpeg k (hbefore hj)
  case alone =>
      intro j j' jpeg bytes path k l hj hj'
      exact h.alone j j' jpeg bytes path k l (hbefore hj) (hbefore hj')
  case unsaved =>
      intro j jpeg path k hj
      exact h.unsaved j jpeg path k (hbefore hj)
  case once => exact h.once
  case frame => exact h.frame
  case calls =>
      intro j
      show Shot.Holds F (Function.update s.calls i shot j)
      rw [Function.update_apply]
      split
      · exact hholds
      · exact h.calls j
  case received => exact h.received

/-- Who is writing a file `bytes` once call `i` is, was so before, or is call `i`. -/
theorem goto_writing {j : ℕ} {other : String} {bytes : List UInt8} {l : ℕ}
    (h : (s.goto i (.writing jpeg path k)).calls j = .writing bytes other l) :
    (j = i ∧ other = path) ∨ (j ≠ i ∧ s.calls j = .writing bytes other l) := by
  rcases Snapshots.goto_calls h with ⟨hj, hnew⟩ | hold
  · cases hnew
    exact .inl ⟨hj, rfl⟩
  · exact .inr hold

/-- A call goes on with its file, which is nobody else's. -/
theorem Lasting.write (h : Lasting F files s) (content : List UInt8)
    (hsound : ((s.goto i (.writing jpeg path k)).put path content).Sound) (hjpeg : F jpeg)
    (hold : files path = none) (hothers : ∀ j bytes l, s.calls j = .writing bytes path l → j = i)
    (hsaved : ∀ r ∈ s.returned, r.1 ≠ path) :
    Lasting F files ((s.goto i (.writing jpeg path k)).put path content) := by
  have hne : ∀ {other}, files other ≠ none → other ≠ path := by
    rintro other hother rfl
    exact hother hold
  constructor
  case sound => exact hsound
  case old =>
      intro other bytes hother
      rw [Snapshots.put_files_other (hne (by rw [hother]; simp))]
      exact h.old other bytes hother
  case older =>
      refine fun other hother => ⟨(h.older other hother).1, fun j bytes l hj => ?_⟩
      rcases goto_writing hj with ⟨-, hpath⟩ | ⟨-, hj⟩
      · exact hne hother hpath
      · exact (h.older other hother).2 j bytes l hj
  case alone =>
      intro j j' bytes bytes' other l l' hj hj'
      rcases goto_writing hj with ⟨rfl, rfl⟩ | ⟨-, hbefore⟩ <;>
        rcases goto_writing hj' with ⟨rfl, hpath⟩ | ⟨-, hbefore'⟩
      · rfl
      · exact (hothers j' bytes' l' hbefore').symm
      · subst hpath
        exact hothers j bytes l hbefore
      · exact h.alone j j' bytes bytes' other l l' hbefore hbefore'
  case unsaved =>
      intro j bytes other l hj
      rcases goto_writing hj with ⟨-, rfl⟩ | ⟨-, hj⟩
      · exact hsaved
      · exact h.unsaved j bytes other l hj
  case once => exact h.once
  case frame => exact h.frame
  case calls =>
      intro j
      show Shot.Holds F (Function.update s.calls i _ j)
      rw [Function.update_apply]
      split
      · exact hjpeg
      · exact h.calls j
  case received => exact h.received

/-- The path of a file that is written is returned. -/
theorem Lasting.done (h : Lasting F files s) (hi : s.calls i = .writing jpeg path jpeg.length) :
    Lasting F files { s.goto i .idle with returned := s.returned ++ [(path, jpeg)] } := by
  have hidle : Lasting F files (s.goto i .idle) := h.goto (by simp) trivial
  have hjpeg : F jpeg := by
    have hholds := h.calls i
    rw [hi] at hholds
    exact hholds
  have hmem : ∀ {r}, r ∈ s.returned ++ [(path, jpeg)] → r ∈ s.returned ∨ r = (path, jpeg) :=
    fun hr => (List.mem_append.mp hr).imp_right List.mem_singleton.mp
  constructor
  case sound => exact h.sound.done hi
  case old => exact h.old
  case older =>
      refine fun other hother => ⟨fun r hr => ?_, (hidle.older other hother).2⟩
      rcases hmem hr with hr | rfl
      · exact (h.older other hother).1 r hr
      · rintro rfl
        exact (h.older _ hother).2 i jpeg _ hi
  case alone => exact hidle.alone
  case unsaved =>
      intro j bytes other l hj r hr
      rcases hmem hr with hr | rfl
      · exact hidle.unsaved j bytes other l hj r hr
      · rintro rfl
        rcases Snapshots.goto_calls hj with ⟨-, hnew⟩ | ⟨hne, hj⟩
        · cases hnew
        · exact hne (h.alone j i bytes jpeg _ l _ hj hi)
  case once =>
      show ((s.returned ++ [(path, jpeg)]).map Prod.fst).Nodup
      rw [List.map_append, List.nodup_append]
      refine ⟨h.once, List.nodup_singleton _, fun a ha b hb => ?_⟩
      obtain ⟨r, hr, rfl⟩ := List.mem_map.mp ha
      obtain rfl := List.mem_singleton.mp hb
      exact h.unsaved i jpeg _ _ hi r hr
  case frame => exact h.frame
  case calls => exact hidle.calls
  case received =>
      intro r hr
      rcases hmem hr with hr | rfl
      · exact h.received r hr
      · exact hjpeg

theorem Lasting.step (s : Snapshots) (e : Snapshots.Event) (h : Lasting F files s)
    (hg : Snapshots.guard s e) (hclear : Clear F s e) :
    Lasting F files (Snapshots.act site.toConfig strftime s e) := by
  -- what a call is at, it holds
  have hat : ∀ {i shot}, s.calls i = shot → Shot.Holds F shot := fun hi => hi ▸ h.calls _
  cases e <;> simp only [Snapshots.guard] at hg
  case frame jpeg =>
      refine ⟨?_, h.old, h.older, h.alone, h.unsaved, h.once, ?_, h.calls, h.received⟩
      · exact ⟨h.sound.kept, h.sound.writing, h.sound.agree, h.sound.shared⟩
      · intro jpeg' hframe
        cases hframe
        exact hclear
  case call i | noFrame i | openFailed i jpeg path | failed i jpeg path written =>
      exact h.goto (by simp) trivial
  case capture i jpeg => exact h.goto (by simp) (h.frame jpeg hg.2)
  case name i jpeg second =>
      have hjpeg : F jpeg := hat hg
      exact h.goto (by simp) hjpeg
  case «open» i jpeg path =>
      have hnone : s.files path = none := hclear
      have hothers : ∀ j bytes l, s.calls j ≠ .writing bytes path l := by
        intro j bytes l hj
        obtain ⟨m, -, -, hfile⟩ := h.sound.writing j bytes path l hj
        cases hnone.symm.trans hfile
      have hsaved : ∀ r ∈ s.returned, r.1 ≠ path := by
        rintro r hr rfl
        cases hnone.symm.trans (h.sound.kept r hr)
      refine h.write [] (h.sound.open ⟨hsaved, fun j bytes l hj => absurd hj (hothers j bytes l)⟩)
        (hat hg) ?_ (fun j bytes l hj => absurd hj (hothers j bytes l)) hsaved
      cases hold : files path with
      | none => rfl
      | some content => cases hnone.symm.trans (h.old path content hold)
  case write i jpeg path written n =>
      refine h.write _ (h.sound.write hg.1 hg.2.2) (hat hg.1) ?_
        (fun j bytes l hj => h.alone j i bytes jpeg path l written hj hg.1)
        (h.unsaved i jpeg path written hg.1)
      by_contra hold
      exact (h.older path hold).2 i jpeg written hg.1
  case done i jpeg path => exact h.done hg

theorem Lasting.init (F : List UInt8 → Prop) (files : String → Option (List UInt8)) :
    Lasting F files { files } where
  sound := {
    kept := fun r hr => absurd hr List.not_mem_nil
    writing := fun i jpeg path written hi => by cases hi
    agree := fun i j jpeg bytes path k l hi hj => by cases hi
    shared := fun r hr => absurd hr List.not_mem_nil }
  old _ _ h := h
  older _ _ := ⟨fun r hr => absurd hr List.not_mem_nil, fun i jpeg k hi => by cases hi⟩
  alone _ _ _ _ _ _ _ hi _ := by cases hi
  unsaved _ _ _ _ hi := by cases hi
  once := List.nodup_nil
  frame _ h := by cases h
  calls _ := trivial
  received r hr := absurd hr List.not_mem_nil

/-- **A snapshot lasts**, as long as none finds a file of its name: each file that was saved holds,
whole and for good, a frame that was received; no two have the same name; and what was there before
is there unchanged. -/
theorem snapshots_saved (hrun : ((machine site strftime).restrict Fresh).Run { files } hs d) :
    (∀ r ∈ d.saved, d.files r.1 = some r.2) ∧
      (∀ r ∈ d.saved, ∃ i format, .thread (.start i (.onCompressed r.2 format)) ∈ hs) ∧
      (d.saved.map Prod.fst).Nodup ∧
      ∀ path content, files path = some content → d.files path = some content := by
  let F : List UInt8 → Prop :=
    fun data => ∃ i format, Happening.thread (.start i (.onCompressed data format)) ∈ hs
  have hgiven :
      (((machine site strftime).restrict Fresh).restrict (Given F)).Run { files } hs d := by
    refine hrun.restrict_of fun _ x hx => ?_
    cases x with
    | thread e =>
        cases e with
        | start i j =>
            cases j with
            | onCompressed data format => exact ⟨i, format, hx⟩
            | _ => trivial
        | _ => trivial
    | _ => trivial
  let R : Disk → Snapshots → Prop :=
    fun d s => ∃ stage, s = d.account stage ∧ Accounts site F d stage
  let N := (Snapshots.machine site.toConfig strftime).restrict (Clear F)
  have hstep : ∀ d x s, R d s →
      (((machine site strftime).restrict Fresh).restrict (Given F)).guard d x →
      ∃ es s', N.Run s es s' ∧ R (act site d x) s' := by
    rintro d x _ ⟨stage, rfl, ha⟩ ⟨⟨hg, hfresh⟩, hbrings⟩
    cases x with
    | thread e =>
        obtain ⟨stage', es, ha', hes, hclear⟩ := ha.thread hg hbrings
        exact ⟨es, _, hes.restrict_of hclear, stage', rfl, ha'⟩
    | «open» i =>
        obtain ⟨path, bytes, hsaving, ha', hguard, hact⟩ := ha.open hg
        exact ⟨_, _, .single (M := N) ⟨hguard, hfresh (path, bytes) hsaving⟩, stage, hact, ha'⟩
    | write i n =>
        obtain ⟨path, bytes, k, ha', hguard, hact⟩ := ha.write hg
        exact ⟨_, _, .single (M := N) ⟨hguard, trivial⟩, stage, hact, ha'⟩
  obtain ⟨es, _, hes, stage, rfl, ha⟩ := hgiven.simulate hstep ⟨_, rfl, .init files⟩
  have hlasting : Lasting F files (d.account stage) :=
    hes.inv_restrict (Lasting F files) Lasting.step (.init F files)
  exact ⟨hlasting.sound.kept, hlasting.received, hlasting.once, hlasting.old⟩

theorem snapshots_saved_twoSnapshots :
    (twoSnapshots.foldl (act plainSite) { files := notes }).files
        (snapshotPath plainSite.toConfig "6") = some [3, 4, 5] ∧
      (twoSnapshots.foldl (act plainSite) { files := notes }).files "notes" = some [9] := by
  have hrun : ((machine plainSite fun n => toString n).restrict Fresh).Run { files := notes }
      twoSnapshots (twoSnapshots.foldl (act plainSite) { files := notes }) := by
    refine .of_admits ?_
    decide +kernel
  obtain ⟨hsaved, -, -, hold⟩ := snapshots_saved hrun
  exact ⟨hsaved (snapshotPath plainSite.toConfig "6", [3, 4, 5]) (by decide +kernel),
    hold "notes" [9] rfl⟩

end Disk

end JetsonPerception.Console.Lock
