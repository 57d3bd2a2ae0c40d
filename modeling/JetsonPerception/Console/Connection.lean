/-
# Requests over one connection

A connection is served by one thread, so the requests sent over it come one after another.  If all
that record do, each finds the recorder as the one before has left it, as with the one page of
`JetsonPerception.Console.Button`, whose invariant is used here.  Behind the last of them comes
`destroy_node`, on the main thread; from then on there is nobody else (`Ending`).

The threads are at every moment where the one invariant or the other says (`Stands`), so there is
never a second recorder that runs, and none that is left behind, but for one that was killed and
is about to exit (`one_connection`).
-/
import JetsonPerception.Console.Button
import JetsonPerception.Console.Recording

namespace JetsonPerception.Console.Lock

open Monitor Post

variable {site : Site} {r r' : Recorder} {phase : Phase} {S : ℕ → Bool} {h : Host}
  {stage : ℕ → Stage} {e : Event Answer Job} {i : ℕ} {hs : List Happening}

/-! ## The one caller -/

/-- The button of a page whose every request is served by that thread. -/
def button (r : Recorder) (k : ℕ) : Button :=
  { server := r, click := .served k false, disabled := true }

/-- One caller makes one recorder: it is as if a page had sent all its requests. -/
theorem single_step {k : ℕ} {e : Recorder.Event} (hr : Button.Single (button r k))
    (hg : Recorder.guard r e) (hcaller : ∀ t, caller e = some t → t = .http k) :
    Button.Single (button (Recorder.act r e) k) := by
  obtain ⟨honly, -⟩ := hr.served k false rfl
  have honly : Button.Only r (Button.holder r false (r.calls (.http k))) := honly
  cases hinner : Button.isInner e with
  | true => exact hr.server hinner hg
  | false =>
      cases e with
      | startRecording i | stopRecording i =>
          cases hcaller _ rfl
          rw [show r.calls (.http k) = .idle from hg] at honly
          exact hr.move rfl _ rfl rfl honly nofun
      | destroyNode => cases hcaller _ rfl
      | _ => cases hinner

theorem single_init (k : ℕ) : Button.Single (button {} k) where
  idle _ _ := rfl
  up := rfl
  served _ _ _ := ⟨nofun, fun _ => rfl⟩
  unserved _ := nofun
  busy _ := rfl
  dead _ := rfl

/-! ## The last caller -/

/-- The recorder that may run when only the main thread still calls. -/
def last (r : Recorder) : Option ℕ :=
  match r.destroy with
  | .notCalled => r.recording
  | .stopping => Button.holder r true (r.calls .main)
  | .closing | .returned => none

/-- Nobody calls but the main thread, in `destroy_node`. -/
structure Ending (r : Recorder) : Prop where
  others : ∀ i, r.calls (.http i) = .idle
  main : r.destroy ≠ .stopping → r.calls .main = .idle
  stops : Button.starts (r.calls .main) = false
  only : Button.Only r (last r)

/-- The main thread goes on. -/
theorem Ending.move (hr : Ending r) (hcalls : r'.calls = (r.goto .main phase).calls)
    (hdestroy : r'.destroy = .stopping) (hstops : Button.starts phase = false)
    (honly : Button.Only r' (Button.holder r' true phase)) : Ending r' := by
  have hmain : r'.calls .main = phase := by
    rw [hcalls, Recorder.goto_calls, if_pos rfl]
  constructor
  case others =>
      intro i
      rw [hcalls, Recorder.goto_calls, if_neg (by simp)]
      exact hr.others i
  case main => exact fun h => absurd hdestroy h
  case stops =>
      rw [hmain]
      exact hstops
  case only =>
      rw [last, hdestroy, hmain]
      exact honly

theorem ending_step {e : Recorder.Event} (hr : Ending r) (hg : Recorder.guard r e)
    (hcaller : ∀ t, caller e = some t → t = .main) : Ending (Recorder.act r e) := by
  -- a call that goes on is the main thread's, in `stop_recording`
  have hcall : ∀ {t phase}, caller e = some t → r.calls t = phase → phase ≠ .idle →
      t = .main ∧ r.destroy = .stopping ∧ Button.starts phase = false ∧
        Button.Only r (Button.holder r true phase) := by
    rintro t phase ht rfl hne
    obtain rfl := hcaller t ht
    have hstopping : r.destroy = .stopping := by
      by_contra hno
      exact hne (hr.main hno)
    have honly := hr.only
    rw [last, hstopping] at honly
    exact ⟨rfl, hstopping, hr.stops, honly⟩
  cases e with
  | startRecording i | stopRecording i => cases hcaller _ rfl
  | alreadyRecording t | checked t =>
      obtain ⟨-, -, hstops, -⟩ := hcall rfl hg.1 (by simp)
      cases hstops
  | diskLow t | diskOk t | spawnFailed t | spawn t | store t proc =>
      obtain ⟨-, -, hstops, -⟩ := hcall rfl hg (by simp)
      cases hstops
  | destroyNode =>
      have hdestroy : r.destroy = .notCalled := hg
      have honly := hr.only
      rw [last, hdestroy] at honly
      exact hr.move rfl rfl rfl honly
  | take t =>
      obtain ⟨rfl, hstopping, -, honly⟩ := hcall rfl hg (by simp)
      exact hr.move rfl hstopping rfl honly
  | notRecording t proc =>
      obtain ⟨rfl, hstopping, -, honly⟩ := hcall rfl hg.1 (by simp)
      exact hr.move rfl hstopping rfl (honly.exited hg.2 _)
  | terminate t proc | timedOut t proc =>
      obtain ⟨rfl, hstopping, -, honly⟩ := hcall rfl hg.1 (by simp)
      exact hr.move rfl hstopping rfl honly
  | waited t proc =>
      obtain ⟨rfl, hstopping, -, honly⟩ := hcall rfl hg.1 (by simp)
      exact hr.move rfl hstopping rfl (honly.exited hg.2 _)
  | kill t proc =>
      obtain ⟨rfl, hstopping, -, honly⟩ := hcall rfl hg (by simp)
      exact hr.move rfl hstopping rfl (Button.Only.killed honly)
  | leave t proc =>
      obtain ⟨rfl, hstopping, -, honly⟩ := hcall rfl hg (by simp)
      exact hr.move rfl hstopping rfl honly
  | stopped =>
      have honly := hr.only
      rw [last, hg.1, hg.2] at honly
      exact ⟨hr.others, fun _ => hg.2, hr.stops, honly⟩
  | shutDown =>
      have hclosing : r.destroy = .closing := hg
      have honly := hr.only
      rw [last, hclosing] at honly
      exact ⟨hr.others, fun _ => hr.main (by simp [hclosing]), hr.stops, honly⟩
  | exit proc => exact ⟨hr.others, hr.main, hr.stops, hr.only.bury proc⟩

/-! ## One behind the other -/

/-- Requests to record come over one connection, and `destroy_node` is called between two of them,
after the last. -/
def Serial (c : ℕ) (h : Host) : Happening → Prop
  | .thread (.start i j) =>
      j.records = true → if i = 0 then h.threads.prog c = .done else i = c ∧ h.spinning = true
  | _ => True

/-- Up to `destroy_node` there is the one connection, from then on the main thread. -/
def Stands (c k : ℕ) (h : Host) : Prop :=
  if h.spinning then ∃ stage, Accounts (· == c) h stage ∧ Button.Single (button (h.account stage) k)
  else ∃ stage, Accounts (· == 0) h stage ∧ Ending (h.account stage)

variable {c k : ℕ}

/-- The connection has nothing to do, and will have nothing to do any more. -/
theorem Accounts.hand (ha : Accounts (· == k + 1) h stage)
    (hdone : h.threads.prog (k + 1) = .done) :
    Accounts (· == 0) h (Function.update stage (k + 1) .aside) ∧
      h.account (Function.update stage (k + 1) .aside) = h.account stage := by
  have hphase : (stage (k + 1)).phase = .idle := Stage.phase_of_rests (ha.rests hdone)
  refine ⟨⟨fun i => ?_, fun i => ?_, ?_⟩, ?_⟩
  · by_cases hi : i = k + 1
    · subst hi
      have hi := ha.following (k + 1)
      rw [hdone] at hi ⊢
      rw [Function.update_self]
      exact ⟨hi.1, trivial⟩
    · rw [Function.update_of_ne hi]
      exact ha.following i
  · by_cases hi : i = k + 1
    · subst hi
      rw [Function.update_self]
      exact .inr rfl
    · have hrole := ha.role i
      rw [Function.update_of_ne hi]
      cases hl : stage i with
      | aside => exact Nat.eq_zero_or_pos i |>.imp_right fun hpos => by simpa using hpos.ne'
      | serving phase =>
          rw [hl] at hrole
          exact absurd (beq_iff_eq.mp hrole.2) hi
      | destroying phase | returned =>
          rw [hl] at hrole
          exact absurd (beq_iff_eq.mp hrole.2) hi
  · rw [Function.update_of_ne (by simp)]
    exact ha.spinning
  · have hcalls : (fun t => (Function.update stage (k + 1) .aside (index t)).phase) =
        fun t => (stage (index t)).phase := by
      funext t
      by_cases ht : index t = k + 1
      · rw [ht, Function.update_self, hphase]
        rfl
      · rw [Function.update_of_ne ht]
    rw [Host.account, hcalls, Function.update_of_ne (by simp)]
    rfl

theorem callers_eq {e : Recorder.Event} (h : CallersIn (· == i) r e) :
    ∀ t, caller e = some t → t = threadOf i :=
  fun t ht => index_eq_iff.mp (beq_iff_eq.mp (h t ht))

/-- Between two requests of the one caller there is nobody else. -/
theorem ending_of_single (hsingle : Button.Single (button r k))
    (hidle : r.calls (.http k) = .idle) : Ending r := by
  have honly : Button.Only r (Button.holder r false (r.calls (.http k))) :=
    (hsingle.served k false rfl).1
  have hup : r.destroy = .notCalled := hsingle.up
  have hcalls : ∀ t, r.calls t = .idle := by
    intro t
    by_cases ht : t = .http k
    · rw [ht]
      exact hidle
    · refine hsingle.idle t fun i stop hclick => ?_
      cases hclick
      exact ht
  rw [hidle] at honly
  refine ⟨fun i => hcalls _, fun _ => hcalls _, ?_, ?_⟩
  · rw [hcalls]
    rfl
  · rw [last, hup]
    exact honly

/-- Up to `destroy_node`. -/
theorem Stands.step_spinning (hstands : Stands (k + 1) k h) (hspinning : h.spinning = true)
    (hg : Host.guard h (.thread e)) (hs : Serial (k + 1) h (.thread e))
    (hends : Host.ends e = false) : Stands (k + 1) k (Host.act site h (.thread e)) := by
  rw [Stands, if_pos hspinning] at hstands
  obtain ⟨stage, ha, hsingle⟩ := hstands
  have hw : Within (· == k + 1) h (.thread e) := by
    cases e with
    | start i j =>
        intro hrecords
        have hi := hs hrecords
        split at hi
        · next h0 =>
            -- the main thread's only such job is `destroy_node`
            have hgives : if i = 0 then j.onMain = true ∧ _ else _ := hg.2.1
            rw [if_pos h0] at hgives
            cases j with
            | doPost target length => exact Bool.noConfusion hgives.1
            | destroyNode => exact Bool.noConfusion hends
            | _ => cases hrecords
        · exact beq_iff_eq.mpr hi.1
    | _ => trivial
  obtain ⟨stage', es, haccounts, hes⟩ := ha.step site hg hw
  have hspins : (Host.act site h (.thread e)).spinning = true := by
    show (h.spinning && !Host.ends e) = true
    rw [hspinning, hends]
    rfl
  rw [Stands, if_pos hspins]
  refine ⟨stage', haccounts, hes.inv_restrict (fun r => Button.Single (button r k)) ?_ hsingle⟩
  intro r e hr hg hcallers
  exact single_step hr hg (callers_eq hcallers)

/-- From `destroy_node` on. -/
theorem stands_of_ending (ha : Accounts (· == 0) h stage) (hending : Ending (h.account stage))
    (hg : Host.guard h (.thread e)) (hw : Within (· == 0) h (.thread e))
    (hended : (Host.act site h (.thread e)).spinning = false) :
    Stands c k (Host.act site h (.thread e)) := by
  obtain ⟨stage', es, haccounts, hes⟩ := ha.step site hg hw
  rw [Stands, if_neg (by rw [hended]; simp)]
  refine ⟨stage', haccounts, hes.inv_restrict Ending ?_ hending⟩
  intro r e hr hg hcallers
  exact ending_step hr hg (callers_eq hcallers)

theorem Stands.step (hstands : Stands (k + 1) k h) {x : Happening} (hg : Host.guard h x)
    (hs : Serial (k + 1) h x) : Stands (k + 1) k (Host.act site h x) := by
  cases x with
  | thread e =>
      cases hspinning : h.spinning with
      | true =>
          cases hends : Host.ends e with
          | false => exact hstands.step_spinning hspinning hg hs hends
          | true =>
              rw [Stands, if_pos hspinning] at hstands
              obtain ⟨stage, ha, hsingle⟩ := hstands
              obtain rfl := destroys hg hends
              have hdone : h.threads.prog (k + 1) = .done := hs rfl
              have hending : Ending (h.account stage) :=
                ending_of_single hsingle (Stage.phase_of_rests (ha.rests hdone))
              obtain ⟨ha', hsame⟩ := ha.hand hdone
              rw [← hsame] at hending
              refine stands_of_ending ha' hending hg (fun _ => rfl) ?_
              show (h.spinning && _) = false
              rw [hspinning]
              rfl
      | false =>
          rw [Stands, if_neg (by rw [hspinning]; simp)] at hstands
          obtain ⟨stage, ha, hending⟩ := hstands
          refine stands_of_ending ha hending hg ?_ ?_
          · cases e with
            | start i j =>
                intro hrecords
                have hi := hs hrecords
                split at hi
                · next h0 => exact beq_iff_eq.mpr h0
                · rw [hspinning] at hi
                  cases hi.2
            | _ => trivial
          · show (h.spinning && _) = false
            rw [hspinning]
            rfl
  | exit proc =>
      unfold Stands at hstands ⊢
      show if h.spinning then _ else _
      split
      · next hspinning =>
          rw [if_pos hspinning] at hstands
          obtain ⟨stage, ha, hsingle⟩ := hstands
          obtain ⟨ha', -⟩ := ha.exit site hg
          exact ⟨stage, ha', single_step (e := .exit proc) hsingle hg nofun⟩
      · next hended =>
          rw [if_neg hended] at hstands
          obtain ⟨stage, ha, hending⟩ := hstands
          obtain ⟨ha', -⟩ := ha.exit site hg
          exact ⟨stage, ha', ending_step (e := .exit proc) hending hg nofun⟩

theorem Stands.init (k : ℕ) : Stands (k + 1) k {} := by
  rw [Stands, if_pos rfl]
  refine ⟨opening _, .init _, ?_⟩
  rw [account_init]
  exact single_init k

/-- **Requests sent over one connection make one recorder.**  A thread serves a connection; if only
one thread is given requests to record, there is never more than one recorder that runs; between
requests it is in `state.recording`, where the next request finds it; and if `destroy_node` is
called between requests, it leaves none but what it has killed. -/
theorem one_connection (hc : c ≠ 0) (hrun : ((Host.machine site).restrict (Serial c)).Run {} hs h) :
    (∀ p q, h.processes.runs p = true → h.processes.runs q = true → p = q) ∧
      (h.spinning = true → h.threads.prog c = .done → ∀ p, h.processes.runs p = true →
        h.threads.shared.recording = some p) ∧
      (h.spinning = false → h.threads.prog 0 = .done → ∀ p, h.processes.live p = true →
        h.processes.killed p = true) := by
  obtain ⟨k, rfl⟩ := Nat.exists_eq_succ_of_ne_zero hc
  have hstands : Stands (k + 1) k h :=
    hrun.inv_restrict (Stands (k + 1) k) (fun _ _ hstands hg hs => hstands.step hg hs) (.init k)
  have hone : ∀ {owner}, (∀ p, h.processes.runs p = true → owner = some p) →
      ∀ p q, h.processes.runs p = true → h.processes.runs q = true → p = q := by
    intro owner honly p q hp hq
    exact Option.some.inj ((honly p hp).symm.trans (honly q hq))
  cases hspinning : h.spinning with
  | true =>
      rw [Stands, if_pos hspinning] at hstands
      obtain ⟨stage, ha, hsingle⟩ := hstands
      obtain ⟨honly, -⟩ := hsingle.served k false rfl
      refine ⟨hone honly, fun _ hdone p hp => ?_, nofun⟩
      have hidle : (stage (k + 1)).phase = .idle := Stage.phase_of_rests (ha.rests hdone)
      rw [show (button (h.account stage) k).server.calls (.http k) = .idle from hidle] at honly
      exact honly p hp
  | false =>
      rw [Stands, if_neg (by rw [hspinning]; simp)] at hstands
      obtain ⟨stage, ha, hending⟩ := hstands
      refine ⟨hone hending.only, nofun, fun _ hdone p hlive => ?_⟩
      have hreturned : (stage 0).destroy = .returned := ha.returned hspinning hdone
      have honly := hending.only
      rw [last, show (h.account stage).destroy = .returned from hreturned] at honly
      exact Button.Only.all_killed honly hlive

/-- Another connection asks for a snapshot, and gets none. -/
def snapshotBeside : List Happening :=
  [.thread (.start 2 (.doPost "/api/snapshot" 0)), .thread (.acquire 2), .thread (.read 2),
    .thread (.release 2), .thread (.client 2 {}), .thread (.client 2 {})]

theorem one_connection_beside : (snapshotBeside.foldl (Host.act plainSite)
    (recordedAlone.foldl (Host.act plainSite) {})).threads.shared.recording = some 0 := by
  have hrecord : ((Host.machine plainSite).restrict (Serial 1)).Run {} recordedAlone
      (recordedAlone.foldl (Host.act plainSite) {}) := by
    -- the request itself, and then steps that are not restricted
    refine .cons (M := (Host.machine plainSite).restrict (Serial 1))
      ⟨by decide +kernel, fun _ => ⟨rfl, rfl⟩⟩ ?_
    refine GuardedMachine.Run.restrict_of ?_ (.of_admits (by decide +kernel))
    intro s
    simp [Serial]
  have hsnapshot : ((Host.machine plainSite).restrict (Serial 1)).Run
      (recordedAlone.foldl (Host.act plainSite) {}) snapshotBeside
      (snapshotBeside.foldl (Host.act plainSite)
        (recordedAlone.foldl (Host.act plainSite) {})) := by
    refine GuardedMachine.Run.restrict_of ?_ (.of_admits (by decide +kernel))
    intro s
    simp [Serial, snapshotBeside, show (Job.doPost "/api/snapshot" 0).records = false by decide]
  exact (one_connection (by decide) (hrecord.trans hsnapshot)).2.1 rfl (by rfl) 0
    (by decide +kernel)

end JetsonPerception.Console.Lock
