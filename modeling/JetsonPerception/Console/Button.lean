/-
# The recording button of one page

`start_recording` checks and stores in two sections, so two requests at a time may start two
recorders.  The page's button does not make two at a time: a click disables it until the answer to
its request has come, and for good if none comes.

| page | events |
| :-- | :-- |
| `recbtn.onclick`, `await post(..)` | `click`, `arrive`, `answer`, `reject`, `lose` |
| `poll()`, every second and after each answer | `poll`, `status`, `deliver`, `pollFails` |

What the page knows of the recorder it has from `poll`, whose answers may be old and may come in
any order.  One page, not reloaded, with the server of `JetsonPerception.Console.Recorder`, up to
its shutdown.
-/
import JetsonPerception.Console.Recorder

namespace JetsonPerception.Console

/-- The request of a click, for `/api/record/stop` or for `/api/record/start`. -/
inductive Click where
  | none
  | sent (stop : Bool)
  /-- An HTTP thread has begun with it. -/
  | served (i : ℕ) (stop : Bool)
  deriving DecidableEq

/-- A request for `/api/status`, as far as the recorder is concerned. -/
inductive Poll where
  | none
  | asked
  | answered (active : Bool)
  deriving DecidableEq

structure Button where
  server : Recorder := {}
  recording : Bool := false
  disabled : Bool := false
  click : Click := .none
  /-- The promise of `post` has been rejected; what follows its `await` is never run. -/
  rejected : Bool := false
  polls : ℕ → Poll := fun _ => .none

namespace Button

inductive Event where
  | click | arrive (i : ℕ) | answer | reject | lose
  | poll (j : ℕ) | status (j : ℕ) | deliver (j : ℕ) | pollFails (j : ℕ)
  | server (e : Recorder.Event)
  deriving DecidableEq

/-- The server's own events: requests come from the page, and it is not shut down. -/
def isInner : Recorder.Event → Bool
  | .startRecording _ | .stopRecording _ | .destroyNode => false
  | _ => true

/-- When an event may happen. -/
def guard (s : Button) : Event → Prop
  | .click => s.disabled = false
  | .arrive i =>
      match s.click with
      | .sent _ => s.server.calls (.http i) = .idle
      | _ => False
  | .answer =>
      match s.click with
      | .served i _ => s.server.calls (.http i) = .idle
      | _ => False
  | .reject => s.click ≠ .none
  | .lose =>
      match s.click with
      | .sent _ => True
      | _ => False
  | .poll j => s.polls j = .none
  | .status j => s.polls j = .asked
  | .deliver j =>
      match s.polls j with
      | .answered _ => True
      | _ => False
  | .pollFails j => s.polls j ≠ .none
  | .server e => isInner e = true ∧ Recorder.guard s.server e

def setPoll (s : Button) (j : ℕ) (p : Poll) : Button :=
  { s with polls := Function.update s.polls j p }

/-- Where an event leads. -/
def act (s : Button) : Event → Button
  | .click => { s with disabled := true, click := .sent s.recording }
  | .arrive i =>
      match s.click with
      | .sent stop =>
          { s with
            click := .served i stop
            server := Recorder.act s.server
              (if stop then .stopRecording i else .startRecording i) }
      | _ => s
  | .answer => { s with click := .none, disabled := s.rejected }
  | .reject => { s with rejected := true }
  | .lose => { s with click := .none, rejected := true }
  | .poll j => s.setPoll j .asked
  | .status j => s.setPoll j (.answered (s.server.polls s.server.recording))
  | .deliver j =>
      match s.polls j with
      | .answered active => { s.setPoll j .none with recording := active }
      | _ => s
  | .pollFails j => s.setPoll j .none
  | .server e => { s with server := Recorder.act s.server e }

/-- One page and its server. -/
def machine : GuardedMachine Button Event := ⟨guard, act⟩

instance (s : Button) (e : Event) : Decidable (machine.guard s e) := by
  show Decidable (guard s e)
  cases e with
  | server e =>
      exact @instDecidableAnd _ _ _
        (inferInstanceAs (Decidable (Recorder.machine.guard s.server e)))
  | deliver j => dsimp only [guard]; split <;> infer_instance
  | arrive i => dsimp only [guard]; split <;> infer_instance
  | answer => dsimp only [guard]; split <;> infer_instance
  | lose => dsimp only [guard]; split <;> infer_instance
  | _ => dsimp only [guard]; infer_instance

/-! ## One request at a time -/

/-- No recorder but that one runs. -/
def Only (s : Recorder) (proc : Option ℕ) : Prop := ∀ p, s.runs p = true → proc = some p

/-- The one recorder that may run, by the phase of the one call. -/
def holder (s : Recorder) (stop : Bool) : Phase → Option ℕ
  | .idle => if stop then none else s.recording
  | .checking | .taking => s.recording
  | .testingDisk | .spawning | .killed _ => none
  | .storing p | .waiting p | .killing p => some p
  | .polling proc => proc

/-- The phases of `start_recording`. -/
def starts : Phase → Bool
  | .checking | .testingDisk | .spawning | .storing _ => true
  | _ => false

/-- There is no other call than that of the request, and no recorder runs but its. -/
structure Single (s : Button) : Prop where
  idle : ∀ t, (∀ i stop, s.click = .served i stop → t ≠ .http i) → s.server.calls t = .idle
  up : s.server.destroy = .notCalled
  served : ∀ i stop, s.click = .served i stop →
    Only s.server (holder s.server stop (s.server.calls (.http i))) ∧
      (stop = true → starts (s.server.calls (.http i)) = false)
  unserved : (∀ i stop, s.click ≠ .served i stop) → Only s.server s.server.recording
  busy : s.click ≠ .none → s.disabled = true
  dead : s.rejected = true → s.disabled = true

variable {s : Button}

theorem Single.init : Single {} :=
  ⟨fun _ _ => rfl, rfl, nofun, fun _ => nofun, fun h => absurd rfl h, nofun⟩

theorem Only.none {s : Recorder} (h : Only s none) (proc : Option ℕ) : Only s proc := by
  intro p hp
  cases h p hp

theorem Only.bury {s : Recorder} {owner : Option ℕ} (h : Only s owner) (proc : ℕ) :
    Only (s.bury proc) owner := by
  intro p hp
  refine h p ?_
  simp only [Recorder.runs, Recorder.bury, Function.update_apply] at hp
  split at hp
  · cases hp
  · exact hp

/-- The one recorder has exited. -/
theorem Only.exited {s : Recorder} {proc : Option ℕ} (h : Only s proc)
    (hdead : s.polls proc = false) (owner : Option ℕ) : Only s owner := by
  refine Only.none (fun p hp => ?_) owner
  obtain rfl := h p hp
  have hdead : s.live p = false := hdead
  rw [Recorder.live_of_runs hp] at hdead
  cases hdead

/-- The one recorder is killed. -/
theorem Only.killed {s : Recorder} {t : Thread} {proc : ℕ} (h : Only s (some proc)) :
    Only (Recorder.act s (.kill t proc)) Option.none := by
  intro p hp
  have hne : p ≠ proc := by
    rintro rfl
    simp [Recorder.runs, Recorder.act] at hp
  have hp : s.runs p = true := by
    simpa [Recorder.runs, Recorder.act, Recorder.goto, Function.update_apply, hne] using hp
  exact absurd (Option.some.inj (h p hp)).symm hne

/-- Where none runs, those that are live have been killed. -/
theorem Only.all_killed {s : Recorder} {p : ℕ} (h : Only s Option.none) (hlive : s.live p = true) :
    s.killed p = true := by
  cases hkilled : s.killed p with
  | true => rfl
  | false => cases h p (by simp [Recorder.runs, hlive, hkilled])

/-- The one call goes on. -/
theorem Single.move (h : Single s) {i : ℕ} {stop : Bool} (hclick : s.click = .served i stop)
    (phase : Phase) {server : Recorder}
    (hcalls : server.calls = (s.server.goto (.http i) phase).calls)
    (hup : server.destroy = s.server.destroy) (honly : Only server (holder server stop phase))
    (hstarts : stop = true → starts phase = false) : Single { s with server := server } where
  idle t ht := by
    have hne : t ≠ .http i := ht i stop hclick
    show server.calls t = .idle
    rw [hcalls, Recorder.goto_calls, if_neg hne]
    refine h.idle t fun i' stop' hclick' => ?_
    exact ht i' stop' hclick'
  up := hup.trans h.up
  served i' stop' hclick' := by
    have hsame : Click.served i stop = .served i' stop' := hclick.symm.trans hclick'
    cases hsame
    have hphase : server.calls (.http i) = phase := by
      rw [hcalls, Recorder.goto_calls, if_pos rfl]
    show Only server (holder server stop (server.calls (.http i))) ∧ _
    rw [hphase]
    exact ⟨honly, hstarts⟩
  unserved hno := absurd hclick (hno i stop)
  busy := h.busy
  dead := h.dead

/-- A call in progress is that of the request. -/
theorem Single.request (h : Single s) {t : Thread} (ht : s.server.calls t ≠ .idle) :
    ∃ i stop, s.click = .served i stop ∧ t = .http i := by
  by_contra hno
  refine ht (h.idle t fun i stop hclick => ?_)
  rintro rfl
  exact hno ⟨i, stop, hclick, rfl⟩

/-- A recorder may exit. -/
theorem Single.exit (h : Single s) (proc : ℕ) :
    Single { s with server := s.server.bury proc } := by
  refine { h with served := fun i stop hclick => ?_, unserved := fun hno => ?_ }
  · obtain ⟨honly, hstarts⟩ := h.served i stop hclick
    exact ⟨honly.bury proc, hstarts⟩
  · exact (h.unserved hno).bury proc

/-- **Whatever the server does** next, the recorder that may run stays one. -/
theorem Single.server (h : Single s) {e : Recorder.Event} (hinner : isInner e = true)
    (hg : Recorder.guard s.server e) : Single { s with server := Recorder.act s.server e } := by
  -- the call that goes on, what it may hold and whether it is one of `start_recording`
  have hcall : ∀ {t phase}, s.server.calls t = phase → phase ≠ .idle →
      ∃ i stop, s.click = .served i stop ∧ t = .http i ∧
        Only s.server (holder s.server stop phase) ∧ (stop = true → starts phase = false) := by
    rintro t phase rfl hne
    obtain ⟨i, stop, hclick, rfl⟩ := h.request hne
    exact ⟨i, stop, hclick, rfl, h.served i stop hclick⟩
  cases e with
  | startRecording i => cases hinner
  | stopRecording i => cases hinner
  | destroyNode => cases hinner
  | stopped =>
      have hup := h.up
      rw [hg.1] at hup
      cases hup
  | shutDown =>
      have hg : s.server.destroy = .closing := hg
      have hup := h.up
      rw [hg] at hup
      cases hup
  | exit proc => exact h.exit proc
  | alreadyRecording t =>
      obtain ⟨i, stop, hclick, rfl, honly, hstart⟩ := hcall hg.1 (by simp)
      cases stop with
      | true => cases hstart rfl
      | false => exact h.move hclick _ rfl rfl honly fun _ => rfl
  | checked t =>
      obtain ⟨i, stop, hclick, rfl, honly, hstart⟩ := hcall hg.1 (by simp)
      exact h.move hclick .testingDisk rfl rfl (honly.exited hg.2 _) hstart
  | diskLow t =>
      obtain ⟨i, stop, hclick, rfl, honly, hstart⟩ := hcall hg (by simp)
      exact h.move hclick _ rfl rfl (honly.none _) fun _ => rfl
  | diskOk t =>
      obtain ⟨i, stop, hclick, rfl, honly, hstart⟩ := hcall hg (by simp)
      exact h.move hclick _ rfl rfl honly hstart
  | spawnFailed t =>
      obtain ⟨i, stop, hclick, rfl, honly, hstart⟩ := hcall hg (by simp)
      exact h.move hclick _ rfl rfl (honly.none _) fun _ => rfl
  | spawn t =>
      obtain ⟨i, stop, hclick, rfl, honly, hstart⟩ := hcall hg (by simp)
      refine h.move hclick (.storing s.server.spawned) rfl rfl (fun p hp => ?_) hstart
      by_cases hnew : p = s.server.spawned
      · rw [hnew]
        rfl
      · have hp : s.server.runs p = true := by
          simpa [Recorder.runs, Recorder.act, Recorder.goto, Function.update_apply, hnew] using hp
        cases honly p hp
  | store t proc =>
      obtain ⟨i, stop, hclick, rfl, honly, hstart⟩ := hcall hg (by simp)
      cases stop with
      | true => cases hstart rfl
      | false => exact h.move hclick _ rfl rfl honly fun _ => rfl
  | take t =>
      obtain ⟨i, stop, hclick, rfl, honly, hstart⟩ := hcall hg (by simp)
      exact h.move hclick _ rfl rfl honly fun _ => rfl
  | notRecording t proc =>
      obtain ⟨i, stop, hclick, rfl, honly, hstart⟩ := hcall hg.1 (by simp)
      exact h.move hclick _ rfl rfl (honly.exited hg.2 _) fun _ => rfl
  | terminate t proc | timedOut t proc =>
      obtain ⟨i, stop, hclick, rfl, honly, hstart⟩ := hcall hg.1 (by simp)
      exact h.move hclick _ rfl rfl honly fun _ => rfl
  | waited t proc =>
      obtain ⟨i, stop, hclick, rfl, honly, hstart⟩ := hcall hg.1 (by simp)
      exact h.move hclick _ rfl rfl (honly.exited hg.2 _) fun _ => rfl
  | kill t proc =>
      obtain ⟨i, stop, hclick, rfl, honly, hstart⟩ := hcall hg (by simp)
      exact h.move hclick (.killed proc) rfl rfl honly.killed fun _ => rfl
  | leave t proc =>
      obtain ⟨i, stop, hclick, rfl, honly, hstart⟩ := hcall hg (by simp)
      exact h.move hclick _ rfl rfl (honly.none _) fun _ => rfl

/-- A request begins: no other call is in progress. -/
theorem Single.arrive (h : Single s) {i : ℕ} {stop : Bool} (hclick : s.click = .sent stop) :
    Single (act s (.arrive i)) := by
  have hno : ∀ i' stop', s.click ≠ .served i' stop' := by
    intro i' stop' hserved
    rw [hclick] at hserved
    cases hserved
  have hidle : ∀ t, s.server.calls t = .idle := fun t => h.idle t fun i' stop' hserved =>
    absurd hserved (hno i' stop')
  have honly := h.unserved hno
  have hact : act s (.arrive i) = { s with
      click := .served i stop
      server := s.server.goto (.http i) (if stop then .taking else .checking) } := by
    simp only [act, hclick]
    cases stop <;> rfl
  rw [hact]
  constructor
  case idle =>
      intro t ht
      have hne : t ≠ .http i := ht i stop rfl
      show (s.server.goto (.http i) _).calls t = .idle
      rw [Recorder.goto_calls, if_neg hne]
      exact hidle t
  case up => exact h.up
  case served =>
      intro i' stop' hclick'
      cases hclick'
      have hphase : (s.server.goto (.http i) (if stop then .taking else .checking)).calls
          (.http i) = if stop then .taking else .checking := by
        rw [Recorder.goto_calls, if_pos rfl]
      show Only _ (holder _ stop ((s.server.goto (.http i) _).calls (.http i))) ∧ _
      rw [hphase]
      cases stop with
      | true => exact ⟨honly, fun _ => rfl⟩
      | false => exact ⟨honly, nofun⟩
  case unserved => exact fun hno' => absurd rfl (hno' i stop)
  case busy => exact fun _ => h.busy (by rw [hclick]; exact nofun)
  case dead => exact h.dead

theorem Single.answer (h : Single s) {i : ℕ} {stop : Bool} (hclick : s.click = .served i stop)
    (hidle : s.server.calls (.http i) = .idle) : Single (act s .answer) := by
  obtain ⟨honly, -⟩ := h.served i stop hclick
  rw [hidle] at honly
  constructor
  case idle =>
      intro t _
      by_cases ht : t = .http i
      · rw [ht]
        exact hidle
      · refine h.idle t fun i' stop' hclick' => ?_
        rw [hclick] at hclick'
        cases hclick'
        exact ht
  case up => exact h.up
  case served => exact nofun
  case unserved =>
      intro _
      cases stop with
      | true => exact honly.none _
      | false => exact honly
  case busy => exact fun hne => absurd rfl hne
  case dead => exact fun hrejected => hrejected

theorem Single.step (s : Button) (e : Event) (h : Single s) (hg : guard s e) :
    Single (act s e) := by
  cases e with
  | click =>
      have hg : s.disabled = false := hg
      have hnone : s.click = .none := by
        by_contra hne
        rw [h.busy hne] at hg
        cases hg
      have hno : ∀ i stop, s.click ≠ .served i stop := by
        intro i stop
        rw [hnone]
        exact nofun
      refine { h with
        idle := fun t _ => h.idle t fun i stop hserved => absurd hserved (hno i stop)
        served := nofun
        unserved := fun _ => h.unserved hno
        busy := fun _ => rfl
        dead := fun _ => rfl }
  | arrive i =>
      cases hclick : s.click with
      | sent stop => exact h.arrive hclick
      | _ => simp [guard, hclick] at hg
  | answer =>
      cases hclick : s.click with
      | served i stop =>
          refine h.answer hclick ?_
          simpa [guard, hclick] using hg
      | _ => simp [guard, hclick] at hg
  | reject => exact { h with dead := fun _ => h.busy hg }
  | lose =>
      cases hclick : s.click with
      | sent stop =>
          have hno : ∀ i stop', s.click ≠ .served i stop' := by
            intro i stop'
            rw [hclick]
            exact nofun
          refine { h with
            idle := fun t _ => h.idle t fun i stop' hserved => absurd hserved (hno i stop')
            served := nofun
            unserved := fun _ => h.unserved hno
            busy := fun hne => absurd rfl hne
            dead := fun _ => h.busy (by rw [hclick]; exact nofun) }
      | _ => simp [guard, hclick] at hg
  | deliver j =>
      cases hpoll : s.polls j with
      | answered active =>
          have hact : act s (.deliver j) = { s.setPoll j .none with recording := active } := by
            simp only [act, hpoll]
          rw [hact]
          exact { h with }
      | _ => simp [guard, hpoll] at hg
  | poll j | status j | pollFails j => exact { h with }
  | server e => exact h.server hg.1 hg.2

theorem single {es : List Event} (h : machine.Run {} es s) : Single s :=
  h.inv Single (fun s e hs hg => hs.step s e hg) .init

/-- **One page starts no second recorder**, whatever it is told and in whatever order, whichever
answers get lost, and whenever recorders exit.  While its button is enabled no request is in
progress and a recorder that runs is in `state.recording`, where the next click finds it; and
when a request to stop has been answered none runs.  One that was killed may be live still. -/
theorem one_page {es : List Event} (h : machine.Run {} es s) :
    (∀ p q, s.server.runs p = true → s.server.runs q = true → p = q) ∧
      (s.disabled = false → (∀ t, s.server.calls t = .idle) ∧
        ∀ p, s.server.runs p = true → s.server.recording = some p) ∧
      ∀ i, s.click = .served i true → s.server.calls (.http i) = .idle →
        ∀ p, s.server.live p = true → s.server.killed p = true := by
  have hs := single h
  have hone : ∀ {owner}, Only s.server owner →
      ∀ p q, s.server.runs p = true → s.server.runs q = true → p = q := by
    intro owner honly p q hp hq
    exact Option.some.inj ((honly p hp).symm.trans (honly q hq))
  refine ⟨?_, fun henabled => ?_, fun i hclick hidle p hlive => ?_⟩
  · by_cases hserved : ∃ i stop, s.click = .served i stop
    · obtain ⟨i, stop, hclick⟩ := hserved
      exact hone (hs.served i stop hclick).1
    · exact hone (hs.unserved fun i stop hclick => hserved ⟨i, stop, hclick⟩)
  · have hnone : s.click = .none := by
      by_contra hne
      rw [hs.busy hne] at henabled
      cases henabled
    have hno : ∀ i stop, s.click ≠ .served i stop := by
      intro i stop
      rw [hnone]
      exact nofun
    exact ⟨fun t => hs.idle t fun i stop hclick => absurd hclick (hno i stop), hs.unserved hno⟩
  · have honly := (hs.served i true hclick).1
    rw [hidle] at honly
    exact honly.all_killed hlive

/-- A recording is started; the page, told of it late, asks for another, and gets none. -/
def impatient : List Event :=
  [.poll 0, .status 0, .click, .arrive 0, .server (.checked (.http 0)),
    .server (.diskOk (.http 0)), .server (.spawn (.http 0)), .server (.store (.http 0) 0), .answer,
    .deliver 0, .click, .arrive 1, .server (.alreadyRecording (.http 1)), .answer]

theorem one_page_impatient : (impatient.foldl act {}).server.recording = some 0 := by
  have h : machine.Run {} impatient (impatient.foldl act {}) := .of_admits (by decide)
  exact ((one_page h).2.1 rfl).2 0 rfl

end Button

end JetsonPerception.Console
