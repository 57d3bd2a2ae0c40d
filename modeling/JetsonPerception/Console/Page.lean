/-
# The live view of the console's page

The pump loops of `index.html` and the button that starts and stops them, as one guarded
machine.  A pump runs from one `await` to the next; its phases are the awaits.

| phase | awaits | events |
| :-- | :-- | :-- |
| `fetching since` | `fetch('/frame.jpg?since=' + ..)` | `response`, `httpError`, `fetchFails` |
| `reading` | `r.blob()` | `blobDone`, `blobFails` |
| `showing url` | the promise resolved by `onload`, rejected by `onerror` | `load`, `error` |
| `pausing` | `setTimeout(res, 500)` | `timer` |

All pumps share the image element: one pair of handler slots and one `src`.  Setting `src`
drops the load of the one before, and a load or error event calls the handlers installed at
that moment.  A pump finds out that it has been superseded only at the head of its loop.
-/
import JetsonPerception.Lib.Machine
import Mathlib.Data.Rat.Defs
import Mathlib.Logic.Function.Basic

namespace JetsonPerception.Console

/-- What a pump waits for; `ended` also stands for one that has not been started. -/
inductive Pump where
  | fetching (since : ℤ)
  | reading
  | showing (url : ℕ)
  | pausing
  | ended
  deriving DecidableEq

def Pump.isFetching : Pump → Bool
  | .fetching _ => true
  | _ => false

structure Page where
  live : Bool := true
  lastSeq : ℤ := -1
  prevUrl : Option ℕ := none
  pumpId : ℕ := 0
  frameTimes : List ℚ := []
  pumps : ℕ → Pump := fun _ => .ended
  /-- How many object URLs have been created; they are numbered. -/
  urls : ℕ := 0
  /-- The URLs that have been revoked. -/
  revoked : List ℕ := []
  /-- The pump whose `res` and `rej` are the image's `onload` and `onerror`. -/
  handlers : Option ℕ := none
  /-- The image's `src`. -/
  src : Option ℕ := none
  /-- The image of that `src` has neither loaded nor failed yet. -/
  loading : Bool := false

namespace Page

/-- The head of the loop, `while (live && id === pumpId)`, as far as the next `fetch`. -/
def loop (s : Page) (id : ℕ) : Page :=
  { s with
    pumps := Function.update s.pumps id
      (if s.live = true ∧ id = s.pumpId then .fetching s.lastSeq else .ended) }

/-- The pump waits for something else. -/
def await (s : Page) (id : ℕ) (phase : Pump) : Page :=
  { s with pumps := Function.update s.pumps id phase }

def setLive (s : Page) (on : Bool) : Page :=
  if on then
    loop { s with live := true, frameTimes := [], pumpId := s.pumpId + 1 } (s.pumpId + 1)
  else { s with live := false }

/-- The page when its script has run: `setLive(true)` is its first call. -/
def opened : Page := setLive {} true

inductive Event where
  | click
  | response (id : ℕ) (seq : ℤ) | httpError (id : ℕ) | fetchFails (id : ℕ)
  | blobDone (id : ℕ) | blobFails (id : ℕ)
  | load (now : ℚ) | error
  | timer (id : ℕ)
  deriving DecidableEq

/-- `frameTimes.push(now)` and the `shift` that keeps thirty of them. -/
def pushTime (times : List ℚ) (now : ℚ) : List ℚ :=
  let times := times ++ [now]
  if times.length > 30 then times.drop 1 else times

/-- When an event may happen. -/
def guard (s : Page) : Event → Prop
  | .click => True
  | .response id _ => (s.pumps id).isFetching = true
  | .httpError id => (s.pumps id).isFetching = true
  | .fetchFails id => (s.pumps id).isFetching = true
  | .blobDone id => s.pumps id = .reading
  | .blobFails id => s.pumps id = .reading
  | .load _ => s.loading = true
  | .error => s.loading = true
  | .timer id => s.pumps id = .pausing

/-- `onload` of the pump `id`: a promise that is already settled stays so. -/
def onload (s : Page) (id : ℕ) (now : ℚ) : Page :=
  match s.pumps id with
  | .showing url =>
      loop { s with
        revoked := s.revoked ++ s.prevUrl.toList
        prevUrl := some url, frameTimes := pushTime s.frameTimes now } id
  | _ => s

/-- `onerror` of the pump `id`. -/
def onerror (s : Page) (id : ℕ) : Page :=
  match s.pumps id with
  | .showing _ => s.await id .pausing
  | _ => s

/-- Where an event leads. -/
def act (s : Page) : Event → Page
  | .click => s.setLive !s.live
  | .response id seq => { s.await id .reading with lastSeq := seq }
  | .httpError id => s.await id .pausing
  | .fetchFails id => s.await id .pausing
  | .blobDone id =>
      { s.await id (.showing s.urls) with
        urls := s.urls + 1, handlers := some id, src := some s.urls, loading := true }
  | .blobFails id => s.await id .pausing
  | .load now =>
      match s.handlers with
      | some id => onload { s with loading := false } id now
      | none => { s with loading := false }
  | .error =>
      match s.handlers with
      | some id => onerror { s with loading := false } id
      | none => { s with loading := false }
  | .timer id => s.loop id

/-- The page in a browser. -/
def machine : GuardedMachine Page Event := ⟨guard, act⟩

instance (s : Page) (e : Event) : Decidable (machine.guard s e) := by
  show Decidable (guard s e)
  cases e <;> dsimp only [guard] <;> infer_instance

/-! ## The live view is never stranded -/

/-- A pump in this phase, of this number, can go on: it has a fetch, a blob or a timer of its
own, or the image is its own. -/
def CanGoOn (s : Page) (id : ℕ) : Pump → Prop
  | .fetching _ | .reading | .pausing => True
  | .showing url => s.handlers = some id ∧ s.src = some url
  | .ended => False

/-- While the page is live the current pump can go on. -/
def Flowing (s : Page) : Prop := s.live = true → CanGoOn s s.pumpId (s.pumps s.pumpId)

/-- No superseded pump takes the image from the current one while that waits for it. -/
def Yields (s : Page) (e : Event) : Prop :=
  ∀ id url, e = .blobDone id → id ≠ s.pumpId → s.live = true →
    s.pumps s.pumpId ≠ .showing url

@[simp] theorem await_pumps (s : Page) (id : ℕ) (phase : Pump) (i : ℕ) :
    (s.await id phase).pumps i = if i = id then phase else s.pumps i :=
  Function.update_apply ..

variable {s : Page} {id : ℕ} {phase : Pump}

/-- The head of the loop keeps the view flowing: the current pump fetches. -/
theorem Flowing.loop (h : Flowing s) (id : ℕ) : Flowing (s.loop id) := by
  intro hlive
  have hlive : s.live = true := hlive
  show CanGoOn s s.pumpId ((s.loop id).pumps s.pumpId)
  by_cases hid : s.pumpId = id
  · simp [Page.loop, hid, hlive, CanGoOn]
  · have hpump : (s.loop id).pumps s.pumpId = s.pumps s.pumpId := by
      simp [Page.loop, hid]
    rw [hpump]
    exact h hlive

/-- So does a pump that waits for something of its own. -/
theorem Flowing.await (h : Flowing s) (hown : ∀ s : Page, CanGoOn s id phase) :
    Flowing (s.await id phase) := by
  intro hlive
  show CanGoOn s s.pumpId ((s.await id phase).pumps s.pumpId)
  rw [await_pumps]
  split
  · next hid => exact hid ▸ hown s
  · exact h hlive

/-- Going live starts a pump of a number of its own. -/
theorem Flowing.setLive (on : Bool) : Flowing (s.setLive on) := by
  cases on with
  | false => exact nofun
  | true =>
      intro _
      simp [Page.setLive, Page.loop, CanGoOn]

/-- The current pump takes the image itself, or the one that takes it does not keep it from
going on. -/
theorem Flowing.blobDone (h : Flowing s) (hy : Yields s (.blobDone id)) :
    Flowing (act s (.blobDone id)) := by
  intro hlive
  have hlive : s.live = true := hlive
  have hpump : (act s (.blobDone id)).pumps s.pumpId =
      if s.pumpId = id then .showing s.urls else s.pumps s.pumpId := await_pumps s id _ s.pumpId
  show CanGoOn (act s (.blobDone id)) s.pumpId ((act s (.blobDone id)).pumps s.pumpId)
  rw [hpump]
  split
  · next hid => exact ⟨congrArg some hid.symm, rfl⟩
  · next hid =>
      have hgo := h hlive
      cases hph : s.pumps s.pumpId with
      | fetching | reading | pausing => exact trivial
      | showing url => exact absurd hph (hy id url rfl (Ne.symm hid) hlive)
      | ended => rw [hph] at hgo; exact hgo

theorem Flowing.onload (h : Flowing s) (now : ℚ) : Flowing (s.onload id now) := by
  rw [Page.onload]
  split
  · exact Flowing.loop h id
  · exact h

theorem Flowing.onerror (h : Flowing s) : Flowing (s.onerror id) := by
  rw [Page.onerror]
  split
  · exact h.await fun _ => trivial
  · exact h

theorem Flowing.step (s : Page) (e : Event) (h : Flowing s) (hy : Yields s e) :
    Flowing (act s e) := by
  have hquiet : Flowing { s with loading := false } := h
  cases e with
  | click => exact Flowing.setLive _
  | response id seq =>
      have hread : Flowing (s.await id .reading) := h.await fun _ => trivial
      exact hread
  | httpError id | fetchFails id | blobFails id => exact h.await fun _ => trivial
  | blobDone id => exact h.blobDone hy
  | load now =>
      simp only [act]
      split
      · exact hquiet.onload now
      · exact hquiet
  | error =>
      simp only [act]
      split
      · exact hquiet.onerror
      · exact hquiet
  | timer id => exact h.loop id

theorem flowing {es : List Event} (h : (machine.restrict Yields).Run opened es s) :
    Flowing s :=
  h.inv_restrict Flowing (fun s e hs _ hy => hs.step s e hy) (Flowing.setLive true)

/-- A superseded pump that takes the image strands the current one at once. -/
theorem not_flowing {e : Event} (hy : ¬ Yields s e) : ¬ Flowing (act s e) := by
  have hbreak : ∃ id url, e = .blobDone id ∧ id ≠ s.pumpId ∧ s.live = true ∧
      s.pumps s.pumpId = .showing url := by
    by_contra hnone
    exact hy fun id url he hid hlive hph => hnone ⟨id, url, he, hid, hlive, hph⟩
  obtain ⟨id, url, rfl, hid, hlive, hph⟩ := hbreak
  intro h
  have hgo : CanGoOn (act s (.blobDone id)) s.pumpId ((act s (.blobDone id)).pumps s.pumpId) :=
    h hlive
  have hpump : (act s (.blobDone id)).pumps s.pumpId = .showing url := by
    have hcalls := await_pumps s id (.showing s.urls) s.pumpId
    rw [if_neg (Ne.symm hid), hph] at hcalls
    exact hcalls
  rw [hpump] at hgo
  exact hid (Option.some.inj hgo.1)

/-- **The live view is never stranded** along a run, exactly when no blob of a superseded pump
comes in while the current one waits for its image. -/
theorem live_view_iff {es : List Event} (h : machine.Run opened es s) :
    (∀ es₁ es₂ u, es = es₁ ++ es₂ → machine.Run opened es₁ u → Flowing u) ↔
      (machine.restrict Yields).Run opened es s :=
  h.restrict_iff_always (fun _ _ hr => flowing hr) fun _ _ _ _ _ hy => not_flowing hy

/-- Stop and go live while the first fetch is out; the superseded pump shows its frame first. -/
def overtaken : List Event :=
  [.click, .click, .response 1 7, .blobDone 1, .response 2 8, .blobDone 2]

theorem live_view_iff_overtaken : (overtaken.foldl act opened).pumps 2 = .showing 1 ∧
    Flowing (overtaken.foldl act opened) := by
  have hfetching : ((overtaken.take 3).foldl act opened).pumps 2 = .fetching (-1) := rfl
  have h : (machine.restrict Yields).Admits opened overtaken := by
    refine ⟨⟨trivial, nofun⟩, ⟨trivial, nofun⟩, ⟨rfl, nofun⟩, ⟨rfl, ?_⟩, ⟨rfl, nofun⟩,
      ⟨rfl, fun id _ he hid => absurd (Event.blobDone.inj he).symm hid⟩, trivial⟩
    exact fun id url _ _ _ hshowing => Pump.noConfusion (hfetching.symm.trans hshowing)
  have hrun := GuardedMachine.Run.of_admits h
  exact ⟨rfl, (live_view_iff hrun.of_restrict).mpr hrun overtaken [] _ (List.append_nil _).symm
    hrun.of_restrict⟩

/-- Stop and go live while the first fetch is out: both pumps get their frame, and the
superseded one shows its own last. -/
def stolen : List Event :=
  [.click, .click, .response 1 7, .response 2 8, .blobDone 2, .blobDone 1]

theorem live_view_stranded : ¬ ∀ es s, machine.Run opened es s → Flowing s := by
  intro hall
  have h := hall stolen _ (.of_admits (by decide)) rfl
  exact absurd h.1 (by decide)

end Page

end JetsonPerception.Console
