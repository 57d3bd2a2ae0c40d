/-
# The subscription that lasts as long as somebody looks

`_manage_image_sub` runs on the executor's timer, once a second, and takes the camera's compressed
stream when a browser has asked for a frame in the last five seconds, else lets go of it.  The
handlers of requests write the time of the request, which they have read before; nothing locks.

| | |
| :-- | :-- |
| `viewer_one` | the node has at most one subscription, and knows of it between two ticks |
| `viewer_released` | nobody asks any more: the stream is let go within six seconds and a delay |
| `viewer_kept` | somebody asks often enough: the stream is not let go, and is there after a tick |

Time is a number that the event `advance` raises.  The clock is read before `_last_frame_request`,
and a handler may write a time long past.
-/
import JetsonPerception.Console.Lock
import JetsonPerception.Lib.Machine

namespace JetsonPerception.Console.Viewers

/-! ## The machine -/

/-- What a tick has got to: it has read the clock, is about to create or to destroy, has done so
and is about to note it. -/
inductive Tick where
  | idle
  | clock (now : ℚ)
  | create | created
  | destroy | destroyed
  deriving DecidableEq

structure Node where
  now : ℚ
  /-- When the timer is due. -/
  due : ℚ
  lastFrameRequest : ℚ := 0
  /-- `_image_sub is not None`. -/
  imageSub : Bool := false
  /-- The subscriptions there are. -/
  subscriptions : ℕ := 0
  tick : Tick := .idle
  /-- The times that handlers have read and not written yet. -/
  requests : List ℚ := []
  deriving DecidableEq

inductive Event where
  | advance (d : ℚ)
  | request | store (time : ℚ)
  -- the timer calls, and is due again
  | fire (due : ℚ)
  | test | createSubscription | destroySubscription | assign
  deriving DecidableEq

/-- The tick has read the clock. -/
def Tick.reads : Tick → Bool
  | .clock _ => true
  | _ => false

theorem Tick.reads_iff {tick : Tick} : tick.reads = true ↔ ∃ now, tick = .clock now := by
  cases tick <;> simp [Tick.reads]

/-- When an event may happen. -/
def guard (s : Node) : Event → Prop
  | .advance d => 0 ≤ d
  | .request => True
  | .store time => time ∈ s.requests
  | .fire due => s.tick = .idle ∧ s.due ≤ s.now ∧ s.now < due ∧ due ≤ s.now + 1
  | .test => s.tick.reads = true
  | .createSubscription => s.tick = .create
  | .destroySubscription => s.tick = .destroy
  | .assign => s.tick = .created ∨ s.tick = .destroyed

/-- What a tick decides: to create, to destroy, or nothing. -/
def decision (now lastFrameRequest : ℚ) (imageSub : Bool) : Tick :=
  let want := now - lastFrameRequest < 5
  if want ∧ imageSub = false then .create
  else if ¬ want ∧ imageSub = true then .destroy
  else .idle

/-- Where an event leads. -/
def act (s : Node) : Event → Node
  | .advance d => { s with now := s.now + d }
  | .request => { s with requests := s.now :: s.requests }
  | .store time => { s with lastFrameRequest := time, requests := s.requests.erase time }
  | .fire due => { s with tick := .clock s.now, due }
  | .test =>
      match s.tick with
      | .clock now => { s with tick := decision now s.lastFrameRequest s.imageSub }
      | _ => s
  | .createSubscription => { s with tick := .created, subscriptions := s.subscriptions + 1 }
  | .destroySubscription => { s with tick := .destroyed, subscriptions := s.subscriptions - 1 }
  | .assign => { s with tick := .idle, imageSub := s.tick = .created }

instance (s : Node) (e : Event) : Decidable (guard s e) := by
  cases e <;> dsimp only [guard] <;> infer_instance

theorem act_test {s : Node} {now : ℚ} (h : s.tick = .clock now) :
    act s .test = { s with tick := decision now s.lastFrameRequest s.imageSub } := by
  simp only [act, h]

def viewer : GuardedMachine Node Event := ⟨guard, act⟩

instance (s : Node) (e : Event) : Decidable (viewer.guard s e) :=
  inferInstanceAs (Decidable (guard s e))

/-- The node at `now`, its timer due within a second. -/
def start (now due : ℚ) : Node := { now, due }

/-- The tick is the program of the executor's thread. -/
theorem manageImageSub_decision : Lock.manageImageSub =
    Lock.monotonic fun now => .read fun st =>
      match decision now st.lastFrameRequest st.imageSub with
      | .create => .ask .createSubscription fun _ =>
          .update (fun st => { st with imageSub := true }) .done
      | .destroy => .ask .destroySubscription fun _ =>
          .update (fun st => { st with imageSub := false }) .done
      | _ => .done := by
  rw [Lock.manageImageSub]
  congr 1
  funext now
  congr 1
  funext st
  rw [decision]
  dsimp only
  split
  · rfl
  · split <;> rfl

variable {s t : Node} {es : List Event} {now₀ due₀ : ℚ}

/-! ## One subscription -/

/-- The subscriptions there are, by what the tick has got to. -/
def Counted (s : Node) : Prop :=
  match s.tick with
  | .idle | .clock _ => s.subscriptions = if s.imageSub then 1 else 0
  | .create => s.imageSub = false ∧ s.subscriptions = 0
  | .created => s.imageSub = false ∧ s.subscriptions = 1
  | .destroy => s.imageSub = true ∧ s.subscriptions = 1
  | .destroyed => s.imageSub = true ∧ s.subscriptions = 0

theorem decision_cases (now last : ℚ) (imageSub : Bool) :
    (decision now last imageSub = .create ∧ now - last < 5 ∧ imageSub = false) ∨
      (decision now last imageSub = .destroy ∧ 5 ≤ now - last ∧ imageSub = true) ∨
      (decision now last imageSub = .idle ∧ (now - last < 5 ↔ imageSub = true)) := by
  rw [decision]
  by_cases h : now - last < 5
  · cases imageSub with
    | false => exact .inl ⟨by simp [h], h, rfl⟩
    | true => exact .inr (.inr ⟨by simp [h], by simp [h]⟩)
  · cases imageSub with
    | false => exact .inr (.inr ⟨by simp [h], by simp [h]⟩)
    | true => exact .inr (.inl ⟨by simp [h], not_lt.mp h, rfl⟩)

theorem Counted.step (s : Node) (e : Event) (h : Counted s) (hg : guard s e) :
    Counted (act s e) := by
  cases e with
  | advance d => exact h
  | request => exact h
  | store time => exact h
  | fire due =>
      obtain ⟨hidle, -⟩ := hg
      rw [Counted, hidle] at h
      exact h
  | test =>
      obtain ⟨now, htick⟩ := Tick.reads_iff.mp hg
      rw [Counted, htick] at h
      have h : s.subscriptions = if s.imageSub then 1 else 0 := h
      rw [act_test htick, Counted]
      rcases decision_cases now s.lastFrameRequest s.imageSub with
        ⟨hd, -, hsub⟩ | ⟨hd, -, hsub⟩ | ⟨hd, -⟩
      · simp only [hd]
        exact ⟨hsub, by rw [h, hsub]; rfl⟩
      · simp only [hd]
        exact ⟨hsub, by rw [h, hsub]; rfl⟩
      · simp only [hd]
        exact h
  | createSubscription =>
      have hg : s.tick = .create := hg
      rw [Counted, hg] at h
      exact ⟨h.1, by show s.subscriptions + 1 = 1; rw [h.2]⟩
  | destroySubscription =>
      have hg : s.tick = .destroy := hg
      rw [Counted, hg] at h
      exact ⟨h.1, by show s.subscriptions - 1 = 0; rw [h.2]⟩
  | assign =>
      rcases hg with hg | hg
      · rw [Counted, hg] at h
        show s.subscriptions = if decide (s.tick = .created) then 1 else 0
        rw [hg, h.2]
        rfl
      · rw [Counted, hg] at h
        show s.subscriptions = if decide (s.tick = .created) then 1 else 0
        rw [hg, h.2]
        rfl

theorem counted (h : viewer.Run (start now₀ due₀) es s) : Counted s :=
  h.inv Counted Counted.step (show Counted (start now₀ due₀) from rfl)

/-- **At most one subscription**, and between two ticks the node knows whether there is one. -/
theorem viewer_one (h : viewer.Run (start now₀ due₀) es s) :
    s.subscriptions ≤ 1 ∧ (s.tick = .idle → (s.imageSub = true ↔ s.subscriptions = 1)) := by
  have hc := counted h
  constructor
  · rw [Counted] at hc
    split at hc
    · split at hc <;> omega
    · split at hc <;> omega
    · omega
    · omega
    · omega
    · omega
  · intro hidle
    rw [Counted, hidle] at hc
    have hc : s.subscriptions = if s.imageSub then 1 else 0 := hc
    cases hsub : s.imageSub <;> simp [hc, hsub]

/-- A browser asks, and the next tick takes the stream. -/
def watched : List Event :=
  [.request, .store 10, .advance 1, .fire 12, .test, .createSubscription, .assign]

theorem viewer_one_watched : (watched.foldl act (start 10 11)).imageSub = true ↔
    (watched.foldl act (start 10 11)).subscriptions = 1 := by
  have h : viewer.Run (start 10 11) watched (watched.foldl act (start 10 11)) :=
    .of_admits (by decide +kernel)
  exact (viewer_one h).2 (by decide +kernel)

/-! ## Nobody looks -/

def later (latest : ℚ) : Event → ℚ
  | .store time => max latest time
  | _ => latest

/-- The latest time of a request that has been written. -/
def newest (es : List Event) : ℚ := es.foldl later 0

/-- The timer is served, and its tick done, at most `L` after it is due. -/
def Punctual (L : ℚ) (s : Node) (e : Event) : Prop :=
  ∀ d, e = .advance d → s.now + d ≤ s.due + L

instance (L : ℚ) (s : Node) (e : Event) : Decidable ((viewer.restrict (Punctual L)).guard s e) :=
  match e with
  | .advance d => decidable_of_iff (0 ≤ d ∧ s.now + d ≤ s.due + L) (by
      simp [viewer, GuardedMachine.restrict, guard, Punctual])
  | .request | .store _ | .fire _ | .test | .createSubscription | .destroySubscription
  | .assign => decidable_of_iff (guard s _) (by
      simp only [viewer, GuardedMachine.restrict, Punctual]
      exact ⟨fun h => ⟨h, nofun⟩, fun h => h.1⟩)

/-- What a tick that takes or keeps the stream has seen, in the light of what the timer allows. -/
structure Recent (L latest : ℚ) (s : Node) : Prop where
  served : s.now ≤ s.due + L
  last : s.lastFrameRequest ≤ latest
  held : match s.tick with
    | .idle => s.imageSub = true → s.due < latest + 6
    | .clock now => s.due ≤ now + 1 ∧ (s.imageSub = true → now < latest + 6 + L)
    | .create | .created => s.due < latest + 6
    | .destroy | .destroyed => s.due < latest + 7 + L

theorem Recent.mono {L latest latest' : ℚ} {s : Node} (h : Recent L latest s)
    (hle : latest ≤ latest') : Recent L latest' s := by
  obtain ⟨hserved, hlast, hheld⟩ := h
  refine ⟨hserved, hlast.trans hle, ?_⟩
  cases htick : s.tick with
  | idle =>
      rw [htick] at hheld
      exact fun hsub => (hheld hsub).trans_le (by linarith)
  | clock now =>
      rw [htick] at hheld
      exact ⟨hheld.1, fun hsub => (hheld.2 hsub).trans_le (by linarith)⟩
  | create =>
      rw [htick] at hheld
      exact hheld.trans_le (by linarith)
  | created =>
      rw [htick] at hheld
      exact hheld.trans_le (by linarith)
  | destroy =>
      rw [htick] at hheld
      exact hheld.trans_le (by linarith)
  | destroyed =>
      rw [htick] at hheld
      exact hheld.trans_le (by linarith)

theorem Recent.step {L latest : ℚ} (hL : 0 ≤ L) {s : Node} {e : Event} (h : Recent L latest s)
    (hg : guard s e) (hp : Punctual L s e) :
    Recent L (later latest e) (act s e) := by
  cases e with
  | advance d => exact ⟨hp d rfl, h.last, h.held⟩
  | request => exact ⟨h.served, h.last, h.held⟩
  | store time =>
      obtain ⟨hserved, -, hheld⟩ := h.mono (le_max_left latest time)
      exact ⟨hserved, le_max_right _ _, hheld⟩
  | fire due =>
      obtain ⟨hidle, -, hlate, hnext⟩ := hg
      have hheld := h.held
      rw [hidle] at hheld
      have hserved := h.served
      refine ⟨?_, h.last, hnext, fun hsub => ?_⟩
      · show s.now ≤ due + L
        linarith
      · have hdue : s.due < latest + 6 := hheld hsub
        show s.now < latest + 6 + L
        linarith
  | test =>
      obtain ⟨now, htick⟩ := Tick.reads_iff.mp hg
      have hheld := h.held
      rw [htick] at hheld
      obtain ⟨hdue, hnow⟩ := hheld
      have hlast := h.last
      rw [act_test htick]
      refine ⟨h.served, h.last, ?_⟩
      rcases decision_cases now s.lastFrameRequest s.imageSub with
        ⟨hd, hwant, -⟩ | ⟨hd, -, hsub⟩ | ⟨hd, hwant⟩
      · simp only [hd]
        show s.due < latest + 6
        linarith
      · simp only [hd]
        have hlt := hnow hsub
        show s.due < latest + 7 + L
        linarith
      · simp only [hd]
        intro hsub
        have hlt := hwant.mpr hsub
        show s.due < latest + 6
        linarith
  | createSubscription =>
      have hg : s.tick = .create := hg
      have hheld := h.held
      rw [hg] at hheld
      exact ⟨h.served, h.last, hheld⟩
  | destroySubscription =>
      have hg : s.tick = .destroy := hg
      have hheld := h.held
      rw [hg] at hheld
      exact ⟨h.served, h.last, hheld⟩
  | assign =>
      have hheld := h.held
      refine ⟨h.served, h.last, ?_⟩
      show decide (s.tick = .created) = true → s.due < latest + 6
      intro hcreated
      rw [of_decide_eq_true hcreated] at hheld
      exact hheld

/-- The node holds a subscription, or says that it does. -/
def Subscribed (s : Node) : Prop := s.imageSub = true ∨ 0 < s.subscriptions

/-- Before a tick is to create, or is done, the node has noted its subscription. -/
theorem Counted.noted (h : Counted s) (hsub : Subscribed s)
    (htick : s.tick = .idle ∨ s.tick.reads = true) : s.imageSub = true := by
  rcases hsub with hsub | hpos
  · exact hsub
  · have hcount : s.subscriptions = if s.imageSub then 1 else 0 := by
      rcases htick with htick | htick
      · rw [Counted, htick] at h
        exact h
      · obtain ⟨now, htick⟩ := Tick.reads_iff.mp htick
        rw [Counted, htick] at h
        exact h
    by_contra hnot
    rw [if_neg hnot] at hcount
    omega

/-- **Nobody looks any more**: while there is a subscription, the latest request is less than six
seconds and the timer's delay old between ticks, and less than seven and twice the delay within
one. -/
theorem viewer_released {L : ℚ} (hL : 0 ≤ L) (hdue : now₀ ≤ due₀ + L)
    (h : (viewer.restrict (Punctual L)).Run (start now₀ due₀) es s) (hsub : Subscribed s) :
    s.now < newest es + 7 + 2 * L ∧ (s.tick = .idle → s.now < newest es + 6 + L) := by
  have hcounted := counted h.of_restrict
  have hrecent : Recent L (newest es) s := by
    refine h.tally _ (Recent L) ?_ ⟨hdue, le_rfl, fun hfalse => Bool.noConfusion hfalse⟩
    intro latest s e hs hg
    exact hs.step hL hg.1 hg.2
  obtain ⟨hserved, -, hheld⟩ := hrecent
  constructor
  · cases htick : s.tick with
    | idle =>
        rw [htick] at hheld
        have hdue := hheld (hcounted.noted hsub (.inl htick))
        linarith
    | clock now =>
        rw [htick] at hheld
        have hnow := hheld.2 (hcounted.noted hsub (.inr (by rw [htick]; rfl)))
        linarith [hheld.1]
    | create =>
        rw [htick] at hheld
        linarith
    | created =>
        rw [htick] at hheld
        linarith
    | destroy =>
        rw [htick] at hheld
        linarith
    | destroyed =>
        rw [htick] at hheld
        linarith
  · intro hidle
    rw [hidle] at hheld
    have hdue := hheld (hcounted.noted hsub (.inl hidle))
    linarith

/-- The browser is closed, and the stream is let go. -/
def left : List Event :=
  watched ++ [.advance 1, .fire 13, .test, .advance 2, .fire 15, .test]

theorem viewer_released_left :
    (left.foldl act (start 10 11)).now < newest left + 6 + 1 := by
  have h : (viewer.restrict (Punctual 1)).Run (start 10 11) left (left.foldl act (start 10 11)) :=
    .of_admits (by decide +kernel)
  exact (viewer_released (by norm_num) (by norm_num) h (.inl (by decide +kernel))).2
    (by decide +kernel)

/-! ## Somebody looks -/

/-- `_last_frame_request` never gets more than `a` old. -/
def Active (a : ℚ) (s : Node) (e : Event) : Prop :=
  (∀ d, e = .advance d → s.now + d - s.lastFrameRequest ≤ a) ∧
    ∀ time, e = .store time → s.now - time ≤ a

instance (a : ℚ) (s : Node) (e : Event) : Decidable ((viewer.restrict (Active a)).guard s e) :=
  match e with
  | .advance d => decidable_of_iff (0 ≤ d ∧ s.now + d - s.lastFrameRequest ≤ a) (by
      simp [viewer, GuardedMachine.restrict, guard, Active])
  | .store time => decidable_of_iff (time ∈ s.requests ∧ s.now - time ≤ a) (by
      simp [viewer, GuardedMachine.restrict, guard, Active])
  | .request | .fire _ | .test | .createSubscription | .destroySubscription | .assign =>
      decidable_of_iff (guard s _) (by
        simp only [viewer, GuardedMachine.restrict, Active]
        exact ⟨fun h => ⟨h, nofun, nofun⟩, fun h => h.1⟩)

/-- The request is recent, and the tick is not about to let go. -/
structure Holds (a : ℚ) (s : Node) : Prop where
  recent : s.now - s.lastFrameRequest ≤ a
  tick : s.tick ≠ .destroy ∧ s.tick ≠ .destroyed
  clock : ∀ now, s.tick = .clock now → now ≤ s.now

theorem Holds.step {a : ℚ} (ha : a < 5) {s : Node} {e : Event} (h : Holds a s) (hg : guard s e)
    (hactive : Active a s e) : Holds a (act s e) := by
  cases e with
  | advance d =>
      refine ⟨hactive.1 d rfl, h.tick, fun now hnow => (h.clock now hnow).trans ?_⟩
      exact le_add_of_nonneg_right hg
  | request => exact ⟨h.recent, h.tick, h.clock⟩
  | store time => exact ⟨hactive.2 time rfl, h.tick, h.clock⟩
  | fire due =>
      refine ⟨h.recent, ⟨nofun, nofun⟩, fun now hnow => ?_⟩
      cases hnow
      exact le_rfl
  | test =>
      obtain ⟨now, htick⟩ := Tick.reads_iff.mp hg
      have hnow := h.clock now htick
      have hrecent := h.recent
      rw [act_test htick]
      have hnext : decision now s.lastFrameRequest s.imageSub = .create ∨
          decision now s.lastFrameRequest s.imageSub = .idle := by
        rcases decision_cases now s.lastFrameRequest s.imageSub with hd | ⟨-, hold, -⟩ | hd
        · exact .inl hd.1
        · linarith
        · exact .inr hd.1
      refine ⟨h.recent, ?_, ?_⟩
      · rcases hnext with hd | hd <;> simp only [hd] <;> exact ⟨nofun, nofun⟩
      · rcases hnext with hd | hd <;> simp only [hd] <;> exact nofun
  | createSubscription => exact ⟨h.recent, ⟨nofun, nofun⟩, nofun⟩
  | destroySubscription => exact absurd hg h.tick.1
  | assign => exact ⟨h.recent, ⟨nofun, nofun⟩, nofun⟩

/-- The stream is taken, or about to be. -/
def Taken (s : Node) : Prop := s.imageSub = true ∨ s.tick = .create ∨ s.tick = .created

theorem Taken.step {a : ℚ} {s : Node} {e : Event} (h : Taken s) (hholds : Holds a s)
    (hg : guard s e) : Taken (act s e) := by
  cases e with
  | advance d => exact h
  | request => exact h
  | store time => exact h
  | fire due =>
      obtain ⟨hidle, -⟩ := hg
      rcases h with h | h | h
      · exact .inl h
      · rw [hidle] at h
        cases h
      · rw [hidle] at h
        cases h
  | test =>
      obtain ⟨now, htick⟩ := Tick.reads_iff.mp hg
      rw [act_test htick]
      rcases h with h | h | h
      · exact .inl h
      · rw [htick] at h
        cases h
      · rw [htick] at h
        cases h
  | createSubscription => exact .inr (.inr rfl)
  | destroySubscription => exact absurd hg hholds.tick.1
  | assign =>
      rcases hg with hg | hg
      · exact .inl (decide_eq_true hg)
      · exact absurd hg hholds.tick.2

/-- A test of a recent request leaves the stream taken. -/
theorem Holds.test {a : ℚ} (ha : a < 5) {s : Node} (h : Holds a s) (hg : guard s .test) :
    Taken (act s .test) := by
  obtain ⟨now, htick⟩ := Tick.reads_iff.mp hg
  have hnow := h.clock now htick
  have hrecent := h.recent
  rw [act_test htick]
  rcases decision_cases now s.lastFrameRequest s.imageSub with ⟨hd, -⟩ | ⟨-, hold, -⟩ | ⟨-, hwant⟩
  · exact .inr (.inl hd)
  · linarith
  · exact .inl (hwant.mp (by linarith))

/-- **Somebody looks**: while the latest request is at most `a` old, less than five seconds, the
stream is not let go, and after a whole tick it is there. -/
theorem viewer_kept {a : ℚ} (ha : a < 5) (hidle : s.tick = .idle)
    (hs : s.now - s.lastFrameRequest ≤ a) (h : (viewer.restrict (Active a)).Run s es t) :
    .destroySubscription ∉ es ∧
      (s.imageSub = true ∨ .test ∈ es → t.tick = .idle → t.imageSub = true) := by
  have hstart : Holds a s := by
    refine ⟨hs, ?_, fun now hnow => ?_⟩
    · rw [hidle]
      exact ⟨nofun, nofun⟩
    · rw [hidle] at hnow
      cases hnow
  have hholds : ∀ {es : List Event} {t : Node}, (viewer.restrict (Active a)).Run s es t →
      Holds a t := by
    intro es t h
    exact h.inv_restrict (Holds a) (fun s e hs hg hC => hs.step ha hg hC) hstart
  have htaken : ∀ {s : Node} {es : List Event}, Holds a s → Taken s →
      (viewer.restrict (Active a)).Run s es t → t.tick = .idle → t.imageSub = true := by
    intro s es hs htaken h hend
    have hboth : Holds a t ∧ Taken t := by
      refine h.inv_restrict (fun s => Holds a s ∧ Taken s) ?_ ⟨hs, htaken⟩
      rintro s e ⟨hs, htaken⟩ hg hC
      exact ⟨hs.step ha hg hC, htaken.step hs hg⟩
    rcases hboth.2 with ht | ht | ht
    · exact ht
    · rw [hend] at ht
      cases ht
    · rw [hend] at ht
      cases ht
  refine ⟨fun hmem => ?_, fun hearlier => ?_⟩
  · obtain ⟨es₁, es₂, rfl⟩ := List.append_of_mem hmem
    obtain ⟨u, hu, hg, -⟩ := h.visit
    exact (hholds hu).tick.1 hg.1
  · rcases hearlier with hsub | hmem
    · exact htaken hstart (.inl hsub) h
    · obtain ⟨es₁, es₂, rfl⟩ := List.append_of_mem hmem
      obtain ⟨u, hu, ⟨hg, hC⟩, hrest⟩ := h.visit
      have hu := hholds hu
      have hg : guard u .test := hg
      exact htaken (hu.step ha hg hC) (hu.test ha hg) hrest

/-- The browser asks again before each tick. -/
def watching : List Event :=
  [.fire 12, .test, .createSubscription, .assign, .request, .store 11, .advance 1, .fire 13, .test]

def waiting : Node := { now := 11, due := 11, lastFrameRequest := 10 }

theorem viewer_kept_watching : (watching.foldl act waiting).imageSub = true := by
  have h : (viewer.restrict (Active 2)).Run waiting watching (watching.foldl act waiting) :=
    .of_admits (by decide +kernel)
  exact (viewer_kept (by norm_num) rfl (by norm_num [waiting]) h).2 (.inr (by decide))
    (by decide +kernel)

end JetsonPerception.Console.Viewers
