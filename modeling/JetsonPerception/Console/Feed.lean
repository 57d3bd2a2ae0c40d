/-
# The stream from the console to its page

One page with one pump, and the server it polls: `_frame` with its wait loop, `get_frame`,
`_on_compressed`, and the page of `JetsonPerception.Console.Page`.  A request goes through the
points of `_frame` at which a frame may arrive or time may pass.

| point | code | events |
| :-- | :-- | :-- |
| `none` | the page's `fetch` on its way | `ask` |
| `waiting since` | `while node.current_seq() == since and ..` | `newer`, `deadline` |
| `leaving since` | `jpeg, seq = node.get_frame()` | `answer` |
| `answered seq`, `refused` | the response on its way | `deliver` |

The wait loop is left on either of two conditions and nothing after it asks which.  So an answer
repeats a frame exactly when the deadline passes without a new one, and the page counts what it
shows.  `counted` keeps the sequence numbers of what it counts.
-/
import JetsonPerception.Console.Page

namespace JetsonPerception.Console

/-- Where the page's request is. -/
inductive Request where
  | none
  | waiting (since : ℤ)
  | leaving (since : ℤ)
  | answered (seq : ℤ)
  | refused
  deriving DecidableEq

/-- The console's newest frame, the request and the page. -/
structure Feed where
  page : Page := Page.opened
  /-- `frame_jpeg` is not `None`. -/
  frameJpeg : Bool := false
  frameSeq : ℕ := 0
  request : Request := .none
  /-- The sequence numbers for which `frameTimes` was appended to. -/
  counted : List ℤ := []

/-- A load event of this page is a frame shown: the promise it resolves is not settled. -/
def Page.counts (s : Page) : Bool :=
  match s.handlers with
  | some id =>
      match s.pumps id with
      | .showing _ => true
      | _ => false
  | none => false

/-- The page appends to `frameTimes` exactly then. -/
theorem Page.load_frameTimes (s : Page) (now : ℚ) : (Page.act s (.load now)).frameTimes =
    if s.counts then Page.pushTime s.frameTimes now else s.frameTimes := by
  cases hh : s.handlers with
  | none => simp [Page.act, Page.counts, hh]
  | some id =>
      cases hp : s.pumps id <;> simp [Page.act, Page.onload, Page.counts, Page.loop, hh, hp]

namespace Feed

/-- The page's pump. -/
def pump (s : Feed) : Pump := s.page.pumps s.page.pumpId

inductive Event where
  | arrive
  | ask | newer | deadline | answer | deliver
  | page (e : Page.Event)
  deriving DecidableEq

/-- When an event may happen.  The page's events are its own ones, and going live waits until
the pump before has ended. -/
def guard (s : Feed) : Event → Prop
  | .arrive => True
  | .ask => s.request = .none ∧ s.pump.isFetching = true
  | .newer =>
      match s.request with
      | .waiting since => (s.frameSeq : ℤ) ≠ since
      | _ => False
  | .deadline =>
      match s.request with
      | .waiting _ => True
      | _ => False
  | .answer =>
      match s.request with
      | .leaving _ => True
      | _ => False
  | .deliver =>
      match s.request with
      | .answered _ | .refused => True
      | _ => False
  | .page e => Page.guard s.page e ∧
      match e with
      | .response _ _ | .httpError _ => False
      | .click => s.page.live = true ∨ s.pump = .ended
      | _ => True

/-- Where an event leads. -/
def act (s : Feed) : Event → Feed
  | .arrive => { s with frameJpeg := true, frameSeq := s.frameSeq + 1 }
  | .ask =>
      match s.pump with
      | .fetching since =>
          { s with request := if since ≥ 0 then .waiting since else .leaving since }
      | _ => s
  | .newer | .deadline =>
      match s.request with
      | .waiting since => { s with request := .leaving since }
      | _ => s
  | .answer =>
      { s with request := if s.frameJpeg then .answered s.frameSeq else .refused }
  | .deliver =>
      match s.request with
      | .answered seq =>
          { s with page := Page.act s.page (.response s.page.pumpId seq), request := .none }
      | .refused => { s with page := Page.act s.page (.httpError s.page.pumpId), request := .none }
      | _ => s
  | .page e =>
      { s with
        page := Page.act s.page e
        -- a handler whose client is gone answers nobody
        request := match e with
          | .fetchFails _ => .none
          | _ => s.request
        counted := match e with
          | .load _ => if s.page.counts then s.counted ++ [s.page.lastSeq] else s.counted
          | _ => s.counted }

/-- The page and its server. -/
def machine : GuardedMachine Feed Event := ⟨guard, act⟩

instance (s : Feed) (e : Event) : Decidable (machine.guard s e) := by
  show Decidable (guard s e)
  obtain ⟨page, frameJpeg, frameSeq, request, counted⟩ := s
  cases e with
  | page e =>
      refine @instDecidableAnd _ _ (inferInstanceAs (Decidable (Page.machine.guard page e))) ?_
      exact match e with
        | .response .. | .httpError _ => inferInstanceAs (Decidable False)
        | .click => inferInstanceAs (Decidable (_ ∨ _))
        | .fetchFails _ | .blobDone _ | .blobFails _ | .load _ | .error | .timer _ =>
            inferInstanceAs (Decidable True)
  | _ => cases request <;> dsimp only [guard] <;> infer_instance

/-! ## Every answer a new frame -/

/-- No request is answered with the frame it asked past, when that one has been counted. -/
def Fresh (s : Feed) (e : Event) : Prop :=
  ∀ since, e = .answer → s.request = .leaving since → since ∈ s.counted → (s.frameSeq : ℤ) ≠ since

/-- A frame has been received and not shown yet. -/
def hasFrame : Pump → Bool
  | .reading | .showing _ => true
  | _ => false

/-- The one pump, its request, and what has been counted. -/
structure Ordered (s : Feed) : Prop where
  alone : ∀ id, id ≠ s.page.pumpId → s.page.pumps id = .ended
  asks : ∀ since, s.pump = .fetching since → since = s.page.lastSeq
  behind : s.page.lastSeq ≤ s.frameSeq
  out : s.request ≠ .none → s.pump.isFetching = true
  since : ∀ since, s.request = .waiting since ∨ s.request = .leaving since →
    since = s.page.lastSeq
  newer : ∀ seq, s.request = .answered seq →
    s.page.lastSeq ≤ seq ∧ seq ≤ s.frameSeq ∧ ∀ q ∈ s.counted, q < seq
  increasing : s.counted.Pairwise (· < ·)
  below : ∀ q ∈ s.counted, q ≤ s.page.lastSeq
  ahead : hasFrame s.pump = true → ∀ q ∈ s.counted, q < s.page.lastSeq

variable {s t : Feed}

/-- A pump that is not fetching has no request out. -/
theorem Ordered.idle (h : Ordered s) (hpump : s.pump.isFetching = false) : s.request = .none := by
  by_contra hout
  rw [h.out hout] at hpump
  exact Bool.noConfusion hpump

/-- A pump that is doing something is the page's. -/
theorem Ordered.only (h : Ordered s) {id : ℕ} (hpump : s.page.pumps id ≠ .ended) :
    id = s.page.pumpId := by
  by_contra hid
  exact hpump (h.alone id hid)

/-- Past its fetch the page's pump has no request out. -/
theorem Ordered.busy (h : Ordered s) {id : ℕ} {phase : Pump} (hp : s.page.pumps id = phase)
    (hended : phase ≠ .ended) (hfetch : phase.isFetching = false) :
    id = s.page.pumpId ∧ s.request = .none := by
  subst hp
  obtain rfl := h.only hended
  exact ⟨rfl, h.idle hfetch⟩

/-- The pump goes on to something else, without a request and without a new frame. -/
theorem Ordered.move (h : Ordered s) (hid : t.page.pumpId = s.page.pumpId)
    (hlast : t.page.lastSeq = s.page.lastSeq) (hseq : t.frameSeq = s.frameSeq)
    (hcount : t.counted = s.counted) (hrequest : t.request = .none)
    (hpumps : ∀ id, id ≠ s.page.pumpId → t.page.pumps id = s.page.pumps id)
    (hasks : ∀ since, t.pump = .fetching since → since = s.page.lastSeq)
    (hframe : hasFrame t.pump = true → hasFrame s.pump = true) : Ordered t := by
  refine ⟨fun id hne => ?_, ?_, ?_, fun hout => absurd hrequest hout, ?_, ?_, ?_, ?_, ?_⟩
  · rw [hid] at hne
    rw [hpumps id hne]
    exact h.alone id hne
  · rw [hlast]
    exact hasks
  · rw [hlast, hseq]
    exact h.behind
  · rw [hrequest]
    rintro since (hr | hr) <;> cases hr
  · rw [hrequest]
    intro seq hr
    cases hr
  · rw [hcount]
    exact h.increasing
  · rw [hcount, hlast]
    exact h.below
  · rw [hcount, hlast]
    exact fun ht => h.ahead (hframe ht)

theorem Ordered.arrive (h : Ordered s) : Ordered (act s .arrive) := by
  refine ⟨h.alone, h.asks, ?_, h.out, h.since, fun seq hr => ?_, h.increasing, h.below, h.ahead⟩
  · show s.page.lastSeq ≤ ((s.frameSeq + 1 : ℕ) : ℤ)
    have := h.behind
    omega
  · obtain ⟨hlast, hle, hnew⟩ := h.newer seq hr
    refine ⟨hlast, ?_, hnew⟩
    show seq ≤ ((s.frameSeq + 1 : ℕ) : ℤ)
    omega

/-- The request moves on, without an answer. -/
theorem Ordered.request (h : Ordered s) {r : Request} (hout : s.pump.isFetching = true)
    (hsince : ∀ since, r = .waiting since ∨ r = .leaving since → since = s.page.lastSeq)
    (hanswer : ∀ seq, r = .answered seq →
      s.page.lastSeq ≤ seq ∧ seq ≤ s.frameSeq ∧ ∀ q ∈ s.counted, q < seq) :
    Ordered { s with request := r } :=
  ⟨h.alone, h.asks, h.behind, fun _ => hout, hsince, hanswer, h.increasing, h.below, h.ahead⟩

theorem Ordered.ask (h : Ordered s) (hg : guard s .ask) : Ordered (act s .ask) := by
  rw [act]
  split
  case h_1 since hpump =>
      have hlast := h.asks since hpump
      refine h.request hg.2 (fun since' hr => ?_) fun seq hr => ?_
      · split at hr
        · rcases hr with hr | hr <;> cases hr
          exact hlast
        · rcases hr with hr | hr <;> cases hr
          exact hlast
      · split at hr <;> cases hr
  case h_2 => exact h

/-- The wait loop is left on either condition. -/
theorem Ordered.leave (h : Ordered s) : Ordered (act s .newer) ∧ Ordered (act s .deadline) := by
  have hleave : Ordered (act s .newer) := by
    rw [act]
    split
    case h_1 since hr =>
        refine h.request (h.out (by rw [hr]; exact nofun)) (fun since' hr' => ?_) nofun
        rcases hr' with hr' | hr' <;> cases hr'
        exact h.since since (.inl hr)
    case h_2 => exact h
  exact ⟨hleave, hleave⟩

theorem Ordered.answer (h : Ordered s) (hg : guard s .answer) (hC : Fresh s .answer) :
    Ordered (act s .answer) := by
  cases hr : s.request with
  | leaving since =>
      have hlast := h.since since (.inr hr)
      have hbehind := h.behind
      have hnew : ∀ q ∈ s.counted, q < s.frameSeq := by
        intro q hq
        have hbelow := h.below q hq
        by_cases hcounted : since ∈ s.counted
        · have hne := hC since rfl hr hcounted
          omega
        · have hne : q ≠ since := ne_of_mem_of_not_mem hq hcounted
          omega
      refine h.request (h.out (by rw [hr]; exact nofun)) (fun since' hr' => ?_) fun seq hr' => ?_
      · split at hr' <;> rcases hr' with hr' | hr' <;> cases hr'
      · split at hr' <;> cases hr'
        exact ⟨hbehind, Int.le_refl _, hnew⟩
  | none | waiting | answered | refused => simp [guard, hr] at hg

/-- The pump waits for something of its own. -/
theorem Ordered.await (h : Ordered s) {phase : Pump} (hpage : t.page.pumpId = s.page.pumpId)
    (hlast : t.page.lastSeq = s.page.lastSeq) (hseq : t.frameSeq = s.frameSeq)
    (hcount : t.counted = s.counted) (hrequest : t.request = .none)
    (hpumps : t.page.pumps = (s.page.await s.page.pumpId phase).pumps)
    (hphase : phase.isFetching = false)
    (hframe : hasFrame phase = true → hasFrame s.pump = true) : Ordered t := by
  have hpump : t.pump = phase := by
    rw [pump, hpage, hpumps, Page.await_pumps, if_pos rfl]
  refine h.move hpage hlast hseq hcount hrequest (fun id hid => ?_) (fun since hp => ?_) ?_
  · rw [hpumps, Page.await_pumps, if_neg hid]
  · rw [← hpump, hp] at hphase
    exact Bool.noConfusion hphase
  · rw [hpump]
    exact hframe

theorem Ordered.deliver (h : Ordered s) : Ordered (act s .deliver) := by
  rw [act]
  split
  case h_1 seq hr =>
      obtain ⟨hlast, hle, hnew⟩ := h.newer seq hr
      have hread : (s.page.await s.page.pumpId .reading).pumps s.page.pumpId = .reading := by
        rw [Page.await_pumps, if_pos rfl]
      refine ⟨fun id hid => ?_, fun since hp => ?_, hle, nofun, ?_, ?_, h.increasing, ?_, ?_⟩
      · have hid : id ≠ s.page.pumpId := hid
        show (s.page.await s.page.pumpId .reading).pumps id = .ended
        rw [Page.await_pumps, if_neg hid]
        exact h.alone id hid
      · exact absurd (hread.symm.trans hp) nofun
      · rintro since (hr' | hr') <;> cases hr'
      · intro seq' hr'
        cases hr'
      · intro q hq
        show q ≤ seq
        have := h.below q hq
        omega
      · exact fun _ => hnew
  case h_2 hr => exact h.await rfl rfl rfl rfl rfl rfl rfl nofun
  case h_3 => exact h

/-- The head of the pump's loop. -/
theorem Ordered.loop (h : Ordered s) (hpage : t.page.pumpId = s.page.pumpId)
    (hlast : t.page.lastSeq = s.page.lastSeq) (hseq : t.frameSeq = s.frameSeq)
    (hcount : t.counted = s.counted) (hrequest : t.request = .none) {p : Page}
    (hp : p.lastSeq = s.page.lastSeq ∧ p.pumpId = s.page.pumpId ∧ p.pumps = s.page.pumps)
    (hpumps : t.page.pumps = (p.loop s.page.pumpId).pumps) : Ordered t := by
  obtain ⟨hpl, hpi, hpp⟩ := hp
  have hpump : t.pump = if p.live = true then .fetching s.page.lastSeq else .ended := by
    rw [pump, hpage, hpumps]
    simp [Page.loop, hpl, hpi]
  refine h.move hpage hlast hseq hcount hrequest (fun id hid => ?_) (fun since hs => ?_)
    fun hf => ?_
  · rw [hpumps, ← hpp]
    exact Function.update_of_ne hid _ _
  · rw [hpump] at hs
    split at hs <;> cases hs
    rfl
  · rw [hpump] at hf
    split at hf <;> exact Bool.noConfusion hf

/-- Stopping leaves the pump to its loop; going live starts the next one. -/
theorem Ordered.click (h : Ordered s) (hg : guard s (.page .click)) :
    Ordered (act s (.page .click)) := by
  cases hlive : s.page.live with
  | true =>
      have hpage : Page.act s.page .click = { s.page with live := false } := by
        simp [Page.act, Page.setLive, hlive]
      show Ordered { s with page := Page.act s.page .click }
      rw [hpage]
      exact ⟨h.alone, h.asks, h.behind, h.out, h.since, h.newer, h.increasing, h.below, h.ahead⟩
  | false =>
      have hended : s.pump = .ended := by
        rcases hg.2 with hl | hl
        · rw [hlive] at hl
          exact Bool.noConfusion hl
        · exact hl
      have hrequest : s.request = .none := h.idle (by rw [hended]; rfl)
      have hpage : Page.act s.page .click = s.page.setLive true := by
        simp [Page.act, hlive]
      have hpump : (s.page.setLive true).pumps (s.page.pumpId + 1) = .fetching s.page.lastSeq := by
        simp [Page.setLive, Page.loop]
      show Ordered { s with page := Page.act s.page .click }
      rw [hpage]
      refine ⟨fun id hid => ?_, fun since hs => ?_, h.behind, fun hout => absurd hrequest hout,
        h.since, h.newer, h.increasing, h.below, fun hf => ?_⟩
      · have hid : id ≠ s.page.pumpId + 1 := hid
        have hsame : (s.page.setLive true).pumps id = s.page.pumps id := by
          simp [Page.setLive, Page.loop, hid]
        show (s.page.setLive true).pumps id = .ended
        rw [hsame]
        by_cases hold : id = s.page.pumpId
        · rw [hold]
          exact hended
        · exact h.alone id hold
      · exact (Pump.fetching.inj (hpump.symm.trans hs)).symm
      · have hf : hasFrame ((s.page.setLive true).pumps (s.page.pumpId + 1)) = true := hf
        rw [hpump] at hf
        exact Bool.noConfusion hf

/-- The image is done with loading. -/
theorem Ordered.settled (h : Ordered s) :
    Ordered { s with page := { s.page with loading := false } } :=
  ⟨h.alone, h.asks, h.behind, h.out, h.since, h.newer, h.increasing, h.below, h.ahead⟩

/-- One more frame is counted. -/
theorem Ordered.count (h : Ordered s) (hidle : s.request = .none)
    (hnew : ∀ q ∈ s.counted, q < s.page.lastSeq) (hshown : hasFrame s.pump = false) :
    Ordered { s with counted := s.counted ++ [s.page.lastSeq] } := by
  refine ⟨h.alone, h.asks, h.behind, h.out, h.since, fun seq hr => ?_, ?_, fun q hq => ?_,
    fun hf => ?_⟩
  · exact absurd (hidle.symm.trans hr) nofun
  · refine List.pairwise_append.mpr ⟨h.increasing, List.pairwise_singleton _ _, ?_⟩
    intro q hq last hlast
    rw [List.mem_singleton.mp hlast]
    exact hnew q hq
  · rcases List.mem_append.mp hq with hq | hq
    · exact h.below q hq
    · exact Int.le_of_eq (List.mem_singleton.mp hq)
  · have hf : hasFrame s.pump = true := hf
    rw [hshown] at hf
    exact Bool.noConfusion hf

/-- A frame that is shown is counted above all that were. -/
theorem Ordered.load (h : Ordered s) (now : ℚ) : Ordered (act s (.page (.load now))) := by
  cases hcounts : s.page.counts with
  | false =>
      have hpage : Page.act s.page (.load now) = { s.page with loading := false } := by
        cases hh : s.page.handlers with
        | none => simp [Page.act, hh]
        | some id =>
            cases hp : s.page.pumps id <;> simp [Page.counts, hh, hp] at hcounts <;>
              simp [Page.act, Page.onload, hh, hp]
      have hact : act s (.page (.load now)) =
          { s with page := { s.page with loading := false } } := by
        simp [act, hpage, hcounts]
      rw [hact]
      exact h.settled
  | true =>
      obtain ⟨id, url, hh, hp⟩ : ∃ id url, s.page.handlers = some id ∧
          s.page.pumps id = .showing url := by
        cases hh : s.page.handlers with
        | none => simp [Page.counts, hh] at hcounts
        | some id => cases hp : s.page.pumps id <;> simp [Page.counts, hh, hp] at hcounts ⊢
      obtain ⟨rfl, hidle⟩ := h.busy hp (by simp) rfl
      have hpage : (Page.act s.page (.load now)) = Page.loop { s.page with
          loading := false
          revoked := s.page.revoked ++ s.page.prevUrl.toList
          prevUrl := some url
          frameTimes := Page.pushTime s.page.frameTimes now } s.page.pumpId := by
        simp [Page.act, Page.onload, hh, hp]
      have hloop : Ordered { s with page := Page.act s.page (.load now) } := by
        rw [hpage]
        exact h.loop rfl rfl rfl rfl hidle ⟨rfl, rfl, rfl⟩ rfl
      have hact : act s (.page (.load now)) =
          { s with
            page := Page.act s.page (.load now)
            counted := s.counted ++ [(Page.act s.page (.load now)).lastSeq] } := by
        rw [hpage]
        simp [act, hcounts, hpage, Page.loop]
      rw [hact]
      refine hloop.count hidle (fun q hq => ?_) ?_
      · show q < (Page.act s.page (.load now)).lastSeq
        rw [hpage]
        exact h.ahead (by rw [pump, hp]; rfl) q hq
      · show hasFrame ((Page.act s.page (.load now)).pumps (Page.act s.page (.load now)).pumpId) =
          false
        rw [hpage]
        simp only [Page.loop, Function.update_self]
        split <;> rfl

/-- A frame that is not shown is not counted. -/
theorem Ordered.error (h : Ordered s) : Ordered (act s (.page .error)) := by
  show Ordered { s with page := Page.act s.page .error }
  cases hh : s.page.handlers with
  | none =>
      have hpage : Page.act s.page .error = { s.page with loading := false } := by
        simp [Page.act, hh]
      rw [hpage]
      exact h.settled
  | some id =>
      by_cases hshow : ∃ url, s.page.pumps id = .showing url
      · obtain ⟨url, hp⟩ := hshow
        obtain ⟨rfl, hidle⟩ := h.busy hp (by simp) rfl
        have hpage : Page.act s.page .error =
            Page.await { s.page with loading := false } s.page.pumpId .pausing := by
          simp [Page.act, Page.onerror, hh, hp]
        rw [hpage]
        exact h.await rfl rfl rfl rfl hidle rfl rfl (by simp [hasFrame])
      · have hpage : Page.act s.page .error = { s.page with loading := false } := by
          cases hp : s.page.pumps id with
          | showing url => exact absurd ⟨url, hp⟩ hshow
          | fetching | reading | pausing | ended => simp [Page.act, Page.onerror, hh, hp]
        rw [hpage]
        exact h.settled

theorem Ordered.page (h : Ordered s) {e : Page.Event} (hg : guard s (.page e)) :
    Ordered (act s (.page e)) := by
  cases e with
  | click => exact h.click hg
  | response id seq => exact hg.2.elim
  | httpError id => exact hg.2.elim
  | fetchFails id =>
      have hfetch : (s.page.pumps id).isFetching = true := hg.1
      obtain rfl := h.only fun hended => by
        rw [hended] at hfetch
        exact Bool.noConfusion hfetch
      exact h.await rfl rfl rfl rfl rfl rfl rfl nofun
  | blobDone id =>
      have hread : s.page.pumps id = .reading := hg.1
      obtain ⟨rfl, hidle⟩ := h.busy hread (by simp) rfl
      exact h.await rfl rfl rfl rfl hidle rfl rfl fun _ => by rw [pump, hread]; rfl
  | blobFails id =>
      have hread : s.page.pumps id = .reading := hg.1
      obtain ⟨rfl, hidle⟩ := h.busy hread (by simp) rfl
      exact h.await rfl rfl rfl rfl hidle rfl rfl nofun
  | load now => exact h.load now
  | error => exact h.error
  | timer id =>
      have hpause : s.page.pumps id = .pausing := hg.1
      obtain ⟨rfl, hidle⟩ := h.busy hpause (by simp) rfl
      exact h.loop rfl rfl rfl rfl hidle ⟨rfl, rfl, rfl⟩ rfl

theorem Ordered.step (s : Feed) (e : Event) (h : Ordered s) (hg : guard s e) (hC : Fresh s e) :
    Ordered (act s e) := by
  cases e with
  | arrive => exact h.arrive
  | ask => exact h.ask hg
  | newer => exact h.leave.1
  | deadline => exact h.leave.2
  | answer => exact h.answer hg hC
  | deliver => exact h.deliver
  | page e => exact h.page hg

theorem Ordered.init : Ordered {} := by
  refine ⟨fun id hid => ?_, fun since hp => ?_, ?_, nofun, ?_, nofun, .nil, nofun, nofun⟩
  · have hid : id ≠ 1 := hid
    show Page.opened.pumps id = .ended
    simp [Page.opened, Page.setLive, Page.loop, hid]
  · have hpump : Pump.fetching (-1) = .fetching since := hp
    exact (Pump.fetching.inj hpump).symm
  · decide
  · rintro since (hr | hr) <;> cases hr

/-- **The page counts new frames only**, in every run whose answers are all new frames. -/
theorem counted_increasing {es : List Event} (h : (machine.restrict Fresh).Run {} es s) :
    s.counted.Pairwise (· < ·) :=
  (h.inv_restrict Ordered Ordered.step .init).increasing

/-- A frame arrives, is asked for, answered, delivered and shown. -/
def shown : List Event :=
  [.arrive, .ask, .answer, .deliver, .page (.blobDone 1), .page (.load 0)]

/-- A newer frame arrives, and ends the wait of the next request. -/
def shownNewer : List Event :=
  shown ++ [.arrive, .ask, .newer, .answer, .deliver, .page (.blobDone 1), .page (.load 1)]

theorem counted_increasing_shownNewer : (shownNewer.foldl act {}).counted = [1, 2] ∧
    (shownNewer.foldl act {}).counted.Pairwise (· < ·) := by
  have hfirst : ∀ since, since ∉ ([] : List ℤ) := fun since => List.not_mem_nil
  -- the second answer: frame 1 is counted and asked past, and frame 2 is there
  have hsecond : Fresh ((shown ++ [Event.arrive, .ask, .newer]).foldl act {}) .answer := by
    intro since _ hrequest _
    have hsince : Request.leaving 1 = .leaving since := hrequest
    obtain rfl := Request.leaving.inj hsince
    decide
  have hadmits : (machine.restrict Fresh).Admits {} shownNewer :=
    ⟨⟨by decide, nofun⟩, ⟨by decide, nofun⟩, ⟨by decide, fun _ _ _ h => absurd h (hfirst _)⟩,
      ⟨by decide, nofun⟩, ⟨by decide, nofun⟩, ⟨by decide, nofun⟩, ⟨by decide, nofun⟩,
      ⟨by decide, nofun⟩, ⟨by decide, nofun⟩, ⟨by decide, hsecond⟩, ⟨by decide, nofun⟩,
      ⟨by decide, nofun⟩, ⟨by decide, nofun⟩, trivial⟩
  exact ⟨by decide, counted_increasing (.of_admits hadmits)⟩

/-- The camera stops after that frame: the next request is held until its deadline, answered
with the frame again, and the frame is counted again. -/
def shownAgain : List Event :=
  shown ++ [.ask, .deadline, .answer, .deliver, .page (.blobDone 1), .page (.load 2)]

theorem counted_twice : ¬ ∀ es s, machine.Run {} es s → s.counted.Pairwise (· < ·) := by
  intro hall
  have h := hall shownAgain _ (.of_admits (by decide))
  exact absurd h (by decide)

end Feed

end JetsonPerception.Console
