/-
# The warm-up discard

`frames_seen` is a local of the whole loop: it counts inside the test that reads it, stalls pass
it by, and only a rebuild that succeeds sets it back.  Read off the events of a run instead, each
pipeline has its own numbers: the samples it delivered count from 0, and what became of each is in
its `Served`.

Number by number the two agree (`Tells`), in the middle of a warm-up as much as after it, so what a
pipeline hands to `publish()` is what its numbers say (`warmup_discard`).
-/
import JetsonPerception.Camera.Capture

namespace JetsonPerception.Camera

open GuardedMachine

/-! ## Numbering the samples -/

/-- The samples of one pipeline: how many were received, how many of them the thread has decided
about, and the numbers of those handed to `publish()` and of those announced. -/
structure Served where
  received : ℕ := 0
  decided : ℕ := 0
  handed : List ℕ := []
  announced : List ℕ := []
  deriving DecidableEq

/-- The pipeline in use, and those before it, the latest first. -/
structure History where
  current : Served := {}
  earlier : List Served := []
  deriving DecidableEq

/-- A sample has come. -/
def Served.receive (p : Served) : Served := { p with received := p.received + 1 }

/-- The last sample is dropped. -/
def Served.discard (p : Served) : Served := { p with decided := p.decided + 1 }

/-- The last sample is handed to `publish()`. -/
def Served.hand (p : Served) (announce : Bool) : Served where
  received := p.received
  decided := p.decided + 1
  handed := p.handed ++ [p.received - 1]
  announced := if announce then p.announced ++ [p.received - 1] else p.announced

def History.add (g : History) : Event → History
  | .constructed _ => {}
  | .rebuilt _ => { current := {}, earlier := g.current :: g.earlier }
  | .sample => { g with current := g.current.receive }
  | .discard => { g with current := g.current.discard }
  | .publish announce => { g with current := g.current.hand announce }
  | _ => g

/-- The pipelines of a run from construction on. -/
def history (es : List Event) : History := es.foldl History.add {}

variable {P : Params} {es : List Event} {s : Node}

/-- Of the samples decided about, those from the `warmup_frames`th on were handed on, and the
first of these was announced. -/
structure Served.Right (P : Params) (p : Served) : Prop where
  handed : p.handed = (List.range p.decided).filter fun n : ℕ => max 0 P.warmupFrames ≤ (n : ℤ)
  announced : p.announced = p.handed.take 1

/-- Everything received has been decided about, but for a sample that the thread is looking at, or
was looking at when the process was killed. -/
structure WarmedUp (P : Params) (g : History) (s : Node) : Prop where
  right : ∀ p ∈ g.current :: g.earlier, p.Right P
  earlier : ∀ p ∈ g.earlier, p.received = p.decided
  current : g.current.received = g.current.decided ∨
    g.current.received = g.current.decided + 1 ∧ (s.pc = .sampled ∨ s.main = .killed)

/-! ## What one sample does -/

theorem Served.Right.fresh : Served.Right P {} := ⟨rfl, rfl⟩

theorem Served.Right.receive {p : Served} (h : p.Right P) : p.receive.Right P :=
  ⟨h.handed, h.announced⟩

theorem Served.Right.discard {p : Served} (h : p.Right P) (hlt : (p.decided : ℤ) < P.warmupFrames) :
    p.discard.Right P := by
  refine ⟨?_, h.announced⟩
  have hnot : ¬ max 0 P.warmupFrames ≤ (p.decided : ℤ) := by omega
  show p.handed = (List.range (p.decided + 1)).filter _
  rw [List.range_succ, List.filter_append, ← h.handed]
  simp only [List.filter_cons, List.filter_nil, decide_eq_true_eq, hnot, if_false, List.append_nil]

theorem Served.Right.hand {p : Served} (h : p.Right P) (hreceived : p.received = p.decided + 1)
    (hge : ¬ (p.decided : ℤ) < P.warmupFrames) :
    (p.hand (decide (p.handed = []))).Right P := by
  have hnumber : p.received - 1 = p.decided := by omega
  have hle : max 0 P.warmupFrames ≤ (p.decided : ℤ) := by omega
  constructor
  case handed =>
      show p.handed ++ [p.received - 1] = (List.range (p.decided + 1)).filter _
      rw [List.range_succ, List.filter_append, ← h.handed, hnumber]
      simp only [List.filter_cons, List.filter_nil, decide_eq_true_eq, hle, if_true]
  case announced =>
      show (if decide (p.handed = []) then p.announced ++ [p.received - 1] else p.announced) =
        (p.handed ++ [p.received - 1]).take 1
      rw [h.announced]
      cases hh : p.handed with
      | nil => simp
      | cons n ns => simp

/-! ## Along a run -/

/-- What the counter and the flag of the loop say of the pipeline in use. -/
def Tells (p : Served) (l : Locals) : Pc → Prop
  | .unborn => l.framesSeen = 0 ∧ l.announced = false ∧ p = {}
  | .loopHead | .pull | .afterPull | .eosQuery | .budget =>
      l.framesSeen = p.decided ∧ l.announced = !decide (p.handed = []) ∧ p.received = p.decided
  | .sampled =>
      l.framesSeen = p.decided ∧ l.announced = !decide (p.handed = []) ∧
      p.received = p.decided + 1
  | .backoff | .napping | .beforeStart | .starting | .afterLoop | .condemned | .ending =>
      p.received = p.decided
  | .exited => True

/-- The history of a run is right, and the loop's variables tell it. -/
structure Numbered (P : Params) (g : History) (s : Node) : Prop where
  warmed : WarmedUp P g s
  tells : Tells g.current s.loc s.pc
  born : s.main = .constructing → s.pc = .unborn
  killed : s.main = .killed → s.pc = .exited

variable {g : History} {t : Node} {e : Event}

/-- A step of the capture thread of a node that is neither being made nor killed. -/
theorem Numbered.next {g' : History} (h : Numbered P g s) (hborn : s.pc ≠ .unborn)
    (hexited : s.pc ≠ .exited) (hmain : t.main = s.main) (hwarmed : WarmedUp P g' t)
    (htells : Tells g'.current t.loc t.pc) : Numbered P g' t := by
  refine ⟨hwarmed, htells, ?_, ?_⟩
  · intro hm
    exact absurd (h.born (hmain.symm.trans hm)) hborn
  · intro hm
    exact absurd (h.killed (hmain.symm.trans hm)) hexited

/-- Such a step that neither receives nor decides about a sample. -/
theorem Numbered.move (h : Numbered P g s) (hborn : s.pc ≠ .unborn) (hexited : s.pc ≠ .exited)
    (hmain : t.main = s.main) (hall : g.current.received = g.current.decided)
    (htells : Tells g.current t.loc t.pc) : Numbered P g t :=
  h.next hborn hexited hmain ⟨h.warmed.right, h.warmed.earlier, .inl hall⟩ htells

/-- A step of another thread, or of the world, that leaves the process alive. -/
theorem Numbered.aside (h : Numbered P g s) (hpc : t.pc = s.pc) (hloc : t.loc = s.loc)
    (hmain : t.main = s.main ∨ t.main ≠ .constructing ∧ t.main ≠ .killed ∧ s.main ≠ .killed) :
    Numbered P g t := by
  obtain ⟨⟨hright, hearlier, hcurrent⟩, htells, hborn, hkilled⟩ := h
  refine ⟨⟨hright, hearlier, ?_⟩, ?_, fun hm => ?_, fun hm => ?_⟩
  · rcases hcurrent with hall | ⟨hone, hwhere⟩
    · exact .inl hall
    · refine .inr ⟨hone, ?_⟩
      rw [hpc]
      rcases hmain with hm | ⟨-, -, hm⟩
      · rw [hm]
        exact hwhere
      · exact .inl (hwhere.resolve_right hm)
  · rw [hpc, hloc]
    exact htells
  · rw [hpc]
    rcases hmain with hm' | ⟨hm', -, -⟩
    · exact hborn (hm'.symm.trans hm)
    · exact absurd hm hm'
  · rw [hpc]
    rcases hmain with hm' | ⟨-, hm', -⟩
    · exact hkilled (hm'.symm.trans hm)
    · exact absurd hm hm'

/-- The pipeline in use goes on. -/
theorem WarmedUp.replace {p : Served} (h : WarmedUp P g s) (t : Node) (hp : p.Right P)
    (hcurrent : p.received = p.decided ∨
      p.received = p.decided + 1 ∧ (t.pc = .sampled ∨ t.main = .killed)) :
    WarmedUp P { g with current := p } t := by
  refine ⟨?_, h.earlier, hcurrent⟩
  intro q hq
  rcases List.mem_cons.mp hq with rfl | hq
  · exact hp
  · exact h.right q (List.mem_cons_of_mem _ hq)

/-- The next pipeline takes its place. -/
theorem WarmedUp.renew (h : WarmedUp P g s) (hall : g.current.received = g.current.decided) :
    WarmedUp P { current := {}, earlier := g.current :: g.earlier } t := by
  refine ⟨?_, ?_, .inl rfl⟩
  · intro p hp
    rcases List.mem_cons.mp hp with rfl | hp
    · exact .fresh
    · exact h.right p hp
  · intro p hp
    rcases List.mem_cons.mp hp with rfl | hp
    · exact hall
    · exact h.earlier p hp

/-- No sample has come from any pipeline. -/
theorem WarmedUp.init : WarmedUp P {} t := by
  refine ⟨?_, ?_, .inl rfl⟩
  · intro p hp
    obtain rfl := List.mem_singleton.mp hp
    exact .fresh
  · intro p hp
    exact absurd hp List.not_mem_nil

theorem Numbered.step (g : History) (s : Node) (e : Event) (h : Numbered P g s)
    (hg : guard P s e) : Numbered P (g.add e) (act P s e) := by
  have htells := h.tells
  have hright := h.warmed.right g.current List.mem_cons_self
  cases e <;> simp only [guard] at hg
  case constructed r =>
      rw [h.born hg.1] at htells
      obtain ⟨hseen, hann, -⟩ := htells
      exact ⟨.init, ⟨hseen, hann, rfl⟩, by simp [act], by simp [act]⟩
  case constructorThrew r =>
      exact h.aside rfl rfl (.inr ⟨by simp [act], by simp [act], by rw [hg.1]; simp⟩)
  case enter | carryOn | stall | wedged =>
      rw [hg.1] at htells
      exact h.move (by simp [hg.1]) (by simp [hg.1]) rfl htells.2.2 htells
  case empty | ended =>
      rw [hg] at htells
      exact h.move (by simp [hg]) (by simp [hg]) rfl htells.2.2 htells
  case leave | interrupted | exhausted | retry =>
      rw [hg.1] at htells
      exact h.move (by simp [hg.1]) (by simp [hg.1]) rfl htells.2.2 htells.2.2
  case nap | rested | abort | tryStart | rebuildFailed r | condemn =>
      rw [hg.1] at htells
      exact h.move (by simp [hg.1]) (by simp [hg.1]) rfl htells htells
  case sleep | declare =>
      rw [hg] at htells
      exact h.move (by simp [hg]) (by simp [hg]) rfl htells htells
  case quit =>
      rw [hg.1] at htells
      exact h.move (by simp [hg.1]) (by simp [hg.1]) rfl htells trivial
  case shutdown =>
      rw [hg] at htells
      exact h.move (by simp [hg]) (by simp [hg]) rfl htells trivial
  case sample =>
      rw [hg] at htells
      obtain ⟨hseen, hann, hall⟩ := htells
      have hone : g.current.receive.received = g.current.receive.decided + 1 :=
        congrArg (· + 1) hall
      have hwarmed := h.warmed.replace (act P s .sample) hright.receive (.inr ⟨hone, .inl rfl⟩)
      exact h.next (by simp [hg]) (by simp [hg]) rfl hwarmed ⟨hseen, hann, hone⟩
  case discard =>
      rw [hg.1] at htells
      obtain ⟨hseen, hann, hone⟩ := htells
      have hlt : (g.current.decided : ℤ) < P.warmupFrames := hseen ▸ hg.2
      have hseen' : s.loc.framesSeen + 1 = ((g.current.decided + 1 : ℕ) : ℤ) := by
        rw [hseen]
        rfl
      have hwarmed := h.warmed.replace (act P s .discard) (hright.discard hlt) (.inl hone)
      exact h.next (by simp [hg.1]) (by simp [hg.1]) rfl hwarmed ⟨hseen', hann, hone⟩
  case publish announce =>
      obtain ⟨hpc, hge, rfl⟩ := hg
      rw [hpc] at htells
      obtain ⟨hseen, hann, hone⟩ := htells
      have hge : ¬ (g.current.decided : ℤ) < P.warmupFrames := hseen ▸ hge
      have hhand : (g.current.hand (!s.loc.announced)).Right P := by
        rw [hann, Bool.not_not]
        exact hright.hand hone hge
      have hseen' : s.loc.framesSeen + 1 = ((g.current.decided + 1 : ℕ) : ℤ) := by
        rw [hseen]
        rfl
      have hwarmed := h.warmed.replace (act P s (.publish !s.loc.announced)) hhand (.inl hone)
      exact h.next (by simp [hpc]) (by simp [hpc]) rfl hwarmed
        ⟨hseen', by simp [act, Served.hand, History.add], hone⟩
  case rebuilt r =>
      rw [hg.1] at htells
      exact h.next (by simp [hg.1]) (by simp [hg.1]) rfl (h.warmed.renew htells) ⟨rfl, rfl, rfl⟩
  case signal => exact h.aside rfl rfl (.inl rfl)
  case spinReturns => exact h.aside rfl rfl (.inr (by simp [act, hg.1]))
  case spinThrows | readFlag | stop => exact h.aside rfl rfl (.inr (by simp [act, hg]))
  case joined => exact h.aside rfl rfl (.inr (by simp [act, hg.1]))
  case deadline =>
      -- the process may be killed with a sample in hand
      refine ⟨⟨h.warmed.right, h.warmed.earlier, ?_⟩, trivial, by simp [act], fun _ => rfl⟩
      rcases h.warmed.current with hall | ⟨hone, -⟩
      · exact .inl hall
      · exact .inr ⟨hone, .inr rfl⟩

/-- **The warm-up discard is made on every pipeline**, and nothing but a new pipeline restarts
it. -/
theorem warmup_discard (h : (camera P).Run {} es s) : WarmedUp P (history es) s := by
  have hinit : Numbered P {} {} := ⟨.init, ⟨rfl, rfl, rfl⟩, fun _ => rfl, by simp⟩
  exact (h.tally History.add (Numbered P) Numbered.step hinit).warmed

/-- A stream that ends in the middle of its warm-up of two frames, and four samples of the next. -/
def interruptedWarmup : List Event :=
  [.constructed {}, .enter, .sample, .discard, .enter, .empty, .carryOn, .ended, .retry, .nap,
   .sleep, .nap, .sleep, .rested, .tryStart, .rebuilt {}, .enter, .sample, .discard, .enter,
   .sample, .discard, .enter, .sample, .publish true, .enter, .sample, .publish false]

theorem warmup_discard_interrupted : WarmedUp { warmupFrames := 2 } (history interruptedWarmup)
    (interruptedWarmup.foldl (act { warmupFrames := 2 }) {}) := by
  have hadmits : (camera { warmupFrames := 2 }).Admits {} interruptedWarmup := by decide
  exact warmup_discard (.of_admits hadmits)

/-- The second pipeline handed on its samples 2 and 3. -/
example : (history interruptedWarmup).current.handed = [2, 3] := by decide

end JetsonPerception.Camera
