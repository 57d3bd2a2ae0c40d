/-
# The reader of the bus

`can_reader` among all the other threads of the console.  Nobody else writes what the console says
of the bus, so at every point of a run that is what the reader has made of the answers to its
calls:

| | |
| :-- | :-- |
| the socket | is opened when none is, read while it is open, closed once; none is left at the end |
| `can_status` | says `listening` while frames are waited for, and why not while they are not |
| `can_frames`, `can_count` | are the frames received, each of them once, the newest first |

The page offers to send a frame when the status starts with `listening`.
-/
import JetsonPerception.Console.Status
import JetsonPerception.Lib.Owner

namespace JetsonPerception.Console.Lock

open Monitor Post

/-! ## What the reader has got -/

/-- Notes on the answers that the reader has got. -/
structure Line where
  opens : ℕ := 0
  closes : ℕ := 0
  /-- The text of the last error. -/
  why : String := ""
  /-- A frame that has no time yet. -/
  pending : Option CanEntry := none
  /-- The frames received, the newest first. -/
  entries : List (CanEntry × ℚ) := []

def Line.note (g : Line) : Seen State Answer Call → Line
  | .ask .canOpen a => if a.ok then { g with opens := g.opens + 1 } else { g with why := a.text }
  | .ask .canClose _ => { g with closes := g.closes + 1 }
  | .ask .canRecv a =>
      if a.ok then { g with pending := parseCanFrame a.bytes }
      else { g with pending := none, why := a.text }
  | .ask .monotonic a =>
      match g.pending with
      | some entry => { g with pending := none, entries := (entry, roundTo 3 a.now) :: g.entries }
      | none => g
  | _ => g

def Line.IsOpen (g : Line) : Prop := g.opens = g.closes + 1

def Line.IsClosed (g : Line) : Prop := g.opens = g.closes

def listening (site : Site) : String := "listening on " ++ site.canInterface

def waitingFor (site : Site) (why : String) : String :=
  "waiting for " ++ site.canInterface ++ " (" ++ why ++ ")"

def wentAway (site : Site) (why : String) : String :=
  site.canInterface ++ " went away (" ++ why ++ "); retrying"

/-- `s.can.status.startsWith('listening')`, by which the page enables its button. -/
def Up (status : String) : Prop := "listening".toList <+: status.toList

instance (status : String) : Decidable (Up status) :=
  inferInstanceAs (Decidable ("listening".toList <+: status.toList))

/-- The frames that the console keeps are the newest of those received. -/
def Heard (site : Site) (g : Line) (b : Bus) : Prop :=
  b.count = g.entries.length ∧ b.frames = g.entries.take site.canHistory

/-- The same, or all but a frame that has its time and waits for the lock. -/
def Near (site : Site) (g : Line) (b : Bus) : Prop :=
  ∃ n ≤ 1, Heard site { g with entries := g.entries.drop n } b

/-- What holds of the bus where the reader goes on with `p`. -/
structure Tuned (site : Site) (g : Line) (b : Bus) (p : Program) : Prop where
  opens : ∀ k, p = .ask .canOpen k → g.IsClosed
  recv : ∀ k, p = .ask .canRecv k → g.IsOpen ∧ b.status = listening site
  closes : ∀ k, p = .ask .canClose k → g.IsOpen
  waits : ∀ k, p = .ask .waitStop k → g.IsClosed ∧ b.status = waitingFor site g.why
  ends : p = .done → g.IsClosed
  up : ¬ Up site.canInterface → p ≠ .done → Up b.status → g.IsOpen
  heard : (p = .done ∨ ∃ call k, p = .ask call k) → Heard site g b
  near : Near site g b

def reader (site : Site) : Ownership State Answer Call Bus Line :=
  ⟨State.bus, Line.note, Tuned site⟩

/-! ## The three texts -/

variable {site : Site} {g : Line} {b : Bus}

theorem not_up_waitingFor (site : Site) (why : String) : ¬ Up (waitingFor site why) := by
  intro h
  simp [Up, waitingFor] at h

theorem not_up_wentAway (h : ¬ Up site.canInterface) (why : String) :
    ¬ Up (wentAway site why) := by
  intro hup
  have htext : (wentAway site why).toList =
      site.canInterface.toList ++ (' ' :: ("went away (" ++ why ++ "); retrying").toList) := by
    simp [wentAway]
  rw [Up, htext] at hup
  rcases List.prefix_or_prefix_of_prefix hup (List.prefix_append _ _) with hname | ⟨rest, hrest⟩
  · exact h hname
  · rw [← hrest, List.prefix_append_right_inj] at hup
    cases rest with
    | nil =>
        rw [List.append_nil] at hrest
        refine absurd (?_ : Up site.canInterface) h
        rw [Up, hrest]
    | cons c rest =>
        -- the name ends in the middle of the word, and there is no blank in it
        obtain rfl : c = ' ' := (List.cons_prefix_cons.mp hup).1
        have hmem : ' ' ∈ "listening".toList := by
          rw [← hrest]
          simp
        exact absurd hmem (by decide)

/-! ## Step by step -/

theorem take_behind {α : Type} (front back : List α) {n m : ℕ} (h : n ≤ m) :
    (front ++ back.take m).take n = (front ++ back).take n := by
  rw [List.take_append, List.take_append, List.take_take]
  congr 2
  omega

/-- Where the loops of `can_reader` begin a turn, the inner one if it is listening. -/
structure Turning (site : Site) (on : Bool) (g : Line) (b : Bus) : Prop where
  socket : g.opens = g.closes + if on then 1 else 0
  status : on = true → b.status = listening site
  up : ¬ Up site.canInterface → Up b.status → on = true
  heard : Heard site g b

theorem Heard.near (h : Heard site g b) : Near site g b := ⟨0, Nat.zero_le 1, h⟩

theorem Turning.isOpen (h : Turning site true g b) : g.IsOpen := h.socket

theorem Turning.isClosed (h : Turning site false g b) : g.IsClosed := h.socket

theorem Turning.isOpen_of_up {on : Bool} (h : Turning site on g b) (hname : ¬ Up site.canInterface)
    (hup : Up b.status) : g.IsOpen := by
  obtain rfl := h.up hname hup
  exact h.isOpen

/-- A call that the rules for sockets do not name. -/
theorem tuned_ask {call : Call} {k : Answer → Program}
    (hcall : call ≠ .canOpen ∧ call ≠ .canRecv ∧ call ≠ .canClose ∧ call ≠ .waitStop)
    (hup : ¬ Up site.canInterface → Up b.status → g.IsOpen) (hheard : Heard site g b) :
    Tuned site g b (.ask call k) where
  opens k' h := by
    cases h
    exact absurd rfl hcall.1
  recv k' h := by
    cases h
    exact absurd rfl hcall.2.1
  closes k' h := by
    cases h
    exact absurd rfl hcall.2.2.1
  waits k' h := by
    cases h
    exact absurd rfl hcall.2.2.2
  ends h := by cases h
  up hname _ := hup hname
  heard _ := hheard
  near := hheard.near

/-- A step that is not a call. -/
theorem tuned_step {p : Program} (hp : p ≠ .done ∧ ∀ call k, p ≠ .ask call k)
    (hup : ¬ Up site.canInterface → Up b.status → g.IsOpen) (hnear : Near site g b) :
    Tuned site g b p where
  opens k h := absurd h (hp.2 _ k)
  recv k h := absurd h (hp.2 _ k)
  closes k h := absurd h (hp.2 _ k)
  waits k h := absurd h (hp.2 _ k)
  ends h := absurd h hp.1
  up hname _ := hup hname
  heard h := by
    rcases h with h | ⟨call, k, h⟩
    · exact absurd h hp.1
    · exact absurd h (hp.2 call k)
  near := hnear

theorem setCanStatus_owns {text : String} {k : Program}
    (hold : ¬ Up site.canInterface → Up b.status → g.IsOpen)
    (hnew : ¬ Up site.canInterface → Up text → g.IsOpen) (hheard : Heard site g b)
    (hk : k.Owns (reader site) g { b with status := text }) :
    (setCanStatus text k).Owns (reader site) g b := by
  have hnear := hheard.near
  refine ⟨tuned_step ⟨nofun, nofun⟩ hold hnear, tuned_step ⟨nofun, nofun⟩ hold hnear,
    { b with status := text }, ?_, ?_⟩
  · rintro st rfl
    rfl
  · exact ⟨tuned_step ⟨nofun, nofun⟩ hnew hnear, hk⟩

/-- `close`, after an error that the status already tells. -/
theorem close_owns {k : Program} (hopen : g.IsOpen)
    (hup : ¬ Up site.canInterface → ¬ Up b.status) (hheard : Heard site g b)
    (hk : k.Owns (reader site) { g with closes := g.closes + 1 } b) :
    (Prog.ask .canClose fun _ => k).Owns (reader site) g b := by
  refine ⟨⟨nofun, nofun, fun _ _ => hopen, nofun, nofun, ?_, fun _ => hheard, hheard.near⟩,
    fun _ => hk⟩
  exact fun hname _ h => absurd h (hup hname)

/-- `stop_event.wait`, with no socket. -/
theorem wait_owns {k : Program} (hclosed : g.IsClosed) (hstatus : b.status = waitingFor site g.why)
    (hheard : Heard site g b) (hk : k.Owns (reader site) g b) :
    (Prog.ask .waitStop fun _ => k).Owns (reader site) g b := by
  refine ⟨⟨nofun, nofun, nofun, fun _ _ => ⟨hclosed, hstatus⟩, nofun, ?_, fun _ => hheard,
    hheard.near⟩, fun _ => hk⟩
  intro _ _ hup
  rw [hstatus] at hup
  exact absurd hup (not_up_waitingFor site g.why)

/-- A frame is put before the others. -/
theorem entry_owns {k : Program} {entry : CanEntry × ℚ} {entries : List (CanEntry × ℚ)}
    (h : Turning site true { g with entries := entries } b)
    (hk : ∀ b', Turning site true { g with entries := entry :: entries } b' →
      k.Owns (reader site) { g with entries := entry :: entries } b') :
    (Prog.acquire (.update (fun st : State => { st with
        canFrames := (entry :: st.canFrames).take site.canHistory
        canCount := st.canCount + 1 }) (.release k))).Owns (reader site)
      { g with entries := entry :: entries } b := by
  have hopen : ({ g with entries := entry :: entries } : Line).IsOpen := h.isOpen
  have hbehind : Near site { g with entries := entry :: entries } b := ⟨1, le_rfl, h.heard⟩
  have hnext : Heard site { g with entries := entry :: entries }
      ⟨b.status, b.count + 1, (entry :: b.frames).take site.canHistory⟩ := by
    refine ⟨congrArg (· + 1) h.heard.1, ?_⟩
    show (entry :: b.frames).take site.canHistory = (entry :: entries).take site.canHistory
    rw [h.heard.2]
    exact take_behind [entry] entries le_rfl
  have hstep : ∀ {p : Program} {b' : Bus}, (p ≠ .done ∧ ∀ call k, p ≠ .ask call k) →
      Near site { g with entries := entry :: entries } b' →
      Tuned site { g with entries := entry :: entries } b' p :=
    fun hp hnear => tuned_step hp (fun _ _ => hopen) hnear
  refine ⟨hstep ⟨nofun, nofun⟩ hbehind, hstep ⟨nofun, nofun⟩ hbehind, _, ?_,
    hstep ⟨nofun, nofun⟩ hnext.near, hk _ ⟨h.socket, h.status, fun _ _ => rfl, hnext⟩⟩
  rintro st rfl
  rfl

/-- A notes entry that no rule looks at. -/
theorem Turning.of_same {on : Bool} {g' : Line} (h : Turning site on g b)
    (hopens : g'.opens = g.opens) (hcloses : g'.closes = g.closes)
    (hentries : g'.entries = g.entries) : Turning site on g' b := by
  refine ⟨?_, h.status, h.up, ?_⟩
  · rw [hopens, hcloses]
    exact h.socket
  · rw [Heard, hentries]
    exact h.heard

/-- The inner loop, after `recv`. -/
theorem received_owns {turns : ℕ} (h : Turning site true g b)
    (ih : ∀ {on : Bool} {g : Line} {b : Bus}, Turning site on g b →
      (canReader site on turns).Owns (reader site) g b) (a : Answer) :
    (if a.ok then
      match parseCanFrame a.bytes with
      | none => canReader site true turns
      | some entry => monotonic fun now =>
          .acquire <|
          .update (fun st => { st with
            canFrames := ((entry, roundTo 3 now) :: st.canFrames).take site.canHistory
            canCount := st.canCount + 1 }) <|
          .release <| canReader site true turns
    else if a.timeout then canReader site true turns
    else
      setCanStatus (wentAway site a.text) <|
      .ask .canClose fun _ => canReader site false turns : Program).Owns (reader site)
      (g.note (.ask .canRecv a)) b := by
  refine Prog.Owns.ite (fun hok => ?_) fun hbad => Prog.Owns.ite (fun _ => ?_) fun _ => ?_
  · have hnote : g.note (.ask .canRecv a) = { g with pending := parseCanFrame a.bytes } := by
      simp [Line.note, hok]
    rw [hnote]
    cases parseCanFrame a.bytes with
    | none => exact ih (h.of_same rfl rfl rfl)
    | some entry =>
        refine ⟨tuned_ask (by simp) (fun _ _ => h.isOpen) h.heard, fun a' => ?_⟩
        exact entry_owns (g := { g with pending := none }) (h.of_same rfl rfl rfl) fun _ h' => ih h'
  · refine ih (h.of_same ?_ ?_ ?_) <;> simp [Line.note, hbad]
  · have hnote : g.note (.ask .canRecv a) = { g with pending := none, why := a.text } := by
      simp [Line.note, hbad]
    rw [hnote]
    have hgone : ¬ Up site.canInterface → ¬ Up (wentAway site a.text) :=
      fun hname => not_up_wentAway hname a.text
    refine setCanStatus_owns (fun _ _ => h.isOpen) (fun _ _ => h.isOpen) h.heard ?_
    refine close_owns h.isOpen hgone h.heard (ih ⟨?_, nofun, ?_, h.heard⟩)
    · exact h.isOpen
    · exact fun hname hup => absurd hup (hgone hname)

/-- The outer loop, after `socket` and `bind`. -/
theorem opened_owns {turns : ℕ} (h : Turning site false g b)
    (ih : ∀ {on : Bool} {g : Line} {b : Bus}, Turning site on g b →
      (canReader site on turns).Owns (reader site) g b) (a : Answer) :
    (if a.ok then setCanStatus (listening site) <| canReader site true turns
    else
      setCanStatus (waitingFor site a.text) <|
      .ask .waitStop fun _ => canReader site false turns : Program).Owns (reader site)
      (g.note (.ask .canOpen a)) b := by
  have hold : ¬ Up site.canInterface → ¬ Up b.status := by
    intro hname hup
    exact Bool.noConfusion (h.up hname hup)
  refine Prog.Owns.ite (fun hok => ?_) fun hbad => ?_
  · have hnote : g.note (.ask .canOpen a) = { g with opens := g.opens + 1 } := by
      simp [Line.note, hok]
    rw [hnote]
    have hopen : ({ g with opens := g.opens + 1 } : Line).IsOpen :=
      congrArg (· + 1) h.isClosed
    refine setCanStatus_owns (fun hname hup => absurd hup (hold hname)) (fun _ _ => hopen)
      h.heard ?_
    exact ih ⟨hopen, fun _ => rfl, fun _ _ => rfl, h.heard⟩
  · have hnote : g.note (.ask .canOpen a) = { g with why := a.text } := by
      simp [Line.note, hbad]
    rw [hnote]
    have hwait : ¬ Up (waitingFor site a.text) := not_up_waitingFor site a.text
    refine setCanStatus_owns (fun hname hup => absurd hup (hold hname))
      (fun _ hup => absurd hup hwait) h.heard ?_
    refine wait_owns h.isClosed rfl h.heard (ih ⟨h.isClosed, nofun, ?_, h.heard⟩)
    exact fun _ hup => absurd hup hwait

/-- **What the reader does**, turn by turn. -/
theorem canReader_owns (turns : ℕ) : ∀ {on : Bool} {g : Line} {b : Bus}, Turning site on g b →
    (canReader site on turns).Owns (reader site) g b := by
  have hend : ∀ {g : Line} {b : Bus}, g.IsClosed → Heard site g b →
      (Prog.done : Program).Owns (reader site) g b := by
    intro g b hclosed hheard
    exact ⟨nofun, nofun, nofun, nofun, fun _ => hclosed, fun _ h => absurd rfl h,
      fun _ => hheard, hheard.near⟩
  induction turns with
  | zero =>
      intro on g b h
      refine ⟨tuned_ask (by simp) h.isOpen_of_up h.heard, fun _ => ?_⟩
      cases on with
      | false => exact hend h.isClosed h.heard
      | true =>
          have hopen := h.isOpen
          refine ⟨⟨nofun, nofun, fun _ _ => hopen, nofun, nofun, fun _ _ _ => hopen,
            fun _ => h.heard, h.heard.near⟩, fun _ => hend hopen h.heard⟩
  | succ turns ih =>
      intro on g b h
      refine ⟨tuned_ask (by simp) h.isOpen_of_up h.heard, fun _ => ?_⟩
      cases on with
      | true =>
          have hopen := h.isOpen
          refine ⟨⟨nofun, fun _ _ => ⟨hopen, h.status rfl⟩, nofun, nofun, nofun,
            fun _ _ _ => hopen, fun _ => h.heard, h.heard.near⟩, fun a => ?_⟩
          exact received_owns h ih a
      | false =>
          refine ⟨⟨fun _ _ => h.isClosed, nofun, nofun, nofun, nofun,
            fun hname _ => h.isOpen_of_up hname, fun _ => h.heard, h.heard.near⟩, fun a => ?_⟩
          exact opened_owns h ih a

/-! ## In every run -/

variable {target : String} {polls turns i r : ℕ} {es es' : List (Event Answer Job)}
  {t : Threads State Answer Call}

/-- What the reader has got, thread `r`'s first job. -/
def line (site : Site) (r turns : ℕ) (es : List (Event Answer Job)) : Line :=
  (heard site [] r (.canReader turns) es).foldl Line.note {}

/-- No other reader is started: `__init__` starts the one. -/
def NoReader (es : List (Event Answer Job)) : Prop :=
  ∀ e ∈ es, ∀ i j, e = .start i j → j.isReader = false

theorem leaves_of_notReader {j : Job} (hj : j.isReader = false) :
    (job site j).Honours (leaves State.bus) false := by
  have hnote : ∀ (g : Desk) (x : Seen State Answer Call), (g.note x).reader = g.reader := by
    intro g x
    cases x with
    | read st => rfl
    | ask call a => cases call <;> rfl
    | client call a => cases call <;> rfl
  have hallows : ∀ (g : Desk) (d : Doing State Call), (desk site j.getTarget j.isGet).allows g d →
      (leaves State.bus : Contract State Answer Call Bool).allows g.reader d := by
    intro g d h
    cases hg : g.reader with
    | true => cases d <;> trivial
    | false =>
        cases d with
        | update f => exact h.2 hg
        | _ => trivial
  have hleaves : (job site j).Honours (leaves State.bus) j.opening.reader :=
    (job_honours j).weaken Desk.reader (fun g x => (hnote g x).symm) hallows
  have hopening : j.opening.reader = false := hj
  rwa [hopening] at hleaves

theorem tuned_of_working (h : Working site [] r (.canReader turns) es t) (hone : NoReader es) :
    Tuned site (line site r turns es) t.shared.bus (t.prog r) := by
  obtain ⟨-, hrun, hprog⟩ := h.begin
  have hleaving : ∀ s, ∀ e ∈ es, Leaving State.bus (job site) r s e := by
    rintro s e he j k rfl
    refine ⟨?_, leaves_of_notReader (hone _ he j k rfl)⟩
    rintro rfl
    exact h.busy k he
  have hrun : ((machine (job site)).restrict (Leaving State.bus (job site) r)).Run
      (begun site [] r (.canReader turns)) es t := hrun.restrict_of hleaving
  have hfirst : Turning site false {} (State.bus {}) := by
    refine ⟨rfl, nofun, fun _ hup => ?_, rfl, List.take_nil.symm⟩
    exact absurd hup (by decide : ¬ Up "not started")
  have hbegin : Owned (reader site) r {} (begun site [] r (.canReader turns)) := by
    refine ⟨?_, fun j hj => ?_⟩
    · rw [hprog]
      exact canReader_owns turns hfirst
    · have hidle : (begun site [] r (.canReader turns)).prog j = .done := start.goto_of_ne _ hj
      rw [hidle]
      exact trivial
  exact (Run.owned hrun hbegin).owner.holds

/-- **The reader of the bus**, in every state of every run: its socket, and what the console says
of the bus and keeps of its frames. -/
theorem bus_reader (h : Working site [] r (.canReader turns) es t) (hone : NoReader es) :
    Tuned site (line site r turns es) t.shared.bus (t.prog r) :=
  tuned_of_working h hone

/-- A frame of one byte, under an identifier. -/
def canBytes (byte : UInt8) : List UInt8 := [byte, 1, 0, 0, 1, 0, 0, 0, byte, 0, 0, 0, 0, 0, 0, 0]

/-- The reader begins to listen. -/
def attach (r : ℕ) : List (Event Answer Job) :=
  [.ask r {}, .ask r {}, .acquire r, .update r, .release r]

/-- It receives a frame and keeps it. -/
def receive (r : ℕ) (byte : UInt8) : List (Event Answer Job) :=
  [.ask r {}, .ask r { bytes := canBytes byte }, .ask r {}, .acquire r, .update r, .release r]

def receiving : List (Event Answer Job) := attach 0 ++ receive 0 1

theorem receiving_working : Working plainSite [] 0 (.canReader 2) receiving
    ((.start 0 (.canReader 2) :: receiving).foldl (console plainSite).act start) where
  run := .of_admits (by decide +kernel)
  busy := by simp [receiving, attach, receive]

theorem bus_reader_receiving : (line plainSite 0 2 receiving).entries.length = 1 ∧
    Near plainSite (line plainSite 0 2 receiving)
      ((.start 0 (.canReader 2) :: receiving).foldl (console plainSite).act start).shared.bus := by
  have hone : NoReader receiving := by simp [NoReader, receiving, attach, receive]
  exact ⟨by decide +kernel, (bus_reader receiving_working hone).near⟩

/-! ## What the clients are told of it -/

/-- A request, in a run that began with the reader. -/
structure Beside (site : Site) (r turns : ℕ) (es : List (Event Answer Job)) (i : ℕ) (j : Job)
    (es' : List (Event Answer Job)) (t : Threads State Answer Call) : Prop where
  working : Working site (.start r (.canReader turns) :: es) i j es' t
  one : NoReader (es ++ .start i j :: es')
  busy : ∀ k, .start r k ∉ es ++ .start i j :: es'

/-- The reader has come to its end: the stop event was set. -/
def Ended (site : Site) (r turns : ℕ) (es : List (Event Answer Job)) : Prop :=
  ((Event.start r (.canReader turns) :: es).foldl (act (job site)) start).prog r = .done

/-- What holds of the bus at a moment of a request. -/
theorem Beside.tuned {j : Job} (h : Beside site r turns es i j es' t) {st : State}
    (hst : During site (.start r (.canReader turns) :: es) i j es' st) :
    ∃ now p, now <+: es' ∧ Tuned site (line site r turns (es ++ .start i j :: now)) st.bus p ∧
      (p = .done → Ended site r turns (es ++ .start i j :: now)) := by
  obtain ⟨now, ⟨later, rfl⟩, rfl⟩ := hst
  have hsub : ∀ {e}, e ∈ es ++ Event.start i j :: now → e ∈ es ++ .start i j :: (now ++ later) := by
    intro e he
    rw [← List.cons_append, ← List.append_assoc]
    exact List.mem_append_left _ he
  have hrun := h.working.run
  rw [← List.cons_append, ← List.append_assoc] at hrun
  obtain ⟨u, hu, -⟩ := hrun.split
  have hworking : Working site [] r (.canReader turns) (es ++ .start i j :: now) u :=
    ⟨hu, fun k hk => h.busy k (hsub hk)⟩
  have hone : NoReader (es ++ .start i j :: now) := fun e he => h.one e (hsub he)
  have htuned := tuned_of_working hworking hone
  have hfold := hu.eq_foldl
  refine ⟨now, u.prog r, List.prefix_append _ _, ?_, fun hdone => ?_⟩
  · rw [hfold] at htuned ⊢
    exact htuned
  · rw [hfold] at hdone
    exact hdone

/-- **The page's table of frames** shows what the reader has received up to some moment of the
request, the newest first, or all of that but the very last frame. -/
theorem traffic_received (h : Beside site r turns es i (.doGet target polls) es' t)
    (hpath : pathOf target = "/api/can") {code : ℕ} {fields : List (String × String)}
    {body : List UInt8}
    (hwire : wire (heard site (.start r (.canReader turns) :: es) i (.doGet target polls) es') =
      [.headers code fields, .body body]) :
    ∃ now n, now <+: es' ∧ n ≤ 1 ∧ body = site.dumpsCan
      (((line site r turns (es ++ .start i (.doGet target polls) :: now)).entries.drop n).take
        (min 80 site.canHistory)) := by
  obtain ⟨reads, hreads, htells⟩ := h.working.tells hwire
  obtain ⟨st, hst, hbody⟩ := htells.can hpath
  obtain ⟨now, p, hnow, htuned, -⟩ := h.tuned (hreads st hst)
  obtain ⟨n, hn, -, hframes⟩ := htuned.near
  have hframes : st.canFrames = _ := hframes
  refine ⟨now, n, hnow, hn, ?_⟩
  rw [hbody, hframes, List.take_take]

/-! ### Two answers -/

/-- What has been received is not forgotten. -/
theorem note_entries (g : Line) (x : Seen State Answer Call) :
    g.entries <:+ (g.note x).entries := by
  cases x with
  | read st | client call a => exact List.suffix_rfl
  | ask call a =>
      cases call with
      | canOpen | canRecv =>
          simp only [Line.note]
          split <;> exact List.suffix_rfl
      | monotonic =>
          simp only [Line.note]
          split
          · exact List.suffix_cons _ _
          · exact List.suffix_rfl
      | _ => exact List.suffix_rfl

theorem foldl_entries (tr : List (Seen State Answer Call)) : ∀ g : Line,
    g.entries <:+ (tr.foldl Line.note g).entries := by
  induction tr with
  | nil => exact fun g => List.suffix_rfl
  | cons x tr ih => exact fun g => (note_entries g x).trans (ih _)

theorem line_entries {now later : List (Event Answer Job)} (h : now <+: later) :
    (line site r turns now).entries <:+ (line site r turns later).entries := by
  obtain ⟨rest, rfl⟩ := h
  rw [line, line, heard, heard, transcript_append, List.foldl_append]
  exact foldl_entries ..

/-- The count does not go back. -/
theorem count_respects : Respects (changes site) fun st st' => st.canCount ≤ st'.canCount where
  refl st := le_rfl
  trans st st' st'' h h' := h.trans h'
  update g f hf st := by
    have hc : Change site st (f st) := hf st
    generalize f st = st' at hc
    cases hc <;> simp

variable {es₁ es₁' es₂ es₂' : List (Event Answer Job)} {t₁ t₂ : Threads State Answer Call}
  {i₁ i₂ : ℕ}

/-- **One answer about the CAN bus continues another**: what a later request is given is what an
earlier one was given, behind the frames that the reader has received in between, as many as the
count says, and cut off at 80. -/
theorem can_polls {target₁ target₂ : String} {polls₁ polls₂ : ℕ}
    (h₁ : Beside site r turns es₁ i₁ (.doGet target₁ polls₁) es₁' t₁)
    (h₂ : Beside site r turns es₂ i₂ (.doGet target₂ polls₂) es₂' t₂)
    (hlater : es₁ ++ .start i₁ (.doGet target₁ polls₁) :: es₁' <+: es₂)
    (hpath₁ : pathOf target₁ = "/api/can") (hpath₂ : pathOf target₂ = "/api/can")
    {code₁ code₂ : ℕ} {fields₁ fields₂ : List (String × String)} {body₁ body₂ : List UInt8}
    (hwire₁ : wire (heard site (.start r (.canReader turns) :: es₁) i₁ (.doGet target₁ polls₁)
      es₁') = [.headers code₁ fields₁, .body body₁])
    (hwire₂ : wire (heard site (.start r (.canReader turns) :: es₂) i₂ (.doGet target₂ polls₂)
      es₂') = [.headers code₂ fields₂, .body body₂]) :
    ∃ st₁ st₂ now₁ now₂ n₁ n₂ newer older,
      During site (.start r (.canReader turns) :: es₁) i₁ (.doGet target₁ polls₁) es₁' st₁ ∧
      During site (.start r (.canReader turns) :: es₂) i₂ (.doGet target₂ polls₂) es₂' st₂ ∧
      st₂.canCount = st₁.canCount + newer.length ∧
      now₁ <+: es₁' ∧ now₂ <+: es₂' ∧ n₁ ≤ 1 ∧ n₂ ≤ 1 ∧
      older =
        (line site r turns (es₁ ++ .start i₁ (.doGet target₁ polls₁) :: now₁)).entries.drop n₁ ∧
      newer ++ older =
        (line site r turns (es₂ ++ .start i₂ (.doGet target₂ polls₂) :: now₂)).entries.drop n₂ ∧
      body₁ = site.dumpsCan (older.take (min 80 site.canHistory)) ∧
      body₂ = site.dumpsCan
        ((newer ++ older.take (min 80 site.canHistory)).take (min 80 site.canHistory)) := by
  obtain ⟨reads₁, hreads₁, htells₁⟩ := h₁.working.tells hwire₁
  obtain ⟨reads₂, hreads₂, htells₂⟩ := h₂.working.tells hwire₂
  obtain ⟨st₁, hst₁, hbody₁⟩ := htells₁.can hpath₁
  obtain ⟨st₂, hst₂, hbody₂⟩ := htells₂.can hpath₂
  have hduring₁ := hreads₁ st₁ hst₁
  have hduring₂ := hreads₂ st₂ hst₂
  obtain ⟨now₁, p₁, hnow₁, htuned₁, -⟩ := h₁.tuned hduring₁
  obtain ⟨now₂, p₂, hnow₂, htuned₂, -⟩ := h₂.tuned hduring₂
  obtain ⟨n₁, hn₁, hcount₁, hframes₁⟩ := htuned₁.near
  obtain ⟨n₂, hn₂, hcount₂, hframes₂⟩ := htuned₂.near
  generalize helder₁ : (line site r turns (es₁ ++ _ :: now₁)).entries = entries₁ at *
  generalize helder₂ : (line site r turns (es₂ ++ _ :: now₂)).entries = entries₂ at *
  have hcount₁ : st₁.canCount = (entries₁.drop n₁).length := hcount₁
  have hcount₂ : st₂.canCount = (entries₂.drop n₂).length := hcount₂
  have hframes₁ : st₁.canFrames = (entries₁.drop n₁).take site.canHistory := hframes₁
  have hframes₂ : st₂.canFrames = (entries₂.drop n₂).take site.canHistory := hframes₂
  -- what was received by then is the end of what was received later
  have hentries : entries₁ <:+ entries₂ := by
    rw [← helder₁, ← helder₂]
    refine line_entries ((List.IsPrefix.trans ?_ hlater).trans (List.prefix_append _ _))
    obtain ⟨rest, rfl⟩ := hnow₁
    exact ⟨rest, by simp⟩
  have hle : st₁.canCount ≤ st₂.canCount := by
    refine during_later count_respects h₂.working ?_ hduring₁ hduring₂
    obtain ⟨rest, rfl⟩ := hlater
    exact ⟨rest, by simp⟩
  obtain ⟨newer, hnewer⟩ : entries₁.drop n₁ <:+ entries₂.drop n₂ := by
    refine List.suffix_of_suffix_length_le ((List.drop_suffix _ _).trans hentries)
      (List.drop_suffix _ _) ?_
    rw [← hcount₁, ← hcount₂]
    exact hle
  refine ⟨st₁, st₂, now₁, now₂, n₁, n₂, newer, entries₁.drop n₁, hduring₁, hduring₂, ?_, hnow₁,
    hnow₂, hn₁, hn₂, by rw [helder₁], by rw [helder₂, hnewer], ?_, ?_⟩
  · rw [hcount₂, hcount₁, ← hnewer, List.length_append]
    omega
  · rw [hbody₁, hframes₁, List.take_take]
  · rw [hbody₂, hframes₂, ← hnewer, List.take_take, take_behind _ _ le_rfl]

/-! ### The button -/

/-- **The page offers to send** only if at some moment of the request for the status it goes by
the reader had its socket open, or had come to its end; unless the interface is called that. -/
theorem send_offered (h : Beside site r turns es i (.doGet target polls) es' t)
    (hname : ¬ Up site.canInterface) (hpath : pathOf target = "/api/status") {code : ℕ}
    {fields : List (String × String)} {body : List UInt8}
    (hwire : wire (heard site (.start r (.canReader turns) :: es) i (.doGet target polls) es') =
      [.headers code fields, .body body]) :
    ∃ p, body = site.dumpsStatus p ∧
      Depicts site (heard site (.start r (.canReader turns) :: es) i (.doGet target polls) es') p ∧
      ∃ now n, now <+: es' ∧ n ≤ 1 ∧
      p.canCount =
        (line site r turns (es ++ .start i (.doGet target polls) :: now)).entries.length - n ∧
      (Up p.canStatus →
        (line site r turns (es ++ .start i (.doGet target polls) :: now)).IsOpen ∨
          Ended site r turns (es ++ .start i (.doGet target polls) :: now)) := by
  obtain ⟨p, hbody, hp⟩ := h.working.depicts hpath hwire
  obtain ⟨st, hst, hshows⟩ := hp.shows
  obtain ⟨now, prog, hnow, htuned, hended⟩ := h.tuned (heard_during hst)
  obtain ⟨n, hn, hlen, -⟩ := htuned.near
  have hlen : st.canCount = _ := hlen
  refine ⟨p, hbody, hp, now, n, hnow, hn, ?_, fun hup => ?_⟩
  · rw [hshows.canCount, hlen]
    exact List.length_drop
  · by_cases hdone : prog = .done
    · exact .inr (hended hdone)
    · rw [hshows.canStatus] at hup
      exact .inl (htuned.up hname hdone hup)

/-! ### Runs with a reader -/

/-- The reader has its thread, and nobody else is one. -/
def Others (r : ℕ) (es : List (Event Answer Job)) : Prop :=
  ∀ i j, .start i j ∈ es → i ≠ r ∧ j.isReader = false

theorem beside_of_others {j : Job} (hes : Others r (es ++ .start i j :: es'))
    (hbusy : ∀ j', .start i j' ∉ es') (hrun : (console site).Run start
      (.start r (.canReader turns) :: es ++ .start i j :: es') t) :
    Beside site r turns es i j es' t where
  working := ⟨hrun, hbusy⟩
  one := by
    rintro e he k j' rfl
    exact (hes k j' he).2
  busy k he := (hes r _ he).1 rfl

/-- The reader has received a frame. -/
def attached : List (Event Answer Job) := attach 1 ++ receive 1 1

/-- A client has asked for the frames, and then another one has come. -/
def polledOnce : List (Event Answer Job) :=
  attached ++ .start 0 (.doGet "/api/can" 0) :: askCan ++ receive 1 2

theorem attached_beside : Beside plainSite 1 5 attached 0 (.doGet "/api/can" 0) askCan
    ((.start 1 (.canReader 5) :: attached ++ .start 0 (.doGet "/api/can" 0) :: askCan).foldl
      (console plainSite).act start) := by
  refine beside_of_others ?_ (by simp [askCan]) (.of_admits (by decide +kernel))
  simp [Others, attached, attach, receive, askCan, Job.isReader]

theorem polledOnce_beside : Beside plainSite 1 5 polledOnce 0 (.doGet "/api/can" 0) askCan
    ((.start 1 (.canReader 5) :: polledOnce ++ .start 0 (.doGet "/api/can" 0) :: askCan).foldl
      (console plainSite).act start) := by
  refine beside_of_others ?_ (by simp [askCan]) (.of_admits (by decide +kernel))
  simp [Others, polledOnce, attached, attach, receive, askCan, Job.isReader]

/-- One frame, and the newer one before it. -/
def toldOne : List UInt8 := ascii "10101".toList

def toldTwo : List UInt8 := ascii "1020210101".toList

theorem attached_wire : wire (heard plainSite (.start 1 (.canReader 5) :: attached) 0
    (.doGet "/api/can" 0) askCan) =
      [.headers 200 (contentFields "application/json" toldOne), .body toldOne] := by
  decide +kernel

theorem polledOnce_wire : wire (heard plainSite (.start 1 (.canReader 5) :: polledOnce) 0
    (.doGet "/api/can" 0) askCan) =
      [.headers 200 (contentFields "application/json" toldTwo), .body toldTwo] := by
  decide +kernel

theorem traffic_received_polledOnce : ∃ now n, now <+: askCan ∧ n ≤ 1 ∧
    toldTwo = plainSite.dumpsCan (((line plainSite 1 5 (polledOnce ++
      .start 0 (.doGet "/api/can" 0) :: now)).entries.drop n).take (min 80 200)) :=
  traffic_received polledOnce_beside (by decide) polledOnce_wire

theorem can_polls_polledOnce : ∃ newer older : List (CanEntry × ℚ),
    toldOne = plainSite.dumpsCan (older.take (min 80 200)) ∧
      toldTwo = plainSite.dumpsCan ((newer ++ older.take (min 80 200)).take (min 80 200)) := by
  have hpath : pathOf "/api/can" = "/api/can" := by decide
  have hlater : attached ++ .start 0 (.doGet "/api/can" 0) :: askCan <+: polledOnce :=
    List.prefix_append _ _
  obtain ⟨-, -, -, -, -, -, newer, older, -, -, -, -, -, -, -, -, -, hone, htwo⟩ :=
    can_polls attached_beside polledOnce_beside hlater hpath hpath attached_wire polledOnce_wire
  exact ⟨newer, older, hone, htwo⟩

/-- A request for the status, while the reader waits for the next frame. -/
def askStatus : List (Event Answer Job) :=
  [.acquire 0, .read 0, .release 0, .acquire 0, .read 0, .release 0, .ask 0 {}, .read 0,
    .acquire 0, .read 0, .release 0, .ask 0 {}, .ask 0 {}, .ask 0 {}, .ask 0 {}, .ask 0 {},
    .client 0 {}, .client 0 {}]

theorem askStatus_beside : Beside plainSite 1 5 attached 0 (.doGet "/api/status" 0) askStatus
    ((.start 1 (.canReader 5) :: attached ++ .start 0 (.doGet "/api/status" 0) ::
      askStatus).foldl (console plainSite).act start) := by
  refine beside_of_others ?_ (by simp [askStatus]) (.of_admits (by decide +kernel))
  simp [Others, attached, attach, receive, askStatus, Job.isReader]

/-- A count of one, and that the reader is listening. -/
def toldListening : List UInt8 := 1 :: ascii "listening on can0".toList

theorem send_offered_askStatus : ∃ p, toldListening = plainSite.dumpsStatus p ∧
    ∃ now n, now <+: askStatus ∧ n ≤ 1 ∧
      p.canCount = (line plainSite 1 5 (attached ++
        .start 0 (.doGet "/api/status" 0) :: now)).entries.length - n ∧
      (Up p.canStatus →
        (line plainSite 1 5 (attached ++ .start 0 (.doGet "/api/status" 0) :: now)).IsOpen ∨
          Ended plainSite 1 5 (attached ++ .start 0 (.doGet "/api/status" 0) :: now)) := by
  have hwire : wire (heard plainSite (.start 1 (.canReader 5) :: attached) 0
      (.doGet "/api/status" 0) askStatus) =
      [.headers 200 (contentFields "application/json" toldListening), .body toldListening] := by
    decide +kernel
  obtain ⟨p, hbody, -, hrest⟩ :=
    send_offered askStatus_beside (by decide) (by decide) hwire
  exact ⟨p, hbody, hrest⟩

end JetsonPerception.Console.Lock
