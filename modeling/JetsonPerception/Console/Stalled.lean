/-
# A client that does not read its answers

The threads of `JetsonPerception.Console.Lock` on their sockets.  An answer goes into the buffers of
its connection, so a client that reads nothing stops nobody as long as there is room.  It may send
one request behind the other, though, and each leaves an answer there; whatever the room, the last
one finds too little and its write waits.

`do_GET` writes the answers of `/api/can` under the lock.  So one client of that path can have the
console wait for itself, with the lock and for as long as it likes (`Blocks`); without that path
nobody ever waits for a client with the lock (`console_responsive`).
-/
import JetsonPerception.Console.Lock
import JetsonPerception.Lib.Sockets

namespace JetsonPerception.Console.Lock

open Monitor Post

/-! ## The console on its sockets -/

/-- The bytes that a call writes; `head` is the length of what `send_response` puts before the
fields: the status line, `Server` and `Date`. -/
def Call.size (head : ℕ → ℕ) : Call → ℕ
  | .headers status fields =>
      head status + (fields.map fun f => f.1.length + f.2.length + 4).sum + 2
  | .body bytes => bytes.length
  | _ => 0

/-- Connections with that much room for what is not read. -/
def stream (head : ℕ → ℕ) (room : ℕ) : Wire Answer Call := ⟨Call.size head, Answer.ok, room⟩

def network (site : Site) (head : ℕ → ℕ) (room : ℕ) :
    GuardedMachine (Sockets State Answer Call) (SocketEvent Answer Job) :=
  Sockets.machine (stream head room) (job site)

instance (site : Site) (head : ℕ → ℕ) (room : ℕ) (s : Sockets State Answer Call)
    (x : SocketEvent Answer Job) : Decidable ((network site head room).guard s x) :=
  inferInstanceAs (Decidable ((Sockets.machine (stream head room) (job site)).guard s x))

/-- The client of thread `i` sends this request again and again and reads no answer; nobody else
begins anything. -/
def Pipelines (i : ℕ) (request : Job) (_ : Sockets State Answer Call) :
    SocketEvent Answer Job → Prop
  | .thread (.start j given) => j = i ∧ given = request
  | .thread (.client j a) => j = i ∧ a.ok = true
  | .thread _ => True
  | .take _ _ => False

variable {site : Site} {head : ℕ → ℕ} {room : ℕ} {s t : Sockets State Answer Call} {i : ℕ}

/-- With this request alone its client can have thread `i` wait to write, with the lock; and then
nobody else gets the lock until that client reads or breaks off. -/
def Blocks (site : Site) (head : ℕ → ℕ) (room : ℕ) (s : Sockets State Answer Call) (i : ℕ)
    (request : Job) : Prop :=
  ∃ xs t, ((network site head room).restrict (Pipelines i request)).Run s xs t ∧
    ∀ ys u, ((network site head room).restrict
      (Sockets.Ignores (stream head room) i)).Run t ys u → Sockets.Stalled (stream head room) u i

/-! ## One request behind the other -/

/-- The client gets there by these requests. -/
def Gets (site : Site) (head : ℕ → ℕ) (room : ℕ) (i : ℕ) (request : Job)
    (s t : Sockets State Answer Call) : Prop :=
  ∃ xs, ((network site head room).restrict (Pipelines i request)).Run s xs t

variable {request : Job} {u : Sockets State Answer Call}

theorem Gets.trans (h : Gets site head room i request s t)
    (h' : Gets site head room i request t u) : Gets site head room i request s u := by
  obtain ⟨xs, hxs⟩ := h
  obtain ⟨ys, hys⟩ := h'
  exact ⟨xs ++ ys, hxs.trans hys⟩

theorem Gets.step {x : SocketEvent Answer Job} (hg : (network site head room).guard s x)
    (hx : Pipelines i request s x) :
    Gets site head room i request s ((network site head room).act s x) :=
  ⟨[x], .single (M := (network site head room).restrict (Pipelines i request)) ⟨hg, hx⟩⟩

/-- Where a thread is, who has the lock, and what is in the thread's buffers. -/
structure At (s : Sockets State Answer Call) (i : ℕ) (p : Program) (holder : Option ℕ)
    (wrote taken : ℕ) : Prop where
  prog : s.threads.prog i = p
  holder : s.threads.holder = holder
  wrote : s.wrote i = wrote
  taken : s.taken i = taken

variable {p k : Program} {holder : Option ℕ} {wrote taken : ℕ}

theorem At.start (h : At s i .done holder wrote taken) :
    ∃ t, Gets site head room i request s t ∧ At t i (job site request) holder wrote taken :=
  ⟨_, .step (x := .thread (.start i request)) h.prog ⟨rfl, rfl⟩,
    s.threads.goto_self i _, h.holder, h.wrote, h.taken⟩

theorem At.acquire (h : At s i (.acquire k) none wrote taken) :
    ∃ t, Gets site head room i request s t ∧ At t i k (some i) wrote taken := by
  refine ⟨_, .step (x := .thread (.acquire i)) ⟨h.holder, k, h.prog⟩ trivial, ?_, ?_, h.wrote,
    h.taken⟩ <;> simp [network, Sockets.machine, Sockets.act, Monitor.act, h.prog]

theorem At.read {k : State → Program} (h : At s i (.read k) holder wrote taken) :
    ∃ t st, Gets site head room i request s t ∧ At t i (k st) holder wrote taken := by
  refine ⟨_, s.threads.shared, .step (x := .thread (.read i)) ⟨k, h.prog⟩ trivial, ?_, ?_,
    h.wrote, h.taken⟩
  · simp [network, Sockets.machine, Sockets.act, Monitor.act, h.prog]
  · simpa [network, Sockets.machine, Sockets.act, Monitor.act, Threads.goto, h.prog]
      using h.holder

theorem At.release (h : At s i (.release k) (some i) wrote taken) :
    ∃ t, Gets site head room i request s t ∧ At t i k none wrote taken := by
  refine ⟨_, .step (x := .thread (.release i)) ⟨h.holder, k, h.prog⟩ trivial, ?_, ?_, h.wrote,
    h.taken⟩ <;> simp [network, Sockets.machine, Sockets.act, Monitor.act, h.prog]

/-- A write waits, or goes into the buffers. -/
theorem At.write {call : Call} {k : Answer → Program}
    (h : At s i (.client call k) (some i) wrote taken) :
    Sockets.Stalled (stream head room) s i ∨
      wrote + call.size head ≤ taken + room ∧ ∃ t, Gets site head room i request s t ∧
        At t i (k {}) (some i) (wrote + call.size head) taken := by
  have hpending : s.pending (stream head room) i = call.size head := by
    rw [Sockets.pending, h.prog]
    rfl
  by_cases hfits : s.Fits (stream head room) i
  · have hroom := hfits
    rw [Sockets.Fits, hpending, h.wrote, h.taken] at hroom
    refine .inr ⟨hroom, _, .step (x := .thread (.client i {})) ⟨⟨call, k, h.prog⟩, fun _ => hfits⟩
      ⟨rfl, rfl⟩, ?_, ?_, ?_, ?_⟩
    · simp [network, Sockets.machine, Sockets.act, Monitor.act, h.prog]
    · simpa [network, Sockets.machine, Sockets.act, Monitor.act, Threads.goto, h.prog]
        using h.holder
    · show Function.update s.wrote i (s.wrote i + s.pending (stream head room) i) i = _
      rw [Function.update_self, hpending, h.wrote]
    · show Function.update s.taken i (s.taken i) i = taken
      rw [Function.update_self, h.taken]
  · exact .inl ⟨⟨⟨call, k, h.prog⟩, hfits⟩, h.holder⟩

variable {target : String} {polls : ℕ}

/-- One request for the CAN frames: it waits with the lock, or its answer takes up room. -/
theorem At.canGet (hpath : pathOf target = "/api/can") (h : At s i .done none wrote taken) :
    ∃ t, Gets site head room i (.doGet target polls) s t ∧
      (Sockets.Stalled (stream head room) t i ∨ ∃ more, wrote < more ∧ more ≤ taken + room ∧
        At t i .done none more taken) := by
  obtain ⟨s₁, hgets₁, h₁⟩ : ∃ t, Gets site head room i (.doGet target polls) s t ∧
      At t i (doGet site target polls) none wrote taken := h.start
  rw [doGet_can hpath] at h₁
  obtain ⟨s₂, hgets₂, h₂⟩ := h₁.acquire
  obtain ⟨s₃, st, hgets₃, h₃⟩ := h₂.read
  have hgets := (hgets₁.trans hgets₂).trans hgets₃
  rcases h₃.write with hstalled | ⟨-, s₄, hgets₄, h₄⟩
  · exact ⟨s₃, hgets, .inl hstalled⟩
  · rcases h₄.write with hstalled | ⟨hroom, s₅, hgets₅, h₅⟩
    · exact ⟨s₄, hgets.trans hgets₄, .inl hstalled⟩
    · obtain ⟨s₆, hgets₆, h₆⟩ := h₅.release
      refine ⟨s₆, ((hgets.trans hgets₄).trans hgets₅).trans hgets₆, .inr ⟨_, ?_, hroom, h₆⟩⟩
      -- the headers end with a line of their own
      simp only [Call.size]
      omega

/-- Request by request the room runs out. -/
theorem At.fills (hpath : pathOf target = "/api/can") (n : ℕ) :
    ∀ {s : Sockets State Answer Call} {wrote : ℕ}, At s i .done none wrote taken →
      taken + room < wrote + n → ∃ t, Gets site head room i (.doGet target polls) s t ∧
        Sockets.Stalled (stream head room) t i := by
  induction n with
  | zero =>
      intro s wrote h hroom
      obtain ⟨t, hgets, hstalled | ⟨more, hmore, hfits, -⟩⟩ := h.canGet hpath
      · exact ⟨t, hgets, hstalled⟩
      · omega
  | succ n ih =>
      intro s wrote h hroom
      obtain ⟨t, hgets, hstalled | ⟨more, hmore, -, ht⟩⟩ := h.canGet hpath
      · exact ⟨t, hgets, hstalled⟩
      · obtain ⟨u, hgets', hstalled⟩ := ih ht (by omega)
        exact ⟨u, hgets.trans hgets', hstalled⟩

/-- Whoever has the lock, it comes free first, and the idle thread is idle still. -/
theorem canGet_blocks (hs : Kept s.threads) (hidle : s.threads.prog i = .done)
    (hpath : pathOf target = "/api/can") (polls : ℕ) :
    Blocks site head room s i (.doGet target polls) := by
  have hi := hs i
  rw [hidle] at hi
  obtain ⟨v, halone, hfree, hsame⟩ := hs.lock_returns (job site)
  have hown : ∀ (s : Sockets State Answer Call) (e : Event Answer Job), Own s.threads e →
      Pipelines i (.doGet target polls) s (.thread e) := by
    intro s e he
    cases e with
    | start j given => exact he.elim
    | client j a => exact he.elim
    | _ => trivial
  obtain ⟨xs, hxs⟩ := Sockets.run_of_own (w := stream head room) hown halone
  have hat : At { s with threads := v } i .done none (s.wrote i) (s.taken i) :=
    ⟨(hsame i (of_decide_eq_false hi)).trans hidle, hfree, rfl, rfl⟩
  obtain ⟨t, ⟨ys, hys⟩, hstalled⟩ : ∃ t,
      Gets site head room i (.doGet target polls) { s with threads := v } t ∧
        Sockets.Stalled (stream head room) t i :=
    hat.fills hpath (s.taken i + room + 1) (by omega)
  exact ⟨xs ++ ys, t, GuardedMachine.Run.trans hxs hys, fun _ _ hrun => hstalled.stays hrun⟩

/-! ## Every run -/

/-- No request for `/api/can` is begun. -/
def NoCanGets : Sockets State Answer Call → SocketEvent Answer Job → Prop :=
  Sockets.OfThreads NoCanGet

variable {xs : List (SocketEvent Answer Job)}

/-- **No thread waits for a client with the lock**, and no client can stop the console, in every
run without a request for `/api/can`, whatever the clients read and whatever room there is for what
they do not; in every state of such a run, a client that reads nothing can do both with that
request alone. -/
theorem console_responsive
    (h : ((network site head room).restrict NoCanGets).Run { threads := start } xs s) :
    Responsive site s.threads ∧ ∀ i target polls, s.threads.prog i = .done →
      pathOf target = "/api/can" → Blocks site head room s i (.doGet target polls) := by
  obtain ⟨es, hes⟩ := Sockets.run_threads h
  refine ⟨responsive_of_run hes, fun i target polls hidle hpath => ?_⟩
  exact canGet_blocks (kept_of_run hes) hidle hpath polls

/-- A frame is asked for by a client that reads nothing of it, and while its thread waits to write,
a callback has the lock. -/
def unread : List (SocketEvent Answer Job) :=
  [.thread (.start 1 (.onCompressed [1, 2, 3] "jpeg")), .thread (.acquire 1),
    .thread (.ask 1 {}), .thread (.update 1), .thread (.release 1),
    .thread (.start 0 (.doGet "/frame.jpg" 0)), .thread (.ask 0 {}), .thread (.update 0),
    .thread (.acquire 0), .thread (.read 0), .thread (.release 0), .thread (.client 0 {}),
    .thread (.start 1 (.onRate 30)), .thread (.acquire 1)]

theorem console_responsive_unread :
    Responsive plainSite
      (unread.foldl (network plainSite (fun _ => 92) 182).act { threads := start }).threads := by
  have hadmits : (network plainSite (fun _ => 92) 182).Admits { threads := start } unread := by
    decide +kernel
  have hpath : pathOf "/frame.jpg" ≠ "/api/can" := by decide
  have hnone : ∀ s, ∀ x ∈ unread, NoCanGets s x := by
    intro s
    simp [unread, NoCanGets, Sockets.OfThreads, NoCanGet, hpath]
  exact (console_responsive ((GuardedMachine.Run.of_admits hadmits).restrict_of hnone)).1

/-- However much room there is, a client of the CAN frames that reads no answer has its thread wait
with the lock. -/
theorem canGet_waits : ¬ ∃ room, ∀ xs s,
    (network plainSite (fun _ => 92) room).Run { threads := start } xs s →
      ∀ i, Sockets.Full (stream (fun _ => 92) room) s i → s.threads.holder ≠ some i := by
  rintro ⟨room, hall⟩
  obtain ⟨xs, t, hrun, hblocked⟩ : Blocks plainSite (fun _ => 92) room { threads := start } 0
      (.doGet "/api/can" 0) := canGet_blocks (Kept.init _) rfl (by decide) 0
  have hstalled := hblocked [] t .refl
  exact hall xs t hrun.of_restrict 0 hstalled.full hstalled.holder

end JetsonPerception.Console.Lock
