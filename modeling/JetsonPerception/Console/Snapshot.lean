/-
# The snapshots of the console

`snapshot()`, called by any number of HTTP threads while frames arrive, as one guarded machine at
the granularity of the lock-protected read and of the system calls.

| phase | code | events |
| :-- | :-- | :-- |
| `capturing` | `self.get_frame()`, locked; `jpeg is None` | `noFrame`, `capture` |
| `naming` | `time.strftime("%Y%m%d_%H%M%S")` | `name` |
| `opening` | `open(path, "wb")` | `openFailed`, `open` |
| `writing` | `fh.write(jpeg)`, its close, `return path, None` | `write`, `failed`, `done` |

The name has the resolution of a second, and the file is opened for overwriting: what it held is
gone at once, whatever becomes of the new bytes.  So a snapshot lasts as long as nobody takes
another under its name (`snapshots_kept`), and a second one within the second does away with it
(`snapshot_lost`).
-/
import JetsonPerception.Console.Post
import JetsonPerception.Lib.Machine
import Mathlib.Logic.Function.Basic

namespace JetsonPerception.Console

/-! ## Files -/

/-- `write` at an offset.  A gap that was never written reads as zeros. -/
def overwrite (content : List UInt8) (offset : ℕ) (bytes : List UInt8) : List UInt8 :=
  (content ++ List.replicate (offset - content.length) 0).take offset ++ bytes ++
    content.drop (offset + bytes.length)

/-- Writing the next bytes of what the file holds the beginning of. -/
theorem overwrite_take {bytes : List UInt8} {k m n : ℕ} (hkm : k ≤ m) (hm : m ≤ bytes.length)
    (hn : k + n ≤ bytes.length) :
    overwrite (bytes.take m) k ((bytes.drop k).take n) = bytes.take (max m (k + n)) := by
  have hlen : (bytes.take m).length = m := List.length_take_of_le hm
  have hnlen : ((bytes.drop k).take n).length = n := by
    rw [List.length_take, List.length_drop]
    omega
  have hgap : k - (bytes.take m).length = 0 := by omega
  rw [overwrite, hgap, List.replicate_zero, List.append_nil, List.take_take, min_eq_left hkm, hnlen,
    ← List.take_add]
  rcases le_total (k + n) m with h | h
  · have hbegin : bytes.take (k + n) = (bytes.take m).take (k + n) := by
      rw [List.take_take, min_eq_left h]
    rw [max_eq_left h, hbegin, List.take_append_drop]
  · rw [max_eq_right h, List.drop_eq_nil_of_le (by omega), List.append_nil]

/-! ## The machine -/

/-- Where a call of `snapshot()` is. -/
inductive Shot where
  | idle
  | capturing
  | naming (jpeg : List UInt8)
  | opening (jpeg : List UInt8) (path : String)
  | writing (jpeg : List UInt8) (path : String) (written : ℕ)
  deriving DecidableEq

structure Snapshots where
  /-- `state.frame_jpeg`. -/
  frame : Option (List UInt8) := none
  files : String → Option (List UInt8) := fun _ => none
  calls : ℕ → Shot := fun _ => .idle
  /-- What the calls so far have returned, with the bytes they captured. -/
  returned : List (String × List UInt8) := []

namespace Snapshots

inductive Event where
  | frame (jpeg : List UInt8)
  | call (i : ℕ)
  | noFrame (i : ℕ) | capture (i : ℕ) (jpeg : List UInt8)
  | name (i : ℕ) (jpeg : List UInt8) (second : ℤ)
  | openFailed (i : ℕ) (jpeg : List UInt8) (path : String)
  | open (i : ℕ) (jpeg : List UInt8) (path : String)
  | write (i : ℕ) (jpeg : List UInt8) (path : String) (written n : ℕ)
  | failed (i : ℕ) (jpeg : List UInt8) (path : String) (written : ℕ)
  | done (i : ℕ) (jpeg : List UInt8) (path : String)
  deriving DecidableEq

/-- When an event may happen. -/
def guard (s : Snapshots) : Event → Prop
  | .frame _ => True
  | .call i => s.calls i = .idle
  | .noFrame i => s.calls i = .capturing ∧ s.frame = none
  | .capture i jpeg => s.calls i = .capturing ∧ s.frame = some jpeg
  | .name i jpeg _ => s.calls i = .naming jpeg
  | .openFailed i jpeg path => s.calls i = .opening jpeg path
  | .open i jpeg path => s.calls i = .opening jpeg path
  | .write i jpeg path written n =>
      s.calls i = .writing jpeg path written ∧ 0 < n ∧ written + n ≤ jpeg.length
  | .failed i jpeg path written => s.calls i = .writing jpeg path written
  | .done i jpeg path => s.calls i = .writing jpeg path jpeg.length

/-- The call of thread `i` goes on to `shot`. -/
def goto (s : Snapshots) (i : ℕ) (shot : Shot) : Snapshots :=
  { s with calls := Function.update s.calls i shot }

/-- The file holds `content`. -/
def put (s : Snapshots) (path : String) (content : List UInt8) : Snapshots :=
  { s with files := Function.update s.files path (some content) }

section

variable (node : Post.Config) (strftime : ℤ → String)

/-- Where an event leads. -/
def act (s : Snapshots) : Event → Snapshots
  | .frame jpeg => { s with frame := some jpeg }
  | .call i => s.goto i .capturing
  | .noFrame i => s.goto i .idle
  | .capture i jpeg => s.goto i (.naming jpeg)
  | .name i jpeg second =>
      s.goto i (.opening jpeg (Post.snapshotPath node (strftime second)))
  | .openFailed i _ _ => s.goto i .idle
  | .open i jpeg path => (s.goto i (.writing jpeg path 0)).put path []
  | .write i jpeg path written n =>
      (s.goto i (.writing jpeg path (written + n))).put path
        (overwrite ((s.files path).getD []) written ((jpeg.drop written).take n))
  | .failed i _ _ _ => s.goto i .idle
  | .done i jpeg path => { s.goto i .idle with returned := s.returned ++ [(path, jpeg)] }

/-- The snapshots of a console, in local time as `strftime` has it. -/
def machine : GuardedMachine Snapshots Event := ⟨guard, act node strftime⟩

end

variable {node : Post.Config} {strftime : ℤ → String}

instance (s : Snapshots) (e : Event) : Decidable ((machine node strftime).guard s e) := by
  show Decidable (guard s e)
  cases e <;> dsimp only [guard] <;> infer_instance

/-- Every path that was returned holds the bytes that its call captured. -/
def Kept (s : Snapshots) : Prop := ∀ r ∈ s.returned, s.files r.1 = some r.2

instance (s : Snapshots) : Decidable s.Kept :=
  inferInstanceAs (Decidable (∀ r ∈ s.returned, s.files r.1 = some r.2))

/-- A file that is opened for writing has been returned to nobody, and whoever else has it open
is to write the same bytes and has not begun to. -/
def Spares (s : Snapshots) : Event → Prop
  | .open _ jpeg path =>
      (∀ r ∈ s.returned, r.1 ≠ path) ∧
        ∀ j bytes written, s.calls j = .writing bytes path written → bytes = jpeg ∧ written = 0
  | _ => True

/-! ## Whose bytes a file holds -/

/-- What was returned is kept; a file that is being written holds a beginning of the bytes, at
least what its call has written, and all who write or have returned it mean the same bytes. -/
structure Sound (s : Snapshots) : Prop where
  kept : s.Kept
  writing : ∀ i jpeg path written, s.calls i = .writing jpeg path written →
    ∃ m, written ≤ m ∧ m ≤ jpeg.length ∧ s.files path = some (jpeg.take m)
  agree : ∀ i j jpeg bytes path k l, s.calls i = .writing jpeg path k →
    s.calls j = .writing bytes path l → jpeg = bytes
  shared : ∀ r ∈ s.returned, ∀ i jpeg k, s.calls i = .writing jpeg r.1 k → r.2 = jpeg

variable {s : Snapshots} {i : ℕ} {jpeg bytes : List UInt8} {path : String} {written n : ℕ}

/-- A call that is found writing after a move of call `i` is that one, or was writing before. -/
theorem goto_calls {shot shot' : Shot} {j : ℕ} (h : (s.goto i shot).calls j = shot') :
    (j = i ∧ shot' = shot) ∨ (j ≠ i ∧ s.calls j = shot') := by
  have h : Function.update s.calls i shot j = shot' := h
  by_cases hj : j = i
  · subst hj
    rw [Function.update_self] at h
    exact .inl ⟨rfl, h.symm⟩
  · rw [Function.update_of_ne hj] at h
    exact .inr ⟨hj, h⟩

theorem put_files_self (content : List UInt8) : (s.put path content).files path = some content :=
  Function.update_self ..

theorem put_files_other {other : String} (h : other ≠ path) (content : List UInt8) :
    (s.put path content).files other = s.files other :=
  Function.update_of_ne h ..

/-- A call goes on without a file. -/
theorem Sound.goto (h : Sound s) {shot : Shot}
    (hshot : ∀ jpeg path written, shot ≠ .writing jpeg path written) : Sound (s.goto i shot) := by
  have hbefore : ∀ {j jpeg path written}, (s.goto i shot).calls j = .writing jpeg path written →
      s.calls j = .writing jpeg path written := by
    intro j jpeg path written hj
    rcases goto_calls hj with ⟨-, hnew⟩ | ⟨-, hold⟩
    · exact absurd hnew.symm (hshot _ _ _)
    · exact hold
  constructor
  case kept => exact h.kept
  case writing =>
      intro j jpeg path written hj
      exact h.writing j jpeg path written (hbefore hj)
  case agree =>
      intro j j' jpeg bytes path k l hj hj'
      exact h.agree j j' jpeg bytes path k l (hbefore hj) (hbefore hj')
  case shared =>
      intro r hr j jpeg k hj
      exact h.shared r hr j jpeg k (hbefore hj)

/-- Opening a file that is spared. -/
theorem Sound.open (h : Sound s) (hspares : Spares s (.open i jpeg path)) :
    Sound ((s.goto i (.writing jpeg path 0)).put path []) := by
  obtain ⟨hreturned, hothers⟩ := hspares
  -- whoever has the file open now writes `jpeg` from the start
  have hopen : ∀ {j bytes k}, (s.goto i (.writing jpeg path 0)).calls j = .writing bytes path k →
      bytes = jpeg ∧ k = 0 := by
    intro j bytes k hj
    rcases goto_calls hj with ⟨-, hnew⟩ | ⟨-, hold⟩
    · cases hnew
      exact ⟨rfl, rfl⟩
    · exact hothers j bytes k hold
  have helse : ∀ {j bytes other k}, other ≠ path →
      (s.goto i (.writing jpeg path 0)).calls j = .writing bytes other k →
      s.calls j = .writing bytes other k := by
    intro j bytes other k hne hj
    rcases goto_calls hj with ⟨-, hnew⟩ | ⟨-, hold⟩
    · cases hnew
      exact absurd rfl hne
    · exact hold
  constructor
  case kept =>
      intro r hr
      rw [put_files_other (hreturned r hr)]
      exact h.kept r hr
  case writing =>
      intro j bytes other k hj
      by_cases hp : other = path
      · subst hp
        obtain ⟨rfl, rfl⟩ := hopen hj
        exact ⟨0, le_rfl, Nat.zero_le _, put_files_self _⟩
      · rw [put_files_other hp]
        exact h.writing j bytes other k (helse hp hj)
  case agree =>
      intro j j' bytes bytes' other k l hj hj'
      by_cases hp : other = path
      · subst hp
        rw [(hopen hj).1, (hopen hj').1]
      · exact h.agree j j' bytes bytes' other k l (helse hp hj) (helse hp hj')
  case shared =>
      intro r hr j bytes k hj
      exact h.shared r hr j bytes k (helse (hreturned r hr) hj)

/-- Writing the next bytes of an open file. -/
theorem Sound.write (h : Sound s) (hi : s.calls i = .writing jpeg path written)
    (hn : written + n ≤ jpeg.length) :
    Sound ((s.goto i (.writing jpeg path (written + n))).put path
      (overwrite ((s.files path).getD []) written ((jpeg.drop written).take n))) := by
  obtain ⟨m, hwritten, hm, hfile⟩ := h.writing i jpeg path written hi
  rw [hfile, Option.getD_some, overwrite_take hwritten hm hn]
  -- the writers are the writers of before, this one further on
  have hbefore : ∀ {j bytes other k},
      (s.goto i (.writing jpeg path (written + n))).calls j = .writing bytes other k →
      ∃ l, s.calls j = .writing bytes other l ∧ (k = l ∨ other = path ∧ k = written + n) := by
    intro j bytes other k hj
    rcases goto_calls hj with ⟨rfl, hnew⟩ | ⟨-, hold⟩
    · cases hnew
      exact ⟨written, hi, .inr ⟨rfl, rfl⟩⟩
    · exact ⟨k, hold, .inl rfl⟩
  constructor
  case kept =>
      intro r hr
      by_cases hp : r.1 = path
      · obtain rfl : r.2 = jpeg := h.shared r hr i jpeg written (hp ▸ hi)
        have hwhole := h.kept r hr
        rw [hp, hfile] at hwhole
        have hlen : m = r.2.length := by
          have := congrArg List.length (Option.some.inj hwhole)
          rw [List.length_take] at this
          omega
        show (Snapshots.put _ path _).files r.1 = some r.2
        rw [hp, put_files_self, hlen, max_eq_left hn, List.take_length]
      · rw [put_files_other hp]
        exact h.kept r hr
  case writing =>
      intro j bytes other k hj
      obtain ⟨l, hl, hk⟩ := hbefore hj
      obtain ⟨m', hlm, hm', hfile'⟩ := h.writing j bytes other l hl
      by_cases hp : other = path
      · subst hp
        obtain rfl : jpeg = bytes := h.agree i j jpeg bytes other written l hi hl
        have hsame : m' = m := by
          rw [hfile] at hfile'
          have := congrArg List.length (Option.some.inj hfile')
          rw [List.length_take, List.length_take] at this
          omega
        refine ⟨max m (written + n), ?_, by omega, put_files_self _⟩
        rcases hk with rfl | ⟨-, rfl⟩ <;> omega
      · rw [put_files_other hp]
        rcases hk with rfl | ⟨hother, -⟩
        · exact ⟨m', hlm, hm', hfile'⟩
        · exact absurd hother hp
  case agree =>
      intro j j' bytes bytes' other k l hj hj'
      obtain ⟨k₀, hk, -⟩ := hbefore hj
      obtain ⟨l₀, hl, -⟩ := hbefore hj'
      exact h.agree j j' bytes bytes' other k₀ l₀ hk hl
  case shared =>
      intro r hr j bytes k hj
      obtain ⟨l, hl, -⟩ := hbefore hj
      exact h.shared r hr j bytes l hl

/-- Returning the path of a file that is written. -/
theorem Sound.done (h : Sound s) (hi : s.calls i = .writing jpeg path jpeg.length) :
    Sound { s.goto i .idle with returned := s.returned ++ [(path, jpeg)] } := by
  have hidle : Sound (s.goto i .idle) := h.goto (by simp)
  obtain ⟨hkept, hwriting, hagree, hshared⟩ := hidle
  obtain ⟨m, hm, hle, hfile⟩ := h.writing i jpeg path jpeg.length hi
  have hwhole : s.files path = some jpeg := by
    rw [hfile, List.take_of_length_le hm]
  refine ⟨fun r hr => ?_, hwriting, hagree, fun r hr j bytes k hj => ?_⟩
  · rcases List.mem_append.mp hr with hr | hr
    · exact hkept r hr
    · obtain rfl := List.mem_singleton.mp hr
      exact hwhole
  · rcases List.mem_append.mp hr with hr | hr
    · exact hshared r hr j bytes k hj
    · obtain rfl := List.mem_singleton.mp hr
      rcases goto_calls hj with ⟨-, hnew⟩ | ⟨-, hold⟩
      · cases hnew
      · exact h.agree i j jpeg bytes path _ k hi hold

/-! ## Along a run -/

open GuardedMachine

variable {es : List Event} {e : Event}

theorem Sound.step (s : Snapshots) (e : Event) (h : Sound s) (hg : guard s e)
    (hspares : Spares s e) : Sound (act node strftime s e) := by
  cases e <;> simp only [guard] at hg
  case frame jpeg => exact ⟨h.kept, h.writing, h.agree, h.shared⟩
  case call i | noFrame i | capture i jpeg | name i jpeg second | openFailed i jpeg path
      | failed i jpeg path written => exact h.goto (by simp)
  case «open» i jpeg path => exact h.open hspares
  case write i jpeg path written n => exact h.write hg.1 hg.2.2
  case done i jpeg path => exact h.done hg

theorem Sound.init : Sound {} := by
  constructor
  case kept => exact fun r hr => absurd hr List.not_mem_nil
  case writing => exact fun i jpeg path written hi => by cases hi
  case agree => exact fun i j jpeg bytes path k l hi hj => by cases hi
  case shared => exact fun r hr => absurd hr List.not_mem_nil

/-- Opening a file that was returned, with anything in it, loses it at once. -/
theorem lost_of_reopen {r : String × List UInt8} (hr : r ∈ s.returned) (hbytes : r.2 ≠ [])
    (i : ℕ) (jpeg : List UInt8) : ¬ Kept (act node strftime s (.open i jpeg r.1)) := by
  intro hkept
  have hempty := hkept r hr
  change (Snapshots.put _ r.1 []).files r.1 = _ at hempty
  rw [put_files_self] at hempty
  exact hbytes (Option.some.inj hempty).symm

/-- **Snapshots are kept** along every run in which no call opens a name that was returned, or
that another call has open and has begun to write, or is to write otherwise.  A returned name
that is opened again is lost in that step. -/
theorem snapshots_kept (node : Post.Config) (strftime : ℤ → String) :
    (∀ es s, ((machine node strftime).restrict Spares).Run {} es s → Kept s) ∧
      ∀ s i jpeg, ∀ r ∈ s.returned, r.2 ≠ [] →
        ¬ Kept (act node strftime s (.open i jpeg r.1)) := by
  refine ⟨fun es s h => ?_, fun s i jpeg r hr hbytes => lost_of_reopen hr hbytes i jpeg⟩
  exact (h.inv_restrict Sound Sound.step Sound.init).kept

/-! ## Calls that nothing disturbs -/

/-- One call from its beginning to its end. -/
def undisturbed (node : Post.Config) (strftime : ℤ → String) (i : ℕ) (jpeg : List UInt8)
    (second : ℤ) : List Event :=
  let path := Post.snapshotPath node (strftime second)
  [.call i, .capture i jpeg, .name i jpeg second, .open i jpeg path,
    .write i jpeg path 0 jpeg.length, .done i jpeg path]

/-- A call by itself does what the handler of a single request is said to do. -/
theorem undisturbed_run (hi : s.calls i = .idle) (hframe : s.frame = some jpeg) (hne : jpeg ≠ [])
    (second : ℤ) : ∃ t path,
      (machine node strftime).Run s (undisturbed node strftime i jpeg second) t ∧
      t.files = Function.update s.files path (some jpeg) ∧
      t.returned = s.returned ++ [(path, jpeg)] ∧
      Post.snapshot node { frameJpeg := some jpeg, stamp := strftime second } =
        ([.save path jpeg], .ok (some path, none)) := by
  have hpos : 0 < jpeg.length := List.length_pos_iff.mpr hne
  refine ⟨_, Post.snapshotPath node (strftime second), Run.of_admits ?_, ?_, ?_, ?_⟩
  · simp [undisturbed, Admits, machine, guard, act, goto, put, hi, hframe, hpos]
  · simp [undisturbed, machine, act, goto, put, overwrite]
  · simp [undisturbed, machine, act, goto, put]
  · rfl

/-- Two threads, in different seconds. -/
def secondApart : List Event :=
  .frame [1, 2] :: undisturbed {} (fun n => toString n) 0 [1, 2] 5 ++
    .frame [3] :: undisturbed {} (fun n => toString n) 1 [3] 6

theorem snapshots_kept_secondApart :
    (secondApart.foldl (act {} fun n => toString n) {}).returned.map Prod.snd = [[1, 2], [3]] ∧
    Kept (secondApart.foldl (act {} fun n => toString n) {}) := by
  have hpaths : Post.snapshotPath {} (Int.repr 5) ≠ Post.snapshotPath {} (Int.repr 6) := by decide
  have hopening : ∀ {i j written : ℕ} {jpeg bytes : List UInt8} {path path' : String},
      (if j = i then Shot.opening jpeg path else .idle) ≠ .writing bytes path' written := by
    intros
    split <;> exact Shot.noConfusion
  have hadmits : ((machine {} fun n => toString n).restrict Spares).Admits {} secondApart := by
    simp [secondApart, undisturbed, Admits, restrict, machine, guard, Spares, act, goto, put,
      Function.update_apply, hpaths, hopening]
  exact ⟨rfl, (snapshots_kept {} fun n => toString n).1 secondApart _ (.of_admits hadmits)⟩

/-- Two snapshots of different frames, taken in the same second. -/
def sameSecond : List Event :=
  .frame [1, 2] :: undisturbed {} (fun n => toString n) 0 [1, 2] 5 ++
    .frame [3] :: undisturbed {} (fun n => toString n) 0 [3] 5

/-- The first is lost. -/
theorem snapshot_lost : ¬ ∀ node strftime es s, (machine node strftime).Run {} es s → Kept s := by
  intro hall
  have hadmits : (machine {} fun n => toString n).Admits {} sameSecond := by decide
  have hkept := hall {} (fun n => toString n) sameSecond _ (.of_admits hadmits)
  exact absurd hkept (by decide)

end Snapshots

end JetsonPerception.Console
