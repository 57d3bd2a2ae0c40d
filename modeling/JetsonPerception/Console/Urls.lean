/-
# The object URLs of the live view

`pump` makes an object URL for each frame and revokes it when the next one has loaded.  A URL that
is not revoked keeps its frame in the browser's memory; one that is revoked too early shows nothing.

The URL of the image on the page is never revoked, none is revoked twice, and the ones that are not
are accounted for: the last that loaded, one for each pump that waits for its image, and one for
each image that failed, which nobody revokes (`urls_account`).
-/
import JetsonPerception.Console.Page
import Mathlib.Data.List.Range

namespace JetsonPerception.Console.Page

/-! ## Counting along a function -/

/-- One value of a function changes by at most one how many of the first `n` satisfy `p`. -/
theorem countP_update {α : Type} (f : ℕ → α) (p : α → Bool) (id : ℕ) (x : α) : ∀ {n : ℕ}, id < n →
    (List.range n).countP (fun i => p (Function.update f id x i)) + (if p (f id) then 1 else 0) =
      (List.range n).countP (fun i => p (f i)) + (if p x then 1 else 0) := by
  intro n
  induction n with
  | zero => intro h; exact absurd h (Nat.not_lt_zero _)
  | succ n ih =>
      intro h
      simp only [List.range_succ, List.countP_append, List.countP_singleton]
      rcases Nat.lt_succ_iff_lt_or_eq.mp h with hlt | rfl
      · have hn : Function.update f id x n = f n := Function.update_of_ne (by omega) _ _
        rw [hn]
        have hcount := ih hlt
        omega
      · have hbelow : (List.range id).countP (fun i => p (Function.update f id x i)) =
            (List.range id).countP (fun i => p (f i)) := by
          refine List.countP_congr fun i hi => ?_
          rw [Function.update_of_ne (List.mem_range.mp hi).ne]
        rw [hbelow, Function.update_self]
        omega

/-! ## Who has a URL -/

def isShowing : Pump → Bool
  | .showing _ => true
  | _ => false

/-- How many pumps wait for their image. -/
def shown (s : Page) : ℕ := (List.range (s.pumpId + 1)).countP fun id => isShowing (s.pumps id)

def Event.isError : Event → Bool
  | .error => true
  | _ => false

/-- Every URL that is not revoked belongs to somebody, or to an image that failed. -/
structure Owned (failed : ℕ) (s : Page) : Prop where
  unstarted : ∀ id, id = 0 ∨ s.pumpId < id → s.pumps id = .ended
  pump : ∀ id url, s.pumps id = .showing url →
    url < s.urls ∧ url ∉ s.revoked ∧ s.prevUrl ≠ some url
  apart : ∀ id id' url, s.pumps id = .showing url → s.pumps id' = .showing url → id = id'
  prev : ∀ url, s.prevUrl = some url → url < s.urls ∧ url ∉ s.revoked
  revoked : s.revoked.Nodup ∧ ∀ url ∈ s.revoked, url < s.urls
  image : ∀ id url, s.handlers = some id → s.pumps id = .showing url → s.src = some url
  loading : s.loading = true → ∃ id url, s.handlers = some id ∧ s.pumps id = .showing url
  src : ∀ url, s.src = some url → url < s.urls ∧ url ∉ s.revoked
  account : s.urls = s.revoked.length + s.prevUrl.toList.length + s.shown + failed

variable {s : Page} {failed id : ℕ} {phase : Pump}

/-- A pump that is at something has been started. -/
theorem Owned.started (h : Owned failed s) (hp : s.pumps id ≠ .ended) :
    0 < id ∧ id < s.pumpId + 1 := by
  by_contra hid
  exact hp (h.unstarted id (by omega))

/-- The first pump has number one. -/
theorem Owned.shown_le (h : Owned failed s) : s.shown ≤ s.pumpId := by
  have hzero : isShowing (s.pumps 0) = false := by
    rw [h.unstarted 0 (.inl rfl)]
    rfl
  rw [shown, List.range_succ_eq_map, List.countP_cons_of_neg (by rw [hzero]; exact nofun)]
  refine List.countP_le_length.trans (le_of_eq ?_)
  rw [List.length_map, List.length_range]

theorem shown_await (s : Page) (phase : Pump) (hid : id < s.pumpId + 1) :
    (s.await id phase).shown + (if isShowing (s.pumps id) then 1 else 0) =
      s.shown + (if isShowing phase then 1 else 0) :=
  countP_update s.pumps isShowing id phase hid

/-- A pump with no URL goes on to something else without one. -/
theorem Owned.await (h : Owned failed s) (hp : s.pumps id ≠ .ended)
    (hfrom : isShowing (s.pumps id) = false) (hto : isShowing phase = false) :
    Owned failed (s.await id phase) := by
  obtain ⟨hzero, hid⟩ := h.started hp
  have hcount := shown_await s phase hid
  simp only [hfrom, hto] at hcount
  have hsame : ∀ {i url}, (s.await id phase).pumps i = .showing url → s.pumps i = .showing url := by
    intro i url hi
    rw [await_pumps] at hi
    split at hi
    · rw [hi] at hto
      cases hto
    · exact hi
  refine { h with
    unstarted := fun i hi => ?_
    pump := fun i url hi => h.pump i url (hsame hi)
    apart := fun i i' url hi hi' => h.apart i i' url (hsame hi) (hsame hi')
    image := fun i url hh hi => h.image i url hh (hsame hi)
    loading := fun hl => ?_
    account := ?_ }
  · have hne : i ≠ id := by
      have hi : i = 0 ∨ s.pumpId < i := hi
      omega
    rw [await_pumps, if_neg hne]
    exact h.unstarted i hi
  · obtain ⟨i, url, hh, hi⟩ := h.loading hl
    refine ⟨i, url, hh, ?_⟩
    have hne : i ≠ id := by
      rintro rfl
      rw [hi] at hfrom
      cases hfrom
    rw [await_pumps, if_neg hne]
    exact hi
  · have haccount := h.account
    show s.urls = s.revoked.length + s.prevUrl.toList.length + (s.await id phase).shown + failed
    omega

/-- A new blob gets the next URL, and the image. -/
theorem Owned.blobDone (h : Owned failed s) (hp : s.pumps id = .reading) :
    Owned failed (act s (.blobDone id)) := by
  obtain ⟨hzero, hid⟩ := h.started (by rw [hp]; exact nofun)
  have hcount := shown_await s (.showing s.urls) hid
  simp only [hp] at hcount
  have hpumps : ∀ {i url}, (act s (.blobDone id)).pumps i = .showing url →
      (i = id ∧ url = s.urls) ∨ (i ≠ id ∧ s.pumps i = .showing url) := by
    intro i url hi
    have hi : (s.await id (.showing s.urls)).pumps i = .showing url := hi
    rw [await_pumps] at hi
    split at hi
    · cases hi
      exact .inl ⟨‹_›, rfl⟩
    · exact .inr ⟨‹_›, hi⟩
  have hnew : s.urls ∉ s.revoked := fun hmem => absurd (h.revoked.2 _ hmem) (lt_irrefl _)
  constructor
  case unstarted =>
      intro i hi
      have hne : i ≠ id := by
        have hi : i = 0 ∨ s.pumpId < i := hi
        omega
      show (s.await id (.showing s.urls)).pumps i = .ended
      rw [await_pumps, if_neg hne]
      exact h.unstarted i hi
  case pump =>
      intro i url hi
      rcases hpumps hi with ⟨-, rfl⟩ | ⟨-, hi⟩
      · refine ⟨Nat.lt_succ_self _, hnew, fun hprev => ?_⟩
        exact absurd (h.prev _ hprev).1 (lt_irrefl _)
      · obtain ⟨hlt, hrest⟩ := h.pump i url hi
        exact ⟨Nat.lt_succ_of_lt hlt, hrest⟩
  case apart =>
      intro i i' url hi hi'
      rcases hpumps hi with ⟨rfl, hurl⟩ | ⟨-, hold⟩
      · rcases hpumps hi' with ⟨rfl, -⟩ | ⟨-, hold'⟩
        · rfl
        · exact absurd hurl (h.pump i' _ hold').1.ne
      · rcases hpumps hi' with ⟨-, hurl⟩ | ⟨-, hold'⟩
        · exact absurd hurl (h.pump i _ hold).1.ne
        · exact h.apart i i' url hold hold'
  case prev =>
      intro url hurl
      obtain ⟨hlt, hmem⟩ := h.prev url hurl
      exact ⟨Nat.lt_succ_of_lt hlt, hmem⟩
  case revoked => exact ⟨h.revoked.1, fun url hurl => Nat.lt_succ_of_lt (h.revoked.2 url hurl)⟩
  case image =>
      intro i url hh hi
      obtain rfl : id = i := Option.some.inj hh
      rcases hpumps hi with ⟨-, rfl⟩ | ⟨hne, -⟩
      · rfl
      · exact absurd rfl hne
  case loading =>
      intro _
      refine ⟨id, s.urls, rfl, ?_⟩
      show (s.await id (.showing s.urls)).pumps id = .showing s.urls
      rw [await_pumps, if_pos rfl]
  case src =>
      intro url hurl
      obtain rfl : s.urls = url := Option.some.inj hurl
      exact ⟨Nat.lt_succ_self _, hnew⟩
  case account =>
      have haccount := h.account
      have hshowing : isShowing (.showing s.urls) = true := rfl
      have hreading : isShowing .reading = false := rfl
      simp only [hshowing, hreading, if_true, Bool.false_eq_true, if_false] at hcount
      show s.urls + 1 = s.revoked.length + s.prevUrl.toList.length +
        (s.await id (.showing s.urls)).shown + failed
      omega

/-- The image has loaded: its URL takes the place of the one before, which is revoked. -/
theorem Owned.load (h : Owned failed s) {url : ℕ} (hh : s.handlers = some id)
    (hp : s.pumps id = .showing url) (now : ℚ) :
    Owned failed (onload { s with loading := false } id now) := by
  obtain ⟨hzero, hid⟩ := h.started (by rw [hp]; exact nofun)
  obtain ⟨hlt, hlive, hprev⟩ := h.pump id url hp
  have hsrc := h.image id url hh hp
  let phase : Pump := if s.live = true ∧ id = s.pumpId then .fetching s.lastSeq else .ended
  have hphase : isShowing phase = false := by
    show isShowing (if s.live = true ∧ id = s.pumpId then _ else _) = false
    split <;> rfl
  have honload : onload { s with loading := false } id now =
      { s.await id phase with
        loading := false, revoked := s.revoked ++ s.prevUrl.toList, prevUrl := some url
        frameTimes := pushTime s.frameTimes now } := by
    rw [onload]
    simp only [hp]
    rfl
  have hcount := shown_await s phase hid
  simp only [hp, hphase] at hcount
  have hpumps : ∀ {i url'}, (s.await id phase).pumps i = .showing url' →
      i ≠ id ∧ s.pumps i = .showing url' := by
    intro i url' hi
    rw [await_pumps] at hi
    split at hi
    · rw [hi] at hphase
      cases hphase
    · exact ⟨‹_›, hi⟩
  have hmem : ∀ {url'}, url' ∈ s.revoked ++ s.prevUrl.toList → url' ∈ s.revoked ∨
      s.prevUrl = some url' := by
    intro url' hurl
    rcases List.mem_append.mp hurl with hurl | hurl
    · exact .inl hurl
    · exact .inr (Option.mem_toList.mp hurl)
  have hkept : url ∉ s.revoked ++ s.prevUrl.toList := fun hurl => (hmem hurl).elim hlive hprev
  rw [honload]
  constructor
  case unstarted =>
      intro i hi
      have hne : i ≠ id := by
        have hi : i = 0 ∨ s.pumpId < i := hi
        omega
      show (s.await id phase).pumps i = .ended
      rw [await_pumps, if_neg hne]
      exact h.unstarted i hi
  case pump =>
      intro i url' hi
      obtain ⟨hne, hold⟩ := hpumps hi
      obtain ⟨hlt', hlive', hprev'⟩ := h.pump i url' hold
      refine ⟨hlt', fun hurl => (hmem hurl).elim hlive' hprev', ?_⟩
      rintro hurl
      obtain rfl : url = url' := Option.some.inj hurl
      exact hne (h.apart i id url hold hp)
  case apart =>
      intro i i' url' hi hi'
      exact h.apart i i' url' (hpumps hi).2 (hpumps hi').2
  case prev =>
      intro url' hurl
      obtain rfl : url = url' := Option.some.inj hurl
      exact ⟨hlt, hkept⟩
  case revoked =>
      refine ⟨List.nodup_append.mpr ⟨h.revoked.1, ?_, ?_⟩, fun url' hurl => ?_⟩
      · cases s.prevUrl <;> simp
      · rintro url₁ hurl₁ url₂ hurl₂ rfl
        exact (h.prev _ (Option.mem_toList.mp hurl₂)).2 hurl₁
      · rcases hmem hurl with hurl | hurl
        · exact h.revoked.2 url' hurl
        · exact (h.prev url' hurl).1
  case image =>
      intro i url' hh' hi
      have hh' : s.handlers = some i := hh'
      rw [hh] at hh'
      exact absurd (Option.some.inj hh').symm (hpumps hi).1
  case loading => exact Bool.noConfusion
  case src =>
      intro url' hurl
      have hurl : s.src = some url' := hurl
      rw [hsrc] at hurl
      obtain rfl : url = url' := Option.some.inj hurl
      exact ⟨hlt, hkept⟩
  case account =>
      have haccount := h.account
      have hshowing : isShowing (.showing url) = true := rfl
      simp only [hshowing, if_true, Bool.false_eq_true, if_false] at hcount
      show s.urls = (s.revoked ++ s.prevUrl.toList).length + 1 + (s.await id phase).shown + failed
      rw [List.length_append]
      omega

/-- The image has failed: nobody revokes its URL. -/
theorem Owned.fail (h : Owned failed s) {url : ℕ} (hp : s.pumps id = .showing url) :
    Owned (failed + 1) (onerror { s with loading := false } id) := by
  obtain ⟨hzero, hid⟩ := h.started (by rw [hp]; exact nofun)
  have honerror : onerror { s with loading := false } id =
      { s.await id .pausing with loading := false } := by
    rw [onerror]
    simp only [hp]
    rfl
  have hcount := shown_await s .pausing hid
  have hshowing : isShowing (.showing url) = true := rfl
  have hpausing : isShowing .pausing = false := rfl
  simp only [hp, hshowing, hpausing, if_true, Bool.false_eq_true, if_false] at hcount
  have hpumps : ∀ {i url'}, (s.await id .pausing).pumps i = .showing url' →
      i ≠ id ∧ s.pumps i = .showing url' := by
    intro i url' hi
    rw [await_pumps] at hi
    split at hi
    · cases hi
    · exact ⟨‹_›, hi⟩
  rw [honerror]
  refine { h with
    unstarted := fun i hi => ?_
    pump := fun i url' hi => h.pump i url' (hpumps hi).2
    apart := fun i i' url' hi hi' => h.apart i i' url' (hpumps hi).2 (hpumps hi').2
    image := fun i url' hh' hi => h.image i url' hh' (hpumps hi).2
    loading := Bool.noConfusion
    account := ?_ }
  · have hne : i ≠ id := by
      have hi : i = 0 ∨ s.pumpId < i := hi
      omega
    show (s.await id .pausing).pumps i = .ended
    rw [await_pumps, if_neg hne]
    exact h.unstarted i hi
  · have haccount := h.account
    show s.urls = s.revoked.length + s.prevUrl.toList.length + (s.await id .pausing).shown +
      (failed + 1)
    omega

/-- Going live starts a pump of a number of its own. -/
theorem Owned.goLive (h : Owned failed s) : Owned failed (s.setLive true) := by
  have hpumps : ∀ {i}, (s.setLive true).pumps i =
      if i = s.pumpId + 1 then .fetching s.lastSeq else s.pumps i := by
    intro i
    simp [Page.setLive, Page.loop, Function.update_apply]
  have hold : ∀ {i url}, (s.setLive true).pumps i = .showing url → s.pumps i = .showing url := by
    intro i url hi
    rw [hpumps] at hi
    split at hi
    · cases hi
    · exact hi
  refine { h with
    unstarted := fun i hi => ?_
    pump := fun i url hi => h.pump i url (hold hi)
    apart := fun i i' url hi hi' => h.apart i i' url (hold hi) (hold hi')
    image := fun i url hh hi => h.image i url hh (hold hi)
    loading := fun hl => ?_
    account := ?_ }
  · have hi : i = 0 ∨ s.pumpId + 1 < i := hi
    rw [hpumps, if_neg (by omega)]
    exact h.unstarted i (by omega)
  · obtain ⟨i, url, hh, hi⟩ := h.loading hl
    refine ⟨i, url, hh, ?_⟩
    have hne : i ≠ s.pumpId + 1 := by
      rintro rfl
      rw [h.unstarted _ (.inr (Nat.lt_succ_self _))] at hi
      cases hi
    rw [hpumps, if_neg hne]
    exact hi
  · have haccount := h.account
    have hshown : (s.setLive true).shown = s.shown := by
      show (List.range (s.pumpId + 1 + 1)).countP
        (fun i => isShowing ((s.setLive true).pumps i)) = _
      rw [List.range_succ, List.countP_append, List.countP_singleton]
      have hnew : isShowing ((s.setLive true).pumps (s.pumpId + 1)) = false := by
        rw [hpumps, if_pos rfl]
        rfl
      rw [hnew]
      refine List.countP_congr fun i hi => ?_
      have hi := List.mem_range.mp hi
      rw [hpumps, if_neg (by omega)]
    show s.urls = s.revoked.length + s.prevUrl.toList.length + (s.setLive true).shown + failed
    omega

theorem of_isFetching {p : Pump} (h : p.isFetching = true) : p ≠ .ended ∧ isShowing p = false := by
  cases p with
  | fetching since => exact ⟨nofun, rfl⟩
  | _ => cases h

theorem act_load (hh : s.handlers = some id) (now : ℚ) :
    act s (.load now) = onload { s with loading := false } id now := by
  obtain ⟨⟩ := s
  cases hh
  rfl

theorem act_error (hh : s.handlers = some id) :
    act s .error = onerror { s with loading := false } id := by
  obtain ⟨⟩ := s
  cases hh
  rfl

theorem Owned.step {e : Event} (h : Owned failed s) (hg : guard s e) :
    Owned (failed + if e.isError then 1 else 0) (act s e) := by
  cases e with
  | click =>
      show Owned failed (s.setLive !s.live)
      cases s.live with
      | true => exact { h with }
      | false => exact h.goLive
  | response id seq =>
      obtain ⟨hp, hfrom⟩ := of_isFetching hg
      have hread : Owned failed (s.await id .reading) := h.await hp hfrom rfl
      exact { hread with }
  | httpError id =>
      obtain ⟨hp, hfrom⟩ := of_isFetching hg
      exact h.await hp hfrom rfl
  | fetchFails id =>
      obtain ⟨hp, hfrom⟩ := of_isFetching hg
      exact h.await hp hfrom rfl
  | blobDone id => exact h.blobDone hg
  | blobFails id =>
      have hg : s.pumps id = .reading := hg
      exact h.await (by rw [hg]; exact nofun) (by rw [hg]; rfl) rfl
  | load now =>
      obtain ⟨id, url, hh, hp⟩ := h.loading hg
      rw [act_load hh]
      exact h.load hh hp now
  | error =>
      obtain ⟨id, url, hh, hp⟩ := h.loading hg
      rw [act_error hh]
      exact h.fail hp
  | timer id =>
      have hg : s.pumps id = .pausing := hg
      refine h.await (by rw [hg]; exact nofun) (by rw [hg]; rfl) ?_
      split <;> rfl

theorem owned_opened : Owned 0 opened := by
  have hended : ∀ id, opened.pumps id = if id = 1 then .fetching (-1) else .ended := by
    intro id
    simp [opened, setLive, Page.loop, Function.update_apply]
  have hnone : ∀ {id url}, opened.pumps id ≠ .showing url := by
    intro id url hp
    rw [hended] at hp
    split at hp <;> cases hp
  constructor
  case unstarted =>
      intro id hid
      have hid : id = 0 ∨ 1 < id := hid
      rw [hended, if_neg (by omega)]
  case pump => exact fun id url hp => absurd hp hnone
  case apart => exact fun id id' url hp => absurd hp hnone
  case prev =>
      intro url hurl
      cases hurl
  case revoked => exact ⟨.nil, fun url hurl => absurd hurl List.not_mem_nil⟩
  case image =>
      intro id url hh
      cases hh
  case loading => exact Bool.noConfusion
  case src =>
      intro url hurl
      cases hurl
  case account => rfl

/-- The URLs that have not been revoked. -/
def alive (s : Page) : ℕ := s.urls - s.revoked.length

/-- How many images have failed. -/
def failures (es : List Event) : ℕ := es.countP Event.isError

theorem owned {es : List Event} (h : machine.Run opened es s) : Owned (failures es) s := by
  induction h with
  | refl => exact owned_opened
  | @snoc es s e h hg ih =>
      have hstep := ih.step hg
      rw [failures, List.countP_append, List.countP_singleton]
      exact hstep

/-- **The URLs of the live view**, whatever the page is put through: the image's own is never
revoked, none is revoked twice or before it was made.  Not revoked are the last that loaded and that
of each pump that waits for its image, all of them different, and beside them as many as images have
failed.  A pump waits for one image at a time, and each start of the view makes one pump. -/
theorem urls_account {es : List Event} (h : machine.Run opened es s) :
    (∀ url, s.src = some url → url < s.urls ∧ url ∉ s.revoked) ∧ s.revoked.Nodup ∧
      (∀ url ∈ s.revoked, url < s.urls) ∧
      (∀ url, s.prevUrl = some url → url < s.urls ∧ url ∉ s.revoked) ∧
      (∀ id url, s.pumps id = .showing url →
        url < s.urls ∧ url ∉ s.revoked ∧ s.prevUrl ≠ some url) ∧
      (∀ id id' url, s.pumps id = .showing url → s.pumps id' = .showing url → id = id') ∧
      s.alive = s.prevUrl.toList.length + s.shown + failures es ∧
      s.alive ≤ 1 + s.pumpId + failures es := by
  have ho := owned h
  have haccount := ho.account
  have hprev : s.prevUrl.toList.length ≤ 1 := by cases s.prevUrl <;> simp
  have hshown := ho.shown_le
  refine ⟨ho.src, ho.revoked.1, ho.revoked.2, ho.prev, ho.pump, ho.apart, ?_, ?_⟩
  · rw [alive]
    omega
  · rw [alive]
    omega

/-- A frame, one that does not decode, another frame, and one that is being decoded. -/
def broken : List Event :=
  [.response 1 7, .blobDone 1, .load 0, .response 1 8, .blobDone 1, .error, .timer 1,
    .response 1 9, .blobDone 1, .load 1, .response 1 10, .blobDone 1]

theorem urls_account_broken :
    (broken.foldl act opened).pumps 1 = .showing 3 ∧ 3 ∉ (broken.foldl act opened).revoked ∧
    (broken.foldl act opened).prevUrl = some 2 ∧ 2 ∉ (broken.foldl act opened).revoked ∧
    (broken.foldl act opened).alive ≤ 3 := by
  obtain ⟨-, -, -, hprev, hpump, -, -, halive⟩ := urls_account
    (.of_admits (by decide) : machine.Run opened broken (broken.foldl act opened))
  exact ⟨rfl, (hpump 1 3 rfl).2.1, rfl, (hprev 2 rfl).2, halive⟩

end JetsonPerception.Console.Page
