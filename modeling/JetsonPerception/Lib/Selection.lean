/-
# Sorting by a score and selecting greedily

Two list algorithms that filters and rankings are built from, over any type.

A function *sorts stably* by a score when its results descend in the score and
each score's elements keep their order.  That determines it
(`StableDescending.ext`), so it commutes with every filter
(`SortsStably.filter`).

`greedy hits` goes through a list and keeps what nothing kept so far hits.  What
it does to a prefix does not depend on the rest (`greedy_append`), and what it
does on one side of a filter does not depend on the other when nothing hits
across (`greedy_filter`).  `sweep` is the same by marking: each element that is
not marked is kept, and marks the later ones it hits (`sweep_eq_greedy`).
-/
import Mathlib.Data.List.Sort
import Mathlib.Data.List.FinRange
import Mathlib.Data.Fintype.Basic

namespace Selection

variable {α κ : Type}

/-! ## Stable sorting -/

section Stable

variable [LinearOrder κ] (score : α → κ)

/-- The list descends in the score. -/
def Descending (l : List α) : Prop := l.Pairwise fun a b => score b ≤ score a

/-- The elements of one score, in their order. -/
def level (k : κ) (l : List α) : List α := l.filter fun a => score a = k

/-- The results of `sort` descend, and no two elements of one score change places. -/
structure SortsStably (sort : List α → List α) : Prop where
  descending : ∀ l, Descending score (sort l)
  level_eq : ∀ k l, level score k (sort l) = level score k l

variable {score}

theorem Descending.head_max {a : α} {l : List α} (h : Descending score (a :: l)) {b : α}
    (hb : b ∈ a :: l) : score b ≤ score a := by
  rcases List.mem_cons.mp hb with rfl | hb
  · exact le_refl _
  · exact List.rel_of_pairwise_cons h hb

theorem mem_of_level_eq {l l' : List α} (h : ∀ k, level score k l = level score k l') {a : α}
    (ha : a ∈ l) : a ∈ l' := by
  have hmem : a ∈ level score (score a) l := List.mem_filter.mpr ⟨ha, by simp⟩
  rw [h] at hmem
  exact (List.mem_filter.mp hmem).1

/-- A descending list is determined by its levels. -/
theorem Descending.ext : ∀ {l l' : List α}, Descending score l → Descending score l' →
    (∀ k, level score k l = level score k l') → l = l'
  | [], [], _, _, _ => rfl
  | [], b :: l', _, _, h => absurd (mem_of_level_eq (fun k => (h k).symm) List.mem_cons_self)
      List.not_mem_nil
  | a :: l, [], _, _, h => absurd (mem_of_level_eq h List.mem_cons_self) List.not_mem_nil
  | a :: l, b :: l', hl, hl', h => by
      have hab : score a ≤ score b := hl'.head_max (mem_of_level_eq h List.mem_cons_self)
      have hba : score b ≤ score a :=
        hl.head_max (mem_of_level_eq (fun k => (h k).symm) List.mem_cons_self)
      have hscore : score b = score a := le_antisymm hba hab
      -- the heads are the first of their common level
      have hhead := h (score a)
      simp only [level, List.filter_cons, hscore, decide_true, if_true] at hhead
      obtain ⟨rfl, -⟩ := List.cons.inj hhead
      congr 1
      refine Descending.ext hl.of_cons hl'.of_cons fun k => ?_
      have hk := h k
      simp only [level, List.filter_cons] at hk
      split at hk
      · exact (List.cons.inj hk).2
      · exact hk

variable {sort : List α → List α}

/-- Stable sorting commutes with every filter. -/
theorem SortsStably.filter (h : SortsStably score sort) (p : α → Bool) (l : List α) :
    sort (l.filter p) = (sort l).filter p := by
  refine Descending.ext (h.descending _) ((h.descending l).filter p) fun k => ?_
  rw [h.level_eq]
  show level score k (l.filter p) = level score k ((sort l).filter p)
  have hcomm : ∀ l : List α, level score k (l.filter p) = (level score k l).filter p := by
    intro l
    simp only [level, List.filter_filter, Bool.and_comm]
  rw [hcomm, hcomm, h.level_eq]

/-- In a descending list the elements above a bound come first. -/
theorem Descending.split {l : List α} (h : Descending score l) (k : κ) :
    l = (l.filter fun a => k < score a) ++ l.filter fun a => ¬ k < score a := by
  induction l with
  | nil => rfl
  | cons a l ih =>
      by_cases ha : k < score a
      · simpa [List.filter_cons, ha] using ih h.of_cons
      · have hall : ∀ b ∈ a :: l, ¬ k < score b := fun b hb hk =>
          ha (lt_of_lt_of_le hk (h.head_max hb))
        rw [List.filter_eq_nil_iff.mpr (by simpa using hall), List.nil_append,
          List.filter_eq_self.mpr (by simpa using hall)]

/-- Merge sort by descending score is stable. -/
theorem sortsStably_mergeSort :
    SortsStably score fun l => l.mergeSort fun a b => decide (score b ≤ score a) := by
  have htrans : ∀ a b c : α, decide (score b ≤ score a) → decide (score c ≤ score b) →
      decide (score c ≤ score a) := by
    intro a b c hab hbc
    simp only [decide_eq_true_eq] at *
    exact le_trans hbc hab
  have htotal : ∀ a b : α, decide (score b ≤ score a) || decide (score a ≤ score b) := by
    intro a b
    simpa using le_total (score b) (score a)
  refine ⟨fun l => ?_, fun k l => ?_⟩
  · simpa [Descending] using List.pairwise_mergeSort htrans htotal l
  · -- a level is a sorted sublist of the input, which is a sublist of the result too
    have hlevel : (level score k l).Pairwise fun a b => decide (score b ≤ score a) := by
      refine List.pairwise_of_forall_mem_list fun a ha b hb => ?_
      have ha := (List.mem_filter.mp ha).2
      have hb := (List.mem_filter.mp hb).2
      simp_all
    have hsub := List.sublist_mergeSort htrans htotal hlevel List.filter_sublist
    have hlevels := hsub.filter fun a => decide (score a = k)
    rw [level, List.filter_filter] at hlevels
    simp only [Bool.and_self] at hlevels
    have hperm := (List.mergeSort_perm l fun a b => decide (score b ≤ score a)).filter
      fun a => decide (score a = k)
    exact (hlevels.eq_of_length hperm.length_eq.symm).symm

end Stable

/-! ## Greedy selection -/

section Greedy

variable (hits : α → α → Bool)

/-- Keep what nothing kept before hits. -/
def greedy (l : List α) : List α :=
  l.foldl (fun kept a => if kept.any (hits · a) then kept else kept ++ [a]) []

variable {hits}

@[simp] theorem greedy_nil : greedy hits [] = [] := rfl

theorem greedy_concat (l : List α) (a : α) : greedy hits (l ++ [a]) =
    if (greedy hits l).any (hits · a) then greedy hits l else greedy hits l ++ [a] := by
  simp [greedy]

/-- What is kept of a list begins with what is kept of a prefix, and the rest of it comes
from the rest of the list. -/
theorem greedy_append (hits : α → α → Bool) (l l' : List α) :
    ∃ rest, greedy hits (l ++ l') = greedy hits l ++ rest ∧ rest.Sublist l' := by
  induction l' using List.reverseRecOn with
  | nil => exact ⟨[], by simp⟩
  | append_singleton l' a ih =>
      obtain ⟨rest, hrest, hsub⟩ := ih
      rw [← List.append_assoc, greedy_concat, hrest]
      split
      · exact ⟨rest, rfl, hsub.trans (List.sublist_append_left _ _)⟩
      · exact ⟨rest ++ [a], by rw [List.append_assoc], hsub.append (List.Sublist.refl [a])⟩

theorem greedy_sublist (l : List α) : (greedy hits l).Sublist l := by
  obtain ⟨rest, hrest, hsub⟩ := greedy_append hits [] l
  rw [List.nil_append, greedy_nil, List.nil_append] at hrest
  rwa [hrest]

/-- The first is kept. -/
theorem greedy_ne_nil {l : List α} (h : l ≠ []) : greedy hits l ≠ [] := by
  obtain ⟨a, l, rfl⟩ := List.exists_cons_of_ne_nil h
  obtain ⟨rest, hrest, -⟩ := greedy_append hits [a] l
  have hfirst : greedy hits [a] = [a] := rfl
  rw [← List.singleton_append, hrest, hfirst]
  exact List.cons_ne_nil _ _

/-- Filtering commutes with the selection when what passes the filter comes first. -/
theorem greedy_filter_append {p : α → Bool} {l l' : List α} (hl : ∀ a ∈ l, p a = true)
    (hl' : ∀ a ∈ l', p a = false) : (greedy hits (l ++ l')).filter p = greedy hits l := by
  obtain ⟨rest, hrest, hsub⟩ := greedy_append hits l l'
  have hkept : (greedy hits l).filter p = greedy hits l :=
    List.filter_eq_self.mpr fun a ha => hl a ((greedy_sublist l).subset ha)
  have hdropped : rest.filter p = [] :=
    List.filter_eq_nil_iff.mpr fun a ha => by simp [hl' a (hsub.subset ha)]
  rw [hrest, List.filter_append, hkept, hdropped, List.append_nil]

/-- Filtering commutes with the selection when nothing hits across the filter. -/
theorem greedy_filter {p : α → Bool} (hsep : ∀ a b, hits a b = true → p a = p b) (l : List α) :
    (greedy hits l).filter p = greedy hits (l.filter p) := by
  induction l using List.reverseRecOn with
  | nil => rfl
  | append_singleton l a ih =>
      rw [List.filter_append, greedy_concat]
      cases hp : p a with
      | false =>
          rw [List.filter_singleton, hp, cond_false, List.append_nil, ← ih]
          split
          case isTrue => rfl
          case isFalse => simp [List.filter_append, hp]
      | true =>
          -- what hits `a` passes the filter, as `a` does
          have hany : ((greedy hits l).filter p).any (hits · a) =
              (greedy hits l).any (hits · a) := by
            rw [List.any_filter]
            refine congrArg (List.any _) (funext fun b => ?_)
            cases hb : hits b a with
            | false => exact Bool.and_false _
            | true => rw [hsep b a hb, hp, Bool.and_self]
          rw [List.filter_singleton, hp, cond_true, greedy_concat, ← ih, hany]
          split
          case isTrue => rfl
          case isFalse => simp [List.filter_append, hp]

/-- One element of a sweep: when it is not marked, it is kept and marks the later ones it
hits. -/
def sweepStep (hits : α → α → Bool) (l : List α) :
    List α × Vector Bool l.length → Fin l.length → List α × Vector Bool l.length :=
  fun (kept, removed) i =>
    if removed[i] then (kept, removed)
    else (kept ++ [l[i]],
      ((List.finRange l.length).drop (i + 1)).foldl
        (fun removed j =>
          if removed[j] then removed
          else if hits l[i] l[j] then removed.set j true else removed)
        removed)

/-- Greedy selection by marking. -/
def sweep (hits : α → α → Bool) (l : List α) : List α :=
  ((List.finRange l.length).foldl (sweepStep hits l) ([], Vector.replicate l.length false)).1

/-- What one kept element marks. -/
theorem foldl_mark_get {n : ℕ} (hit : Fin n → Bool) (js : List (Fin n)) :
    ∀ (removed : Vector Bool n) (j : Fin n),
      (js.foldl (fun removed j =>
        if removed[j] then removed
        else if hit j then removed.set j true else removed) removed)[j] =
        (removed[j] || decide (j ∈ js) && hit j) := by
  induction js with
  | nil => simp
  | cons i js ih =>
      intro removed j
      rw [List.foldl_cons, ih]
      have hone : (if removed[i] then removed
          else if hit i then removed.set i true else removed)[j] =
          (removed[j] || decide (j = i) && hit j) := by
        by_cases hij : j = i
        · subst hij
          cases hr : removed[j] <;> cases hh : hit j <;> simp_all
        · have hne : (i : ℕ) ≠ j := fun h => hij (Fin.ext h.symm)
          split <;> try split
          all_goals simp [hij, hne]
      rw [hone, Bool.or_assoc, ← Bool.and_or_distrib_right]
      simp [List.mem_cons]

/-- A property of the elements gone through and the state, kept by every step of a fold. -/
theorem foldl_inv {β : Type} {f : β → α → β} (P : List α → β → Prop) :
    ∀ {l : List α} {b : β}, P [] b →
      (∀ pre a post b, l = pre ++ a :: post → P pre b → P (pre ++ [a]) (f b a)) →
      P l (l.foldl f b) := by
  intro l
  induction l using List.reverseRecOn with
  | nil => exact fun h _ => h
  | append_singleton l a ih =>
      intro b h0 hstep
      rw [List.foldl_append]
      refine hstep l a [] _ rfl (ih h0 fun pre a' post b hl => ?_)
      exact hstep pre a' (post ++ [a]) b (by simp [hl])

theorem mem_drop_finRange {n : ℕ} {i j : Fin n} (h : i < j) :
    j ∈ (List.finRange n).drop (i + 1) := by
  refine List.mem_drop_iff_getElem.mpr ⟨j - (i + 1), by simp; omega, ?_⟩
  rw [List.getElem_finRange]
  exact Fin.ext (by simp; omega)

/-- Counting up to `n`, as many come before `i` as `i` says. -/
theorem length_before {n : ℕ} {i : Fin n} {pre post : List (Fin n)}
    (h : List.finRange n = pre ++ i :: post) : pre.length = i := by
  have hget : (List.finRange n)[pre.length]? = some i := by simp [h]
  have hlt : pre.length < n := by
    have := congrArg List.length h
    simp at this
    omega
  simp [hlt] at hget
  exact congrArg Fin.val hget

/-- Half way through a sweep: kept is the greedy selection of what has been looked at, and
the marks ahead tell what it hits. -/
def Swept (hits : α → α → Bool) (l : List α) (pre : List (Fin l.length))
    (st : List α × Vector Bool l.length) : Prop :=
  st.1 = greedy hits (pre.map l.get) ∧
    ∀ j : Fin l.length, pre.length ≤ j → st.2[j] = st.1.any (hits · l[j])

theorem Swept.step {l : List α} {pre post : List (Fin l.length)} {i : Fin l.length}
    {st : List α × Vector Bool l.length} (hl : List.finRange l.length = pre ++ i :: post)
    (h : Swept hits l pre st) : Swept hits l (pre ++ [i]) (sweepStep hits l st i) := by
  obtain ⟨kept, removed⟩ := st
  obtain ⟨hkept, hmarks⟩ := h
  have hlen := length_before hl
  simp only at hkept hmarks
  have hi : removed[i] = kept.any (hits · l[i]) := hmarks i (Nat.le_of_eq hlen)
  have hgreedy : greedy hits ((pre ++ [i]).map l.get) =
      if kept.any (hits · l[i]) then kept else kept ++ [l[i]] := by
    rw [List.map_append, List.map_singleton, greedy_concat, ← hkept]
    rfl
  cases hr : removed[i] with
  | true =>
      rw [hr] at hi
      refine ⟨?_, fun j hj => ?_⟩
      · rw [hgreedy, ← hi]
        simp [sweepStep, hr]
      · simp only [sweepStep, hr, if_true]
        exact hmarks j (by simp at hj; omega)
  | false =>
      rw [hr] at hi
      refine ⟨?_, fun j hj => ?_⟩
      · rw [hgreedy, ← hi]
        simp [sweepStep, hr]
      · have hj : i < j := by simp at hj; omega
        simp only [sweepStep, hr, Bool.false_eq_true, if_false]
        rw [foldl_mark_get, hmarks j (by omega)]
        simp [mem_drop_finRange hj]

/-- Marking forward keeps what looking back keeps. -/
theorem sweep_eq_greedy (hits : α → α → Bool) (l : List α) : sweep hits l = greedy hits l := by
  have hall : Swept hits l (List.finRange l.length)
      ((List.finRange l.length).foldl (sweepStep hits l) ([], Vector.replicate _ false)) :=
    foldl_inv (Swept hits l) ⟨rfl, fun j _ => by simp⟩ fun pre i post st hl h => h.step hl
  have hkept := hall.1
  rwa [List.map_get_finRange] at hkept

end Greedy

end Selection
