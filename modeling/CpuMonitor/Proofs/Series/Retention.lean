import CpuMonitor.Series.Basic

/-!
# What a series retains

* `InOrder l` : the times of `l` never go back.
* `appendAll s l` : the snapshots of `l` appended to `s`, one after the other.
* `retained d l` : the part of a history that is not older than its last snapshot by more than `d`.
* `Retains s history` : `s` holds exactly the retained part of its history; one append keeps this (`Retains.append`),
  and so does any run of appends (`Retains.appendAll`).
* `appendAll_empty_exact` : what an empty series holds after any run of appends.
-/

set_option autoImplicit false

namespace CpuMonitor.TimeSeries
variable {κ : Type} [Ord κ]

/-! ## Histories -/

/-- The times never go back; two snapshots may have the same one. -/
def InOrder (l : List (Snapshot κ)) : Prop := l.Pairwise fun a b => a.time ≤ b.time

def appendAll (s : TimeSeries κ) (l : List (Snapshot κ)) : TimeSeries κ := l.foldl append s

theorem appendAll_append (s : TimeSeries κ) (l m : List (Snapshot κ)) :
    s.appendAll (l ++ m) = (s.appendAll l).appendAll m := List.foldl_append

/-- The snapshots that are not older at `now` than `d`. -/
def recent (d : Duration) (now : Instant) (l : List (Snapshot κ)) : List (Snapshot κ) :=
  l.filter fun x => now.since x.time ≤ d

/-- The snapshots that are not older than the last one by more than `d`. -/
def retained (d : Duration) (history : List (Snapshot κ)) : List (Snapshot κ) :=
  history.filter fun x => history.getLast?.all fun last => last.time.since x.time ≤ d

theorem retained_concat (d : Duration) (l : List (Snapshot κ)) (x : Snapshot κ) :
    retained d (l ++ [x]) = recent d x.time (l ++ [x]) := by
  unfold retained recent
  rw [List.getLast?_concat]
  rfl

theorem recent_concat_self (d : Duration) (l : List (Snapshot κ)) (x : Snapshot κ) :
    recent d x.time (l ++ [x]) = recent d x.time l ++ [x] := by
  have hx : x.time.since x.time ≤ d := Instant.since_le_iff.2 (by omega)
  unfold recent
  rw [List.filter_append, List.filter_cons_of_pos (by simpa using hx), List.filter_nil]

theorem recent_retained (d : Duration) (history : List (Snapshot κ)) (now : Instant)
    (h : ∀ last ∈ history.getLast?, last.time ≤ now) : recent d now (retained d history) = recent d now history := by
  unfold recent retained
  rw [List.filter_filter]
  apply List.filter_congr
  intro x _
  cases hl : history.getLast? with
  | none => simp
  | some last =>
    have hle : last.time.since x.time ≤ now.since x.time := Instant.since_le_since_of_le (h last hl)
    by_cases hx : now.since x.time ≤ d
    · simp [hx, Duration.le_trans hle hx]
    · simp [hx]

/-- The snapshots that are too old stand in front of all others. -/
theorem dropWhile_eq_recent (d : Duration) (now : Instant) :
    ∀ l : List (Snapshot κ), InOrder l → l.dropWhile (fun old => d < now.since old.time) = recent d now l
  | [], _ => rfl
  | x :: l, h => by
    obtain ⟨hx, hl⟩ := List.pairwise_cons.1 h
    by_cases hold : d < now.since x.time
    · have hnot : ¬ now.since x.time ≤ d := fun hle => Duration.not_lt.2 hle hold
      rw [List.dropWhile_cons_of_pos (by simpa using hold), dropWhile_eq_recent d now l hl]
      unfold recent
      rw [List.filter_cons_of_neg (by simpa using hnot)]
    · -- the first snapshot stays, and no later one is older
      have hle : now.since x.time ≤ d := Duration.not_lt.1 hold
      rw [List.dropWhile_cons_of_neg (by simpa using hold)]
      symm
      unfold recent
      rw [List.filter_eq_self]
      intro y hy
      rcases List.mem_cons.1 hy with rfl | hy
      · simpa using hle
      · simpa using Duration.le_trans (Instant.since_le_since_of_ge (hx y hy)) hle

/-! ## The invariant -/

/-- A series holds exactly the retained part of what was appended to it, in order. -/
structure Retains (s : TimeSeries κ) (history : List (Snapshot κ)) : Prop where
  inOrder : InOrder history
  snapshots_eq : s.snapshots = retained s.retention history

theorem Retains.empty (retention interval : Duration) : Retains (empty (κ := κ) retention interval) [] :=
  ⟨List.Pairwise.nil, rfl⟩

theorem Retains.append {s : TimeSeries κ} {history : List (Snapshot κ)} (h : Retains s history) {x : Snapshot κ}
    (hx : InOrder (history ++ [x])) : Retains (s.append x) (history ++ [x]) := by
  have hlast : ∀ last ∈ history.getLast?, last.time ≤ x.time := fun last hl =>
    (List.pairwise_append.1 hx).2.2 last (List.mem_of_getLast? hl) x (List.mem_singleton_self x)
  have hsub : InOrder s.snapshots := by
    rw [h.snapshots_eq]
    exact h.inOrder.sublist List.filter_sublist
  refine ⟨hx, ?_⟩
  calc (s.append x).snapshots
      = s.snapshots.dropWhile (fun old => s.retention < x.time.since old.time) ++ [x] := rfl
    _ = recent s.retention x.time s.snapshots ++ [x] := by rw [dropWhile_eq_recent _ _ _ hsub]
    _ = recent s.retention x.time history ++ [x] := by rw [h.snapshots_eq, recent_retained _ _ _ hlast]
    _ = retained s.retention (history ++ [x]) := by rw [retained_concat, recent_concat_self]

theorem Retains.appendAll {s : TimeSeries κ} {history : List (Snapshot κ)} (h : Retains s history) :
    ∀ {l : List (Snapshot κ)}, InOrder (history ++ l) → Retains (s.appendAll l) (history ++ l) := by
  intro l
  induction l generalizing s history with
  | nil =>
    intro _
    rw [List.append_nil]
    exact h
  | cons x l ih =>
    intro hl
    rw [List.append_cons] at hl ⊢
    exact ih (h.append (hl.sublist (List.sublist_append_left _ _))) hl

theorem latest?_append (s : TimeSeries κ) (x : Snapshot κ) : (s.append x).latest? = some x := List.getLast?_concat

@[simp] theorem retention_appendAll (s : TimeSeries κ) (l : List (Snapshot κ)) :
    (s.appendAll l).retention = s.retention := by
  induction l generalizing s with
  | nil => rfl
  | cons x l ih => exact ih (s.append x)

@[simp] theorem interval_appendAll (s : TimeSeries κ) (l : List (Snapshot κ)) :
    (s.appendAll l).interval = s.interval := by
  induction l generalizing s with
  | nil => rfl
  | cons x l ih => exact ih (s.append x)

theorem latest?_appendAll_empty (retention interval : Duration) (l : List (Snapshot κ)) :
    ((empty retention interval).appendAll l).latest? = l.getLast? := by
  rcases List.eq_nil_or_concat l with rfl | ⟨l, x, rfl⟩
  · rfl
  · rw [List.concat_eq_append, appendAll_append, List.getLast?_concat]
    exact latest?_append _ x

/-- **What is retained.** A series holds those appended to it that are not older than the last one by more than the
retention. -/
theorem appendAll_empty_exact (retention interval : Duration) (l : List (Snapshot κ)) (h : InOrder l) :
    ((empty retention interval).appendAll l).snapshots =
        l.filter (fun x => l.getLast?.all fun last => last.time.since x.time ≤ retention) ∧
      ((empty retention interval).appendAll l).latest? = l.getLast? := by
  refine ⟨?_, latest?_appendAll_empty retention interval l⟩
  have hret := (Retains.empty retention interval).appendAll h
  rw [List.nil_append] at hret
  rw [hret.snapshots_eq, retention_appendAll]
  rfl

/-- A snapshot as old as the retention stays, and so do two of one time. -/
theorem appendAll_empty_exact_edge :
    let l : List (Snapshot Nat) := [⟨⟨0⟩, .ofList []⟩, ⟨⟨10⟩, .ofList [(7, .ofNat 1)]⟩, ⟨⟨10⟩, .ofList []⟩,
      ⟨⟨70⟩, .ofList [(7, .ofNat 2)]⟩]
    InOrder l ∧ ((empty ⟨60⟩ ⟨1⟩).appendAll l).snapshots = l.tail := by
  intro l
  have h : InOrder l := by unfold InOrder l; decide
  exact ⟨h, (appendAll_empty_exact ⟨60⟩ ⟨1⟩ l h).1.trans (by decide +kernel)⟩

end CpuMonitor.TimeSeries
