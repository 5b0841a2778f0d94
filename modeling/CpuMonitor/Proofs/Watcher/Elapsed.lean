import CpuMonitor.Proofs.Metric.Steps
import CpuMonitor.Proofs.Series.Pruning
import CpuMonitor.Proofs.Watcher.Utilization

/-!
# The time behind a rate

A window is counted in samples. A sample that fails leaves no snapshot, so a rate may reach back over more time than its
window has.

* `Instant.gridPoint` : the times of the samples of a watcher that is never late.
* `failedTimes`, `failuresBetween` : the samples of a trace that failed, and how many of them lie between two instants.
* `sampleTimes_perm` : each sample of a script either succeeds or fails.
* `since_of_grid` : between two successful samples lie as many intervals as samples, whether these failed or not.
* `elapsed_of_rate` : how much time lies between them, and when this is more than the window.
-/

set_option autoImplicit false

namespace CpuMonitor

/-! ## Samples on a grid -/

/-- The time of the `n`th sample from `start` on, counted from zero. -/
def Instant.gridPoint (start : Instant) (interval : Duration) (n : Nat) : Instant :=
  start + (⟨n * interval.nanoseconds⟩ : Duration)

theorem Instant.gridPoint_lt (start : Instant) {interval : Duration} (hpos : 0 < interval.nanoseconds) {m n : Nat}
    (h : m < n) : start.gridPoint interval m < start.gridPoint interval n := by
  have hmul := Nat.mul_lt_mul_of_pos_right h hpos
  show start.nanoseconds + ((m * interval.nanoseconds : Nat) : Int) <
    start.nanoseconds + ((n * interval.nanoseconds : Nat) : Int)
  omega

theorem Instant.pairwise_gridPoint (start : Instant) {interval : Duration} (hpos : 0 < interval.nanoseconds) (n : Nat) :
    ((List.range n).map (start.gridPoint interval)).Pairwise (· < ·) :=
  List.pairwise_map.2 (List.pairwise_lt_range.imp fun h => start.gridPoint_lt hpos h)

theorem Instant.since_gridPoint (start : Instant) (interval : Duration) (m n : Nat) :
    (start.gridPoint interval n).since (start.gridPoint interval m) = ⟨(n - m) * interval.nanoseconds⟩ := by
  show (⟨((start.nanoseconds + ((n * interval.nanoseconds : Nat) : Int)) -
    (start.nanoseconds + ((m * interval.nanoseconds : Nat) : Int))).toNat⟩ : Duration) = _
  rw [Nat.sub_mul]
  congr 1
  omega

theorem Instant.gridPoint_lt_iff {start : Instant} {interval : Duration} (hpos : 0 < interval.nanoseconds) {m n : Nat} :
    start.gridPoint interval m < start.gridPoint interval n ↔ m < n := by
  rw [← Instant.since_pos_iff, Instant.since_gridPoint]
  show 0 < (n - m) * interval.nanoseconds ↔ m < n
  rw [Nat.mul_pos_iff_of_pos_right hpos]
  omega

section Counting
variable (l : List Instant) {t u : Instant}

theorem countP_lt_eq_add (h : t ≤ u) : l.countP (fun x => decide (x < u)) =
    l.countP (fun x => decide (x < t)) + l.countP (fun x => decide (t ≤ x ∧ x < u)) := by
  induction l with
  | nil => rfl
  | cons x l ih =>
    rw [List.countP_cons, List.countP_cons, List.countP_cons, ih]
    by_cases hx : x < t
    · have hu := Instant.lt_of_lt_of_le hx h
      have ht : ¬ t ≤ x := Instant.not_le.2 hx
      simp only [hx, hu, ht, false_and, decide_true, decide_false, if_true, Bool.false_eq_true, if_false]
      omega
    · have ht : t ≤ x := Decidable.not_not.1 fun hn => hx (Instant.not_le.1 hn)
      simp only [hx, ht, true_and, decide_false, Bool.false_eq_true, if_false]
      omega

end Counting

section Grid
variable {start : Instant} {interval : Duration} {n : Nat} {succeeded failed : List Instant}

/-- The place of a successful sample on the grid: one more for each sample before it. -/
theorem eq_gridPoint (hpos : 0 < interval.nanoseconds)
    (hsub : succeeded.Sublist ((List.range n).map (start.gridPoint interval)))
    (hperm : ((List.range n).map (start.gridPoint interval)).Perm (succeeded ++ failed)) {m : Nat} {t : Instant}
    (ht : succeeded[m]? = some t) :
    t = start.gridPoint interval (m + failed.countP fun x => decide (x < t)) := by
  have hgrid := start.pairwise_gridPoint hpos n
  obtain ⟨i, hi, rfl⟩ := List.mem_map.1 (hsub.subset (List.mem_of_getElem? ht))
  have hget : ((List.range n).map (start.gridPoint interval))[i]? = some (start.gridPoint interval i) := by
    rw [List.getElem?_map, List.getElem?_range (List.mem_range.1 hi)]
    rfl
  -- before it on the grid stand the successful samples before it, of which there are `m`, and the failed ones
  have hplace := countP_eq_of_getElem? Instant.not_lt_of_lt hgrid hget
  have hdone := countP_eq_of_getElem? Instant.not_lt_of_lt (hgrid.sublist hsub) ht
  rw [hperm.countP_eq, List.countP_append, hdone] at hplace
  rw [hplace]

/-- Between successful samples pass as many intervals, and one more for each that failed. -/
theorem since_of_grid (hpos : 0 < interval.nanoseconds)
    (hsub : succeeded.Sublist ((List.range n).map (start.gridPoint interval)))
    (hperm : ((List.range n).map (start.gridPoint interval)).Perm (succeeded ++ failed)) {a b : Nat} (hab : a ≤ b)
    {t u : Instant} (ht : succeeded[a]? = some t) (hu : succeeded[b]? = some u) :
    u.since t = ⟨(b - a + failed.countP fun x => decide (t ≤ x ∧ x < u)) * interval.nanoseconds⟩ := by
  have hgrid := start.pairwise_gridPoint hpos n
  have hle : t ≤ u := by
    rcases Nat.lt_or_eq_of_le hab with hlt | rfl
    · obtain ⟨ha, rfl⟩ := List.getElem?_eq_some_iff.1 ht
      obtain ⟨hb, rfl⟩ := List.getElem?_eq_some_iff.1 hu
      exact Int.le_of_lt (List.pairwise_iff_getElem.1 (hgrid.sublist hsub) a b ha hb hlt)
    · obtain rfl : t = u := Option.some.inj (ht.symm.trans hu)
      exact Int.le_refl _
  have hcount := countP_lt_eq_add failed hle
  have hfrom := eq_gridPoint hpos hsub hperm ht
  have hto := eq_gridPoint hpos hsub hperm hu
  generalize failed.countP (fun x => decide (t ≤ x ∧ x < u)) = between at hcount ⊢
  generalize failed.countP (fun x => decide (x < t)) = before at hcount hfrom
  generalize failed.countP (fun x => decide (x < u)) = before' at hcount hto
  rw [hfrom, hto, Instant.since_gridPoint, hcount]
  congr 2
  omega

end Grid

namespace Watcher

def failedTimes (trace : List (Event × Reply)) : List Instant :=
  trace.filterMap fun p => if p.2.recorded then none else sampleTime? p.1

def failuresBetween (t u : Instant) (trace : List (Event × Reply)) : Nat :=
  (failedTimes trace).countP fun x => decide (t ≤ x ∧ x < u)

theorem failedTimes_cons (p : Event × Reply) (trace : List (Event × Reply)) : failedTimes (p :: trace) =
    (if p.2.recorded then none else sampleTime? p.1).toList ++ failedTimes trace := by
  unfold failedTimes
  rw [List.filterMap_cons]
  generalize (if p.2.recorded then none else sampleTime? p.1) = time
  cases time <;> rfl

theorem sampleTimes_perm : ∀ {w : Watcher}, w.selection.samples = true → ∀ events : List Event,
    (events.filterMap sampleTime?).Perm ((readings (w.trace events)).map (·.time) ++ failedTimes (w.trace events))
  | _, _, [] => .nil
  | w, hs, e :: events => by
    have ih := sampleTimes_perm (w := (w.perform e).2) (by rw [selection_perform hs e, hs]) events
    rw [trace_cons, readings_cons, failedTimes_cons, List.map_append, List.filterMap_cons]
    cases e with
    | sample query time =>
      rcases sample_cases hs query time with ⟨cores, -, rfl, -, hw⟩ | ⟨e, w', hw, -, -⟩
      · simp only [perform, hw] at ih ⊢
        exact ih.cons time
      · simp only [perform, hw, Reading.ofStep?] at ih ⊢
        show (time :: _).Perm ((readings (w'.trace events)).map (·.time) ++ time :: failedTimes (w'.trace events))
        exact (ih.cons time).trans List.perm_middle.symm
    | release late => exact ih
    | report load => exact ih
    | means now => exact ih

/-! ## A watcher that is never late -/

theorem steps_standardInterval (win : Window) : win.steps standardInterval = 12 * win.minutes := by
  have hdvd : 5 ∣ win.minutes * 60 := ⟨12 * win.minutes, by omega⟩
  unfold standardInterval
  rw [Window.steps_of_dvd win (by decide) (by decide) hdvd]
  omega

theorem since_of_places {w : Watcher} (hs : w.selection.samples = true) {start : Instant} {interval : Duration}
    (hpos : 0 < interval.nanoseconds) {events : List Event} {n : Nat}
    (grid : events.filterMap sampleTime? = (List.range n).map (start.gridPoint interval))
    {history : List (Snapshot MetricKey)} {kinds : OrderedSet Kind}
    (hhist : history = (readings (w.trace events)).map (·.snapshot kinds)) {m : Nat} (hm : 1 ≤ m)
    (hn : m ≤ history.length) {first last : Snapshot MetricKey} (hfirst : history[history.length - m]? = some first)
    (hlast : history.getLast? = some last) : last.time.since first.time =
      ⟨(m - 1 + failuresBetween first.time last.time (w.trace events)) * interval.nanoseconds⟩ := by
  have hsub := times_readings_sublist w events
  have hperm := sampleTimes_perm hs events
  rw [grid] at hsub hperm
  have htime : ∀ {i : Nat} {x : Snapshot MetricKey}, history[i]? = some x →
      ((readings (w.trace events)).map (·.time))[i]? = some x.time := by
    intro i x hx
    rw [hhist, List.getElem?_map, Option.map_eq_some_iff] at hx
    obtain ⟨r, hr, rfl⟩ := hx
    rw [List.getElem?_map, hr]
    rfl
  rw [List.getLast?_eq_getElem?] at hlast
  have hsince := since_of_grid hpos hsub hperm (by omega) (htime hfirst) (htime hlast)
  have hplaces : history.length - 1 - (history.length - m) = m - 1 := by omega
  rw [hsince, hplaces]
  rfl

/-- **The time behind a rate** is that of the samples of the window, less one, and one interval more for each failed
sample in between. -/
theorem elapsed_of_rate (selection : Selection) (start : Instant) (events : List Event) (n : Nat)
    (grid : events.filterMap sampleTime? = (List.range n).map (start.gridPoint standardInterval))
    (load : Except HostError LoadAverage) (k : Kind) (win : Window) (scope : Scope) (v : Binary64)
    (hv : (((new selection).after events).report load).value.measurements.get? (.utilization k win scope) =
      some (some v)) :
    let series := ((new selection).after events).series
    ∃ first last value, series.reference? win = some first ∧ series.latest? = some last ∧
      last.values.get? ⟨k, scope⟩ = some value ∧ TimeSeries.rateBetween first last ⟨k, scope⟩ value = some v ∧
      let elapsed := last.time.since first.time
      let failures := failuresBetween first.time last.time ((new selection).trace events)
      elapsed = ⟨(12 * win.minutes - 1 + failures) * standardInterval.nanoseconds⟩ ∧
      (elapsed ≤ win.duration ↔ failures ≤ 1) ∧
      ∃ longest ∈ selection.windows, elapsed ≤ longest.duration := by
  obtain ⟨hsw, hwin, first, last, value, hfirst, hlast, hvalue, hrate⟩ := measured_of_report hv
  have hsel : ((new selection).after events).selection = selection := selection_unchanged (new selection) events
  rw [hsel] at hsw hwin
  refine ⟨first, last, value, hfirst, hlast, hvalue, hrate, ?_⟩
  let done := readings ((new selection).trace events)
  let history := done.map (·.snapshot selection.kinds)
  have hser : ((new selection).after events).series =
      (TimeSeries.empty (TimeSeries.longest selection.windows) standardInterval).appendAll history :=
    series_after events hsw
  have hpos : 0 < standardInterval.nanoseconds := by decide
  have ordered : (events.filterMap sampleTime?).Pairwise (· ≤ ·) := by
    rw [grid]
    exact (start.pairwise_gridPoint hpos n).imp Int.le_of_lt
  rw [hser] at hfirst hlast
  obtain ⟨hn, hfirst, hlast, hage⟩ :=
    TimeSeries.reached_of_reference? (inOrder_readings (new selection) ordered selection.kinds) hfirst hlast
  rw [steps_standardInterval] at hn hfirst
  have hminutes := win.pos
  have helapsed := since_of_places hsw hpos grid rfl (by omega) hn hfirst hlast
  refine ⟨helapsed, ?_, ?_⟩
  · rw [helapsed]
    show (12 * win.minutes - 1 + _) * 5000000000 ≤ win.minutes * 60 * 1000000000 ↔ _
    omega
  · obtain ⟨longest, hmem, heq⟩ := TimeSeries.exists_longest hwin
    exact ⟨longest, hmem, heq ▸ hage⟩

def userMinutes : Selection :=
  { userMinute with windows := userMinute.windows.insert ⟨2, by decide, by decide⟩ }

def gappedScript : List Event := (List.range 14).map fun n =>
  .sample (if n = 5 ∨ n = 6 then .failed (.parse "/proc/stat" "no per-core cpu lines") else .cores (coresOf [n]))
    (Instant.gridPoint ⟨0⟩ standardInterval n)

/-- The user time of one minute, measured over 65 seconds. -/
theorem elapsed_of_rate_of_gapped :
    let w := (new userMinutes).after gappedScript
    let minute : Window := ⟨1, by decide, by decide⟩
    gappedScript.filterMap sampleTime? = (List.range 14).map (Instant.gridPoint ⟨0⟩ standardInterval) ∧
    (w.report (.error (.io "loadavg" "gone"))).value.measurements.get? (.utilization .user minute .total) =
      some (some (.ofNat 2 / .ofNat 10)) ∧
    ∃ first last, w.series.reference? minute = some first ∧ w.series.latest? = some last ∧
      last.time.since first.time = .ofSeconds 65 ∧ ¬ last.time.since first.time ≤ minute.duration := by
  intro w minute
  have grid : gappedScript.filterMap sampleTime? = (List.range 14).map (Instant.gridPoint ⟨0⟩ standardInterval) := by
    decide
  have hv : (w.report (.error (.io "loadavg" "gone"))).value.measurements.get? (.utilization .user minute .total) =
      some (some (.ofNat 2 / .ofNat 10)) := by decide +kernel
  have hoccurs : w.series.reference? minute = some (Reading.snapshot userMinutes.kinds ⟨⟨0⟩, coresOf [0]⟩) ∧
      w.series.latest? = some (Reading.snapshot userMinutes.kinds ⟨⟨65000000000⟩, coresOf [13]⟩) := by decide +kernel
  obtain ⟨first, last, value, hfirst, hlast, -, -, helapsed, hwithin, -⟩ :=
    elapsed_of_rate userMinutes ⟨0⟩ gappedScript 14 grid (.error (.io "loadavg" "gone")) .user minute .total _ hv
  obtain rfl := Option.some.inj (hfirst.symm.trans hoccurs.1)
  obtain rfl := Option.some.inj (hlast.symm.trans hoccurs.2)
  have hfailures : failuresBetween ⟨0⟩ ⟨65000000000⟩ ((new userMinutes).trace gappedScript) = 2 := by decide +kernel
  refine ⟨grid, hv, _, _, hfirst, hlast, helapsed.trans ?_, fun hle => ?_⟩
  · show (⟨(12 * 1 - 1 + failuresBetween ⟨0⟩ ⟨65000000000⟩ _) * _⟩ : Duration) = _
    rw [hfailures]
    rfl
  · have hone : failuresBetween ⟨0⟩ ⟨65000000000⟩ ((new userMinutes).trace gappedScript) ≤ 1 := hwithin.1 hle
    rw [hfailures] at hone
    exact absurd hone (by decide)

/-- A rate can be measured over more time than its window has. -/
theorem not_elapsed_le_window :
    ¬ ∀ (selection : Selection) (start : Instant) (events : List Event) (n : Nat),
      events.filterMap sampleTime? = (List.range n).map (start.gridPoint standardInterval) →
      ∀ (load : Except HostError LoadAverage) (k : Kind) (win : Window) (scope : Scope) (v : Binary64),
        (((new selection).after events).report load).value.measurements.get? (.utilization k win scope) =
          some (some v) →
        ∀ first last, ((new selection).after events).series.reference? win = some first →
          ((new selection).after events).series.latest? = some last → last.time.since first.time ≤ win.duration := by
  intro h
  have hle := h userMinutes ⟨0⟩ gappedScript 14 (by decide) (.error (.io "loadavg" "gone")) .user
    ⟨1, by decide, by decide⟩ .total (.ofNat 2 / .ofNat 10) (by decide +kernel)
    (Reading.snapshot userMinutes.kinds ⟨⟨0⟩, coresOf [0]⟩)
    (Reading.snapshot userMinutes.kinds ⟨⟨65000000000⟩, coresOf [13]⟩) (by decide +kernel) (by decide +kernel)
  exact absurd hle (by decide)

end Watcher

end CpuMonitor
