import CpuMonitor.Proofs.Series.Retention
import CpuMonitor.Watcher.Report

/-!
# Scripts of a watcher

What happens to a watcher in time: samples, abandoned queries that come back, and reads.

* `Event`, `Watcher.perform` : one thing that happens, and the reply to it.
* `Watcher.after`, `Watcher.trace` : the watcher after a script, and the events of a script with their replies.
* `Reading`, `readings` : what the successful samples of a trace read.
* `sample_cases` : all that a sample can do.
* `series_perform`, `series_after` : the series after an event and after a script, from the readings alone.
* `Agree`, `Agree.after_successes` : a watcher that meets only the successful samples of a script has the same series.
-/

set_option autoImplicit false

namespace CpuMonitor

/-! ## Events and replies -/

inductive Event where
  /-- A sample, from a query that ends so, under a given time or that of the clock. -/
  | sample (query : QueryOutcome) (time : Instant)
  /-- The abandoned query comes back and tells this. -/
  | release (late : Except HostError (List CpuTimes))
  | report (load : Except HostError LoadAverage)
  | means (now : Instant)

inductive Reply where
  | sampled (result : Except WatcherError Unit)
  | released
  | reported (report : Logged Report)
  | told (means : Means MetricKey)

def Reply.recorded : Reply → Bool
  | .sampled (.ok _) => true
  | _ => false

namespace Watcher

def perform (w : Watcher) : Event → Reply × Watcher
  | .sample query time => (.sampled (w.sample query time).1, (w.sample query time).2)
  | .release _ => (.released, w.release)
  | .report load => (.reported (w.report load), w)
  | .means now => (.told (w.means now), w)

def after (w : Watcher) (events : List Event) : Watcher := events.foldl (fun w e => (w.perform e).2) w

/-- The events of a script, each with the reply to it. -/
def trace (w : Watcher) : List Event → List (Event × Reply)
  | [] => []
  | e :: events => (e, (w.perform e).1) :: (w.perform e).2.trace events

end Watcher

/-- What one successful sample read, and when. -/
structure Reading where
  time : Instant
  cores : List CpuTimes
  deriving DecidableEq

namespace Reading

def snapshot (kinds : OrderedSet Kind) (r : Reading) : Snapshot MetricKey := ⟨r.time, sampleValues r.cores kinds⟩

def ofStep? : Event × Reply → Option Reading
  | (.sample (.cores cores) time, .sampled (.ok _)) => some ⟨time, cores⟩
  | _ => none

end Reading

/-- The readings of the successful samples of a trace, in order. -/
def readings (trace : List (Event × Reply)) : List Reading := trace.filterMap Reading.ofStep?

theorem readings_cons (p : Event × Reply) (trace : List (Event × Reply)) :
    readings (p :: trace) = (Reading.ofStep? p).toList ++ readings trace := by
  unfold readings
  rw [List.filterMap_cons]
  cases Reading.ofStep? p <;> rfl

/-- The script of the successful samples alone. -/
def successes (trace : List (Event × Reply)) : List Event := (trace.filter fun p => p.2.recorded).map Prod.fst

theorem successes_cons_of_recorded {p : Event × Reply} (h : p.2.recorded = true) (trace : List (Event × Reply)) :
    successes (p :: trace) = p.1 :: successes trace := by
  unfold successes
  rw [List.filter_cons_of_pos (by simpa using h), List.map_cons]

theorem successes_cons_of_not_recorded {p : Event × Reply} (h : p.2.recorded = false)
    (trace : List (Event × Reply)) : successes (p :: trace) = successes trace := by
  unfold successes
  rw [List.filter_cons_of_neg (by simp [h])]

namespace Watcher

/-! ## One event -/

theorem sample_cores {w : Watcher} (hs : w.selection.samples = true) (hi : w.inFlight = false) {cores : List CpuTimes}
    (hc : cores ≠ []) (time : Instant) : w.sample (.cores cores) time = (.ok (), w.ask.record cores time) := by
  unfold sample
  rw [hs, hi]
  cases cores with
  | nil => exact absurd rfl hc
  | cons t r => rfl

/-- A sample is recorded, or it fails and leaves the series as it is. -/
theorem sample_cases {w : Watcher} (hs : w.selection.samples = true) (query : QueryOutcome) (time : Instant) :
    (∃ cores, cores ≠ [] ∧ query = .cores cores ∧ w.inFlight = false ∧
      w.sample query time = (.ok (), w.ask.record cores time)) ∨
    (∃ e w', w.sample query time = (.error e, w') ∧ w'.selection = w.selection ∧ w'.series = w.series) := by
  cases hi : w.inFlight with
  | true => exact .inr ⟨.busy, w, by simp [sample, hs, hi], rfl, rfl⟩
  | false =>
    cases query with
    | cores cores =>
      by_cases hc : cores = []
      · exact .inr ⟨.noCores, w.ask, by simp [sample, hs, hi, hc], rfl, rfl⟩
      · exact .inl ⟨cores, hc, rfl, rfl, sample_cores hs hi hc time⟩
    | failed e => exact .inr ⟨.query e, w.ask, by simp [sample, hs, hi], rfl, rfl⟩
    | panicked => exact .inr ⟨.workerLost, w.ask, by simp [sample, hs, hi], rfl, rfl⟩
    | hung => exact .inr ⟨.timeout w.timeout, { w.ask with inFlight := true }, by simp [sample, hs, hi], rfl, rfl⟩
    | refused reason => exact .inr ⟨.spawn reason, w, by simp [sample, hs, hi], rfl, rfl⟩

theorem series_of_error {w : Watcher} (hs : w.selection.samples = true) {query : QueryOutcome} {time : Instant}
    {e : WatcherError} (h : (w.sample query time).1 = .error e) : (w.sample query time).2.series = w.series := by
  rcases sample_cases hs query time with ⟨cores, -, -, -, hw⟩ | ⟨e', w', hw, -, hser⟩
  · rw [hw] at h
    cases h
  · rw [hw]
    exact hser

theorem series_of_ok {w : Watcher} (hs : w.selection.samples = true) {query : QueryOutcome} {time : Instant}
    (h : (w.sample query time).1 = .ok ()) : ∃ cores, cores ≠ [] ∧ query = .cores cores ∧
      (w.sample query time).2.series = w.series.append ⟨time, sampleValues cores w.selection.kinds⟩ := by
  rcases sample_cases hs query time with ⟨cores, hc, hq, -, hw⟩ | ⟨e, w', hw, -, -⟩
  · refine ⟨cores, hc, hq, ?_⟩
    rw [hw]
    rfl
  · rw [hw] at h
    cases h

theorem selection_perform {w : Watcher} (hs : w.selection.samples = true) (e : Event) :
    (w.perform e).2.selection = w.selection := by
  cases e with
  | sample query time =>
    rcases sample_cases hs query time with ⟨cores, -, -, -, h⟩ | ⟨e, w', h, hsel, -⟩
    · simp only [perform, h]
      rfl
    · simp only [perform, h, hsel]
  | release late => rfl
  | report load => rfl
  | means now => rfl

/-- One event appends the snapshot of its reading, if it has one. -/
theorem series_perform {w : Watcher} (hs : w.selection.samples = true) (e : Event) :
    (w.perform e).2.series =
      w.series.appendAll ((Reading.ofStep? (e, (w.perform e).1)).toList.map (·.snapshot w.selection.kinds)) := by
  cases e with
  | sample query time =>
    rcases sample_cases hs query time with ⟨cores, -, rfl, -, h⟩ | ⟨e, w', h, -, hser⟩
    · simp only [perform, h]
      rfl
    · simp only [perform, h, hser, Reading.ofStep?]
      rfl
  | release late => rfl
  | report load => rfl
  | means now => rfl

/-! ## Scripts -/

theorem trace_cons (w : Watcher) (e : Event) (events : List Event) :
    w.trace (e :: events) = (e, (w.perform e).1) :: (w.perform e).2.trace events := rfl

theorem after_cons (w : Watcher) (e : Event) (events : List Event) :
    w.after (e :: events) = (w.perform e).2.after events := rfl

theorem selection_after : ∀ {w : Watcher} (events : List Event), w.selection.samples = true →
    (w.after events).selection = w.selection
  | _, [], _ => rfl
  | w, e :: events, hs => by
    have hsel := selection_perform hs e
    have ih := selection_after (w := (w.perform e).2) events (by rw [hsel, hs])
    exact ih.trans hsel

theorem selection_unchanged : ∀ (w : Watcher) (events : List Event), (w.after events).selection = w.selection
  | _, [] => rfl
  | w, e :: events => by
    have hsel : (w.perform e).2.selection = w.selection := by
      cases hs : w.selection.samples with
      | true => exact selection_perform hs e
      | false =>
        cases e with
        | sample query time =>
          show (w.sample query time).2.selection = w.selection
          unfold sample
          rw [hs]
          rfl
        | release late => rfl
        | report load => rfl
        | means now => rfl
    rw [after_cons, selection_unchanged, hsel]

theorem series_after : ∀ {w : Watcher} (events : List Event), w.selection.samples = true →
    (w.after events).series = w.series.appendAll ((readings (w.trace events)).map (·.snapshot w.selection.kinds))
  | _, [], _ => rfl
  | w, e :: events, hs => by
    have hsel := selection_perform hs e
    have ih := series_after (w := (w.perform e).2) events (by rw [hsel, hs])
    rw [trace_cons, readings_cons, List.map_append, TimeSeries.appendAll_append, ← series_perform hs e, ← hsel]
    exact ih

/-! ## Reports -/

/-- A report tells what the selection, the series and the load averages hold. -/
theorem report_congr {w w' : Watcher} (hsel : w'.selection = w.selection) (hser : w'.series = w.series)
    (load : Except HostError LoadAverage) : w'.report load = w.report load := by
  unfold report utilizationHalf loadHalf
  rw [hsel, hser]

/-! ## Scripts without what failed -/

/-- A watcher with the selection and the series of another, and no query out. -/
structure Agree (w w' : Watcher) : Prop where
  selection : w'.selection = w.selection
  series : w'.series = w.series
  idle : w'.inFlight = false

/-- An event that is no successful sample can be left out. -/
theorem Agree.leave_out {w w' : Watcher} (h : Agree w w') (hs : w.selection.samples = true) {e : Event}
    (he : (w.perform e).1.recorded = false) : Agree (w.perform e).2 w' := by
  refine ⟨h.selection.trans (selection_perform hs e).symm, h.series.trans ?_, h.idle⟩
  have hnone : Reading.ofStep? (e, (w.perform e).1) = none := by
    unfold Reading.ofStep?
    split
    · rename_i hp
      rw [(Prod.mk.inj hp).2] at he
      cases he
    · rfl
  rw [series_perform hs e, hnone]
  rfl

theorem Agree.perform {w w' : Watcher} (h : Agree w w') (hs : w.selection.samples = true) {e : Event}
    (he : (w.perform e).1.recorded = true) : Agree (w.perform e).2 (w'.perform e).2 := by
  cases e with
  | sample query time =>
    rcases sample_cases hs query time with ⟨cores, hc, rfl, -, hw⟩ | ⟨e, w₁, hw, -, -⟩
    · have hs' : w'.selection.samples = true := by rw [h.selection, hs]
      have hw' := sample_cores hs' h.idle hc time
      simp only [Watcher.perform, hw, hw']
      refine ⟨h.selection, ?_, h.idle⟩
      show w'.series.append _ = w.series.append _
      rw [h.series]
      show w.series.append ⟨time, sampleValues cores w'.selection.kinds⟩ = _
      rw [h.selection]
      rfl
    · simp only [Watcher.perform, hw] at he
      cases he
  | release late => cases he
  | report load => cases he
  | means now => cases he

theorem Agree.after_successes : ∀ {w w' : Watcher}, Agree w w' → w.selection.samples = true → ∀ events : List Event,
    Agree (w.after events) (w'.after (successes (w.trace events)))
  | _, _, h, _, [] => h
  | w, w', h, hs, e :: events => by
    have hs' : (w.perform e).2.selection.samples = true := by rw [selection_perform hs e, hs]
    rw [trace_cons, after_cons]
    cases he : (w.perform e).1.recorded with
    | true =>
      rw [successes_cons_of_recorded he, after_cons]
      exact (h.perform hs he).after_successes hs' events
    | false =>
      rw [successes_cons_of_not_recorded he]
      exact (h.leave_out hs he).after_successes hs' events

def userMinute : Selection := ⟨∅, .ofList [⟨1, by decide, by decide⟩], .ofList [.user]⟩

def twiceAMinute : Watcher := withTiming userMinute (.ofSeconds 30) (.ofSeconds 10)

/-- Cores that have spent so many seconds in each kind of state. -/
def coresOf (seconds : List Nat) : List CpuTimes := seconds.map fun n => .ofFn fun _ => .ofNat n

/-- Two samples that succeed, and between them one of each that fails. -/
def mixedScript : List Event :=
  [.sample (.cores (coresOf [10, 20])) ⟨0⟩, .sample .hung ⟨5000000000⟩, .sample (.cores (coresOf [11])) ⟨6000000000⟩,
    .release (.ok (coresOf [12])), .sample (.cores []) ⟨7000000000⟩, .sample (.failed (.io "stat" "gone")) ⟨8000000000⟩,
    .means ⟨8000000000⟩, .sample .panicked ⟨9000000000⟩, .sample (.refused "no memory") ⟨9000000000⟩,
    .report (.ok ⟨.ofNat 0, .ofNat 0, .ofNat 0⟩), .sample (.cores (coresOf [13, 26, 12])) ⟨30000000000⟩]

/-- **Failures leave no trace.** The successful samples alone lead to the same series and the same report. -/
theorem failures_leave_no_trace (selection : Selection) (interval timeout : Duration) (hs : selection.samples = true)
    (events : List Event) :
    let start := withTiming selection interval timeout
    let w := start.after events
    let trace := start.trace events
    (∀ query time e, (w.sample query time).1 = .error e → (w.sample query time).2.series = w.series) ∧
    (∀ query time, (w.sample query time).1 = .ok () → ∃ cores, cores ≠ [] ∧ query = .cores cores ∧
      (w.sample query time).2.series = w.series.append ⟨time, sampleValues cores selection.kinds⟩) ∧
    (∀ late, (w.perform (.release late)).2.series = w.series) ∧
    w.series = ((readings trace).map (·.snapshot selection.kinds)).foldl TimeSeries.append start.series ∧
    (start.after (successes trace)).series = w.series ∧
    ∀ load, (start.after (successes trace)).report load = w.report load := by
  intro start w trace
  have hsel : w.selection = selection := selection_after events hs
  have hsw : w.selection.samples = true := by rw [hsel, hs]
  have hagree : Agree w (start.after (successes trace)) :=
    Agree.after_successes ⟨rfl, rfl, rfl⟩ hs events
  refine ⟨fun query time e h => series_of_error hsw h, fun query time h => ?_, fun late => rfl, series_after events hs,
    hagree.series, fun load => report_congr hagree.selection hagree.series load⟩
  obtain ⟨cores, hc, hq, hser⟩ := series_of_ok hsw h
  rw [hsel] at hser
  exact ⟨cores, hc, hq, hser⟩

theorem failures_leave_no_trace_of_mixed :
    userMinute.samples = true ∧
      (twiceAMinute.trace mixedScript).map (fun p => p.2.recorded) =
        [true, false, false, false, false, false, false, false, false, false, true] ∧
      (twiceAMinute.after mixedScript).series.snapshots.map (·.time) = [⟨0⟩, ⟨30000000000⟩] ∧
      (twiceAMinute.after (successes (twiceAMinute.trace mixedScript))).series =
        (twiceAMinute.after mixedScript).series := by
  have h := failures_leave_no_trace userMinute (.ofSeconds 30) (.ofSeconds 10) (by decide) mixedScript
  exact ⟨by decide, by decide +kernel, by decide +kernel, h.2.2.2.2.1⟩

end Watcher

end CpuMonitor
