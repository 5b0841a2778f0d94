import CpuMonitor.Proofs.Watcher.Utilization

/-!
# What a report could not tell

The two halves of a report, the rates and the load averages, fail or succeed each by itself.

* `failures_utilizationHalf`, `failures_loadHalf` : when a half fails, and with what.
* `errors_utilizationHalf`, `errors_loadHalf` : a half logs an error for its failure, and no other one.
* `get?_report_loadAverage` : the load averages of a report, which no half but their own tells.
* `get?_report_congr` : the rates of a report, whatever becomes of the load averages.
* `summary_eq` : the text of some failures.
* `error_report`, `complete_report`, `errors_report` : what a report makes of the failures of its halves.
* `report_by_halves` : the failures, the values and the log of a report, for any series and any load averages.
-/

set_option autoImplicit false

namespace CpuMonitor

/-! ## Texts -/

/-- Each failure but the first one comes behind a semicolon. -/
theorem ReportFailure.foldl_summary (failures : List ReportFailure) (n : Nat) (start text : String) :
    (failures.zipIdx (n + 1)).foldl
        (fun text (failure, i) => (if 0 < i then text ++ "; " else text) ++ failure.message) (start ++ text) =
      start ++ "; ".intercalate (text :: failures.map message) := by
  induction failures generalizing n text with
  | nil => rw [List.map_nil, String.intercalate_singleton]; rfl
  | cons failure failures ih =>
    have hstep : start ++ text ++ "; " ++ failure.message = start ++ (text ++ "; " ++ failure.message) := by
      simp only [String.append_assoc]
    rw [List.zipIdx_cons, List.foldl_cons]
    simp only [Nat.succ_pos, if_true, hstep]
    rw [ih, String.intercalate_cons_append, List.map_cons, String.intercalate_cons_cons]

theorem ReportFailure.summary_eq (failures : List ReportFailure) :
    summary failures = "CPU: " ++ "; ".intercalate (failures.map message) := by
  cases failures with
  | nil => rfl
  | cons failure failures => exact foldl_summary failures 0 "CPU: " failure.message

/-! ## Failures and errors of the halves -/

def errors (log : List LogRecord) : List LogRecord := log.filter fun r => r.severity = .error

theorem errors_append (log log' : List LogRecord) : errors (log ++ log') = errors log ++ errors log' :=
  List.filter_append log log'

@[simp] theorem errors_record (failure : ReportFailure) : errors [failure.record] = [failure.record] := by
  cases failure <;> rfl

theorem errors_rates {κ : Type} [Ord κ] (s : TimeSeries κ) (asked : OrderedSet Window) :
    errors (s.rates asked).log = [] := by
  unfold TimeSeries.rates
  cases s.latest? with
  | none => rfl
  | some latest =>
    refine List.filter_eq_nil_iff.2 fun r hr => ?_
    obtain ⟨w, -, rfl⟩ := List.mem_map.1 hr
    simp [TimeSeries.unfilledRecord]

namespace Watcher
variable (w : Watcher) (load : Except HostError LoadAverage)

/-- The rates fail if they are asked for before the first snapshot, and only then. -/
theorem failures_utilizationHalf : Half.failures w.utilizationHalf =
    if w.selection.samples = true ∧ w.series.snapshots = [] then [.utilization .notCollected] else [] := by
  cases hs : w.selection.samples with
  | false =>
    unfold utilizationHalf
    rw [hs]
    rfl
  | true =>
    cases hl : w.series.latest? with
    | some latest =>
      have hne : w.series.snapshots ≠ [] := by
        intro h
        rw [TimeSeries.latest?, h] at hl
        cases hl
      unfold Half.failures
      rw [utilizationHalf_eq hs hl, if_neg fun h => hne h.2]
    | none =>
      rw [if_pos ⟨rfl, List.getLast?_eq_none_iff.1 hl⟩]
      unfold utilizationHalf TimeSeries.rates
      rw [hs, hl]
      rfl

theorem failures_loadHalf : Half.failures (w.loadHalf load) =
    match load with
    | .ok _ => []
    | .error e => if w.selection.loadWindows = ∅ then [] else [.loadAverage e] := by
  unfold loadHalf
  simp only [OrderedSet.isEmpty_iff]
  split <;> cases load <;> rfl

theorem errors_utilizationHalf :
    errors w.utilizationHalf.log = (Half.failures w.utilizationHalf).map ReportFailure.record := by
  have hrates := errors_rates w.series w.selection.windows
  unfold utilizationHalf
  by_cases hs : w.selection.samples = true
  · rw [if_neg (by simp [hs])]
    generalize w.series.rates w.selection.windows = rates at hrates ⊢
    obtain ⟨value, log⟩ := rates
    cases value with
    | ok rates => exact hrates
    | error e =>
      show errors (log ++ [(ReportFailure.utilization e).record]) = [(ReportFailure.utilization e).record]
      rw [errors_append, hrates, errors_record, List.nil_append]
  · rw [if_pos (by simp [hs])]
    rfl

theorem errors_loadHalf :
    errors (w.loadHalf load).log = (Half.failures (w.loadHalf load)).map ReportFailure.record := by
  unfold loadHalf
  split
  · rfl
  · cases load with
    | ok l => rfl
    | error e => exact errors_record (.loadAverage e)

/-! ## Values -/

theorem loadAverage_not_mem_utilizationHalf (lw : LoadWindow) (v : Option Binary64) :
    (.loadAverage lw, v) ∉ Half.entries w.utilizationHalf := by
  unfold utilizationHalf
  split
  · exact List.not_mem_nil
  · generalize w.series.rates w.selection.windows = rates
    obtain ⟨value, log⟩ := rates
    cases value with
    | error e => exact List.not_mem_nil
    | ok rates =>
      intro h
      obtain ⟨_, -, h⟩ := List.mem_flatMap.1 h
      obtain ⟨_, -, h⟩ := List.mem_map.1 h
      cases h

theorem mem_loadHalf {lw : LoadWindow} {v : Option Binary64} :
    (.loadAverage lw, v) ∈ Half.entries (w.loadHalf load) ↔
      ∃ l, load = .ok l ∧ lw ∈ w.selection.loadWindows ∧
        v = some (match lw with | .one => l.one | .five => l.five | .fifteen => l.fifteen) := by
  unfold loadHalf
  by_cases h : w.selection.loadWindows.isEmpty = true
  · have hnone : lw ∉ w.selection.loadWindows := by
      rw [OrderedSet.isEmpty_iff.1 h]
      exact OrderedSet.not_mem_empty lw
    rw [if_pos h]
    exact iff_of_false List.not_mem_nil fun ⟨_, _, hlw, _⟩ => hnone hlw
  · rw [if_neg h]
    cases load with
    | error e => exact iff_of_false List.not_mem_nil fun ⟨_, hl, _⟩ => nomatch hl
    | ok l =>
      show _ ∈ w.selection.loadWindows.toList.map _ ↔ _
      rw [List.mem_map]
      constructor
      · rintro ⟨lw', hlw, h⟩
        cases h
        exact ⟨l, rfl, hlw, rfl⟩
      · rintro ⟨l', hl, hlw, rfl⟩
        cases hl
        exact ⟨lw, hlw, rfl⟩

/-- Each chosen horizon is reported with its own load average. -/
theorem get?_report_loadAverage (lw : LoadWindow) : (w.report load).value.measurements.get? (.loadAverage lw) =
    match load with
    | .ok l =>
      if lw ∈ w.selection.loadWindows then
        some (some (match lw with | .one => l.one | .five => l.five | .fifteen => l.fifteen))
      else none
    | .error _ => none := by
  refine OrderedMap.get?_ofList_eq fun v => ?_
  rw [List.mem_append, mem_loadHalf]
  simp only [loadAverage_not_mem_utilizationHalf w lw v, false_or]
  cases load with
  | error e => simp
  | ok l =>
    by_cases hlw : lw ∈ w.selection.loadWindows
    · simp [hlw, eq_comm]
    · simp [hlw]

/-- The rates do not depend on what becomes of the load averages. -/
theorem get?_report_congr (load' : Except HostError LoadAverage) (k : Kind) (win : Window) (scope : Scope) :
    (w.report load').value.measurements.get? (.utilization k win scope) =
      (w.report load).value.measurements.get? (.utilization k win scope) := by
  cases hs : w.selection.samples with
  | false =>
    have hentries := entries_eq_nil (.inl hs)
    rw [get?_report_eq_none hentries, get?_report_eq_none hentries]
  | true =>
    cases hl : w.series.latest? with
    | none =>
      have hentries := entries_eq_nil (w := w) (.inr hl)
      rw [get?_report_eq_none hentries, get?_report_eq_none hentries]
    | some latest => rw [get?_report hs hl, get?_report hs hl]

/-! ## Reports -/

theorem error_report : (w.report load).value.error =
    if Half.failures w.utilizationHalf ++ Half.failures (w.loadHalf load) = [] then none
    else some (Half.failures w.utilizationHalf ++ Half.failures (w.loadHalf load)) := by
  unfold report
  simp only [List.isEmpty_iff]

theorem failures_report :
    (w.report load).value.failures = Half.failures w.utilizationHalf ++ Half.failures (w.loadHalf load) := by
  unfold Report.failures
  rw [error_report]
  split
  · next h => exact h.symm
  · rfl

theorem complete_report : (w.report load).value.complete =
    if Half.failures w.utilizationHalf ++ Half.failures (w.loadHalf load) = [] then .ok (w.report load).value.measurements
    else .error (Half.failures w.utilizationHalf ++ Half.failures (w.loadHalf load)) := by
  unfold Report.complete
  rw [error_report]
  by_cases h : Half.failures w.utilizationHalf ++ Half.failures (w.loadHalf load) = []
  · rw [if_pos h, if_pos h]
  · rw [if_neg h, if_neg h]

theorem errors_report : errors (w.report load).log =
    (Half.failures w.utilizationHalf ++ Half.failures (w.loadHalf load)).map ReportFailure.record := by
  show errors (w.utilizationHalf.log ++ (w.loadHalf load).log) = _
  rw [errors_append, errors_utilizationHalf, errors_loadHalf, List.map_append]

/-- **Each half of a report stands on its own.** The failures are those of the halves, in one text and in the log, and
what one half tells does not depend on the other. -/
theorem report_by_halves :
    let report := (w.report load).value
    let failures : List ReportFailure :=
      (if w.selection.samples = true ∧ w.series.snapshots = [] then [.utilization .notCollected] else []) ++
        match load with
        | .ok _ => []
        | .error e => if w.selection.loadWindows = ∅ then [] else [.loadAverage e]
    report.failures = failures ∧
    report.error = (if failures = [] then none else some failures) ∧
    report.complete = (if failures = [] then .ok report.measurements else .error failures) ∧
    (∀ lw, report.measurements.get? (.loadAverage lw) =
      match load with
      | .ok l =>
        if lw ∈ w.selection.loadWindows then
          some (some (match lw with | .one => l.one | .five => l.five | .fifteen => l.fifteen))
        else none
      | .error _ => none) ∧
    (∀ load' k win scope, (w.report load').value.measurements.get? (.utilization k win scope) =
      report.measurements.get? (.utilization k win scope)) ∧
    (∀ series lw, (({ w with series := series } : Watcher).report load).value.measurements.get? (.loadAverage lw) =
      report.measurements.get? (.loadAverage lw)) ∧
    ReportFailure.summary failures = "CPU: " ++ "; ".intercalate (failures.map fun
      | .utilization .notCollected => "CPU metrics are not collected yet"
      | .loadAverage e => "failed to read load average: " ++ e.message) ∧
    (w.report load).log.filter (fun r => r.severity = .error) = failures.map fun
      | .utilization .notCollected =>
        ⟨.error, "[CPU] Failed to read utilisation metrics: CPU metrics are not collected yet"⟩
      | .loadAverage e => ⟨.error, "[CPU] Failed to read load_avg: " ++ e.message⟩ := by
  intro report failures
  have hhalves : Half.failures w.utilizationHalf ++ Half.failures (w.loadHalf load) = failures := by
    rw [failures_utilizationHalf, failures_loadHalf]
  refine ⟨(failures_report w load).trans hhalves, ?_, ?_, get?_report_loadAverage w load, get?_report_congr w load,
    fun series lw => ?_, ?_, ?_⟩
  · rw [← hhalves]
    exact error_report w load
  · rw [← hhalves]
    exact complete_report w load
  · exact (get?_report_loadAverage { w with series := series } load lw).trans (get?_report_loadAverage w load lw).symm
  · rw [ReportFailure.summary_eq]
    congr 2
    refine List.map_congr_left fun failure _ => ?_
    rcases failure with ⟨⟨⟩⟩ | e <;> rfl
  · refine (errors_report w load).trans ?_
    rw [hhalves]
    refine List.map_congr_left fun failure _ => ?_
    rcases failure with ⟨⟨⟩⟩ | e
    · rfl
    · simp [ReportFailure.record, LogRecord.error, ← String.append_assoc]

end Watcher

end CpuMonitor
