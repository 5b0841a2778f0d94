import CpuMonitor.Watcher.Basic

/-!
# One sample

* `QueryOutcome.result`, `QueryOutcome.asks` : what a query makes of a sample.
* `timeout_sample`, `interval_sample` : what no sample changes.
* `sample_of_disabled`, `sample_of_busy`, `sample_of_idle` : a sample of a watcher that has nothing to sample, of one with
  a query out, and of any other; `sample_by_flag` for all three.
-/

set_option autoImplicit false

namespace CpuMonitor

/-- What a sample tells of its query. -/
def QueryOutcome.result (timeout : Duration) : QueryOutcome → Except WatcherError Unit
  | .cores [] => .error .noCores
  | .cores _ => .ok ()
  | .failed e => .error (.query e)
  | .panicked => .error .workerLost
  | .hung => .error (.timeout timeout)
  | .refused reason => .error (.spawn reason)

theorem QueryOutcome.result_ne_busy (query : QueryOutcome) (timeout : Duration) :
    query.result timeout ≠ .error .busy := by
  cases query with
  | cores cores => cases cores <;> nofun
  | failed e => nofun
  | panicked => nofun
  | hung => nofun
  | refused reason => nofun

/-- The source is asked, as a worker can be started. -/
def QueryOutcome.asks : QueryOutcome → Bool
  | .refused _ => false
  | _ => true

namespace Watcher

theorem timeout_sample (w : Watcher) (query : QueryOutcome) (time : Instant) :
    (w.sample query time).2.timeout = w.timeout := by
  unfold sample
  repeat' split
  all_goals rfl

theorem interval_sample (w : Watcher) (query : QueryOutcome) (time : Instant) :
    (w.sample query time).2.interval = w.interval := by
  unfold sample
  repeat' split
  all_goals rfl

theorem sample_of_disabled {w : Watcher} (hs : w.selection.samples = false) (query : QueryOutcome) (time : Instant) :
    w.sample query time = (.ok (), w) := by
  unfold sample
  rw [hs]
  rfl

theorem sample_of_busy {w : Watcher} (hs : w.selection.samples = true) (hi : w.inFlight = true) (query : QueryOutcome)
    (time : Instant) : w.sample query time = (.error .busy, w) := by
  unfold sample
  rw [hs, hi]
  rfl

theorem sample_of_idle {w : Watcher} (hs : w.selection.samples = true) (hi : w.inFlight = false) (query : QueryOutcome)
    (time : Instant) : (w.sample query time).1 = query.result w.timeout ∧
      (w.sample query time).2.inFlight = (query == .hung) ∧
      (w.sample query time).2.queries = w.queries + query.asks.toNat := by
  unfold sample
  rw [hs, hi]
  cases query with
  | cores cores => cases cores <;> exact ⟨rfl, hi, rfl⟩
  | failed e => exact ⟨rfl, hi, rfl⟩
  | panicked => exact ⟨rfl, hi, rfl⟩
  | hung => exact ⟨rfl, rfl, rfl⟩
  | refused reason => exact ⟨rfl, hi, rfl⟩

/-- What a sample tells and changes, by what it finds. -/
theorem sample_by_flag (w : Watcher) (query : QueryOutcome) (time : Instant) :
    (w.selection.samples = false ∧ w.sample query time = (.ok (), w)) ∨
    (w.selection.samples = true ∧ w.inFlight = true ∧ w.sample query time = (.error .busy, w)) ∨
    (w.selection.samples = true ∧ w.inFlight = false ∧ (w.sample query time).1 = query.result w.timeout ∧
      (w.sample query time).2.inFlight = (query == .hung) ∧
      (w.sample query time).2.queries = w.queries + query.asks.toNat) := by
  cases hs : w.selection.samples with
  | false => exact .inl ⟨rfl, sample_of_disabled hs query time⟩
  | true =>
    cases hi : w.inFlight with
    | true => exact .inr (.inl ⟨rfl, rfl, sample_of_busy hs hi query time⟩)
    | false => exact .inr (.inr ⟨rfl, rfl, sample_of_idle hs hi query time⟩)

end Watcher

end CpuMonitor
