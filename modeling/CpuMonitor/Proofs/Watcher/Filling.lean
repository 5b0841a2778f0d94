import CpuMonitor.Proofs.Watcher.Elapsed
import CpuMonitor.Watcher.Schedule

/-!
# When windows fill

What a watcher reports that samples one interval after the other.

* `Steady` : the successful samples of a script are so many, one interval apart; `Steady.of_readings` gives such scripts.
* `Steady.reaches_window` : what a window asks for is never too old for the longest window.
* `Steady.isSome_rate` : which rates there are after so many samples.
* `filled_from_steps_on` : a window that asks for two samples or more is filled from that many samples on.
* `filled_iff_two_le_steps` : a window that asks for one sample only is never filled, which takes an interval of more than
  half the window.
-/

set_option autoImplicit false

namespace CpuMonitor

def Reading.event (r : Reading) : Event := .sample (.cores r.cores) r.time

namespace Watcher

/-- The successful samples of a script are so many, one interval apart, each of so many cores. -/
structure Steady (w : Watcher) (events : List Event) (start : Instant) (n cores : Nat) : Prop where
  times : (readings (w.trace events)).map (·.time) = (List.range n).map (start.gridPoint w.interval)
  cores : ∀ r ∈ readings (w.trace events), r.cores.length = cores

theorem readings_trace_map_event : ∀ {w : Watcher}, w.selection.samples = true → w.inFlight = false →
    ∀ rs : List Reading, (∀ r ∈ rs, r.cores ≠ []) → readings (w.trace (rs.map Reading.event)) = rs
  | _, _, _, [], _ => rfl
  | w, hs, hi, r :: rs, h => by
    have hw := sample_cores hs hi (h r List.mem_cons_self) r.time
    have hperform : w.perform r.event = (.sampled (.ok ()), w.ask.record r.cores r.time) := by
      simp only [perform, Reading.event, hw]
    have ih := readings_trace_map_event (w := w.ask.record r.cores r.time) hs hi rs fun x hx =>
      h x (List.mem_cons_of_mem r hx)
    rw [List.map_cons, trace_cons, readings_cons, hperform, ih]
    rfl

theorem Steady.of_readings {w : Watcher} (hs : w.selection.samples = true) (hi : w.inFlight = false) {rs : List Reading}
    {start : Instant} {n cores : Nat} (times : rs.map (·.time) = (List.range n).map (start.gridPoint w.interval))
    (hcores : ∀ r ∈ rs, r.cores.length = cores) (hpos : 0 < cores) : Steady w (rs.map Reading.event) start n cores := by
  have hne : ∀ r ∈ rs, r.cores ≠ [] := by
    intro r hr
    apply List.ne_nil_of_length_pos
    rw [hcores r hr]
    exact hpos
  have hrs := readings_trace_map_event hs hi rs hne
  constructor
  · rw [hrs]
    exact times
  · rw [hrs]
    exact hcores

section Steady
variable {w : Watcher} {events : List Event} {start : Instant} {n cores : Nat} (h : Steady w events start n cores)
include h

theorem Steady.length : (readings (w.trace events)).length = n := by
  rw [← List.length_map (f := (·.time)), h.times, List.length_map, List.length_range]

theorem Steady.time_getElem? {i : Nat} {r : Reading} (hr : (readings (w.trace events))[i]? = some r) :
    i < n ∧ r.time = start.gridPoint w.interval i := by
  have htime : ((readings (w.trace events)).map (·.time))[i]? = some r.time := by
    rw [List.getElem?_map, hr]
    rfl
  rw [h.times, List.getElem?_map] at htime
  obtain ⟨j, hj, hgrid⟩ := Option.map_eq_some_iff.1 htime
  obtain ⟨hi, hij⟩ := List.getElem?_eq_some_iff.1 hj
  rw [List.length_range] at hi
  rw [List.getElem_range] at hij
  exact ⟨hi, by rw [← hgrid, hij]⟩

theorem Steady.inOrder (kinds : OrderedSet Kind) :
    TimeSeries.InOrder ((readings (w.trace events)).map (·.snapshot kinds)) := by
  have hgrid := start.pairwise_gridPoint w.interval_pos n
  rw [← h.times, List.pairwise_map] at hgrid
  exact List.pairwise_map.2 (hgrid.imp Int.le_of_lt)

theorem Steady.reaches (kinds : OrderedSet Kind) {d : Duration} {m : Nat} (hm : 1 ≤ m) (hn : m ≤ n)
    (hd : (m - 1) * w.interval.nanoseconds ≤ d.nanoseconds) :
    TimeSeries.Reaches d ((readings (w.trace events)).map (·.snapshot kinds)) m := by
  have hlength := h.length
  obtain ⟨first, hfirst⟩ : ∃ r, (readings (w.trace events))[n - m]? = some r :=
    ⟨_, List.getElem?_eq_getElem (by omega)⟩
  obtain ⟨last, hlast⟩ : ∃ r, (readings (w.trace events))[n - 1]? = some r :=
    ⟨_, List.getElem?_eq_getElem (by omega)⟩
  refine ⟨by rwa [List.length_map, hlength], first.snapshot kinds, last.snapshot kinds, ?_, ?_, ?_⟩
  · rw [List.length_map, hlength, List.getElem?_map, hfirst]
    rfl
  · rw [List.getLast?_eq_getElem?, List.length_map, hlength, List.getElem?_map, hlast]
    rfl
  · show last.time.since first.time ≤ d
    rw [(h.time_getElem? hfirst).2, (h.time_getElem? hlast).2, Instant.since_gridPoint,
      show n - 1 - (n - m) = m - 1 by omega]
    exact hd

/-- There is a rate over `m` readings if there are so many, unless `m` is one. -/
theorem Steady.isSome_rateOver? {last : Reading} (hlast : (readings (w.trace events)).getLast? = some last) (k : Kind)
    {scope : Scope} (hscope : scope.Among cores) (m : Nat) :
    (rateOver? (readings (w.trace events)) last m k scope).isSome = decide (2 ≤ m ∧ m ≤ n) := by
  have hlength := h.length
  have hvalue : ∀ r ∈ readings (w.trace events), ∃ v, r.value? k scope = some v := by
    intro r hr
    apply Option.isSome_iff_exists.1
    rw [r.isSome_value?, h.cores r hr]
    exact hscope
  rw [List.getLast?_eq_getElem?, hlength] at hlast
  unfold rateOver?
  rw [hlength]
  by_cases hm : 1 ≤ m ∧ m ≤ n
  · obtain ⟨first, hfirst⟩ : ∃ r, (readings (w.trace events))[n - m]? = some r :=
      ⟨_, List.getElem?_eq_getElem (by omega)⟩
    obtain ⟨old, hold⟩ := hvalue first (List.mem_of_getElem? hfirst)
    obtain ⟨new, hnew⟩ := hvalue last (List.mem_of_getElem? hlast)
    have hlt : first.time < last.time ↔ 2 ≤ m := by
      rw [(h.time_getElem? hfirst).2, (h.time_getElem? hlast).2, Instant.gridPoint_lt_iff w.interval_pos]
      omega
    rw [if_pos hm, hfirst]
    show (first.rate? last k scope).isSome = _
    unfold Reading.rate?
    rw [hold, hnew]
    by_cases htwo : 2 ≤ m
    · simp [hlt, htwo, hm.2]
    · simp [hlt, htwo]
  · rw [if_neg hm]
    symm
    exact decide_eq_false (by omega)

end Steady

/-! ## References and rates -/

def history (w : Watcher) (events : List Event) : List (Snapshot MetricKey) :=
  (readings (w.trace events)).map (·.snapshot w.selection.kinds)

section Fresh
variable {w : Watcher} {events : List Event} {start : Instant} {n cores : Nat} (h : Steady w events start n cores)
  {win : Window} (hwin : win ∈ w.selection.windows)
include h hwin

/-- What a window asks for spans no more time than the window. -/
theorem Steady.reaches_window (hone : 1 ≤ win.steps w.interval) (hn : win.steps w.interval ≤ n) :
    TimeSeries.Reaches (TimeSeries.longest w.selection.windows) (w.history events) (win.steps w.interval) := by
  apply h.reaches w.selection.kinds hone hn
  have hsteps := win.steps_le_div_add_one w.leastInterval_le
  have hpos := w.interval_pos
  calc (win.steps w.interval - 1) * w.interval.nanoseconds ≤ win.duration.nanoseconds :=
        (Nat.le_div_iff_mul_le hpos).1 (by omega)
    _ ≤ (TimeSeries.longest w.selection.windows).nanoseconds := TimeSeries.le_longest hwin

variable (hs : w.selection.samples = true) (hseries : w.series = .forWindows w.selection.windows w.interval)
include hs hseries

/-- Pruning takes away no reference of a window. -/
theorem Steady.reference?_eq : (w.after events).series.reference? win =
    (TimeSeries.unpruned (TimeSeries.longest w.selection.windows) w.interval (w.history events)).reference? win := by
  have hinOrder : TimeSeries.InOrder (w.history events) := h.inOrder w.selection.kinds
  have hlength : (w.history events).length = n := (List.length_map _).trans h.length
  rw [series_after events hs, hseries]
  show ((TimeSeries.empty _ _).appendAll (w.history events)).reference? win = _
  by_cases hr : TimeSeries.Reaches (TimeSeries.longest w.selection.windows) (w.history events) (win.steps w.interval)
  · exact TimeSeries.reference?_of_reaches _ _ hinOrder hr
  · rw [TimeSeries.reference?_of_not_reaches _ _ hinOrder hr, TimeSeries.reference?_unpruned, hlength]
    split
    · next hn =>
      -- then no sample is asked for, and the place lies behind the last snapshot
      have hzero : ¬ 1 ≤ win.steps w.interval := fun hone => hr (h.reaches_window hwin hone hn)
      exact (List.getElem?_eq_none (by omega)).symm
    · rfl

theorem Steady.isSome_rate (hn : 1 ≤ n) (load : Except HostError LoadAverage) (k : Kind) (scope : Scope) :
    (((w.after events).report load).value.measurements.get? (.utilization k win scope)).map (·.isSome) =
      if k ∈ w.selection.kinds ∧ scope.Among cores then
        some (decide (2 ≤ win.steps w.interval ∧ win.steps w.interval ≤ n))
      else none := by
  have hsel := selection_after events hs
  have hlength := h.length
  obtain ⟨last, hlast⟩ : ∃ r, (readings (w.trace events)).getLast? = some r :=
    ⟨_, List.getLast?_eq_some_getLast (List.ne_nil_of_length_pos (by omega))⟩
  have hlatest : (w.after events).series.latest? = some (last.snapshot w.selection.kinds) := by
    rw [series_after events hs, hseries]
    refine (TimeSeries.latest?_appendAll_empty _ _ _).trans ?_
    rw [List.getLast?_map, hlast]
    rfl
  rw [get?_report (by rw [hsel, hs]) hlatest, hsel, if_pos hwin, Reading.get?_snapshot]
  by_cases hk : k ∈ w.selection.kinds
  · rw [if_pos hk]
    by_cases hscope : scope.Among cores
    · obtain ⟨v, hv⟩ : ∃ v, last.value? k scope = some v := by
        apply Option.isSome_iff_exists.1
        rw [last.isSome_value?, h.cores last (List.mem_of_getLast? hlast)]
        exact hscope
      have hsnapshots : (TimeSeries.unpruned (TimeSeries.longest w.selection.windows) w.interval
        (w.history events)).snapshots = (readings (w.trace events)).map (·.snapshot w.selection.kinds) := rfl
      rw [if_pos ⟨hk, hscope⟩, hv, h.reference?_eq hwin hs hseries, Option.map_some, Option.map_some,
        bind_reference? hsnapshots hk hv]
      exact congrArg some (h.isSome_rateOver? hlast k hscope _)
    · have hnone : last.value? k scope = none := by
        apply Option.not_isSome_iff_eq_none.1
        rw [last.isSome_value?, h.cores last (List.mem_of_getLast? hlast)]
        exact hscope
      rw [if_neg fun hboth => hscope hboth.2, hnone]
      rfl
  · rw [if_neg hk, if_neg fun hboth => hk hboth.1]
    rfl

end Fresh

/-! ## Filled windows -/

/-- **Windows fill and stay filled.** A window has no rate before it has as many samples as it asks for, and one for
every key from then on. -/
theorem filled_from_steps_on (selection : Selection) (interval timeout : Duration) (hs : selection.samples = true)
    {win : Window} (hwin : win ∈ selection.windows) (htwo : 2 ≤ win.steps (interval.max .leastInterval))
    {events : List Event} {start : Instant} {n cores : Nat} (hn : 1 ≤ n)
    (h : Steady (withTiming selection interval timeout) events start n cores) (load : Except HostError LoadAverage) :
    let w := (withTiming selection interval timeout).after events
    let steps := win.steps (interval.max .leastInterval)
    let rate := fun k scope => (w.report load).value.measurements.get? (.utilization k win scope)
    (n < steps → ∀ k scope, k ∈ selection.kinds → scope.Among cores → rate k scope = some none) ∧
    (steps ≤ n → ∀ k scope, k ∈ selection.kinds → scope.Among cores → ∃ v, rate k scope = some (some v)) ∧
    (∀ k scope, ¬ (k ∈ selection.kinds ∧ scope.Among cores) → rate k scope = none) ∧
    w.series.reference? win = (TimeSeries.unpruned (TimeSeries.longest selection.windows) (interval.max .leastInterval)
      ((withTiming selection interval timeout).history events)).reference? win := by
  intro w steps rate
  have hrate : ∀ k scope, (rate k scope).map (·.isSome) =
      if k ∈ selection.kinds ∧ scope.Among cores then some (decide (2 ≤ steps ∧ steps ≤ n)) else none :=
    h.isSome_rate hwin hs rfl hn load
  refine ⟨fun hlt k scope hk hscope => ?_, fun hle k scope hk hscope => ?_, fun k scope hkey => ?_,
    h.reference?_eq hwin hs rfl⟩
  · have hnone := hrate k scope
    rw [if_pos ⟨hk, hscope⟩, decide_eq_false (by omega)] at hnone
    obtain ⟨v, hv, hfalse⟩ := Option.map_eq_some_iff.1 hnone
    rw [hv, Option.isNone_iff_eq_none.1 (Option.isSome_eq_false_iff.1 hfalse)]
  · have hsome := hrate k scope
    rw [if_pos ⟨hk, hscope⟩, decide_eq_true ⟨htwo, hle⟩] at hsome
    obtain ⟨v, hv, htrue⟩ := Option.map_eq_some_iff.1 hsome
    obtain ⟨x, rfl⟩ := Option.isSome_iff_exists.1 htrue
    exact ⟨x, hv⟩
  · have hnone := hrate k scope
    rw [if_neg hkey] at hnone
    exact Option.map_eq_none_iff.1 hnone

def steadyReadings (w : Watcher) (n : Nat) : List Reading :=
  (List.range n).map fun i => ⟨Instant.gridPoint ⟨0⟩ w.interval i, coresOf [i]⟩

theorem steady_steadyReadings {w : Watcher} (hs : w.selection.samples = true) (hi : w.inFlight = false) (n : Nat) :
    Steady w ((w.steadyReadings n).map Reading.event) ⟨0⟩ n 1 := by
  refine Steady.of_readings hs hi ?_ (fun r hr => ?_) Nat.one_pos
  · exact List.map_map
  · obtain ⟨i, -, rfl⟩ := List.mem_map.1 hr
    rfl

theorem steps_twiceAMinute : (⟨1, by decide, by decide⟩ : Window).steps (.ofSeconds 30) = 2 :=
  Window.steps_of_dvd _ (by decide) (by decide) (by decide)

/-- At two samples a minute, one minute is filled after two samples. -/
theorem filled_from_steps_on_twice_a_minute :
    let minute : Window := ⟨1, by decide, by decide⟩
    let rate := fun n scope => ((twiceAMinute.after ((twiceAMinute.steadyReadings n).map Reading.event)).report
      (.error (.io "loadavg" "gone"))).value.measurements.get? (.utilization .user minute scope)
    2 ≤ minute.steps (.ofSeconds 30) ∧ rate 1 (.core 0) = some none ∧ (∃ v, rate 2 (.core 0) = some (some v)) ∧
      ∃ v, rate 20 .total = some (some v) := by
  intro minute rate
  have hsteps : minute.steps (.ofSeconds 30) = 2 := steps_twiceAMinute
  have htwo : 2 ≤ minute.steps (.ofSeconds 30) := Nat.le_of_eq hsteps.symm
  have hwin : minute ∈ userMinute.windows := by decide
  have filled := fun n (hn : 1 ≤ n) => filled_from_steps_on userMinute (.ofSeconds 30) (.ofSeconds 10) (by decide) hwin
    htwo hn (steady_steadyReadings (by decide) rfl n) (.error (.io "loadavg" "gone"))
  refine ⟨htwo, ?_, ?_, ?_⟩
  · exact (filled 1 (by decide)).1 htwo .user (.core 0) (by decide) (by decide)
  · exact (filled 2 (by decide)).2.1 (Nat.le_of_eq hsteps) .user (.core 0) (by decide) (by decide)
  · exact (filled 20 (by decide)).2.1 (hsteps ▸ by decide) .user .total (by decide) (by decide)

/-- **Windows that are never filled.** A window that asks for two samples fills; one that asks for one refers to the
last sample itself, and never does. -/
theorem filled_iff_two_le_steps (selection : Selection) (interval timeout : Duration) (hs : selection.samples = true)
    {win : Window} (hwin : win ∈ selection.windows) (hfits : interval.max .leastInterval ≤ win.duration) :
    let start := withTiming selection interval timeout
    let steps := win.steps start.interval
    1 ≤ steps ∧ (2 * start.interval.nanoseconds ≤ win.duration.nanoseconds → 2 ≤ steps) ∧
    ∀ (events : List Event) (time : Instant) (n cores : Nat), Steady start events time n cores → steps ≤ n →
      ∀ load k scope,
        (((start.after events).report load).value.measurements.get? (.utilization k win scope)).map (·.isSome) =
          if k ∈ selection.kinds ∧ scope.Among cores then some (decide (2 ≤ steps)) else none := by
  intro start steps
  have hpos := start.interval_pos
  have hsteps : win.duration.nanoseconds / start.interval.nanoseconds ≤ steps := win.div_le_steps start.leastInterval_le
  have hone : 1 ≤ steps := Nat.le_trans ((Nat.le_div_iff_mul_le hpos).2 (by rw [Nat.one_mul]; exact hfits)) hsteps
  refine ⟨hone, fun hdouble => Nat.le_trans ((Nat.le_div_iff_mul_le hpos).2 hdouble) hsteps, ?_⟩
  intro events time n cores h hn load k scope
  have hrate := h.isSome_rate hwin hs rfl (Nat.le_trans hone hn) load k scope
  have hdecide : decide (2 ≤ steps ∧ steps ≤ n) = decide (2 ≤ steps) := decide_eq_decide.2 (and_iff_left hn)
  rw [hdecide] at hrate
  exact hrate

def onceAMinute : Watcher := withTiming userMinute (.ofSeconds 60) (.ofSeconds 10)

theorem steps_onceAMinute : (⟨1, by decide, by decide⟩ : Window).steps (.ofSeconds 60) = 1 :=
  Window.steps_of_dvd _ (by decide) (by decide) (by decide)

theorem filled_iff_two_le_steps_of_a_minute :
    let minute : Window := ⟨1, by decide, by decide⟩
    let rate := fun (w : Watcher) => ((w.after ((w.steadyReadings 5).map Reading.event)).report
      (.error (.io "loadavg" "gone"))).value.measurements.get? (.utilization .user minute .total)
    twiceAMinute.interval ≤ minute.duration ∧ onceAMinute.interval ≤ minute.duration ∧
      (rate twiceAMinute).map (·.isSome) = some true ∧ (rate onceAMinute).map (·.isSome) = some false := by
  intro minute rate
  have htwice : minute.steps twiceAMinute.interval = 2 := steps_twiceAMinute
  have honce : minute.steps onceAMinute.interval = 1 := steps_onceAMinute
  have hwin : minute ∈ userMinute.windows := by decide
  refine ⟨by decide, by decide, ?_, ?_⟩
  · obtain ⟨-, htwo, h⟩ := filled_iff_two_le_steps userMinute (.ofSeconds 30) (.ofSeconds 10) (by decide) hwin
      (by decide)
    have hrate := h _ _ 5 1 (steady_steadyReadings (by decide) rfl 5) (Nat.le_trans (Nat.le_of_eq htwice) (by decide))
      (.error (.io "loadavg" "gone")) .user .total
    rw [if_pos ⟨by decide, trivial⟩, decide_eq_true (htwo (by decide))] at hrate
    exact hrate
  · obtain ⟨-, -, h⟩ := filled_iff_two_le_steps userMinute (.ofSeconds 60) (.ofSeconds 10) (by decide) hwin
      (by decide)
    have hrate := h _ _ 5 1 (steady_steadyReadings (by decide) rfl 5) (Nat.le_trans (Nat.le_of_eq honce) (by decide))
      (.error (.io "loadavg" "gone")) .user .total
    have hone : ¬ 2 ≤ minute.steps onceAMinute.interval := by
      rw [honce]
      decide
    rw [if_pos ⟨by decide, trivial⟩] at hrate
    exact hrate.trans (congrArg some (decide_eq_false hone))

/-- A window as long as the interval has no rate, however many samples there are. -/
theorem not_filled_in_the_end :
    ¬ ∀ (selection : Selection) (interval timeout : Duration), selection.samples = true →
      ∀ win ∈ selection.windows, interval.max .leastInterval ≤ win.duration → ∃ n, ∀ (events : List Event)
        (start : Instant) (m cores : Nat), n ≤ m → Steady (withTiming selection interval timeout) events start m cores →
        ∀ load k scope, k ∈ selection.kinds → scope.Among cores → ∃ v,
          (((withTiming selection interval timeout).after events).report load).value.measurements.get?
            (.utilization k win scope) = some (some v) := by
  intro h
  let minute : Window := ⟨1, by decide, by decide⟩
  have hwin : minute ∈ userMinute.windows := by decide
  obtain ⟨n, hn⟩ := h userMinute (.ofSeconds 60) (.ofSeconds 10) (by decide) minute hwin (by decide)
  have hsteady : Steady onceAMinute ((onceAMinute.steadyReadings (n + 1)).map Reading.event) ⟨0⟩ (n + 1) 1 :=
    steady_steadyReadings (by decide) rfl (n + 1)
  obtain ⟨v, hv⟩ := hn _ _ _ 1 (Nat.le_succ n) hsteady (.error (.io "loadavg" "gone")) .user .total (by decide) trivial
  have hnone := hsteady.isSome_rate hwin (by decide) rfl (by omega) (.error (.io "loadavg" "gone")) .user .total
  have hsteps : minute.steps onceAMinute.interval = 1 := steps_onceAMinute
  rw [if_pos ⟨by decide, trivial⟩, hsteps] at hnone
  have hsome : (some (some v)).map (·.isSome) = some (decide (2 ≤ 1 ∧ 1 ≤ n + 1)) := hv ▸ hnone
  simp at hsome

end Watcher

end CpuMonitor
