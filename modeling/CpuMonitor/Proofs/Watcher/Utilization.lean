import CpuMonitor.Proofs.Binary64.Sign
import CpuMonitor.Proofs.Watcher.Script

/-!
# Reported utilization

What a report tells of the utilization, from the readings of a script alone.

* `Reading.value?` : the value of a kind for one core of a reading, or the mean over its cores.
* `Reading.rate?`, `rateOver?` : the rate between two readings, and over the last steps of a list of readings.
* `get?_snapshot`, `rateBetween_snapshot`, `reference?_map` : snapshots, rates and references by readings.
* `get?_report` : a look-up in a report by the latest snapshot of the series.
* `measured_of_report` : the two snapshots that a reported rate was measured between.
* `retains_after` : the series after a script holds the retained snapshots of its readings.
* `utilization_after` : all that a report tells of the utilization after a script, by the readings of the script.
-/

set_option autoImplicit false

namespace CpuMonitor

/-! ## Values and rates of readings -/

/-- One of the first `n` cores, or all cores together. -/
def Scope.Among (n : Nat) : Scope → Prop
  | .core i => i < n
  | .total => True

instance (n : Nat) : (scope : Scope) → Decidable (scope.Among n)
  | .core i => inferInstanceAs (Decidable (i < n))
  | .total => inferInstanceAs (Decidable True)

namespace Reading

/-- The value of one core, or the mean over all cores, their sum from the first on by their number. -/
def value? (r : Reading) (k : Kind) : Scope → Option Binary64
  | .core i => r.cores[i]?.map (·.get k)
  | .total => some ((r.cores.map (·.get k)).foldl (· + ·) (.zero false) / .ofNat r.cores.length)

/-- The change per second from one reading to a later one, rounded. -/
def rate? (first last : Reading) (k : Kind) (scope : Scope) : Option Binary64 :=
  (first.value? k scope).bind fun old => (last.value? k scope).bind fun new =>
    if first.time < last.time then some (.round4 ((new - old) / (last.time.since first.time).seconds)) else none

theorem isSome_value? (r : Reading) (k : Kind) (scope : Scope) :
    (r.value? k scope).isSome = true ↔ scope.Among r.cores.length := by
  cases scope with
  | core i =>
    unfold value? Scope.Among
    rw [Option.isSome_map, isSome_getElem?]
  | total => exact iff_of_true rfl trivial

end Reading

/-- The readings that are not older than the last one by more than `d`. -/
def keptReadings (d : Duration) (rs : List Reading) : List Reading :=
  rs.filter fun r => rs.getLast?.all fun last => last.time.since r.time ≤ d

/-- The rate of the last reading since the one that so many steps lead back to. -/
def rateOver? (kept : List Reading) (last : Reading) (steps : Nat) (k : Kind) (scope : Scope) : Option Binary64 :=
  if 1 ≤ steps ∧ steps ≤ kept.length then
    (kept[kept.length - steps]?).bind fun first => first.rate? last k scope
  else none

/-! ## Snapshots by readings -/

theorem totalOf_eq (cores : List CpuTimes) (k : Kind) :
    totalOf cores k = (cores.map (·.get k)).foldl (· + ·) (.zero false) / .ofNat cores.length := by
  unfold totalOf
  rw [List.foldl_map]

theorem mem_kindValues {r : Reading} {k : Kind} {key : MetricKey} {v : Binary64} :
    (key, v) ∈ kindValues r.cores k ↔ key.kind = k ∧ r.value? k key.scope = some v := by
  obtain ⟨kind, scope⟩ := key
  unfold kindValues
  rw [List.mem_append, List.mem_map, List.mem_singleton, totalOf_eq]
  constructor
  · rintro (⟨⟨t, i⟩, ht, h⟩ | h)
    · cases h
      rw [List.mk_mem_zipIdx_iff_getElem?] at ht
      exact ⟨rfl, by rw [Reading.value?, ht]; rfl⟩
    · cases h
      exact ⟨rfl, rfl⟩
  · rintro ⟨rfl, h⟩
    cases scope with
    | core i =>
      obtain ⟨t, ht, rfl⟩ := Option.map_eq_some_iff.1 h
      exact .inl ⟨(t, i), List.mk_mem_zipIdx_iff_getElem?.2 ht, rfl⟩
    | total =>
      cases h
      exact .inr rfl

theorem Reading.get?_snapshot (r : Reading) (kinds : OrderedSet Kind) (k : Kind) (scope : Scope) :
    (r.snapshot kinds).values.get? ⟨k, scope⟩ = if k ∈ kinds then r.value? k scope else none := by
  refine OrderedMap.get?_ofList_eq fun v => ?_
  rw [List.mem_flatMap]
  constructor
  · rintro ⟨k', hk', h⟩
    obtain ⟨rfl, hv⟩ := mem_kindValues.1 h
    exact (if_pos (show k ∈ kinds from hk')).trans hv
  · intro h
    split at h
    · next hk => exact ⟨k, hk, mem_kindValues.2 ⟨rfl, h⟩⟩
    · cases h

theorem rateBetween_snapshot {first last : Reading} {kinds : OrderedSet Kind} {k : Kind} (hk : k ∈ kinds)
    {scope : Scope} {v : Binary64} (hv : last.value? k scope = some v) :
    TimeSeries.rateBetween (first.snapshot kinds) (last.snapshot kinds) ⟨k, scope⟩ v = first.rate? last k scope := by
  unfold TimeSeries.rateBetween Reading.rate?
  rw [Reading.get?_snapshot, if_pos hk, hv]
  cases first.value? k scope with
  | none => rfl
  | some old =>
    show (if (last.time.since first.time).seconds.isPositive = true then _ else _) = _
    simp only [Instant.isPositive_seconds_since]
    rfl

theorem reference?_map {s : TimeSeries MetricKey} {kinds : OrderedSet Kind} {kept : List Reading}
    (h : s.snapshots = kept.map (·.snapshot kinds)) (w : Window) :
    s.reference? w = if w.steps s.interval ≤ kept.length then
      (kept[kept.length - w.steps s.interval]?).map (·.snapshot kinds) else none := by
  have hsize : s.size = kept.length := by
    unfold TimeSeries.size
    rw [h, List.length_map]
  show (if w.steps s.interval ≤ s.size then s.snapshots[s.size - w.steps s.interval]? else none) = _
  rw [hsize, h, List.getElem?_map]

theorem retained_map_snapshot (d : Duration) (kinds : OrderedSet Kind) (rs : List Reading) :
    TimeSeries.retained d (rs.map (·.snapshot kinds)) = (keptReadings d rs).map (·.snapshot kinds) := by
  unfold TimeSeries.retained keptReadings
  rw [List.filter_map, List.getLast?_map]
  cases rs.getLast? <;> rfl

theorem bind_reference? {s : TimeSeries MetricKey} {kinds : OrderedSet Kind} {kept : List Reading}
    (h : s.snapshots = kept.map (·.snapshot kinds)) {last : Reading} {k : Kind} (hk : k ∈ kinds) {scope : Scope}
    {v : Binary64} (hv : last.value? k scope = some v) (w : Window) :
    ((s.reference? w).bind fun first => TimeSeries.rateBetween first (last.snapshot kinds) ⟨k, scope⟩ v) =
      rateOver? kept last (w.steps s.interval) k scope := by
  unfold rateOver?
  rw [reference?_map h]
  generalize w.steps s.interval = steps
  by_cases hlen : steps ≤ kept.length
  · rw [if_pos hlen]
    by_cases hpos : 1 ≤ steps
    · rw [if_pos ⟨hpos, hlen⟩]
      cases kept[kept.length - steps]? with
      | none => rfl
      | some first => exact rateBetween_snapshot hk hv
    · -- no steps lead behind the last snapshot
      have hnone : kept[kept.length - steps]? = none := List.getElem?_eq_none (by omega)
      rw [if_neg fun h => hpos h.1, hnone]
      rfl
  · rw [if_neg hlen, if_neg fun h => hlen h.2]
    rfl

/-! ## Entries of a report -/

namespace Watcher

theorem mem_rateEntries {rates : Rates MetricKey} {k : Kind} {w : Window} {scope : Scope} {v : Option Binary64} :
    (.utilization k w scope, v) ∈ rateEntries rates ↔
      (rates.get? w).bind (fun byKey => byKey.get? ⟨k, scope⟩) = some v := by
  unfold rateEntries
  rw [List.mem_flatMap, Option.bind_eq_some_iff]
  constructor
  · rintro ⟨⟨w', byKey⟩, hw, h⟩
    obtain ⟨⟨key, v'⟩, hkey, h⟩ := List.mem_map.1 h
    cases h
    exact ⟨byKey, OrderedMap.mem_toList.1 hw, OrderedMap.mem_toList.1 hkey⟩
  · rintro ⟨byKey, hw, hkey⟩
    exact ⟨(w, byKey), OrderedMap.mem_toList.2 hw, List.mem_map.2 ⟨_, OrderedMap.mem_toList.2 hkey, rfl⟩⟩

theorem utilization_not_mem_loadHalf (w : Watcher) (load : Except HostError LoadAverage) (k : Kind) (win : Window)
    (scope : Scope) (v : Option Binary64) : (.utilization k win scope, v) ∉ Half.entries (w.loadHalf load) := by
  unfold loadHalf
  by_cases h : w.selection.loadWindows.isEmpty = true
  · rw [if_pos h]
    exact List.not_mem_nil
  · rw [if_neg h]
    cases load with
    | ok l => simp [Half.entries]
    | error e => exact List.not_mem_nil

theorem utilizationHalf_eq {w : Watcher} (hs : w.selection.samples = true) {latest : Snapshot MetricKey}
    (hl : w.series.latest? = some latest) :
    w.utilizationHalf.value = .ok (rateEntries (.ofSet w.selection.windows (w.series.windowRates latest))) := by
  unfold utilizationHalf TimeSeries.rates
  rw [hs, hl]
  rfl

/-- A report tells a rate for each chosen window and each value of the latest snapshot. -/
theorem get?_report {w : Watcher} (hs : w.selection.samples = true) {latest : Snapshot MetricKey}
    (hl : w.series.latest? = some latest) (load : Except HostError LoadAverage) (k : Kind) (win : Window)
    (scope : Scope) :
    (w.report load).value.measurements.get? (.utilization k win scope) =
      if win ∈ w.selection.windows then
        (latest.values.get? ⟨k, scope⟩).map fun last =>
          (w.series.reference? win).bind fun first => TimeSeries.rateBetween first latest ⟨k, scope⟩ last
      else none := by
  refine OrderedMap.get?_ofList_eq fun v => ?_
  have hrates : Half.entries w.utilizationHalf =
      rateEntries (.ofSet w.selection.windows (w.series.windowRates latest)) := by
    unfold Half.entries
    rw [utilizationHalf_eq hs hl]
  rw [List.mem_append, hrates, mem_rateEntries, OrderedMap.get?_ofSet]
  have hload := utilization_not_mem_loadHalf w load k win scope v
  simp only [hload, or_false]
  split
  · rw [Option.bind_some]
    unfold TimeSeries.windowRates
    rw [OrderedMap.get?_map]
  · rfl

theorem entries_eq_nil {w : Watcher} (h : w.selection.samples = false ∨ w.series.latest? = none) :
    Half.entries w.utilizationHalf = [] := by
  unfold utilizationHalf TimeSeries.rates
  cases hs : w.selection.samples with
  | false => rfl
  | true =>
    obtain hl : w.series.latest? = none := h.resolve_left (by rw [hs]; exact Bool.noConfusion)
    rw [hl]
    rfl

theorem get?_report_eq_none {w : Watcher} (h : Half.entries w.utilizationHalf = [])
    (load : Except HostError LoadAverage) (k : Kind) (win : Window) (scope : Scope) :
    (w.report load).value.measurements.get? (.utilization k win scope) = none := by
  refine OrderedMap.get?_ofList_eq fun v => ?_
  rw [h, List.nil_append]
  exact iff_of_false (utilization_not_mem_loadHalf w load k win scope v) nofun

theorem measured_of_report {w : Watcher} {load : Except HostError LoadAverage} {k : Kind} {win : Window} {scope : Scope}
    {v : Binary64} (hv : (w.report load).value.measurements.get? (.utilization k win scope) = some (some v)) :
    w.selection.samples = true ∧ win ∈ w.selection.windows ∧ ∃ first last value,
      w.series.reference? win = some first ∧ w.series.latest? = some last ∧
      last.values.get? ⟨k, scope⟩ = some value ∧
      TimeSeries.rateBetween first last ⟨k, scope⟩ value = some v := by
  cases hs : w.selection.samples with
  | false =>
    rw [get?_report_eq_none (entries_eq_nil (.inl hs))] at hv
    cases hv
  | true =>
    cases hl : w.series.latest? with
    | none =>
      rw [get?_report_eq_none (entries_eq_nil (.inr hl))] at hv
      cases hv
    | some last =>
      rw [get?_report hs hl] at hv
      split at hv
      · next hwin =>
        obtain ⟨value, hvalue, hrate⟩ := Option.map_eq_some_iff.1 hv
        obtain ⟨first, hfirst, hrate⟩ := Option.bind_eq_some_iff.1 hrate
        exact ⟨rfl, hwin, first, last, value, hfirst, rfl, hvalue, hrate⟩
      · cases hv

/-! ## Scripts -/

def sampleTime? : Event → Option Instant
  | .sample _ time => some time
  | _ => none

theorem time_ofStep? {e : Event} {reply : Reply} {r : Reading} (h : Reading.ofStep? (e, reply) = some r) :
    sampleTime? e = some r.time := by
  unfold Reading.ofStep? at h
  split at h
  · next hp =>
    cases hp
    cases h
    rfl
  · cases h

theorem times_readings_sublist : ∀ (w : Watcher) (events : List Event),
    ((readings (w.trace events)).map (·.time)).Sublist (events.filterMap sampleTime?)
  | _, [] => List.Sublist.slnil
  | w, e :: events => by
    have ih := times_readings_sublist (w.perform e).2 events
    rw [trace_cons, readings_cons, List.map_append, List.filterMap_cons]
    cases h : Reading.ofStep? (e, (w.perform e).1) with
    | none =>
      cases sampleTime? e with
      | none => exact ih
      | some t => exact ih.cons t
    | some r =>
      rw [time_ofStep? h]
      exact ih.cons_cons r.time

theorem inOrder_readings (w : Watcher) {events : List Event}
    (h : (events.filterMap sampleTime?).Pairwise (· ≤ ·)) (kinds : OrderedSet Kind) :
    TimeSeries.InOrder ((readings (w.trace events)).map (·.snapshot kinds)) := by
  have htimes := h.sublist (times_readings_sublist w events)
  unfold TimeSeries.InOrder
  rw [List.pairwise_map] at htimes ⊢
  exact htimes

theorem cores_ne_nil {w : Watcher} (hs : w.selection.samples = true) {e : Event} {r : Reading}
    (h : Reading.ofStep? (e, (w.perform e).1) = some r) : r.cores ≠ [] := by
  cases e with
  | sample query time =>
    rcases sample_cases hs query time with ⟨cores, hc, rfl, -, hw⟩ | ⟨e, w', hw, -, -⟩
    · simp only [perform, hw] at h
      cases h
      exact hc
    · simp only [perform, hw, Reading.ofStep?] at h
      cases h
  | release late => cases h
  | report load => cases h
  | means now => cases h

theorem cores_ne_nil_of_mem : ∀ {w : Watcher}, w.selection.samples = true → ∀ (events : List Event) {r : Reading},
    r ∈ readings (w.trace events) → r.cores ≠ []
  | _, _, [], _, h => absurd h List.not_mem_nil
  | w, hs, e :: events, r, h => by
    rw [trace_cons, readings_cons, List.mem_append, Option.mem_toList] at h
    rcases h with h | h
    · exact cores_ne_nil hs h
    · exact cores_ne_nil_of_mem (by rw [selection_perform hs e, hs]) events h

section After
variable {selection : Selection} (interval timeout : Duration)

theorem retains_after (hs : selection.samples = true) {events : List Event}
    (ordered : (events.filterMap sampleTime?).Pairwise (· ≤ ·)) :
    TimeSeries.Retains ((withTiming selection interval timeout).after events).series
      ((readings ((withTiming selection interval timeout).trace events)).map (·.snapshot selection.kinds)) := by
  have h := inOrder_readings (withTiming selection interval timeout) ordered selection.kinds
  rw [series_after events hs]
  exact (TimeSeries.Retains.empty _ _).appendAll h

theorem snapshots_after (hs : selection.samples = true) {events : List Event}
    (ordered : (events.filterMap sampleTime?).Pairwise (· ≤ ·)) :
    ((withTiming selection interval timeout).after events).series.snapshots =
      (keptReadings (TimeSeries.longest selection.windows)
        (readings ((withTiming selection interval timeout).trace events))).map (·.snapshot selection.kinds) := by
  have hret : ((withTiming selection interval timeout).after events).series.retention =
      TimeSeries.longest selection.windows := by
    rw [series_after events hs, TimeSeries.retention_appendAll]
    rfl
  rw [(retains_after interval timeout hs ordered).snapshots_eq, hret, retained_map_snapshot]

theorem latest?_after (hs : selection.samples = true) (events : List Event) :
    ((withTiming selection interval timeout).after events).series.latest? =
      (readings ((withTiming selection interval timeout).trace events)).getLast?.map (·.snapshot selection.kinds) := by
  rw [series_after events hs, ← List.getLast?_map]
  exact TimeSeries.latest?_appendAll_empty _ _ _

theorem interval_after (hs : selection.samples = true) (events : List Event) :
    ((withTiming selection interval timeout).after events).series.interval =
      (withTiming selection interval timeout).interval := by
  rw [series_after events hs, TimeSeries.interval_appendAll]
  rfl

end After

/-- **The utilization after a script.** -/
theorem utilization_after (selection : Selection) (interval timeout : Duration) (hs : selection.samples = true)
    (events : List Event) (ordered : (events.filterMap sampleTime?).Pairwise (· ≤ ·))
    (load : Except HostError LoadAverage) (last : Reading)
    (hl : (readings ((withTiming selection interval timeout).trace events)).getLast? = some last) :
    let start := withTiming selection interval timeout
    let w := start.after events
    let kept := keptReadings (TimeSeries.longest selection.windows) (readings (start.trace events))
    last.cores ≠ [] ∧ w.series.snapshots = kept.map (·.snapshot selection.kinds) ∧
      ∀ k win scope, (w.report load).value.measurements.get? (.utilization k win scope) =
        if k ∈ selection.kinds ∧ win ∈ selection.windows ∧ scope.Among last.cores.length then
          some (rateOver? kept last (win.steps start.interval) k scope)
        else none := by
  intro start w kept
  have hsel : w.selection = selection := selection_after events hs
  have hsnap : w.series.snapshots = kept.map (·.snapshot selection.kinds) := snapshots_after interval timeout hs ordered
  have hlatest : w.series.latest? = some (last.snapshot selection.kinds) := by
    rw [latest?_after interval timeout hs events, hl]
    rfl
  refine ⟨cores_ne_nil_of_mem hs events (List.mem_of_getLast? hl), hsnap, fun k win scope => ?_⟩
  rw [get?_report (hsel ▸ hs) hlatest, hsel, Reading.get?_snapshot]
  by_cases hwin : win ∈ selection.windows
  · rw [if_pos hwin]
    by_cases hk : k ∈ selection.kinds
    · rw [if_pos hk]
      cases hv : last.value? k scope with
      | none =>
        have hout : ¬ scope.Among last.cores.length := by
          rw [← last.isSome_value? k scope, hv]
          exact Bool.false_ne_true
        rw [if_neg fun h => hout h.2.2]
        rfl
      | some v =>
        have hin : scope.Among last.cores.length := by
          rw [← last.isSome_value? k scope, hv]
          rfl
        rw [if_pos ⟨hk, hwin, hin⟩, Option.map_some, bind_reference? hsnap hk hv]
        rw [interval_after interval timeout hs events]
    · rw [if_neg hk, if_neg fun h => hk h.1]
      rfl
  · rw [if_neg hwin, if_neg fun h => hwin h.2.1]

/-- The second core was read twice and the third one only once. -/
theorem utilization_after_mixed :
    let w := twiceAMinute.after mixedScript
    let rate := fun scope => (w.report (.error (.io "loadavg" "gone"))).value.measurements.get?
      (.utilization .user ⟨1, by decide, by decide⟩ scope)
    (mixedScript.filterMap sampleTime?).Pairwise (· ≤ ·) ∧ rate (.core 1) = some (some (.ofNat 2 / .ofNat 10)) ∧
      rate (.core 2) = some none ∧ rate (.core 3) = none ∧ rate .total = some (some (.ofNat 667 / .ofNat 10000)) := by
  intro w rate
  have ordered : (mixedScript.filterMap sampleTime?).Pairwise (· ≤ ·) := by decide
  obtain ⟨-, -, h⟩ := utilization_after userMinute (.ofSeconds 30) (.ofSeconds 10) (by decide) mixedScript ordered
    (.error (.io "loadavg" "gone")) ⟨⟨30000000000⟩, coresOf [13, 26, 12]⟩ (by decide +kernel)
  exact ⟨ordered, (h .user _ (.core 1)).trans (by decide +kernel), (h .user _ (.core 2)).trans (by decide +kernel),
    (h .user _ (.core 3)).trans (by decide +kernel), (h .user _ .total).trans (by decide +kernel)⟩

end Watcher

end CpuMonitor
