import CpuMonitor.Proofs.Binary64.Sign
import CpuMonitor.Proofs.Series.Pruning

/-!
# When there is a rate

* `reference?_eq_some_iff`, `reference?_eq_none_iff` : which snapshot begins a window, and which windows have none.
* `rateBetween_eq_some_iff` : two snapshots give a rate of a key that both carry if time has passed between them.
* `mem_unfilled`, `ascending_unfilled` : the windows that are logged.
* `rateBetweenBy`, `windowRatesBy` : the rates by another division.
* `rateBetweenBy_eq` : only positive times are divided by.
* `rates_exact` : all that the rates over some windows are, and what is logged on the way.
-/

set_option autoImplicit false

namespace CpuMonitor.TimeSeries
variable {κ : Type} [Ord κ]

/-! ## The reference of a window -/

/-- A window begins as many places back from the end as it has steps. -/
theorem reference?_eq_some_iff {s : TimeSeries κ} {w : Window} {first : Snapshot κ} :
    s.reference? w = some first ↔ 1 ≤ w.steps s.interval ∧ w.steps s.interval ≤ s.snapshots.length ∧
      s.snapshots[s.snapshots.length - w.steps s.interval]? = some first := by
  unfold reference? size
  generalize w.steps s.interval = steps
  constructor
  · intro h
    simp only [Option.ite_none_right_eq_some] at h
    obtain ⟨hle, hfirst⟩ := h
    -- no steps back lies behind the end
    obtain ⟨hlt, -⟩ := List.getElem?_eq_some_iff.1 hfirst
    exact ⟨by omega, hle, hfirst⟩
  · rintro ⟨-, hle, hfirst⟩
    exact (if_pos hle).trans hfirst

theorem reference?_eq_none_iff {s : TimeSeries κ} {w : Window} :
    s.reference? w = none ↔ w.steps s.interval = 0 ∨ s.snapshots.length < w.steps s.interval := by
  unfold reference? size
  generalize w.steps s.interval = steps
  by_cases hle : steps ≤ s.snapshots.length
  · simp only [hle, if_true, List.getElem?_eq_none_iff]
    omega
  · simp only [hle, if_false, true_iff]
    omega

theorem mem_unfilled {s : TimeSeries κ} {asked : OrderedSet Window} {w : Window} :
    w ∈ s.unfilled asked ↔ w ∈ asked ∧ (w.steps s.interval = 0 ∨ s.snapshots.length < w.steps s.interval) := by
  unfold unfilled
  rw [List.mem_filter, Option.isNone_iff_eq_none, reference?_eq_none_iff, OrderedSet.mem_toList]

theorem ascending_unfilled (s : TimeSeries κ) (asked : OrderedSet Window) :
    (s.unfilled asked).Pairwise fun v w => v.minutes < w.minutes := by
  refine (asked.ascending.filter _).imp fun {v w} h => ?_
  have hcompare : compare v.minutes w.minutes = .lt := h
  exact Nat.compare_eq_lt.1 hcompare

/-! ## The rate of a key -/

theorem rateBetween_eq_some_iff {first latest : Snapshot κ} {k : κ} {last rate : Binary64} :
    rateBetween first latest k last = some rate ↔ ∃ value, first.values.get? k = some value ∧
      first.time < latest.time ∧ rate = .round4 ((last - value) / (latest.time.since first.time).seconds) := by
  unfold rateBetween
  cases first.values.get? k with
  | none => simp
  | some value =>
    simp only [Instant.isPositive_seconds_since, Option.ite_none_right_eq_some, Option.some_inj, exists_eq_left']
    rw [eq_comm (a := rate)]

def rateBetweenBy (divide : Binary64 → Binary64 → Binary64) (first latest : Snapshot κ) (k : κ) (last : Binary64) :
    Option Binary64 :=
  (first.values.get? k).bind fun value =>
    let elapsed := (latest.time.since first.time).seconds
    if elapsed.isPositive then some (.round4 (divide (last - value) elapsed)) else none

/-- What a division gives for other than positive divisors does not show in a rate. -/
theorem rateBetweenBy_eq {divide : Binary64 → Binary64 → Binary64}
    (h : ∀ x y : Binary64, y.isPositive = true → divide x y = x / y) (first latest : Snapshot κ) (k : κ)
    (last : Binary64) : rateBetweenBy divide first latest k last = rateBetween first latest k last := by
  unfold rateBetweenBy rateBetween
  cases first.values.get? k with
  | none => rfl
  | some value =>
    generalize (latest.time.since first.time).seconds = elapsed
    rw [Option.bind_some]
    by_cases hpos : elapsed.isPositive = true
    · simp only [hpos, if_true, h _ _ hpos]
    · simp only [hpos]
      rfl

def windowRatesBy (divide : Binary64 → Binary64 → Binary64) (s : TimeSeries κ) (latest : Snapshot κ) (w : Window) :
    OrderedMap κ (Option Binary64) :=
  latest.values.map fun k last => (s.reference? w).bind fun first => rateBetweenBy divide first latest k last

theorem windowRatesBy_eq {divide : Binary64 → Binary64 → Binary64}
    (h : ∀ x y : Binary64, y.isPositive = true → divide x y = x / y) (s : TimeSeries κ) (latest : Snapshot κ)
    (w : Window) : s.windowRatesBy divide latest w = s.windowRates latest w := by
  unfold windowRatesBy windowRates
  simp only [rateBetweenBy_eq h]

variable [Std.LawfulEqOrd κ]

theorem get?_windowRates_eq_some_iff {s : TimeSeries κ} {latest : Snapshot κ} {w : Window} {k : κ} {last : Binary64}
    (hk : latest.values.get? k = some last) {rate : Binary64} :
    (s.windowRates latest w).get? k = some (some rate) ↔
      1 ≤ w.steps s.interval ∧ w.steps s.interval ≤ s.snapshots.length ∧ ∃ first value,
        s.snapshots[s.snapshots.length - w.steps s.interval]? = some first ∧ first.values.get? k = some value ∧
        first.time < latest.time ∧ rate = .round4 ((last - value) / (latest.time.since first.time).seconds) := by
  unfold windowRates
  rw [OrderedMap.get?_map, hk, Option.map_some, Option.some_inj, Option.bind_eq_some_iff]
  simp only [reference?_eq_some_iff, rateBetween_eq_some_iff]
  constructor
  · rintro ⟨first, ⟨hpos, hle, hfirst⟩, value, hvalue⟩
    exact ⟨hpos, hle, first, value, hfirst, hvalue⟩
  · rintro ⟨hpos, hle, first, value, hfirst, hvalue⟩
    exact ⟨first, ⟨hpos, hle, hfirst⟩, value, hvalue⟩

/-- **When there is a rate.** A key has one over a window whose steps lead back to an earlier snapshot that carries
it. -/
theorem rates_exact (s : TimeSeries κ) (asked : OrderedSet Window) :
    ((s.rates asked).value = .error .notCollected ↔ s.snapshots = []) ∧
    (s.snapshots = [] → (s.rates asked).log = []) ∧
    ∀ latest, s.snapshots.getLast? = some latest → ∃ rates : Rates κ, (s.rates asked).value = .ok rates ∧
      rates.keys = asked.toList ∧
      (∀ w ∈ asked, ∃ byKey, rates.get? w = some byKey ∧ byKey.keys = latest.values.keys ∧
        ∀ k last, latest.values.get? k = some last → ∃ entry, byKey.get? k = some entry ∧ ∀ rate, entry = some rate ↔
          1 ≤ w.steps s.interval ∧ w.steps s.interval ≤ s.snapshots.length ∧ ∃ first value,
            s.snapshots[s.snapshots.length - w.steps s.interval]? = some first ∧ first.values.get? k = some value ∧
            first.time < latest.time ∧ rate = .round4 ((last - value) / (latest.time.since first.time).seconds)) ∧
      (∀ divide : Binary64 → Binary64 → Binary64, (∀ x y, y.isPositive = true → divide x y = x / y) →
        rates = .ofSet asked (s.windowRatesBy divide latest)) ∧
      ∃ unfilled : List Window, unfilled.Pairwise (fun v w => v.minutes < w.minutes) ∧
        (∀ w, w ∈ unfilled ↔ w ∈ asked ∧ (w.steps s.interval = 0 ∨ s.snapshots.length < w.steps s.interval)) ∧
        (s.rates asked).log = unfilled.map fun w =>
          ⟨.debug, "cpu.util metrics for " ++ w.text ++ " min avg calculation are not collected yet"⟩ := by
  have hnil : s.snapshots = [] → s.latest? = none := fun h => List.getLast?_eq_none_iff.2 h
  refine ⟨⟨fun h => ?_, fun h => rates_of_no_latest (hnil h) asked⟩, fun h => ?_, fun latest hlatest => ?_⟩
  · cases hlatest : s.latest? with
    | none => exact List.getLast?_eq_none_iff.1 hlatest
    | some latest =>
      rw [rates_of_latest? hlatest] at h
      cases h
  · unfold rates
    rw [hnil h]
  have hlast : s.latest? = some latest := hlatest
  refine ⟨_, rates_of_latest? hlast asked, OrderedMap.keys_ofSet _ _, fun w hw => ?_, fun divide hdivide => ?_,
    s.unfilled asked, ascending_unfilled s asked, fun w => mem_unfilled, ?_⟩
  · refine ⟨s.windowRates latest w, ?_, OrderedMap.keys_map _ _, fun k last hk => ?_⟩
    · rw [OrderedMap.get?_ofSet, if_pos hw]
    have hentry : ∃ entry, (s.windowRates latest w).get? k = some entry := by
      unfold windowRates
      rw [OrderedMap.get?_map, hk]
      exact ⟨_, rfl⟩
    obtain ⟨entry, hentry⟩ := hentry
    refine ⟨entry, hentry, fun rate => ?_⟩
    rw [← get?_windowRates_eq_some_iff hk, hentry, Option.some_inj]
  · exact OrderedMap.ofSet_congr fun w _ => (windowRatesBy_eq hdivide s latest w).symm
  · unfold rates
    rw [hlast]
    rfl

/-- The times go back and stand still, and one key is missing. -/
theorem rates_exact_of_standstill :
    let s : TimeSeries Nat := ⟨.ofSeconds 120, .ofSeconds 30,
      [⟨⟨0⟩, .ofList [(7, .ofNat 2)]⟩, ⟨⟨90000000000⟩, .ofList []⟩,
        ⟨⟨60000000000⟩, .ofList [(7, .ofNat 3), (8, .ofNat 1)]⟩, ⟨⟨60000000000⟩, .ofList [(7, .ofNat 5), (8, .ofNat 1)]⟩]⟩
    let minute : Window := ⟨1, by decide, by decide⟩
    let minutes : Window := ⟨2, by decide, by decide⟩
    let asked : OrderedSet Window := .ofList [⟨3, by decide, by decide⟩, minute, minutes]
    (∃ rates : Rates Nat, (s.rates asked).value = .ok rates ∧
      (∃ byKey, rates.get? minute = some byKey ∧ byKey.keys = [7, 8] ∧ byKey.get? 7 = some none) ∧
      ∃ byKey, rates.get? minutes = some byKey ∧ byKey.get? 7 = some (some (.ofNat 500 / .ofNat 10000)) ∧
        byKey.get? 8 = some none) ∧
    (s.rates asked).log =
      [⟨.debug, "cpu.util metrics for 3 min avg calculation are not collected yet"⟩] := by
  intro s minute minutes asked
  have hone : minute.steps s.interval = 2 := by decide +kernel
  have htwo : minutes.steps s.interval = 4 := by decide +kernel
  obtain ⟨rates, hrates, -, hwindows, -, -⟩ := (rates_exact s asked).2.2
    ⟨⟨60000000000⟩, .ofList [(7, .ofNat 5), (8, .ofNat 1)]⟩ rfl
  refine ⟨⟨rates, hrates, ?_, ?_⟩, by decide +kernel⟩
  · obtain ⟨byKey, hbyKey, hkeys, hentries⟩ := hwindows minute (by decide)
    obtain ⟨entry, hentry, hrate⟩ := hentries 7 (.ofNat 5) (by decide +kernel)
    refine ⟨byKey, hbyKey, hkeys.trans (by decide +kernel), hentry.trans (congrArg some ?_)⟩
    rw [Option.eq_none_iff_forall_ne_some]
    intro rate heq
    obtain ⟨-, -, first, value, hfirst, -, hbefore, -⟩ := (hrate rate).1 heq
    rw [hone] at hfirst
    cases hfirst
    exact absurd hbefore (by decide)
  · obtain ⟨byKey, hbyKey, -, hentries⟩ := hwindows minutes (by decide)
    obtain ⟨entry, hentry, hrate⟩ := hentries 7 (.ofNat 5) (by decide +kernel)
    obtain ⟨entry', hentry', hrate'⟩ := hentries 8 (.ofNat 1) (by decide +kernel)
    refine ⟨byKey, hbyKey, hentry.trans (congrArg some ?_), hentry'.trans (congrArg some ?_)⟩
    · rw [hrate, htwo]
      exact ⟨by decide, by decide, _, .ofNat 2, rfl, by decide +kernel, by decide, by decide +kernel⟩
    · rw [Option.eq_none_iff_forall_ne_some]
      intro rate heq
      obtain ⟨-, -, first, value, hfirst, hvalue, -, -⟩ := (hrate' rate).1 heq
      rw [htwo] at hfirst
      cases hfirst
      cases hvalue

end CpuMonitor.TimeSeries
