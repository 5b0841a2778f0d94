import CpuMonitor.Proofs.Series.Retention
import CpuMonitor.Series.Means
import CpuMonitor.Series.Rates

/-!
# What pruning hides

A series is compared with the one that never dropped a snapshot of the same history.

* `unpruned` : a series that holds its whole history.
* `le_longest`, `exists_longest` : the longest window of a set.
* `exists_dropped` : a history in order is some snapshots that are too old, and then the retained ones.
* `Reaches d history n` : the `n`th snapshot from the end is there, and not older than the last one by more than `d`.
* `reference?_of_reaches`, `reference?_of_not_reaches` : pruning takes away exactly the references that are too old.
* `rates_pruned` : a rate is the same with and without pruning, or it is withheld.
* `means_pruned` : means over windows up to the longest one do not show whether a series was pruned.
-/

set_option autoImplicit false

namespace CpuMonitor.TimeSeries
variable {κ : Type} [Ord κ]

/-- A series of a whole history, from which nothing was dropped. -/
def unpruned (retention interval : Duration) (history : List (Snapshot κ)) : TimeSeries κ :=
  ⟨retention, interval, history⟩

theorem snapshots_appendAll_empty (retention interval : Duration) {history : List (Snapshot κ)} (h : InOrder history) :
    ((empty retention interval).appendAll history).snapshots = retained retention history := by
  have hret := ((Retains.empty retention interval).appendAll h).snapshots_eq
  rw [List.nil_append, retention_appendAll] at hret
  exact hret

/-! ## The longest window -/

theorem le_foldl_max (d : Duration) (ws : List Window) :
    d ≤ ws.foldl (fun d w => d.max w.duration) d ∧ ∀ w ∈ ws, w.duration ≤ ws.foldl (fun d w => d.max w.duration) d := by
  induction ws generalizing d with
  | nil => exact ⟨Nat.le_refl _, fun w hw => absurd hw List.not_mem_nil⟩
  | cons x ws ih =>
    obtain ⟨hd, hws⟩ := ih (d.max x.duration)
    refine ⟨Duration.le_trans (Nat.le_max_left _ _) hd, fun w hw => ?_⟩
    rcases List.mem_cons.1 hw with rfl | hw
    · exact Duration.le_trans (Nat.le_max_right _ _) hd
    · exact hws w hw

theorem foldl_max_eq (d : Duration) (ws : List Window) : ws.foldl (fun d w => d.max w.duration) d = d ∨
    ∃ w ∈ ws, ws.foldl (fun d w => d.max w.duration) d = w.duration := by
  induction ws generalizing d with
  | nil => exact .inl rfl
  | cons x ws ih =>
    rcases ih (d.max x.duration) with h | ⟨w, hw, h⟩
    · rw [List.foldl_cons, h]
      by_cases hle : x.duration ≤ d
      · exact .inl (Duration.max_eq_left hle)
      · exact .inr ⟨x, List.mem_cons_self, Duration.max_eq_right (Duration.le_of_not_le hle)⟩
    · exact .inr ⟨w, List.mem_cons_of_mem x hw, h⟩

theorem le_longest {windows : OrderedSet Window} {w : Window} (hw : w ∈ windows) : w.duration ≤ longest windows :=
  (le_foldl_max ⟨0⟩ windows.toList).2 w hw

theorem exists_longest {windows : OrderedSet Window} {w : Window} (hw : w ∈ windows) :
    ∃ l ∈ windows, longest windows = l.duration := by
  rcases foldl_max_eq ⟨0⟩ windows.toList with h | h
  · -- a window takes time
    have hpos : 0 < w.duration.nanoseconds := Nat.mul_pos (Nat.mul_pos w.pos (by decide)) (by decide)
    have hle := le_longest hw
    rw [longest, h] at hle
    exact absurd hle (Nat.not_le.2 hpos)
  · exact h

/-! ## Positions from the end -/

/-- The snapshots that are too old stand in front of the retained ones. -/
theorem exists_dropped (d : Duration) {history : List (Snapshot κ)} (h : InOrder history) {last : Snapshot κ}
    (hlast : history.getLast? = some last) :
    ∃ old, history = old ++ retained d history ∧ ∀ x ∈ old, ¬ last.time.since x.time ≤ d := by
  let tooOld : Snapshot κ → Bool := fun x => d < last.time.since x.time
  have hkept : retained d history = history.dropWhile tooOld := by
    rw [dropWhile_eq_recent d last.time history h]
    unfold retained recent
    rw [hlast]
    rfl
  refine ⟨history.takeWhile tooOld, ?_, fun x hx hle => ?_⟩
  · rw [hkept, List.takeWhile_append_dropWhile]
  · have hold := List.all_eq_true.1 List.all_takeWhile x hx
    exact Duration.not_lt.2 hle (by simpa [tooOld] using hold)

theorem age_of_mem_retained {d : Duration} {history : List (Snapshot κ)} {last x : Snapshot κ}
    (hlast : history.getLast? = some last) (hx : x ∈ retained d history) : last.time.since x.time ≤ d := by
  unfold retained at hx
  rw [hlast] at hx
  simpa using (List.mem_filter.1 hx).2

theorem getElem?_append_from_end {α : Type} (old kept : List α) {n : Nat} (hn : n ≤ kept.length) :
    (old ++ kept)[(old ++ kept).length - n]? = kept[kept.length - n]? := by
  rw [List.length_append, List.getElem?_append_right (by omega)]
  congr 1
  omega

/-- The `n`th snapshot from the end is not older than the last one by more than `d`. -/
def Reaches (d : Duration) (history : List (Snapshot κ)) (n : Nat) : Prop :=
  n ≤ history.length ∧ ∃ first last, history[history.length - n]? = some first ∧ history.getLast? = some last ∧
    last.time.since first.time ≤ d

theorem Reaches.le_length_retained {d : Duration} {history : List (Snapshot κ)} {n : Nat} (hr : Reaches d history n)
    (h : InOrder history) : n ≤ (retained d history).length := by
  obtain ⟨hn, first, last, hfirst, hlast, hage⟩ := hr
  obtain ⟨old, hsplit, hold⟩ := exists_dropped d h hlast
  generalize retained d history = kept at hsplit ⊢
  subst hsplit
  rw [List.length_append] at hn hfirst
  apply Nat.le_of_not_lt
  intro hlt
  -- else it would be among the dropped ones, which are too old
  rw [List.getElem?_append_left (by omega)] at hfirst
  exact hold first (List.mem_of_getElem? hfirst) hage

theorem Reaches.of_retained {d : Duration} {history : List (Snapshot κ)} {n : Nat} (h : InOrder history)
    (hn : n ≤ (retained d history).length) {first : Snapshot κ}
    (hfirst : (retained d history)[(retained d history).length - n]? = some first) : Reaches d history n := by
  have hmem : first ∈ history := (List.mem_filter.1 (List.mem_of_getElem? hfirst)).1
  obtain ⟨last, hlast⟩ := Option.isSome_iff_exists.1 (List.getLast?_isSome.2 (List.ne_nil_of_mem hmem))
  obtain ⟨old, hsplit, -⟩ := exists_dropped d h hlast
  have hage := age_of_mem_retained hlast (List.mem_of_getElem? hfirst)
  have hplace := getElem?_append_from_end old (retained d history) hn
  have hlen : (old ++ retained d history).length = old.length + (retained d history).length := List.length_append
  rw [← hsplit] at hplace hlen
  exact ⟨by omega, first, last, hplace.trans hfirst, hlast, hage⟩

/-! ## References -/

section Reference
variable (retention interval : Duration) {history : List (Snapshot κ)} {w : Window}

theorem reference?_unpruned (l : List (Snapshot κ)) (w : Window) : (unpruned retention interval l).reference? w =
    if w.steps interval ≤ l.length then l[l.length - w.steps interval]? else none := rfl

theorem reference?_pruned (h : InOrder history) (w : Window) :
    ((empty retention interval).appendAll history).reference? w =
      (unpruned retention interval (retained retention history)).reference? w := by
  unfold reference? size
  rw [snapshots_appendAll_empty retention interval h, interval_appendAll]
  rfl

/-- A reference within reach is not pruned away. -/
theorem reference?_of_reaches (h : InOrder history) (hr : Reaches retention history (w.steps interval)) :
    ((empty retention interval).appendAll history).reference? w =
      (unpruned retention interval history).reference? w := by
  have hkept := hr.le_length_retained h
  obtain ⟨hn, first, last, -, hlast, -⟩ := hr
  obtain ⟨old, hsplit, -⟩ := exists_dropped retention h hlast
  have hplace := getElem?_append_from_end old (retained retention history) hkept
  rw [← hsplit] at hplace
  rw [reference?_pruned retention interval h, reference?_unpruned, reference?_unpruned, if_pos hkept, if_pos hn]
  exact hplace.symm

theorem reference?_of_not_reaches (h : InOrder history) (hr : ¬ Reaches retention history (w.steps interval)) :
    ((empty retention interval).appendAll history).reference? w = none := by
  rw [reference?_pruned retention interval h, reference?_unpruned]
  split
  · next hn =>
    cases hfirst : (retained retention history)[(retained retention history).length - w.steps interval]? with
    | none => rfl
    | some first => exact absurd (Reaches.of_retained h hn hfirst) hr
  · rfl

theorem reached_of_reference? {retention interval : Duration} (h : InOrder history) {first last : Snapshot κ}
    (hfirst : ((empty retention interval).appendAll history).reference? w = some first)
    (hlast : ((empty retention interval).appendAll history).latest? = some last) :
    w.steps interval ≤ history.length ∧ history[history.length - w.steps interval]? = some first ∧
      history.getLast? = some last ∧ last.time.since first.time ≤ retention := by
  rw [latest?_appendAll_empty] at hlast
  have hr : Reaches retention history (w.steps interval) := by
    by_cases hr : Reaches retention history (w.steps interval)
    · exact hr
    · rw [reference?_of_not_reaches retention interval h hr] at hfirst
      cases hfirst
  rw [reference?_of_reaches retention interval h hr, reference?_unpruned, if_pos hr.1] at hfirst
  obtain ⟨hn, first', last', hfirst', hlast', hage⟩ := hr
  obtain rfl : first' = first := Option.some.inj (hfirst'.symm.trans hfirst)
  obtain rfl : last' = last := Option.some.inj (hlast'.symm.trans hlast)
  exact ⟨hn, hfirst, hlast, hage⟩

end Reference

/-! ## Rates -/

theorem rates_of_latest? {s : TimeSeries κ} {last : Snapshot κ} (h : s.latest? = some last)
    (asked : OrderedSet Window) : (s.rates asked).value = .ok (.ofSet asked (s.windowRates last)) := by
  unfold rates
  rw [h]

theorem rates_of_no_latest {s : TimeSeries κ} (h : s.latest? = none) (asked : OrderedSet Window) :
    (s.rates asked).value = .error .notCollected := by
  unfold rates
  rw [h]

theorem windowRates_congr {s s' : TimeSeries κ} {w : Window} (h : s.reference? w = s'.reference? w)
    (latest : Snapshot κ) : s.windowRates latest w = s'.windowRates latest w := by
  unfold windowRates
  rw [h]

theorem windowRates_of_no_reference {s : TimeSeries κ} {w : Window} (h : s.reference? w = none)
    (latest : Snapshot κ) : s.windowRates latest w = latest.values.map fun _ _ => none := by
  unfold windowRates
  rw [h]
  rfl

/-- **Pruning only withholds rates.** Where the history reaches within the retention the rates agree, and elsewhere
there are none. -/
theorem rates_pruned (retention interval : Duration) (asked : OrderedSet Window) (history : List (Snapshot κ))
    (h : InOrder history) :
    let pruned := ((empty retention interval).appendAll history).rates asked
    let whole := (unpruned retention interval history).rates asked
    (history = [] → pruned.value = .error .notCollected ∧ whole.value = .error .notCollected) ∧
    ∀ last, history.getLast? = some last → ∃ p q : Rates κ, pruned.value = .ok p ∧ whole.value = .ok q ∧
      p.keys = asked.toList ∧ q.keys = asked.toList ∧
      ∀ w ∈ asked, ∃ rates rates', p.get? w = some rates ∧ q.get? w = some rates' ∧
        rates.keys = last.values.keys ∧ rates'.keys = last.values.keys ∧
        (Reaches retention history (w.steps interval) → rates = rates') ∧
        (¬ Reaches retention history (w.steps interval) → rates = last.values.map fun _ _ => none) := by
  intro pruned whole
  have hlatest := latest?_appendAll_empty (κ := κ) retention interval history
  constructor
  · rintro rfl
    exact ⟨rates_of_no_latest hlatest asked, rates_of_no_latest rfl asked⟩
  intro last hlast
  have hwhole : (unpruned retention interval history).latest? = some last := hlast
  refine ⟨_, _, rates_of_latest? (hlatest.trans hlast) asked, rates_of_latest? hwhole asked,
    OrderedMap.keys_ofSet _ _, OrderedMap.keys_ofSet _ _, fun w hw => ?_⟩
  refine ⟨_, _, (OrderedMap.get?_ofSet _ _ w).trans (if_pos hw), (OrderedMap.get?_ofSet _ _ w).trans (if_pos hw),
    OrderedMap.keys_map _ _, OrderedMap.keys_map _ _, fun hr => ?_, fun hr => ?_⟩
  · exact windowRates_congr (reference?_of_reaches retention interval h hr) last
  · exact windowRates_of_no_reference (reference?_of_not_reaches retention interval h hr) last

/-- Over two minutes the last rate is withheld: its reference is too old by then. -/
theorem rates_pruned_of_gap :
    let history : List (Snapshot Nat) := [⟨⟨0⟩, .ofList [(7, .ofNat 1)]⟩, ⟨⟨30000000000⟩, .ofList [(7, .ofNat 2)]⟩,
      ⟨⟨100000000000⟩, .ofList [(7, .ofNat 3)]⟩, ⟨⟨130000000000⟩, .ofList [(7, .ofNat 5), (8, .ofNat 1)]⟩]
    let minute : Window := ⟨1, by decide, by decide⟩
    let minutes : Window := ⟨2, by decide, by decide⟩
    let asked : OrderedSet Window := .ofList [minute, minutes]
    InOrder history ∧ ∃ p q : Rates Nat,
      (((empty (.ofSeconds 120) (.ofSeconds 30)).appendAll history).rates asked).value = .ok p ∧
      ((unpruned (.ofSeconds 120) (.ofSeconds 30) history).rates asked).value = .ok q ∧
      p.get? minute = q.get? minute ∧ p.get? minutes = some (.ofList [(7, none), (8, none)]) := by
  intro history minute minutes asked
  have h : InOrder history := by unfold InOrder history; decide
  obtain ⟨p, q, hp, hq, -, -, hw⟩ :=
    (rates_pruned (.ofSeconds 120) (.ofSeconds 30) asked history h).2 _ rfl
  refine ⟨h, p, q, hp, hq, ?_, ?_⟩
  · obtain ⟨r, r', hr, hr', -, -, hagree, -⟩ := hw minute (by decide)
    have hsteps : minute.steps (.ofSeconds 30) = 2 := by decide +kernel
    rw [hr, hr', hagree (by rw [hsteps]; exact ⟨by decide, _, _, rfl, rfl, by decide⟩)]
  · obtain ⟨r, r', hr, -, -, -, -, hnone⟩ := hw minutes (by decide)
    have hsteps : minutes.steps (.ofSeconds 30) = 4 := by decide +kernel
    rw [hr, hnone ?_]
    · decide +kernel
    · rw [hsteps]
      rintro ⟨-, first, last, hfirst, hlast, hage⟩
      cases hfirst
      cases hlast
      exact absurd hage (by decide)

/-! ## Means -/

theorem within_pruned (retention interval : Duration) {history : List (Snapshot κ)} (h : InOrder history) {now : Instant}
    (hnow : ∀ last ∈ history.getLast?, last.time ≤ now) {w : Window} (hw : w.duration ≤ retention) :
    ((empty retention interval).appendAll history).within now w =
      (unpruned retention interval history).within now w := by
  unfold within
  rw [snapshots_appendAll_empty retention interval h]
  show List.filter _ (List.filter _ history) = List.filter _ history
  rw [List.filter_filter]
  apply List.filter_congr
  intro x _
  cases hlast : history.getLast? with
  | none => simp
  | some last =>
    have hage : last.time.since x.time ≤ now.since x.time := Instant.since_le_since_of_le (hnow last hlast)
    by_cases hx : now.since x.time < w.duration
    · have hle : last.time.since x.time ≤ retention :=
        Duration.le_trans hage (Duration.le_trans (Nat.le_of_lt hx) hw)
      simp [hx, hle]
    · simp [hx]

/-- **Pruning does not show in means** over windows no longer than the longest one of the series. -/
theorem means_pruned [Std.TransOrd κ] (windows : OrderedSet Window) (interval : Duration) (history : List (Snapshot κ))
    (h : InOrder history) (asked : OrderedSet Window) (hasked : ∀ v ∈ asked, ∃ w ∈ windows, v.duration ≤ w.duration)
    (now : Instant) (hnow : ∀ last ∈ history.getLast?, last.time ≤ now) :
    ((forWindows windows interval).appendAll history).means asked now =
      (unpruned (longest windows) interval history).means asked now := by
  rw [means_eq_ofSet, means_eq_ofSet]
  refine OrderedMap.ofSet_congr fun v hv => ?_
  obtain ⟨w, hw, hvw⟩ := hasked v hv
  have hwithin := within_pruned (longest windows) interval h hnow (Duration.le_trans hvw (le_longest hw))
  unfold windowMeans forWindows
  rw [hwithin]

/-- The first snapshot was pruned; the second one is too old for the mean. -/
theorem means_pruned_of_two_minutes :
    let history : List (Snapshot Nat) := [⟨⟨0⟩, .ofList [(7, .ofNat 1)]⟩, ⟨⟨100000000000⟩, .ofList [(7, .ofNat 2)]⟩,
      ⟨⟨150000000000⟩, .ofList [(7, .ofNat 3)]⟩, ⟨⟨170000000000⟩, .ofList [(7, .ofNat 6), (8, .ofNat 1)]⟩]
    let minute : Window := ⟨1, by decide, by decide⟩
    let windows : OrderedSet Window := .ofList [⟨2, by decide, by decide⟩]
    let series := (forWindows windows (.ofSeconds 5)).appendAll history
    InOrder history ∧ series.size = 3 ∧
      series.means (.ofList [minute]) ⟨175000000000⟩ =
        (unpruned (longest windows) (.ofSeconds 5) history).means (.ofList [minute]) ⟨175000000000⟩ ∧
      (series.means (.ofList [minute]) ⟨175000000000⟩).get? minute =
        some (.ofList [(7, .ofNat 9 / .ofNat 2), (8, .ofNat 1)]) := by
  intro history minute windows series
  have h : InOrder history := by unfold InOrder history; decide
  refine ⟨h, by decide +kernel, ?_, by decide +kernel⟩
  refine means_pruned windows (.ofSeconds 5) history h (.ofList [minute]) (fun v hv => ?_) ⟨175000000000⟩ (by decide)
  rw [OrderedSet.mem_ofList, List.mem_singleton] at hv
  subst hv
  exact ⟨⟨2, by decide, by decide⟩, by decide, by decide⟩

end CpuMonitor.TimeSeries
