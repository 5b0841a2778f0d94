import CpuMonitor.Proofs.Watcher.Deadlines
import Mathlib.Order.Bounds.Basic

/-!
# The deadlines of a run

The deadlines of a run by the clock's readings at the ends of its rounds. The clock may show anything there.

* `Instant.nextNumber` : the number of the point of the grid that comes after a point; `isLeast_nextNumber` says which one
  that is, and `nextDeadline?_eq` that the loop finds it.
* `Instant.deadlineNumber`, `Watcher.deadline?` : the number of the deadline after some rounds, and the deadline itself.
* `Watcher.ending_run` : a run breaks down when it has no next deadline.
* `Sampler.OnGrid` : a loop waits for the deadline of the readings in its rounds; `OnGrid.move`.
* `deadlines_on_grid` : each deadline is the first point of the grid that is both behind the one before it and still to
  come.
-/

set_option autoImplicit false

namespace CpuMonitor

/-! ## The next point -/

/-- The number of the first point of the grid that is behind the point `last` and behind `now`. -/
def Instant.nextNumber (start : Instant) (interval : Duration) (last : Nat) (now : Instant) : Nat :=
  max last ((now.since start).nanoseconds / interval.nanoseconds) + 1

theorem Instant.lt_nextNumber (start : Instant) (interval : Duration) (last : Nat) (now : Instant) :
    last < start.nextNumber interval last now := Nat.lt_succ_of_le (Nat.le_max_left _ _)

section Grid
variable {start : Instant} {interval : Duration} (pos : 0 < interval.nanoseconds) (now : Instant)

include pos in
theorem Instant.gridPoint_le_iff_of_pos {n : Nat} (hn : 0 < n) :
    start.gridPoint interval n ≤ now ↔ n ≤ (now.since start).nanoseconds / interval.nanoseconds := by
  by_cases hle : start ≤ now
  · exact Instant.gridPoint_le_iff pos hle n
  · have hlt : now.nanoseconds < start.nanoseconds := Instant.not_le.1 hle
    have hzero : (now.since start).nanoseconds = 0 := by
      show (now.nanoseconds - start.nanoseconds).toNat = 0
      omega
    rw [hzero, Nat.zero_div]
    refine iff_of_false (fun h => hle ?_) (by omega)
    exact Int.le_trans (start.start_le_gridPoint interval n) h

include pos in
theorem isLeast_nextNumber (last : Nat) :
    IsLeast {n | last < n ∧ now < start.gridPoint interval n} (start.nextNumber interval last now) := by
  have hahead : ∀ n, 0 < n → (now < start.gridPoint interval n ↔
      (now.since start).nanoseconds / interval.nanoseconds < n) := by
    intro n hn
    rw [← Instant.not_le, Instant.gridPoint_le_iff_of_pos pos now hn, Nat.not_le]
  unfold Instant.nextNumber
  constructor
  · exact ⟨by omega, (hahead _ (by omega)).2 (by omega)⟩
  · rintro n ⟨hlast, hnow⟩
    have hpassed := (hahead n (by omega)).1 hnow
    omega

include pos in
theorem nextDeadline?_eq (last : Nat) : nextDeadline? interval pos now (start.gridPoint interval last) =
    if (start.gridPoint interval (start.nextNumber interval last now)).nanoseconds < clockEnd then
      some (start.gridPoint interval (start.nextNumber interval last now)) else none := by
  by_cases hpassed : start.gridPoint interval last ≤ now
  · have hle : start ≤ now := Int.le_trans (start.start_le_gridPoint interval last) hpassed
    have hq := (Instant.gridPoint_le_iff pos hle last).1 hpassed
    have hnext : start.nextPoint interval now = start.gridPoint interval (start.nextNumber interval last now) := by
      rw [Instant.nextPoint, Instant.nextNumber, Nat.max_eq_right hq]
    rw [nextDeadline?_gridPoint pos hle hpassed, hnext]
  · have hahead : now < start.gridPoint interval (last + 1) :=
      Int.lt_trans (Instant.not_le.1 hpassed) (start.gridPoint_lt pos (Nat.lt_succ_self last))
    have hnumber : start.nextNumber interval last now = last + 1 :=
      (isLeast_nextNumber pos now last).unique ⟨⟨Nat.lt_succ_self last, hahead⟩, fun _ hn => hn.1⟩
    rw [hnumber]
    rw [← Instant.gridPoint_add] at hahead ⊢
    split
    · next hbefore => exact nextDeadline?_of_lt hahead hbefore
    · next hbeyond =>
      unfold nextDeadline? Instant.add?
      rw [if_neg hbeyond]
      rfl

end Grid

/-! ## Deadlines of readings -/

/-- The number of the deadline after rounds at whose ends the clock shows `readings`. -/
def Instant.deadlineNumber (start : Instant) (interval : Duration) (readings : List Instant) : Nat :=
  readings.foldl (start.nextNumber interval) 0

theorem Instant.deadlineNumber_concat (start : Instant) (interval : Duration) (readings : List Instant)
    (now : Instant) : start.deadlineNumber interval (readings ++ [now]) =
      start.nextNumber interval (start.deadlineNumber interval readings) now := List.foldl_concat ..

/-- The deadline after these rounds, unless the clock cannot tell it or one before it. -/
def Watcher.deadline? (w : Watcher) (start : Instant) (readings : List Instant) : Option Instant :=
  readings.foldlM (fun last now => nextDeadline? w.interval w.interval_pos now last) start

theorem Watcher.deadline?_concat (w : Watcher) (start : Instant) (readings : List Instant) (now : Instant) :
    w.deadline? start (readings ++ [now]) =
      (w.deadline? start readings).bind (nextDeadline? w.interval w.interval_pos now) := by
  unfold deadline?
  rw [List.foldlM_append]
  cases List.foldlM (fun last now => nextDeadline? w.interval w.interval_pos now last) start readings with
  | none => rfl
  | some last => exact bind_pure (m := Option) _

theorem Watcher.deadline?_eq (w : Watcher) {start : Instant} (told : start.nanoseconds < clockEnd)
    (readings : List Instant) : w.deadline? start readings =
      if (start.gridPoint w.interval (start.deadlineNumber w.interval readings)).nanoseconds < clockEnd then
        some (start.gridPoint w.interval (start.deadlineNumber w.interval readings)) else none := by
  induction readings using List.reverseRecOn with
  | nil =>
    have hzero : start.gridPoint w.interval (start.deadlineNumber w.interval []) = start :=
      start.gridPoint_zero w.interval
    rw [hzero, if_pos told]
    rfl
  | append_singleton readings now ih =>
    rw [w.deadline?_concat, ih, Instant.deadlineNumber_concat]
    split
    · exact nextDeadline?_eq w.interval_pos now _
    · next hbeyond =>
      -- the deadline after one that the clock cannot tell is later still
      have hbehind := start.lt_nextNumber w.interval (start.deadlineNumber w.interval readings) now
      have hlater := Int.lt_of_le_of_lt (Int.not_lt.1 hbeyond) (start.gridPoint_lt w.interval_pos hbehind)
      rw [if_neg (Int.not_lt.2 (Int.le_of_lt hlater))]
      rfl

theorem Watcher.ending_run (w : Watcher) (start : Instant) (ticks : List Tick) :
    (w.run start ticks).value.ending = .stopped ↔ (w.deadline? start (ticks.map (·.now))).isSome = true := by
  unfold run deadline?
  induction ticks generalizing w start with
  | nil => exact iff_of_true rfl rfl
  | cons t ticks ih =>
    rw [List.map_cons, List.foldlM_cons]
    cases hnext : nextDeadline? w.interval w.interval_pos t.now start with
    | none =>
      rw [runFrom_cons_of_none ticks hnext]
      exact iff_of_false nofun nofun
    | some next =>
      have hending := ending_runFrom_congr (w.interval_sample t.query t.time) next ticks
      rw [runFrom_cons_of_some ticks hnext]
      show ((w.sample t.query t.time).2.runFrom next ticks).value.ending = .stopped ↔ _
      rw [hending]
      exact ih w next

/-! ## Deadlines of a loop -/

namespace Sampler

/-- The loop waits for the deadline of its readings, and has broken down if there is none. -/
structure OnGrid (w : Watcher) (time : Instant) (s : Sampler) : Prop where
  interval_eq : s.watcher.interval = w.interval
  deadline : s.place ≠ .clockEnded → w.deadline? time (s.rounds.map (·.now)) = some s.deadline
  clockEnded : s.place = .clockEnded → w.deadline? time (s.rounds.map (·.now)) = none

section OnGrid
variable {w : Watcher} {time : Instant} {s s' : Sampler}

theorem OnGrid.start (w : Watcher) (running : Bool) (source : List QueryOutcome) (time : Instant) :
    OnGrid w time (Sampler.start w running source time) :=
  ⟨rfl, fun _ => rfl, nofun⟩

theorem OnGrid.keep (h : OnGrid w time s) (hplace : s.place ≠ .clockEnded) (hinterval : s'.watcher.interval = w.interval)
    (hdeadline : s'.deadline = s.deadline) (hrounds : s'.rounds = s.rounds) (hplace' : s'.place ≠ .clockEnded) :
    OnGrid w time s' where
  interval_eq := hinterval
  deadline _ := by
    rw [hrounds, hdeadline]
    exact h.deadline hplace
  clockEnded hended := absurd hended hplace'

theorem OnGrid.round (h : OnGrid w time s) {query : QueryOutcome} {ended : Instant}
    (place : s.place = .sampled query ended) (now : Instant) :
    w.deadline? time ((s.finish query ended now).rounds.map (·.now)) =
      nextDeadline? s.watcher.interval s.watcher.interval_pos now s.deadline := by
  have hlast := h.deadline fun hended => nomatch place.symm.trans hended
  have hrounds : (s.finish query ended now).rounds.map (·.now) = s.rounds.map (·.now) ++ [now] := List.map_append ..
  rw [hrounds, w.deadline?_concat, hlast, Option.bind_some]
  exact nextDeadline?_congr h.interval_eq.symm _ _ now s.deadline

theorem OnGrid.step (h : OnGrid w time s) (hstep : Step s s') : OnGrid w time s' := by
  cases hstep with
  | stop place => exact h.keep (fun hended => nomatch place.symm.trans hended) h.interval_eq rfl rfl nofun
  | @ask query rest ended place =>
    exact h.keep (fun hended => nomatch place.symm.trans hended)
      ((s.watcher.interval_sample query ended).trans h.interval_eq) rfl rfl nofun
  | @pass query ended place =>
    exact h.keep (fun hended => nomatch place.symm.trans hended)
      ((s.watcher.interval_sample query ended).trans h.interval_eq) rfl rfl nofun
  | advance place later deadline =>
    exact ⟨h.interval_eq, fun _ => (h.round place _).trans deadline, nofun⟩
  | overflow place later deadline =>
    exact ⟨h.interval_eq, fun hended => absurd rfl hended, fun _ => (h.round place _).trans deadline⟩
  | leave place => exact h.keep (fun hended => nomatch place.symm.trans hended) h.interval_eq rfl rfl nofun
  | due place => exact h.keep (fun hended => nomatch place.symm.trans hended) h.interval_eq rfl rfl nofun
  | nap place =>
    have hplace : s.place ≠ .clockEnded := fun hended => nomatch place.symm.trans hended
    exact h.keep hplace h.interval_eq rfl rfl hplace

theorem OnGrid.move (h : OnGrid w time s) (hmove : Move s s') : OnGrid w time s' := by
  cases hmove with
  | step hstep => exact h.step hstep
  | clear => exact ⟨h.interval_eq, h.deadline, h.clockEnded⟩
  | release => exact ⟨h.interval_eq, h.deadline, h.clockEnded⟩

theorem OnGrid.of_moves {s₀ : Sampler} (h : OnGrid w time s₀) (hm : Moves s₀ s) : OnGrid w time s := by
  induction hm with
  | refl => exact h
  | tail _ hmove ih => exact ih.move hmove

end OnGrid

/-- **The deadlines of a run.** The next one is the least point of the grid behind the last one and behind the clock;
a run without a next one breaks down. -/
theorem deadlines_on_grid (selection : Selection) (interval timeout : Duration) {start : Instant}
    (told : start.nanoseconds < clockEnd) :
    let w := Watcher.withTiming selection interval timeout
    let point := start.gridPoint (interval.max .leastInterval)
    let number := start.deadlineNumber (interval.max .leastInterval)
    (∀ readings, w.deadline? start readings =
      if (point (number readings)).nanoseconds < clockEnd then some (point (number readings)) else none) ∧
    number [] = 0 ∧
    (∀ readings now, IsLeast {n | number readings < n ∧ now < point n} (number (readings ++ [now])) ∧
      (number (readings ++ [now]) = number readings + 1 ∨ point (number (readings ++ [now]) - 1) ≤ now)) ∧
    (∀ ticks, (w.run start ticks).value.ending = .stopped ↔ (w.deadline? start (ticks.map (·.now))).isSome = true) ∧
    ∀ running queries s, Moves (Sampler.start w running queries start) s →
      (s.place ≠ .clockEnded → w.deadline? start (s.rounds.map (·.now)) = some s.deadline) ∧
      (s.place = .clockEnded → w.deadline? start (s.rounds.map (·.now)) = none) := by
  intro w point number
  refine ⟨fun readings => w.deadline?_eq told readings, rfl, fun readings now => ?_, w.ending_run start,
    fun running queries s hmoves => ?_⟩
  · have hleast : IsLeast {n | number readings < n ∧ now < point n} (number (readings ++ [now])) := by
      rw [show number (readings ++ [now]) = _ from start.deadlineNumber_concat _ readings now]
      exact isLeast_nextNumber w.interval_pos now (number readings)
    refine ⟨hleast, ?_⟩
    by_cases hnext : number (readings ++ [now]) = number readings + 1
    · exact .inl hnext
    · -- the point before it lies behind the last deadline too, so only the clock can rule it out
      have hbehind : number readings < number (readings ++ [now]) := hleast.1.1
      refine .inr (Decidable.not_not.1 fun hahead => ?_)
      have hle := hleast.2 ⟨show number readings < number (readings ++ [now]) - 1 by omega, Instant.not_le.1 hahead⟩
      omega
  · have hgrid := (OnGrid.start w running queries start).of_moves hmoves
    exact ⟨hgrid.deadline, hgrid.clockEnded⟩

/-- A round that ends in time, one on a point of the grid, and one two points later. -/
theorem deadlines_on_grid_of_overruns :
    let start : Instant := ⟨1000000000000⟩
    let readings : List Instant := [⟨1001000000000⟩, ⟨1060000000000⟩, ⟨1125000000000⟩]
    start.nanoseconds < clockEnd ∧
      Watcher.twiceAMinute.deadline? start (readings.take 1) = some ⟨1030000000000⟩ ∧
      Watcher.twiceAMinute.deadline? start (readings.take 2) = some ⟨1090000000000⟩ ∧
      Watcher.twiceAMinute.deadline? start readings = some ⟨1150000000000⟩ := by
  intro start readings
  have told : start.nanoseconds < clockEnd := by decide
  obtain ⟨hdeadline, -⟩ := deadlines_on_grid Watcher.userMinute (.ofSeconds 30) (.ofSeconds 10) told
  exact ⟨told, (hdeadline (readings.take 1)).trans (by decide), (hdeadline (readings.take 2)).trans (by decide),
    (hdeadline readings).trans (by decide)⟩

end Sampler

end CpuMonitor
