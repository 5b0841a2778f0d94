import CpuMonitor.Proofs.Watcher.Elapsed
import CpuMonitor.Proofs.Watcher.Sampler

/-!
# Deadlines and the end of the clock

The deadlines of the sampling loop are points of a grid that begins at its start. The loop breaks down when it needs a
point that the clock cannot tell, and then only.

* `Instant.nextPoint` : the first point of the grid behind an instant; `nextDeadline?_gridPoint` finds it.
* `Sampler.Move` : a step of the loop, or of those around it, who may clear its flag and let a query come back.
* `Sampler.Timely` : what holds of a loop from its start on; `Timely.move`.
* `Sampler.stops_unless_clock_ends` : when the loop stops, and when it breaks down.
-/

set_option autoImplicit false

namespace CpuMonitor

/-! ## The grid of deadlines -/

/-- The first point behind `now` of the grid from `start` on. -/
def Instant.nextPoint (start : Instant) (interval : Duration) (now : Instant) : Instant :=
  start.gridPoint interval ((now.since start).nanoseconds / interval.nanoseconds + 1)

section Grid
variable {start now : Instant} {interval : Duration} (pos : 0 < interval.nanoseconds)

theorem Instant.gridPoint_zero (start : Instant) (interval : Duration) : start.gridPoint interval 0 = start := by
  show (⟨start.nanoseconds + ((0 * interval.nanoseconds : Nat) : Int)⟩ : Instant) = start
  rw [Nat.zero_mul, Int.natCast_zero, Int.add_zero]

theorem Instant.gridPoint_add (start : Instant) (interval : Duration) (n : Nat) :
    start.gridPoint interval n + interval = start.gridPoint interval (n + 1) := by
  show (⟨start.nanoseconds + ((n * interval.nanoseconds : Nat) : Int) + (interval.nanoseconds : Int)⟩ : Instant) =
    ⟨start.nanoseconds + (((n + 1) * interval.nanoseconds : Nat) : Int)⟩
  rw [Nat.succ_mul, Int.natCast_add, Int.add_assoc]

theorem Instant.start_le_gridPoint (start : Instant) (interval : Duration) (n : Nat) :
    start ≤ start.gridPoint interval n := by
  show start.nanoseconds ≤ start.nanoseconds + ((n * interval.nanoseconds : Nat) : Int)
  omega

include pos in
/-- As many points have passed as intervals fit behind the start. -/
theorem Instant.gridPoint_le_iff (hle : start ≤ now) (n : Nat) :
    start.gridPoint interval n ≤ now ↔ n ≤ (now.since start).nanoseconds / interval.nanoseconds := by
  rw [Nat.le_div_iff_mul_le pos]
  have hle' : start.nanoseconds ≤ now.nanoseconds := hle
  show start.nanoseconds + ((n * interval.nanoseconds : Nat) : Int) ≤ now.nanoseconds ↔
    n * interval.nanoseconds ≤ (now.nanoseconds - start.nanoseconds).toNat
  omega

include pos in
theorem Instant.gridPoint_le_nextPoint {n : Nat}
    (h : n ≤ (now.since start).nanoseconds / interval.nanoseconds + 1) :
    start.gridPoint interval n ≤ start.nextPoint interval now := by
  rcases Nat.lt_or_eq_of_le h with hlt | rfl
  · exact Int.le_of_lt (start.gridPoint_lt pos hlt)
  · exact Int.le_refl _

theorem catchUp?_gridPoint (hle : start ≤ now) {n : Nat}
    (hn : n ≤ (now.since start).nanoseconds / interval.nanoseconds + 1)
    (hend : (start.gridPoint interval n).nanoseconds < clockEnd) :
    catchUp? interval pos now (start.gridPoint interval n) =
      if (start.nextPoint interval now).nanoseconds < clockEnd then some (start.nextPoint interval now) else none := by
  generalize hdeadline : start.gridPoint interval n = deadline at hend
  fun_induction catchUp? interval pos now deadline generalizing n with
  | case1 deadline hpassed hadd =>
    subst hdeadline
    have hq := (Instant.gridPoint_le_iff pos hle n).1 hpassed
    unfold Instant.add? at hadd
    rw [Instant.gridPoint_add] at hadd
    split at hadd
    · cases hadd
    · next hbeyond =>
      have hnext : (start.gridPoint interval (n + 1)).nanoseconds ≤ (start.nextPoint interval now).nanoseconds :=
        Instant.gridPoint_le_nextPoint pos (Nat.succ_le_succ hq)
      rw [if_neg (by omega)]
  | case2 deadline hpassed next hadd ih =>
    subst hdeadline
    have hq := (Instant.gridPoint_le_iff pos hle n).1 hpassed
    unfold Instant.add? at hadd
    rw [Instant.gridPoint_add] at hadd
    split at hadd
    · next hbefore =>
      rw [← Instant.gridPoint_add] at hbefore
      exact ih (Nat.succ_le_succ hq) (Instant.gridPoint_add start interval n).symm hbefore
    · cases hadd
  | case3 deadline hahead =>
    subst hdeadline
    have hq : ¬ n ≤ (now.since start).nanoseconds / interval.nanoseconds := fun hq =>
      hahead ((Instant.gridPoint_le_iff pos hle n).2 hq)
    have hlast : n = (now.since start).nanoseconds / interval.nanoseconds + 1 := by omega
    have hpoint : start.gridPoint interval n = start.nextPoint interval now := by rw [hlast, Instant.nextPoint]
    rw [hpoint] at hend ⊢
    rw [if_pos hend]

/-- After a deadline that is not ahead comes the first point of the grid that is. -/
theorem nextDeadline?_gridPoint (hle : start ≤ now) {n : Nat} (hpassed : start.gridPoint interval n ≤ now) :
    nextDeadline? interval pos now (start.gridPoint interval n) =
      if (start.nextPoint interval now).nanoseconds < clockEnd then some (start.nextPoint interval now) else none := by
  have hq := (Instant.gridPoint_le_iff pos hle n).1 hpassed
  unfold nextDeadline? Instant.add?
  rw [Instant.gridPoint_add]
  split
  · next hbefore =>
    rw [Option.bind_some]
    exact catchUp?_gridPoint pos hle (Nat.succ_le_succ hq) hbefore
  · next hbeyond =>
    have hnext : (start.gridPoint interval (n + 1)).nanoseconds ≤ (start.nextPoint interval now).nanoseconds :=
      Instant.gridPoint_le_nextPoint pos (Nat.succ_le_succ hq)
    rw [if_neg (by omega)]
    rfl

end Grid

/-! ## How a run ends -/

namespace Watcher

theorem ending_runFrom_congr : ∀ {w w' : Watcher} (_ : w'.interval = w.interval) (deadline : Instant)
    (ticks : List Tick), (w'.runFrom deadline ticks).value.ending = (w.runFrom deadline ticks).value.ending
  | _, _, _, _, [] => rfl
  | w, w', h, deadline, t :: ticks => by
    have hnext := nextDeadline?_congr h w'.interval_pos w.interval_pos t.now deadline
    cases hw : nextDeadline? w.interval w.interval_pos t.now deadline with
    | none => rw [runFrom_cons_of_none ticks hw, runFrom_cons_of_none ticks (hnext.trans hw)]
    | some next =>
      rw [runFrom_cons_of_some ticks hw, runFrom_cons_of_some ticks (hnext.trans hw)]
      exact ending_runFrom_congr (by rw [interval_sample, interval_sample, h]) next ticks

end Watcher

/-! ## A loop among others -/

namespace Sampler

/-- What can happen next: a step of the loop, a cleared flag, or a query that comes back. -/
inductive Move : Sampler → Sampler → Prop where
  | step {s s' : Sampler} (h : Step s s') : Move s s'
  | clear (s : Sampler) : Move s { s with running := false }
  | release (s : Sampler) : Move s { s with watcher := s.watcher.release }

abbrev Moves : Sampler → Sampler → Prop := Relation.ReflTransGen Move

/-- The invariant: the loop keeps to the grid, and has come as far as the run of its rounds. -/
structure Timely (w : Watcher) (time : Instant) (s : Sampler) : Prop where
  interval_eq : s.watcher.interval = w.interval
  grid : ∃ n, s.deadline = time.gridPoint w.interval n
  supplied : s.running = true → s.source ≠ []
  due : s.place = .outer → s.running = true → s.deadline ≤ s.clock
  overdue : ∀ query ended, s.place = .sampled query ended → s.deadline ≤ s.clock
  resumes : s.place ≠ .clockEnded → ∀ ticks,
    (w.runFrom time (s.rounds ++ ticks)).value.ending = (w.runFrom s.deadline ticks).value.ending
  beyond : s.place = .clockEnded → clockEnd ≤ (time.nextPoint w.interval s.clock).nanoseconds
  clockEnded : s.place = .clockEnded → (w.run time s.rounds).value.ending = .clockEnded

section Timely
variable {w : Watcher} {time : Instant} {s s' : Sampler}

theorem Timely.start (w : Watcher) (running : Bool) (source : List QueryOutcome) (time : Instant)
    (hsource : running = true → source ≠ []) : Timely w time (Sampler.start w running source time) where
  interval_eq := rfl
  grid := ⟨0, (time.gridPoint_zero w.interval).symm⟩
  supplied := hsource
  due _ _ := Int.le_refl _
  overdue := nofun
  resumes _ _ := rfl
  beyond := nofun
  clockEnded := nofun

theorem Timely.nextDeadline? (h : Timely w time s) {query : QueryOutcome} {ended : Instant}
    (place : s.place = .sampled query ended) {now : Instant} (later : s.clock ≤ now) :
    CpuMonitor.nextDeadline? s.watcher.interval s.watcher.interval_pos now s.deadline =
      if (time.nextPoint w.interval now).nanoseconds < clockEnd then some (time.nextPoint w.interval now) else none := by
  obtain ⟨n, hn⟩ := h.grid
  have hpassed : s.deadline ≤ now := Int.le_trans (h.overdue query ended place) later
  rw [hn] at hpassed
  rw [nextDeadline?_congr h.interval_eq _ w.interval_pos, hn]
  exact nextDeadline?_gridPoint w.interval_pos (Int.le_trans (time.start_le_gridPoint w.interval n) hpassed) hpassed

theorem Timely.sample (h : Timely w time s) (place : s.place = .outer) (set : s.running = true) (query : QueryOutcome)
    {ended : Instant} (later : s.clock ≤ ended) {running : Bool} {source : List QueryOutcome}
    (hsource : running = true → source ≠ []) :
    Timely w time { s.sample query ended with running := running, source := source } where
  interval_eq := (s.watcher.interval_sample query ended).trans h.interval_eq
  grid := h.grid
  supplied := hsource
  due := nofun
  overdue _ _ _ := Int.le_trans (h.due place set) later
  resumes _ := h.resumes fun hended => nomatch place.symm.trans hended
  beyond := nofun
  clockEnded := nofun

theorem Timely.round (h : Timely w time s) {query : QueryOutcome} {ended : Instant}
    (place : s.place = .sampled query ended) (now : Instant) (ticks : List Tick) :
    (w.runFrom time ((s.rounds ++ [⟨query, ended, now⟩]) ++ ticks)).value.ending =
      (w.runFrom s.deadline (⟨query, ended, now⟩ :: ticks)).value.ending := by
  rw [List.append_assoc]
  exact h.resumes (fun hended => nomatch place.symm.trans hended) _

theorem Timely.step (h : Timely w time s) (hstep : Step s s') : Timely w time s' := by
  cases hstep with
  | stop place clear =>
    exact { h with
      due := nofun, overdue := nofun, beyond := nofun, clockEnded := nofun
      resumes := fun _ => h.resumes fun hended => nomatch place.symm.trans hended }
  | @ask query rest ended place set enabled idle source later =>
    exact h.sample place set query later fun hrest hnil => by
      rw [hnil] at hrest
      cases hrest
  | @pass query ended place set unasked later => exact h.sample place set query later h.supplied
  | @advance query ended now next place later deadline =>
    have hnext := deadline
    rw [h.nextDeadline? place later] at hnext
    split at hnext
    · obtain rfl := Option.some.inj hnext
      rw [nextDeadline?_congr h.interval_eq _ w.interval_pos] at deadline
      refine { h with
        grid := ⟨_, rfl⟩, due := nofun, overdue := nofun, beyond := nofun, clockEnded := nofun
        resumes := fun _ ticks => ?_ }
      rw [show (s.finish query ended now).rounds = s.rounds ++ [⟨query, ended, now⟩] from rfl, h.round place,
        Watcher.runFrom_cons_of_some ticks deadline]
      exact Watcher.ending_runFrom_congr (w.interval_sample query ended) _ ticks
    · cases hnext
  | @overflow query ended now place later deadline =>
    have hnone := deadline
    rw [h.nextDeadline? place later] at hnone
    split at hnone
    · cases hnone
    · next hbeyond =>
      rw [nextDeadline?_congr h.interval_eq _ w.interval_pos] at deadline
      have hround := h.round place now []
      rw [List.append_nil, Watcher.runFrom_cons_of_none [] deadline] at hround
      exact { h with
        due := nofun, overdue := nofun, resumes := fun hended => absurd rfl hended
        beyond := fun _ => Int.not_lt.1 hbeyond, clockEnded := fun _ => hround }
  | leave place clear =>
    exact { h with
      due := fun _ set => nomatch clear.symm.trans set
      overdue := nofun, beyond := nofun, clockEnded := nofun
      resumes := fun _ => h.resumes fun hended => nomatch place.symm.trans hended }
  | due place set later due =>
    exact { h with
      due := fun _ _ => due, overdue := nofun, beyond := nofun, clockEnded := nofun
      resumes := fun _ => h.resumes fun hended => nomatch place.symm.trans hended }
  | nap place set later early slept =>
    exact { h with
      due := fun houter => nomatch place.symm.trans houter
      overdue := fun _ _ hsampled => nomatch place.symm.trans hsampled
      beyond := fun hended => nomatch place.symm.trans hended
      clockEnded := fun hended => nomatch place.symm.trans hended }

theorem Timely.move (h : Timely w time s) (hmove : Move s s') : Timely w time s' := by
  cases hmove with
  | step hstep => exact h.step hstep
  | clear => exact { h with supplied := nofun, due := fun _ set => nomatch set }
  | release => exact { h with interval_eq := h.interval_eq }

theorem Timely.of_moves {s₀ : Sampler} (h : Timely w time s₀) (hm : Moves s₀ s) : Timely w time s := by
  induction hm with
  | refl => exact h
  | tail _ hmove ih => exact ih.move hmove

theorem Timely.progress (h : Timely w time s) :
    (∃ s', Step s s') ∨ s.place = .stopped ∨ s.place = .clockEnded := by
  cases hplace : s.place with
  | outer =>
    cases hflag : s.running with
    | false => exact .inl ⟨_, .stop hplace hflag⟩
    | true =>
      by_cases hasks : s.watcher.selection.samples = true ∧ s.watcher.inFlight = false
      · obtain ⟨query, rest, hsource⟩ := List.exists_cons_of_ne_nil (h.supplied hflag)
        exact .inl ⟨_, .ask hplace hflag hasks.1 hasks.2 hsource (Int.le_refl _)⟩
      · have hunasked : s.watcher.selection.samples = false ∨ s.watcher.inFlight = true := by
          cases hs : s.watcher.selection.samples <;> cases hi : s.watcher.inFlight <;> simp_all
        have hpass : Step s (s.sample .panicked s.clock) := .pass hplace hflag hunasked (Int.le_refl _)
        exact .inl ⟨_, hpass⟩
  | sampled query ended =>
    cases hnext : CpuMonitor.nextDeadline? s.watcher.interval s.watcher.interval_pos s.clock s.deadline with
    | none => exact .inl ⟨_, .overflow hplace (Int.le_refl _) hnext⟩
    | some next => exact .inl ⟨_, .advance hplace (Int.le_refl _) hnext⟩
  | waiting =>
    cases hflag : s.running with
    | false => exact .inl ⟨_, .leave hplace hflag⟩
    | true =>
      by_cases hdue : s.deadline ≤ s.clock
      · exact .inl ⟨_, .due hplace hflag (Int.le_refl _) hdue⟩
      · exact .inl ⟨_, .nap hplace hflag (Int.le_refl _) (Instant.not_le.1 hdue) (Int.le_refl _)⟩
  | stopped => exact .inr (.inl rfl)
  | clockEnded => exact .inr (.inr rfl)

end Timely

theorem Place.rank_le (p : Place) : p.rank ≤ 3 := by cases p <;> simp [rank]

/-- A loop whose flag is clear comes closer to its end with each step. -/
theorem rank_lt_of_clear {s s' : Sampler} (clear : s.running = false) (hstep : Step s s') :
    s'.running = false ∧ s'.place.rank < s.place.rank := by
  cases hstep with
  | stop place _ => exact ⟨clear, by simp [place, Place.rank]⟩
  | ask place set => exact absurd (clear.symm.trans set) Bool.false_ne_true
  | pass place set => exact absurd (clear.symm.trans set) Bool.false_ne_true
  | advance place => exact ⟨clear, by simp [place, Place.rank]⟩
  | overflow place => exact ⟨clear, by simp [place, Place.rank]⟩
  | leave place _ => exact ⟨clear, by simp [place, Place.rank]⟩
  | due place set => exact absurd (clear.symm.trans set) Bool.false_ne_true
  | nap place set => exact absurd (clear.symm.trans set) Bool.false_ne_true

/-- A step breaks the loop down just when the clock cannot tell the next point of the grid. -/
theorem Timely.clockEnded_iff {w : Watcher} {time : Instant} {s s' : Sampler} (h : Timely w time s)
    (hstep : Step s s') : s'.place = .clockEnded ↔ (∃ query ended, s.place = .sampled query ended) ∧
      clockEnd ≤ (time.nextPoint w.interval s'.clock).nanoseconds := by
  constructor
  · intro hended
    refine ⟨?_, (h.step hstep).beyond hended⟩
    cases hstep with
    | stop => cases hended
    | ask => cases hended
    | pass => cases hended
    | advance => cases hended
    | overflow place => exact ⟨_, _, place⟩
    | leave => cases hended
    | due => cases hended
    | nap place => exact nomatch place.symm.trans hended
  · rintro ⟨⟨query, ended, hplace⟩, hbeyond⟩
    cases hstep with
    | stop place => exact nomatch place.symm.trans hplace
    | ask place => exact nomatch place.symm.trans hplace
    | pass place => exact nomatch place.symm.trans hplace
    | advance place later deadline =>
      rw [h.nextDeadline? place later] at deadline
      split at deadline
      · next hbefore => exact absurd hbefore (Int.not_lt.2 hbeyond)
      · cases deadline
    | overflow => rfl
    | leave place => exact nomatch place.symm.trans hplace
    | due place => exact nomatch place.symm.trans hplace
    | nap place => exact nomatch place.symm.trans hplace

/-- **The loop stops unless the clock ends.** It can go on until it stops, and breaks down only where the clock cannot
tell the next deadline. -/
theorem stops_unless_clock_ends (selection : Selection) (interval timeout : Duration) (running : Bool)
    (queries : List QueryOutcome) (time : Instant) (hsource : running = true → queries ≠ []) (s : Sampler)
    (hmoves : Moves (start (Watcher.withTiming selection interval timeout) running queries time) s) :
    let w := Watcher.withTiming selection interval timeout
    ((∃ s', Step s s') ∨ s.place = .stopped ∨ s.place = .clockEnded) ∧
    (s.running = false → s.place.rank ≤ 3 ∧ ∀ s', Step s s' → s'.running = false ∧ s'.place.rank < s.place.rank) ∧
    (∀ s', Step s s' → (s'.place = .clockEnded ↔ (∃ query ended, s.place = .sampled query ended) ∧
      clockEnd ≤ (time.nextPoint w.interval s'.clock).nanoseconds)) ∧
    (s.place = .stopped → (w.run time s.rounds).value.ending = .stopped) ∧
    (s.place = .clockEnded → (w.run time s.rounds).value.ending = .clockEnded ∧
      clockEnd ≤ (time.nextPoint w.interval s.clock).nanoseconds) := by
  intro w
  have htimely : Timely w time s := (Timely.start w running queries time hsource).of_moves hmoves
  refine ⟨htimely.progress, fun clear => ⟨s.place.rank_le, fun s' hstep => rank_lt_of_clear clear hstep⟩,
    fun s' hstep => htimely.clockEnded_iff hstep, fun hplace => ?_,
    fun hplace => ⟨htimely.clockEnded hplace, htimely.beyond hplace⟩⟩
  have hresumes := htimely.resumes (fun hended => nomatch hplace.symm.trans hended) []
  rw [List.append_nil] at hresumes
  exact hresumes

/-- A loop that starts forty-five seconds before the end of the clock, with half a minute between its deadlines. -/
theorem stops_unless_clock_ends_of_two_rounds :
    let time : Instant := ⟨clockEnd - 45000000000⟩
    let begun := start Watcher.twiceAMinute true [.panicked, .hung, .panicked] time
    (∃ s, Moves begun s ∧ s.running = true ∧ s.place = .clockEnded ∧ s.watcher.queries = 2 ∧
      (Watcher.twiceAMinute.run time s.rounds).value.ending = .clockEnded) ∧
    ∃ s, Moves begun s ∧ s.running = false ∧ s.place = .stopped ∧ s.watcher.queries = 1 ∧
      (Watcher.twiceAMinute.run time s.rounds).value.ending = .stopped := by
  intro time begun
  have asked : Moves begun _ := .single (.step (.ask rfl rfl (by decide) rfl rfl (show time ≤ time by decide)))
  have waited := asked.tail (.step (.advance rfl (show time ≤ time by decide)
    (nextDeadline?_of_lt (by decide) (by decide))))
  have due := waited.tail (.step (.due rfl rfl (show time ≤ ⟨clockEnd - 15000000000⟩ by decide) (by decide)))
  have hung := due.tail (.step (.ask rfl rfl (by decide) rfl rfl
    (show (⟨clockEnd - 15000000000⟩ : Instant) ≤ ⟨clockEnd - 5000000000⟩ by decide)))
  have ended := hung.tail (.step (.overflow rfl
    (show (⟨clockEnd - 5000000000⟩ : Instant) ≤ ⟨clockEnd - 5000000000⟩ by decide) (by decide)))
  have stopped := ((waited.tail (.clear _)).tail (.step (.leave rfl rfl))).tail (.step (.stop rfl rfl))
  have hends := stops_unless_clock_ends Watcher.userMinute (.ofSeconds 30) (.ofSeconds 10) true
    [.panicked, .hung, .panicked] time (by decide)
  obtain ⟨-, -, -, -, hended⟩ := hends _ ended
  obtain ⟨-, -, -, hstopped, -⟩ := hends _ stopped
  exact ⟨⟨_, ended, rfl, rfl, rfl, (hended rfl).1⟩, ⟨_, stopped, rfl, rfl, rfl, hstopped rfl⟩⟩

/-- A loop whose interval is longer than the clock breaks down, although its flag is clear. -/
theorem not_always_stopped : ¬ ∀ (selection : Selection) (interval timeout : Duration) (queries : List QueryOutcome)
    (time : Instant) (s : Sampler), interval < .ofSeconds (1 <<< 64) → queries ≠ [] →
      Reaches (start (Watcher.withTiming selection interval timeout) true queries time) s → s.running = false →
      s.place ≠ .clockEnded := by
  intro h
  have asked : Reaches (start (Watcher.withTiming Watcher.userMinute (.ofSeconds (1 <<< 63)) (.ofSeconds 10)) true
      [.panicked] ⟨1000000000000⟩) _ :=
    .single (.ask rfl rfl (by decide) rfl rfl (show (⟨1000000000000⟩ : Instant) ≤ ⟨1000000000000⟩ by decide))
  have ended := asked.tail (.overflow rfl
    (show (⟨1000000000000⟩ : Instant) ≤ ⟨1000000000000⟩ by decide) (by decide))
  exact h _ _ _ _ _ _ (by decide) (by decide) ended rfl rfl

end Sampler

end CpuMonitor
