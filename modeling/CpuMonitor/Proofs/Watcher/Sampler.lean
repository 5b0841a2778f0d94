import CpuMonitor.Proofs.Watcher.InFlight
import CpuMonitor.Watcher.Schedule
import Mathlib.Logic.Relation

/-!
# The sampling loop

The loop of a running watcher in single steps. It looks at the flag that keeps it running, takes a sample, moves its
deadline on, and waits for the deadline in short naps, looking at the flag before each.

* `Sampler`, `Sampler.Step` : where the loop stands, and what it does next. The clock goes on by itself between any two
  steps.
* `Resumes`, `Refines` : the rounds of the loop so far are those of a run, as `refines_of_reaches` has it for any loop.
* `samples_of_stopped` : a run is its samples in turn.
* `Fed` : what holds as long as the source clears the flag with its last query; `Fed.step`, `Fed.progress`, `Fed.acc`.
* `loop_samples_in_turn` : the loop asks the source once for each query, and then it stops.
-/

set_option autoImplicit false

namespace CpuMonitor

/-! ## Steps -/

def napLimit : Duration := .ofMilliseconds 10

/-- How long a loop naps that waits for a deadline. -/
def nap (deadline now : Instant) : Duration := ⟨min (deadline.since now).nanoseconds napLimit.nanoseconds⟩

/-- Where the loop stands. -/
inductive Sampler.Place where
  | outer
  /-- Behind a sample, whose query ended so at this time. -/
  | sampled (query : QueryOutcome) (time : Instant)
  | waiting
  | stopped
  | clockEnded

structure Sampler where
  watcher : Watcher
  running : Bool
  /-- The queries that the source is still to be asked, by how they end. -/
  source : List QueryOutcome
  clock : Instant
  deadline : Instant
  place : Sampler.Place
  log : List LogRecord
  /-- The rounds that are done; no step looks at them. -/
  rounds : List Tick

namespace Sampler

def start (w : Watcher) (running : Bool) (source : List QueryOutcome) (time : Instant) : Sampler :=
  ⟨w, running, source, time, time, .outer, [], []⟩

def sample (s : Sampler) (query : QueryOutcome) (time : Instant) : Sampler :=
  { s with
    watcher := (s.watcher.sample query time).2
    clock := time
    place := .sampled query time
    log := s.log ++ Watcher.sampleLog (s.watcher.sample query time).1 }

/-- The loop after a round, whose last look at the clock showed `now`. -/
def finish (s : Sampler) (query : QueryOutcome) (time now : Instant) : Sampler :=
  { s with clock := now, rounds := s.rounds ++ [⟨query, time, now⟩] }

inductive Step : Sampler → Sampler → Prop where
  | stop {s : Sampler} (place : s.place = .outer) (clear : s.running = false) :
      Step s { s with place := .stopped, log := s.log ++ [Watcher.stoppedRecord] }
  /-- A sample that asks the source, which clears the flag with its last query. -/
  | ask {s : Sampler} {query : QueryOutcome} {rest : List QueryOutcome} {time : Instant} (place : s.place = .outer)
      (set : s.running = true) (enabled : s.watcher.selection.samples = true) (idle : s.watcher.inFlight = false)
      (source : s.source = query :: rest) (later : s.clock ≤ time) :
      Step s { s.sample query time with running := !rest.isEmpty, source := rest }
  /-- A sample that does not ask goes the same way for any query. -/
  | pass {s : Sampler} {query : QueryOutcome} {time : Instant} (place : s.place = .outer) (set : s.running = true)
      (unasked : s.watcher.selection.samples = false ∨ s.watcher.inFlight = true) (later : s.clock ≤ time) :
      Step s (s.sample query time)
  | advance {s : Sampler} {query : QueryOutcome} {time now next : Instant} (place : s.place = .sampled query time)
      (later : s.clock ≤ now)
      (deadline : nextDeadline? s.watcher.interval s.watcher.interval_pos now s.deadline = some next) :
      Step s { s.finish query time now with deadline := next, place := .waiting }
  | overflow {s : Sampler} {query : QueryOutcome} {time now : Instant} (place : s.place = .sampled query time)
      (later : s.clock ≤ now)
      (deadline : nextDeadline? s.watcher.interval s.watcher.interval_pos now s.deadline = none) :
      Step s { s.finish query time now with place := .clockEnded }
  | leave {s : Sampler} (place : s.place = .waiting) (clear : s.running = false) : Step s { s with place := .outer }
  | due {s : Sampler} {now : Instant} (place : s.place = .waiting) (set : s.running = true) (later : s.clock ≤ now)
      (due : s.deadline ≤ now) : Step s { s with clock := now, place := .outer }
  | nap {s : Sampler} {now wake : Instant} (place : s.place = .waiting) (set : s.running = true) (later : s.clock ≤ now)
      (early : now < s.deadline) (slept : now + nap s.deadline now ≤ wake) : Step s { s with clock := wake }

abbrev Reaches : Sampler → Sampler → Prop := Relation.ReflTransGen Step

end Sampler

/-! ## The loop as a run -/

theorem nextDeadline?_congr {interval interval' : Duration} (h : interval = interval') (pos : 0 < interval.nanoseconds)
    (pos' : 0 < interval'.nanoseconds) (now last : Instant) :
    nextDeadline? interval pos now last = nextDeadline? interval' pos' now last := by
  subst h
  rfl

theorem Instant.le_of_add?_eq_none {t now : Instant} {d : Duration} (hle : t ≤ now) (h : t.add? d = none) :
    clockEnd ≤ (now + d).nanoseconds := by
  have hle' : t.nanoseconds ≤ now.nanoseconds := hle
  unfold Instant.add? at h
  split at h
  · cases h
  · next hend =>
    have hend' : ¬ t.nanoseconds + d.nanoseconds < clockEnd := hend
    show clockEnd ≤ now.nanoseconds + d.nanoseconds
    omega

section NextDeadline
variable {interval : Duration} {pos : 0 < interval.nanoseconds} {now : Instant}

theorem le_of_catchUp?_eq_none {deadline : Instant} (h : catchUp? interval pos now deadline = none) :
    clockEnd ≤ (now + interval).nanoseconds := by
  fun_induction catchUp? interval pos now deadline with
  | case1 deadline hle hadd => exact Instant.le_of_add?_eq_none hle hadd
  | case2 deadline hle next hadd ih => exact ih h
  | case3 deadline hgt => cases h

theorem le_of_nextDeadline?_eq_none {last : Instant} (hlast : last ≤ now)
    (h : nextDeadline? interval pos now last = none) : clockEnd ≤ (now + interval).nanoseconds := by
  unfold nextDeadline? at h
  cases hadd : last.add? interval with
  | none => exact Instant.le_of_add?_eq_none hlast hadd
  | some first =>
    rw [hadd] at h
    exact le_of_catchUp?_eq_none h

/-- A watcher that is not late waits for the next point of the grid. -/
theorem nextDeadline?_of_lt {last : Instant} (hnow : now < last + interval)
    (hend : (last + interval).nanoseconds < clockEnd) : nextDeadline? interval pos now last = some (last + interval) := by
  have hlt : ¬ last + interval ≤ now := fun hle => Instant.not_le.2 hnow hle
  unfold nextDeadline? Instant.add?
  rw [if_pos hend, Option.bind_some, catchUp?, dif_neg hlt]

end NextDeadline

def Tick.event (t : Tick) : Event := .sample t.query t.time

namespace Watcher

theorem interval_of_sample {w w' : Watcher} {query : QueryOutcome} {time : Instant}
    (h : w' = (w.sample query time).2) : w'.interval = w.interval := by
  rw [h, interval_sample]

section RunFrom
variable {w : Watcher} {deadline : Instant} {t : Tick} (ticks : List Tick)

theorem runFrom_cons_of_some {next : Instant}
    (h : nextDeadline? w.interval w.interval_pos t.now deadline = some next) : w.runFrom deadline (t :: ticks) =
      ⟨((w.sample t.query t.time).2.runFrom next ticks).value,
        sampleLog (w.sample t.query t.time).1 ++ ((w.sample t.query t.time).2.runFrom next ticks).log⟩ := by
  simp only [runFrom, h]

theorem runFrom_cons_of_none (h : nextDeadline? w.interval w.interval_pos t.now deadline = none) :
    w.runFrom deadline (t :: ticks) =
      ⟨⟨(w.sample t.query t.time).2, .clockEnded⟩, sampleLog (w.sample t.query t.time).1⟩ := by
  simp only [runFrom, h]

end RunFrom

/-- What is left of a run is a run of another watcher. -/
def Resumes (w : Watcher) (start : Instant) (rounds : List Tick) (w' : Watcher) (deadline : Instant)
    (log : List LogRecord) : Prop :=
  ∀ ticks, w.runFrom start (rounds ++ ticks) =
    ⟨(w'.runFrom deadline ticks).value, log ++ (w'.runFrom deadline ticks).log⟩

theorem Resumes.refl (w : Watcher) (start : Instant) : Resumes w start [] w start [] := fun _ => rfl

section Resumes
variable {w w' : Watcher} {start deadline : Instant} {rounds : List Tick} {log : List LogRecord}
  (h : Resumes w start rounds w' deadline log) {query : QueryOutcome} {time now : Instant}
include h

theorem Resumes.advance {next : Instant}
    (hnext : nextDeadline? w'.interval w'.interval_pos now deadline = some next) :
    Resumes w start (rounds ++ [⟨query, time, now⟩]) (w'.sample query time).2 next
      (log ++ sampleLog (w'.sample query time).1) := by
  intro ticks
  rw [List.append_assoc, h, List.singleton_append, runFrom_cons_of_some ticks hnext, List.append_assoc]

theorem Resumes.overflow (hnone : nextDeadline? w'.interval w'.interval_pos now deadline = none) :
    w.runFrom start (rounds ++ [⟨query, time, now⟩]) =
      ⟨⟨(w'.sample query time).2, .clockEnded⟩, log ++ sampleLog (w'.sample query time).1⟩ := by
  rw [h, runFrom_cons_of_none [] hnone]

theorem Resumes.stop : w.runFrom start rounds = ⟨⟨w', .stopped⟩, log ++ [stoppedRecord]⟩ := by
  have hrun := h []
  rw [List.append_nil] at hrun
  exact hrun

end Resumes

def errorLog (trace : List (Event × Reply)) : List LogRecord := (samplesOf trace).filterMap fun s =>
  match s.result with
  | .ok _ => none
  | .error e => some ⟨.error, "[CPU] Failed to read utilisation metrics: " ++ e.message⟩

theorem errorLog_cons (t : Tick) (result : Except WatcherError Unit) (trace : List (Event × Reply)) :
    errorLog ((t.event, .sampled result) :: trace) = sampleLog result ++ errorLog trace := by
  cases result with
  | ok u => rfl
  | error e => rfl

/-- A run that has stopped did nothing but take the samples of its rounds. -/
theorem samples_of_stopped : ∀ (w : Watcher) (deadline : Instant) (ticks : List Tick),
    (w.runFrom deadline ticks).value.ending = .stopped →
      (w.runFrom deadline ticks).value.watcher = w.after (ticks.map Tick.event) ∧
      (w.runFrom deadline ticks).log = errorLog (w.trace (ticks.map Tick.event)) ++ [stoppedRecord]
  | _, _, [], _ => ⟨rfl, rfl⟩
  | w, deadline, t :: ticks, h => by
    cases hnext : nextDeadline? w.interval w.interval_pos t.now deadline with
    | none =>
      rw [runFrom_cons_of_none ticks hnext] at h
      cases h
    | some next =>
      rw [runFrom_cons_of_some ticks hnext] at h ⊢
      obtain ⟨hwatcher, hlog⟩ := samples_of_stopped _ next ticks h
      refine ⟨hwatcher, ?_⟩
      show sampleLog (w.sample t.query t.time).1 ++ ((w.sample t.query t.time).2.runFrom next ticks).log = _
      rw [hlog, ← List.append_assoc, ← errorLog_cons t]
      rfl

end Watcher

namespace Sampler

/-- The rounds that are done are those of a run, as far as the loop has come. -/
def Refines (w : Watcher) (time : Instant) (s : Sampler) : Prop :=
  match s.place with
  | .outer | .waiting => w.Resumes time s.rounds s.watcher s.deadline s.log
  | .sampled query ended => ∃ w' log, w.Resumes time s.rounds w' s.deadline log ∧
      s.watcher = (w'.sample query ended).2 ∧ s.log = log ++ Watcher.sampleLog (w'.sample query ended).1
  | .stopped => w.run time s.rounds = ⟨⟨s.watcher, .stopped⟩, s.log⟩
  | .clockEnded => w.run time s.rounds = ⟨⟨s.watcher, .clockEnded⟩, s.log⟩

theorem Refines.step {w : Watcher} {time : Instant} {s s' : Sampler} (h : Refines w time s) (hstep : Step s s') :
    Refines w time s' := by
  cases hstep with
  | stop place clear =>
    rw [Refines, place] at h
    exact h.stop
  | ask place set enabled idle source later =>
    rw [Refines, place] at h
    exact ⟨s.watcher, s.log, h, rfl, rfl⟩
  | pass place set unasked later =>
    rw [Refines, place] at h
    exact ⟨s.watcher, s.log, h, rfl, rfl⟩
  | advance place later deadline =>
    rw [Refines, place] at h
    obtain ⟨w', log, hresumes, hwatcher, hlog⟩ := h
    rw [nextDeadline?_congr (Watcher.interval_of_sample hwatcher) _ w'.interval_pos] at deadline
    show w.Resumes time _ s.watcher _ s.log
    rw [hwatcher, hlog]
    exact hresumes.advance deadline
  | overflow place later deadline =>
    rw [Refines, place] at h
    obtain ⟨w', log, hresumes, hwatcher, hlog⟩ := h
    rw [nextDeadline?_congr (Watcher.interval_of_sample hwatcher) _ w'.interval_pos] at deadline
    show w.run time _ = ⟨⟨s.watcher, .clockEnded⟩, s.log⟩
    rw [hwatcher, hlog]
    exact hresumes.overflow deadline
  | leave place clear =>
    rw [Refines, place] at h
    exact h
  | due place set later due =>
    rw [Refines, place] at h
    exact h
  | nap place set later early slept =>
    simp only [Refines, place] at h ⊢
    exact h

theorem refines_of_reaches {w : Watcher} {running : Bool} {source : List QueryOutcome} {time : Instant} {s : Sampler}
    (h : Reaches (start w running source time) s) : Refines w time s := by
  induction h with
  | refl => exact Watcher.Resumes.refl w time
  | tail _ step ih => exact ih.step step

/-! ## A source that clears the flag -/

def taken (s : Sampler) : List QueryOutcome :=
  s.rounds.map (·.query) ++ match s.place with
    | .sampled query _ => [query]
    | _ => []

/-- The invariant: only the last query may hang, and the flag is set while there are more. -/
structure Fed (queries : List QueryOutcome) (interval : Duration) (calls : Nat) (s : Sampler) : Prop where
  enabled : s.watcher.selection.samples = true
  interval_eq : s.watcher.interval = interval
  running : s.running = !s.source.isEmpty
  idle : s.source ≠ [] → s.watcher.inFlight = false
  asks : ∀ q ∈ s.source, q.asks = true
  hung : ∀ q ∈ s.source.dropLast, q ≠ .hung
  order : s.taken ++ s.source = queries
  count : s.watcher.queries + s.source.length = calls
  due : s.place = .outer → s.source ≠ [] → s.deadline ≤ s.clock
  overdue : ∀ query time, s.place = .sampled query time → s.deadline ≤ s.clock
  stopped : s.place = .stopped → s.source = []
  clockEnded : s.place = .clockEnded → clockEnd ≤ (s.clock + interval).nanoseconds

section Fed
variable {queries : List QueryOutcome} {interval : Duration} {calls : Nat} {s s' : Sampler}

theorem Fed.start {w : Watcher} (hs : w.selection.samples = true) (hi : w.inFlight = false) (hne : queries ≠ [])
    (hasks : ∀ q ∈ queries, q.asks = true) (hhung : ∀ q ∈ queries.dropLast, q ≠ .hung) (time : Instant) :
    Fed queries w.interval (w.queries + queries.length) (Sampler.start w true queries time) where
  enabled := hs
  interval_eq := rfl
  running := by
    show true = !queries.isEmpty
    simp [hne]
  idle _ := hi
  asks := hasks
  hung := hhung
  order := rfl
  count := rfl
  due _ _ := Int.le_refl _
  overdue := nofun
  stopped := nofun
  clockEnded := nofun

theorem Fed.source_eq_nil (h : Fed queries interval calls s) (clear : s.running = false) : s.source = [] := by
  have hrunning := h.running
  rw [clear] at hrunning
  simpa using hrunning

theorem Fed.source_ne_nil (h : Fed queries interval calls s) (set : s.running = true) : s.source ≠ [] := by
  have hrunning := h.running
  rw [set] at hrunning
  simpa using hrunning

theorem Fed.asked (h : Fed queries interval calls s) (set : s.running = true) :
    ¬ (s.watcher.selection.samples = false ∨ s.watcher.inFlight = true) := by
  rw [h.enabled, h.idle (h.source_ne_nil set)]
  decide

theorem Fed.order_finish (h : Fed queries interval calls s) {query : QueryOutcome} {time : Instant}
    (place : s.place = .sampled query time) (now : Instant) :
    (s.finish query time now).rounds.map (·.query) ++ [] ++ s.source = queries := by
  have horder := h.order
  unfold taken at horder
  rw [place] at horder
  rw [← horder, finish, List.map_append, List.append_nil]
  rfl

theorem Fed.ask (h : Fed queries interval calls s) {query : QueryOutcome} {rest : List QueryOutcome} {time : Instant}
    (place : s.place = .outer) (source : s.source = query :: rest) (later : s.clock ≤ time) :
    Fed queries interval calls { s.sample query time with running := !rest.isEmpty, source := rest } := by
  have hne : s.source ≠ [] := source ▸ List.cons_ne_nil query rest
  obtain ⟨-, hflag, hqueries⟩ := Watcher.sample_of_idle h.enabled (h.idle hne) query time
  have hselection : (s.watcher.sample query time).2.selection = s.watcher.selection :=
    Watcher.selection_perform h.enabled (.sample query time)
  have hasks := h.asks
  have hhung := h.hung
  have horder := h.order
  have hcount := h.count
  have hdue := h.due place hne
  unfold taken at horder
  rw [source] at hasks hhung horder hcount
  rw [place] at horder
  have hasked : query.asks = true := hasks query List.mem_cons_self
  refine
    { enabled := (congrArg Selection.samples hselection).trans h.enabled
      interval_eq := (s.watcher.interval_sample query time).trans h.interval_eq
      running := rfl
      idle := fun hrest => ?_
      asks := fun q hq => hasks q (List.mem_cons_of_mem query hq)
      hung := fun q hq => ?_
      order := ?_
      count := ?_
      due := nofun
      overdue := fun _ _ _ => Int.le_trans hdue later
      stopped := nofun
      clockEnded := nofun }
  · have hnot : query ≠ .hung := hhung query (by
      rw [List.dropLast_cons_of_ne_nil hrest]
      exact List.mem_cons_self)
    exact hflag.trans (beq_false_of_ne hnot)
  · have hrest : rest ≠ [] := fun hnil => by
      rw [hnil] at hq
      cases hq
    exact hhung q (by
      rw [List.dropLast_cons_of_ne_nil hrest]
      exact List.mem_cons_of_mem query hq)
  · show s.rounds.map (·.query) ++ [query] ++ rest = queries
    rw [← horder]
    simp
  · show (s.watcher.sample query time).2.queries + rest.length = calls
    rw [List.length_cons] at hcount
    rw [hqueries, hasked]
    show s.watcher.queries + 1 + rest.length = calls
    omega

theorem Fed.step (h : Fed queries interval calls s) (hstep : Step s s') : Fed queries interval calls s' := by
  have horder := h.order
  unfold taken at horder
  cases hstep with
  | stop place clear =>
    rw [place] at horder
    exact { h with
      order := horder, due := nofun, overdue := nofun, stopped := fun _ => h.source_eq_nil clear, clockEnded := nofun }
  | ask place set enabled idle source later => exact h.ask place source later
  | pass place set unasked later => exact absurd unasked (h.asked set)
  | @advance query time now next place later deadline =>
    exact { h with
      order := h.order_finish place now, due := nofun, overdue := nofun, stopped := nofun, clockEnded := nofun }
  | @overflow query time now place later deadline =>
    have hend := le_of_nextDeadline?_eq_none (Int.le_trans (h.overdue query time place) later) deadline
    rw [h.interval_eq] at hend
    exact { h with
      order := h.order_finish place now, due := nofun, overdue := nofun, stopped := nofun, clockEnded := fun _ => hend }
  | leave place clear =>
    rw [place] at horder
    exact { h with
      order := horder, due := fun _ hne => absurd (h.source_eq_nil clear) hne, overdue := nofun, stopped := nofun
      clockEnded := nofun }
  | due place set later due =>
    rw [place] at horder
    exact { h with order := horder, due := fun _ _ => due, overdue := nofun, stopped := nofun, clockEnded := nofun }
  | nap place set later early slept =>
    exact { h with
      due := fun hplace => nomatch place.symm.trans hplace
      overdue := fun _ _ hplace => nomatch place.symm.trans hplace
      clockEnded := fun hplace => nomatch place.symm.trans hplace }

theorem Fed.of_reaches {s₀ : Sampler} (h : Fed queries interval calls s₀) (hr : Reaches s₀ s) :
    Fed queries interval calls s := by
  induction hr with
  | refl => exact h
  | tail _ step ih => exact ih.step step

theorem Fed.progress (h : Fed queries interval calls s) :
    (∃ s', Step s s') ∨ s.place = .stopped ∨ s.place = .clockEnded := by
  cases hplace : s.place with
  | outer =>
    cases hflag : s.running with
    | false => exact .inl ⟨_, .stop hplace hflag⟩
    | true =>
      have hne := h.source_ne_nil hflag
      obtain ⟨query, rest, hsource⟩ := List.exists_cons_of_ne_nil hne
      exact .inl ⟨_, .ask hplace hflag h.enabled (h.idle hne) hsource (Int.le_refl _)⟩
  | sampled query time =>
    cases hnext : nextDeadline? s.watcher.interval s.watcher.interval_pos s.clock s.deadline with
    | none => exact .inl ⟨_, .overflow hplace (Int.le_refl _) hnext⟩
    | some next => exact .inl ⟨_, .advance hplace (Int.le_refl _) hnext⟩
  | waiting =>
    cases hflag : s.running with
    | false => exact .inl ⟨_, .leave hplace hflag⟩
    | true =>
      by_cases hdue : s.deadline ≤ s.clock
      · exact .inl ⟨_, .due hplace hflag (Int.le_refl _) hdue⟩
      · exact .inl ⟨_, .nap hplace hflag (Int.le_refl _) (Instant.not_le.1 hdue) (Int.le_refl _)⟩
  | stopped => exact .inr (.inl rfl)
  | clockEnded => exact .inr (.inr rfl)

/-- How far a place is from the next sample or from the end. -/
def Place.rank : Place → Nat
  | .sampled _ _ => 3
  | .waiting => 2
  | .outer => 1
  | .stopped => 0
  | .clockEnded => 0

/-- A step uses up a query, or brings the loop closer to a sample, or the clock to the deadline. -/
theorem Fed.decreases (h : Fed queries interval calls s) (hstep : Step s s') :
    s'.source.length < s.source.length ∨ s'.source.length = s.source.length ∧ (s'.place.rank < s.place.rank ∨
      s'.place.rank = s.place.rank ∧ (s'.deadline.nanoseconds - s'.clock.nanoseconds).toNat <
        (s.deadline.nanoseconds - s.clock.nanoseconds).toNat) := by
  cases hstep with
  | stop place clear => exact .inr ⟨rfl, .inl (by simp [place, Place.rank])⟩
  | ask place set enabled idle source later => exact .inl (by rw [source]; exact Nat.lt_succ_self _)
  | pass place set unasked later => exact absurd unasked (h.asked set)
  | advance place later deadline => exact .inr ⟨rfl, .inl (by simp [place, Place.rank])⟩
  | overflow place later deadline => exact .inr ⟨rfl, .inl (by simp [place, Place.rank])⟩
  | leave place clear => exact .inr ⟨rfl, .inl (by simp [place, Place.rank])⟩
  | due place set later due => exact .inr ⟨rfl, .inl (by simp [place, Place.rank])⟩
  | @nap now wake place set later early slept =>
    refine .inr ⟨rfl, .inr ⟨rfl, ?_⟩⟩
    have hlater : s.clock.nanoseconds ≤ now.nanoseconds := later
    have hearly : now.nanoseconds < s.deadline.nanoseconds := early
    have hslept : now.nanoseconds + (min (s.deadline.nanoseconds - now.nanoseconds).toNat 10000000 : Nat) ≤
        wake.nanoseconds := slept
    show (s.deadline.nanoseconds - wake.nanoseconds).toNat < _
    omega

theorem Fed.acc {s : Sampler} (h : Fed queries interval calls s) : Acc (fun s' s => Step s s') s :=
  Acc.intro s fun s' hstep => (h.step hstep).acc
termination_by (s.source.length, s.place.rank, (s.deadline.nanoseconds - s.clock.nanoseconds).toNat)
decreasing_by
  have hdecreases := h.decreases hstep
  simpa [Prod.lex_def] using hdecreases

end Fed

theorem not_step_of_stopped {s s' : Sampler} (h : s.place = .stopped) : ¬ Step s s' := by
  intro step
  cases step with
  | stop place => exact nomatch h.symm.trans place
  | ask place => exact nomatch h.symm.trans place
  | pass place => exact nomatch h.symm.trans place
  | advance place => exact nomatch h.symm.trans place
  | overflow place => exact nomatch h.symm.trans place
  | leave place => exact nomatch h.symm.trans place
  | due place => exact nomatch h.symm.trans place
  | nap place => exact nomatch h.symm.trans place

theorem eq_of_reaches_clear {w : Watcher} {source : List QueryOutcome} {time : Instant} {s : Sampler}
    (h : Reaches (start w false source time) s) : s = start w false source time ∨
      s = { start w false source time with place := .stopped, log := [Watcher.stoppedRecord] } := by
  induction h with
  | refl => exact .inl rfl
  | tail _ step ih =>
    rcases ih with rfl | rfl
    · cases step with
      | stop place clear => exact .inr rfl
      | ask place set => cases set
      | pass place set => cases set
      | advance place => cases place
      | overflow place => cases place
      | leave place => cases place
      | due place => cases place
      | nap place => cases place
    · exact absurd step (not_step_of_stopped rfl)

/-- **The loop samples in turn.** It asks the source for each query once and in order, logs each failure, and ends. -/
theorem loop_samples_in_turn (w : Watcher) (time : Instant) (queries : List QueryOutcome)
    (hs : w.selection.samples = true) (hi : w.inFlight = false) (hne : queries ≠ [])
    (hasks : ∀ q ∈ queries, q.asks = true) (hhung : ∀ q ∈ queries.dropLast, q ≠ .hung) :
    Acc (fun s' s => Step s s') (start w true queries time) ∧
    (∀ s, Reaches (start w true queries time) s → (∃ s', Step s s') ∨ s.place = .stopped ∨
      s.place = .clockEnded ∧ clockEnd ≤ (s.clock + w.interval).nanoseconds) ∧
    (∀ s, Reaches (start w true queries time) s → s.place = .stopped →
      let script := s.rounds.map Tick.event
      s.rounds.map (·.query) = queries ∧ s.source = [] ∧ s.watcher.queries = w.queries + queries.length ∧
      s.watcher = w.after script ∧ s.log = Watcher.errorLog (w.trace script) ++ [⟨.debug, "[CPU] sampling loop stopped"⟩] ∧
      w.run time s.rounds = ⟨⟨s.watcher, .stopped⟩, s.log⟩) ∧
    (∀ s, Reaches (start w false queries time) s → s.watcher = w ∧ s.source = queries ∧ s.rounds = [] ∧
      ((∃ s', Step s s') ∨ s.place = .stopped ∧ s.log = [⟨.debug, "[CPU] sampling loop stopped"⟩])) := by
  have hstart := Fed.start hs hi hne hasks hhung time
  refine ⟨hstart.acc, fun s hr => ?_, fun s hr hplace => ?_, fun s hr => ?_⟩
  · have hfed := hstart.of_reaches hr
    exact hfed.progress.imp_right (.imp_right fun hplace => ⟨hplace, hfed.clockEnded hplace⟩)
  · have hfed := hstart.of_reaches hr
    have hrefines := refines_of_reaches hr
    have hsource := hfed.stopped hplace
    have horder := hfed.order
    have hcount := hfed.count
    unfold taken at horder
    rw [hplace, hsource, List.append_nil, List.append_nil] at horder
    rw [hsource] at hcount
    rw [Refines, hplace] at hrefines
    obtain ⟨hwatcher, hlog⟩ := w.samples_of_stopped time s.rounds (by
      show (w.run time s.rounds).value.ending = .stopped
      rw [hrefines])
    have hrun : w.runFrom time s.rounds = ⟨⟨s.watcher, .stopped⟩, s.log⟩ := hrefines
    rw [hrun] at hwatcher hlog
    exact ⟨horder, hsource, hcount, hwatcher, hlog, hrefines⟩
  · rcases eq_of_reaches_clear hr with rfl | rfl
    · exact ⟨rfl, rfl, rfl, .inl ⟨_, .stop rfl rfl⟩⟩
    · exact ⟨rfl, rfl, rfl, .inr ⟨rfl, rfl⟩⟩

/-- Two failures are logged, and then the loop stops. -/
theorem loop_samples_in_turn_of_two :
    let w := Watcher.twiceAMinute
    let queries : List QueryOutcome := [.failed (.io "stat" "gone"), .hung]
    (∀ q ∈ queries.dropLast, q ≠ .hung) ∧ ∃ s, Reaches (start w true queries ⟨0⟩) s ∧ s.place = .stopped ∧
      s.watcher.queries = 2 ∧ s.watcher.inFlight = true ∧
      s.log.map (·.text) =
        ["ERROR [CPU] Failed to read utilisation metrics: failed to read CPU times: failed to read stat: gone",
          "ERROR [CPU] Failed to read utilisation metrics: CPU times query timed out after 10s",
          "DEBUG [CPU] sampling loop stopped"] := by
  intro w queries
  have hhung : ∀ q ∈ queries.dropLast, q ≠ .hung := by decide
  obtain ⟨-, -, hstopped, -⟩ := loop_samples_in_turn w ⟨0⟩ queries (by decide) rfl nofun (by decide) hhung
  have reached : ∃ s, Reaches (start w true queries ⟨0⟩) s ∧ s.place = .stopped ∧
      s.rounds.map Tick.event = [.sample (.failed (.io "stat" "gone")) ⟨0⟩, .sample .hung ⟨40000000000⟩] := by
    have asked := Relation.ReflTransGen.single (Step.ask (s := start w true queries ⟨0⟩) rfl rfl (by decide) rfl rfl
      (show (⟨0⟩ : Instant) ≤ ⟨0⟩ by decide))
    have waited := asked.tail (.advance rfl (show (⟨0⟩ : Instant) ≤ ⟨0⟩ by decide)
      (nextDeadline?_of_lt (by decide) (by decide)))
    have due := waited.tail (.due rfl rfl (show (⟨0⟩ : Instant) ≤ ⟨30000000000⟩ by decide) (by decide))
    have hung := due.tail (.ask rfl rfl (by decide) rfl rfl (show (⟨30000000000⟩ : Instant) ≤ ⟨40000000000⟩ by decide))
    have waited' := hung.tail (.advance rfl (show (⟨40000000000⟩ : Instant) ≤ ⟨40000000000⟩ by decide)
      (nextDeadline?_of_lt (by decide) (by decide)))
    exact ⟨_, (waited'.tail (.leave rfl rfl)).tail (.stop rfl rfl), rfl, rfl⟩
  obtain ⟨s, hreached, hplace, hscript⟩ := reached
  obtain ⟨-, -, hcalls, hwatcher, hlog, -⟩ := hstopped s hreached hplace
  rw [hscript] at hwatcher hlog
  refine ⟨hhung, s, hreached, hplace, hcalls, ?_, ?_⟩
  · rw [hwatcher]
    decide +kernel
  · rw [hlog]
    decide +kernel

end Sampler

end CpuMonitor
