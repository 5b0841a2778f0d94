import CpuMonitor.Proofs.Watcher.Script
import CpuMonitor.Proofs.Watcher.SingleQuery

/-!
# The query that is out

What a script of samples and of queries that come back does to the flag of the watcher, and what it asks of the source.

* `Outstanding` : a sample of a trace gave up on its query, and no query has come back since.
* `inFlight_perform`, `inFlight_after` : the flag after an event, and after a script.
* `queries_after` : how often a script asks the source.
* `Follows` : calls of one caller that go as the samples of a script; `exists_follows` gives them for every script.
* `samples_of_script` : what the samples of any script tell.
-/

set_option autoImplicit false

namespace CpuMonitor

/-! ## Samples of a trace -/

/-- One sample: the query that it would have, and its result. -/
structure Sampled where
  query : QueryOutcome
  result : Except WatcherError Unit

def Sampled.asks : Sampled → Bool
  | ⟨_, .error .busy⟩ => false
  | ⟨query, _⟩ => query.asks

def sampled? : Event × Reply → Option Sampled
  | (.sample query _, .sampled result) => some ⟨query, result⟩
  | _ => none

def samplesOf (trace : List (Event × Reply)) : List Sampled := trace.filterMap sampled?

theorem samplesOf_cons (p : Event × Reply) (trace : List (Event × Reply)) :
    samplesOf (p :: trace) = (sampled? p).toList ++ samplesOf trace := by
  unfold samplesOf
  rw [List.filterMap_cons]
  cases sampled? p <;> rfl

def gaveUp : Event × Reply → Bool
  | (.sample .hung _, .sampled (.error (.timeout _))) => true
  | _ => false

def releases : Event × Reply → Bool
  | (.release _, _) => true
  | _ => false

/-- A sample gave up on its query, and no query has come back since. -/
def Outstanding (trace : List (Event × Reply)) : Prop :=
  ∃ before p after, trace = before ++ p :: after ∧ gaveUp p = true ∧ ∀ q ∈ after, releases q = false

theorem not_outstanding_nil : ¬ Outstanding [] := by
  rintro ⟨before, p, after, h, -⟩
  exact List.append_ne_nil_of_right_ne_nil before (List.cons_ne_nil p after) h.symm

theorem outstanding_cons {p : Event × Reply} {trace : List (Event × Reply)} : Outstanding (p :: trace) ↔
    (gaveUp p = true ∧ ∀ q ∈ trace, releases q = false) ∨ Outstanding trace := by
  constructor
  · rintro ⟨before, q, after, h, hq, hafter⟩
    cases before with
    | nil =>
      obtain ⟨rfl, rfl⟩ := List.cons.inj h
      exact .inl ⟨hq, hafter⟩
    | cons x before =>
      obtain ⟨rfl, rfl⟩ := List.cons.inj h
      exact .inr ⟨before, q, after, rfl, hq, hafter⟩
  · rintro (⟨hp, htrace⟩ | ⟨before, q, after, rfl, hq, hafter⟩)
    · exact ⟨[], p, trace, rfl, hp, htrace⟩
    · exact ⟨p :: before, q, after, rfl, hq, hafter⟩

namespace Watcher

/-! ## One event -/

theorem timeout_perform (w : Watcher) (e : Event) : (w.perform e).2.timeout = w.timeout := by
  cases e with
  | sample query time => exact w.timeout_sample query time
  | release late => rfl
  | report load => rfl
  | means now => rfl

/-- A sample that gives up sets the flag, and a query that comes back clears it. -/
theorem inFlight_perform (w : Watcher) (e : Event) : (w.perform e).2.inFlight = true ↔
    gaveUp (e, (w.perform e).1) = true ∨ w.inFlight = true ∧ releases (e, (w.perform e).1) = false := by
  cases e with
  | sample query time =>
    show (w.sample query time).2.inFlight = true ↔ gaveUp (_, .sampled (w.sample query time).1) = true ∨ _ ∧ false = false
    rcases w.sample_by_flag query time with ⟨-, hw⟩ | ⟨-, hi, hw⟩ | ⟨-, hi, hresult, hflag, -⟩
    · rw [hw]
      simp [gaveUp]
    · rw [hw]
      exact iff_of_true hi (.inr ⟨hi, rfl⟩)
    · rw [hi, hresult, hflag]
      cases query with
      | hung => exact iff_of_true rfl (.inl rfl)
      | cores cores => simp [gaveUp]
      | failed e => simp [gaveUp]
      | panicked => simp [gaveUp]
      | refused reason => simp [gaveUp]
  | release late => simp [perform, release, gaveUp, releases]
  | report load => simp [perform, gaveUp, releases]
  | means now => simp [perform, gaveUp, releases]

theorem queries_perform {w : Watcher} (hs : w.selection.samples = true) (e : Event) : (w.perform e).2.queries =
    w.queries + (sampled? (e, (w.perform e).1)).toList.countP Sampled.asks := by
  cases e with
  | sample query time =>
    show (w.sample query time).2.queries = w.queries + [Sampled.mk query (w.sample query time).1].countP Sampled.asks
    rw [List.countP_singleton]
    cases hi : w.inFlight with
    | true =>
      rw [sample_of_busy hs hi]
      rfl
    | false =>
      obtain ⟨hresult, -, hqueries⟩ := sample_of_idle hs hi query time
      have hasks : Sampled.asks ⟨query, (w.sample query time).1⟩ = query.asks := by
        unfold Sampled.asks
        rw [hresult]
        split
        · next h => exact absurd (Sampled.mk.inj h).2 (query.result_ne_busy _)
        · next h => rw [(Sampled.mk.inj h).1]
      rw [hqueries, hasks]
      cases query.asks <;> rfl
  | release late => rfl
  | report load => rfl
  | means now => rfl

/-! ## Scripts -/

theorem timeout_after : ∀ (w : Watcher) (events : List Event), (w.after events).timeout = w.timeout
  | _, [] => rfl
  | w, e :: events => (timeout_after (w.perform e).2 events).trans (timeout_perform w e)

theorem inFlight_after : ∀ (w : Watcher) (events : List Event), (w.after events).inFlight = true ↔
    Outstanding (w.trace events) ∨ w.inFlight = true ∧ ∀ q ∈ w.trace events, releases q = false
  | w, [] => by
    show w.inFlight = true ↔ Outstanding [] ∨ w.inFlight = true ∧ ∀ q ∈ [], releases q = false
    simp [not_outstanding_nil]
  | w, e :: events => by
    have ih := inFlight_after (w.perform e).2 events
    rw [after_cons, trace_cons, ih, inFlight_perform, outstanding_cons, List.forall_mem_cons,
      or_and_right, and_assoc, ← or_assoc, or_comm (a := Outstanding _)]

theorem queries_after : ∀ {w : Watcher}, w.selection.samples = true → ∀ events : List Event,
    (w.after events).queries = w.queries + (samplesOf (w.trace events)).countP Sampled.asks
  | _, _, [] => rfl
  | w, hs, e :: events => by
    have ih := queries_after (w := (w.perform e).2) (by rw [selection_perform hs e, hs]) events
    rw [after_cons, trace_cons, ih, queries_perform hs e, samplesOf_cons, List.countP_append, Nat.add_assoc]

theorem after_of_disabled : ∀ {w : Watcher}, w.selection.samples = false → w.inFlight = false →
    ∀ events : List Event, w.after events = w
  | _, _, _, [] => rfl
  | w, hs, hi, e :: events => by
    have hw : (w.perform e).2 = w := by
      cases e with
      | sample query time =>
        show (w.sample query time).2 = w
        rw [sample_of_disabled hs]
      | release late =>
        show { w with inFlight := false } = w
        rw [← hi]
      | report load => rfl
      | means now => rfl
    rw [after_cons, hw]
    exact after_of_disabled hs hi events

end Watcher

/-! ## Calls -/

/-- A caller whose calls go as the given samples, each with its own number. -/
structure Traffic.Follows (t : Traffic) (x : Watcher) (samples : List Sampled) : Prop where
  run : Traffic.Run .idle t
  flag : t.inFlight = x.inFlight
  /-- The query that is out is one that a worker still waits for. -/
  asks : x.inFlight = true → ∃ i, t.asks i
  made : ∀ i s, samples[i]? = some s → t.Made x.timeout i i s.query s.result
  fresh : ∀ i, samples.length ≤ i → t.calls i = none ∧ t.workers i = none ∧ t.channels i = none

namespace Traffic

theorem Made.congr {t t' : Traffic} {timeout : Duration} {c w : Nat} {query : QueryOutcome}
    {result : Except WatcherError Unit} (h : t.Made timeout c w query result) (hcall : t'.calls c = t.calls c)
    (hworker : (t'.workers w).isSome = (t.workers w).isSome) : t'.Made timeout c w query result := by
  obtain ⟨how, hended, hresult, hby⟩ := h
  refine ⟨how, hcall.trans hended, hresult, hby.imp (.imp_right fun hnone => ?_) (.imp_right hworker.trans)⟩
  rw [hnone] at hworker
  exact Option.not_isSome_iff_eq_none.1 (Bool.eq_false_iff.1 hworker)

section Follows
variable {t : Traffic} {x : Watcher} {samples : List Sampled} (h : t.Follows x samples)
include h

theorem Follows.sample (hs : x.selection.samples = true) (query : QueryOutcome) (time : Instant) :
    ∃ t' : Traffic, t'.Follows (x.sample query time).2 (samples ++ [⟨query, (x.sample query time).1⟩]) := by
  obtain ⟨hcall, hworker, hchannel⟩ := h.fresh samples.length (Nat.le_refl _)
  obtain ⟨t', hrun, hflag, hmade, hasks, honly⟩ := run_sample hs query time h.flag hcall hworker hchannel
  have htimeout : (x.sample query time).2.timeout = x.timeout := x.timeout_perform (.sample query time)
  refine ⟨t', h.run.trans hrun, hflag, fun hset => ?_, fun i s hi => ?_, fun i hi => ?_⟩
  · cases hx : x.inFlight with
    | false => exact ⟨_, hasks hx hset⟩
    | true =>
      -- the query that was out before is out still, as another worker has its number
      obtain ⟨i, k, hk, hphase⟩ := h.asks hx
      have hne : i ≠ samples.length := fun heq => by
        rw [heq, hworker] at hk
        cases hk
      exact ⟨i, k, (honly.workers i hne).trans hk, hphase⟩
  · rw [htimeout]
    by_cases hlt : i < samples.length
    · rw [List.getElem?_append_left hlt] at hi
      have hne : i ≠ samples.length := Nat.ne_of_lt hlt
      exact (h.made i s hi).congr (honly.calls i hne) (congrArg Option.isSome (honly.workers i hne))
    · rw [List.getElem?_append_right (Nat.le_of_not_lt hlt), List.getElem?_singleton] at hi
      split at hi
      · obtain rfl : i = samples.length := by omega
        rw [← Option.some.inj hi]
        exact hmade
      · cases hi
  · rw [List.length_append, List.length_singleton] at hi
    have hne : i ≠ samples.length := by omega
    rw [honly.calls i hne, honly.workers i hne, honly.channels i hne]
    exact h.fresh i (by omega)

theorem Follows.release (late : Answer) : ∃ t' : Traffic, t'.Follows x.release samples := by
  cases hx : x.inFlight with
  | false =>
    have hsame : x.release = x := by
      show { x with inFlight := false } = x
      rw [← hx]
    exact ⟨t, hsame ▸ h⟩
  | true =>
    obtain ⟨i, hi⟩ := h.asks hx
    obtain ⟨t', hrun, hflag, hcalls, hchannels, hworkers⟩ := run_release (x := x) hi late
    refine ⟨t', h.run.trans hrun, hflag, nofun, fun j s hj => ?_, fun j hj => ?_⟩
    · exact (h.made j s hj).congr (congrFun hcalls j) (hworkers j)
    · obtain ⟨hcall, hworker, hchannel⟩ := h.fresh j hj
      refine ⟨(congrFun hcalls j).trans hcall, ?_, (congrFun hchannels j).trans hchannel⟩
      have hsome := hworkers j
      rw [hworker] at hsome
      exact Option.not_isSome_iff_eq_none.1 (Bool.eq_false_iff.1 hsome)

theorem Follows.perform (hs : x.selection.samples = true) (e : Event) :
    ∃ t' : Traffic, t'.Follows (x.perform e).2 (samples ++ (sampled? (e, (x.perform e).1)).toList) := by
  cases e with
  | sample query time => exact h.sample hs query time
  | release late =>
    show ∃ t' : Traffic, t'.Follows x.release (samples ++ [])
    rw [List.append_nil]
    exact h.release late
  | report load => exact ⟨t, (List.append_nil samples).symm ▸ h⟩
  | means now => exact ⟨t, (List.append_nil samples).symm ▸ h⟩

theorem Follows.worker_of_told {c worker : Nat} {answer : Answer}
    (hc : t.calls c = some (.ended (.told worker answer))) : worker = c := by
  have hlt : c < samples.length := Nat.lt_of_not_le fun hle => by
    rw [(h.fresh c hle).1] at hc
    cases hc
  obtain ⟨how, hended, -, hby⟩ := h.made c _ (List.getElem?_eq_getElem hlt)
  obtain rfl : how = .told worker answer := by
    rw [hended] at hc
    cases hc
    rfl
  rcases hby with ⟨hhow, -⟩ | ⟨hhow, -⟩
  · cases hhow
  · generalize (samples[c]).query = query at hhow
    cases query <;> cases hhow <;> rfl

end Follows

theorem Follows.after : ∀ {t : Traffic} {x : Watcher} {samples : List Sampled}, t.Follows x samples →
    x.selection.samples = true → ∀ events : List Event,
    ∃ t' : Traffic, t'.Follows (x.after events) (samples ++ samplesOf (x.trace events))
  | t, _, samples, h, _, [] => ⟨t, (List.append_nil samples).symm ▸ h⟩
  | _, x, samples, h, hs, e :: events => by
    obtain ⟨t', h'⟩ := h.perform hs e
    obtain ⟨t'', h''⟩ := h'.after (by rw [Watcher.selection_perform hs e, hs]) events
    rw [Watcher.trace_cons, Watcher.after_cons, samplesOf_cons, ← List.append_assoc]
    exact ⟨t'', h''⟩

/-- Every script of one caller is a run of calls. -/
theorem exists_follows {x : Watcher} (hs : x.selection.samples = true) (hi : x.inFlight = false)
    (events : List Event) : ∃ t : Traffic, t.Follows (x.after events) (samplesOf (x.trace events)) := by
  have hidle : Traffic.Follows .idle x [] :=
    ⟨.refl _, hi.symm, fun hset => absurd hset (by simp [hi]), nofun, fun _ _ => ⟨rfl, rfl, rfl⟩⟩
  exact hidle.after hs events

end Traffic

namespace Watcher

/-- **The samples of a script.** A query is out while a sample has given up on it; a sample that is not busy asks
once, and hears from its own worker alone. -/
theorem samples_of_script (selection : Selection) (interval timeout : Duration) (events : List Event) :
    let start := withTiming selection interval timeout
    let w := start.after events
    let trace := start.trace events
    (w.inFlight = true ↔ Outstanding trace) ∧
    (∀ query time, (w.sample query time).1 = .error .busy ↔ selection.samples = true ∧ w.inFlight = true) ∧
    (∀ query time, (w.sample query time).1 = .error .busy → (w.sample query time).2 = w) ∧
    (selection.samples = true → w.inFlight = false → ∀ query time,
      (w.sample query time).1 = query.result timeout ∧
      ((w.sample query time).2.inFlight = true ↔ query = .hung) ∧
      (w.sample query time).2.queries = w.queries + query.asks.toNat) ∧
    (selection.samples = true → w.queries = (samplesOf trace).countP Sampled.asks ∧
      ∃ t : Traffic, t.Follows w (samplesOf trace) ∧
        ∀ c worker answer, t.calls c = some (.ended (.told worker answer)) → worker = c ∧ t.Told worker c answer) ∧
    (selection.samples = false → w = start ∧ ∀ query time, w.sample query time = (.ok (), w)) := by
  intro start w trace
  have hsel : w.selection = selection := selection_unchanged start events
  have htimeout : w.timeout = timeout := timeout_after start events
  have hbusy : ∀ query time, (w.sample query time).1 = .error .busy →
      w.selection.samples = true ∧ w.inFlight = true ∧ w.sample query time = (.error .busy, w) := by
    intro query time h
    rcases w.sample_by_flag query time with ⟨-, hw⟩ | hcase | ⟨-, -, hresult, -⟩
    · rw [hw] at h
      cases h
    · exact hcase
    · exact absurd (hresult.symm.trans h) (query.result_ne_busy _)
  refine ⟨?_, fun query time => ⟨fun h => ?_, fun ⟨hs, hi⟩ => ?_⟩, fun query time h => ?_, fun hs hi query time => ?_,
    fun hs => ⟨?_, ?_⟩, fun hs => ⟨?_, fun query time => ?_⟩⟩
  · rw [inFlight_after start events]
    exact or_iff_left fun h => Bool.false_ne_true h.1
  · obtain ⟨hs, hi, -⟩ := hbusy query time h
    exact ⟨hsel ▸ hs, hi⟩
  · rw [sample_of_busy (by rw [hsel, hs]) hi]
  · rw [(hbusy query time h).2.2]
  · obtain ⟨hresult, hflag, hqueries⟩ := sample_of_idle (by rw [hsel, hs]) hi query time
    exact ⟨htimeout ▸ hresult, by rw [hflag, beq_iff_eq], hqueries⟩
  · exact (queries_after hs events).trans (Nat.zero_add _)
  · obtain ⟨t, ht⟩ := Traffic.exists_follows (x := start) hs rfl events
    refine ⟨t, ht, fun c worker answer hc => ⟨?_, (Traffic.Wired.run .idle ht.run).told c worker answer hc⟩⟩
    exact ht.worker_of_told hc
  · exact after_of_disabled hs rfl events
  · exact sample_of_disabled (by rw [hsel, hs]) query time

/-- The second sample gives up on its query, and the third finds it out. -/
theorem samples_of_script_mixed :
    let w := twiceAMinute.after (mixedScript.take 2)
    Outstanding (twiceAMinute.trace (mixedScript.take 2)) ∧
      (w.sample (.cores (coresOf [11])) ⟨6000000000⟩).1 = .error .busy ∧
      (w.sample (.cores (coresOf [11])) ⟨6000000000⟩).2.queries = 2 ∧
      (twiceAMinute.after mixedScript).inFlight = false ∧ (twiceAMinute.after mixedScript).queries = 6 := by
  intro w
  obtain ⟨hout, hbusy, hsame, -, hqueries, -⟩ :=
    samples_of_script userMinute (.ofSeconds 30) (.ofSeconds 10) (mixedScript.take 2)
  obtain ⟨-, -, -, -, hqueries', -⟩ := samples_of_script userMinute (.ofSeconds 30) (.ofSeconds 10) mixedScript
  have hset : w.inFlight = true := by decide +kernel
  have hthird := (hbusy (.cores (coresOf [11])) ⟨6000000000⟩).2 ⟨by decide, hset⟩
  have hthree : w.queries = 2 := (hqueries (by decide)).1.trans (by decide +kernel)
  have hall : (twiceAMinute.after mixedScript).queries = 6 := (hqueries' (by decide)).1.trans (by decide +kernel)
  exact ⟨hout.1 hset, hthird, (congrArg queries (hsame _ _ hthird)).trans hthree, by decide +kernel, hall⟩

end Watcher

end CpuMonitor
