import CpuMonitor.Proofs.CommandLine.Layers
import CpuMonitor.Proofs.Time.DurationText

/-!
# The duration in the header

The header tells the duration of a run in whole seconds. What is behind these is left out, so that the header tells the
duration of the run just if there is nothing behind them.

* `Duration.wholeText` : a duration in whole seconds; `wholeText_eq_iff`, `told_wholeText` : which durations share it, and
  what is told of it.
* `Begins` : a run with a duration that begins; `Begins.planned`, `Begins.line` : how long it lasts and what is shown.
* `header_shows_whole_seconds` : the line of the duration in all headers.
-/

set_option autoImplicit false

namespace CpuMonitor

namespace Duration

/-! ## Whole seconds -/

/-- A duration in whole seconds, without what is behind them. -/
def wholeText (d : Duration) : String := toString d.wholeSeconds ++ "s"

theorem wholeText_eq_iff {d d' : Duration} : d.wholeText = d'.wholeText ↔ d.wholeSeconds = d'.wholeSeconds := by
  unfold wholeText
  rw [String.append_left_inj]
  exact ⟨Text.toString_injective, congrArg _⟩

theorem eq_ofSeconds_iff {d : Duration} : ofSeconds d.wholeSeconds = d ↔ 1000000000 ∣ d.nanoseconds := by
  obtain ⟨n⟩ := d
  simp only [ofSeconds, wholeSeconds, mk.injEq]
  omega

section Told
variable {s : String} {d : Duration} (h : told s = .ok d)
include h

theorem ofText_of_told : ofText s = .ok d := by
  unfold told at h
  cases hread : ofText s with
  | error e =>
    rw [hread] at h
    cases h
  | ok d' =>
    rw [hread] at h
    cases h
    rfl

theorem exists_milliseconds : ∃ n, 0 < n ∧ n < 1 <<< 64 ∧ d.nanoseconds = n * 1000000 := by
  obtain ⟨t, number, factor, hparts⟩ := exists_parts s.toList
  cases hparts.told_eq_iff.1 h with
  | duration _ _ pos fits =>
    obtain ⟨_, _, hunit, -⟩ := hparts.unit
    exact ⟨_, Nat.mul_pos pos (one_le_factor hunit.mem), fits, rfl⟩

/-- The whole seconds of a duration can be read again, unless there are none. -/
theorem told_wholeText : told d.wholeText =
    if d < ofSeconds 1 then .error "Duration must be positive: 0s" else .ok (ofSeconds d.wholeSeconds) := by
  have hlt : d < ofSeconds 1 ↔ d.nanoseconds < 1 * 1000000000 := Iff.rfl
  split
  · next hsecond =>
    have hzero : d.wholeSeconds = 0 := Nat.div_eq_of_lt (hlt.1 hsecond)
    unfold wholeText
    rw [hzero]
    decide +kernel
  · next hsecond =>
    obtain ⟨n, -, hn, hd⟩ := exists_milliseconds h
    have hpos : 1 ≤ d.wholeSeconds := by
      rw [hlt] at hsecond
      unfold wholeSeconds
      omega
    have hfits : d.wholeSeconds * 1000 < 1 <<< 64 := by
      unfold wholeSeconds
      omega
    have hunit : (['s'], 1000) ∈ units := by decide
    have hread := told_written hunit hpos hfits
    rw [Nat.mul_assoc] at hread
    exact hread

theorem told_wholeText_eq_iff : told d.wholeText = .ok d ↔ 1000000000 ∣ d.nanoseconds := by
  obtain ⟨n, hpos, -, hd⟩ := exists_milliseconds h
  have hlt : d < ofSeconds 1 ↔ d.nanoseconds < 1 * 1000000000 := Iff.rfl
  rw [told_wholeText h]
  split
  · next hsecond =>
    refine iff_of_false nofun fun hdvd => ?_
    rw [hlt] at hsecond
    omega
  · rw [Except.ok.injEq, eq_ofSeconds_iff]

end Told

end Duration

namespace CommandLine
open Request (FileFault)

/-! ## Runs -/

theorem durationOf_of_prepare {o : WatchOptions} {p : Platform} {content : Except FileFault ByteArray} {plan : WatchPlan}
    (h : (o.prepare p content).result = .ok plan) : o.durationOf = .ok plan.duration := by
  unfold WatchOptions.prepare at h
  split at h
  · cases h
  · cases h
  · cases h
  · next hduration _ =>
    simp only [WatchOptions.planFor] at h
    split at h
    · cases h
    · cases h
      exact hduration

/-- A command that succeeds has a plan, and prints its header. -/
theorem exists_plan_of_code {p : Prepared} (h : p.output.code = 0) : ∃ plan, p.result = .ok plan ∧
    p.output.out = plan.header := by
  obtain ⟨warnings, result⟩ := p
  cases result with
  | error e => cases h
  | ok plan => exact ⟨plan, rfl, rfl⟩

/-- A run begins that is to last for the duration which is told of a text. -/
structure Begins (t : PlatformTable) (file : String → Except FileFault ByteArray) (o : WatchOptions) (text : String)
    (d : Duration) : Prop where
  given : o.duration = some text
  told : Duration.told text = .ok d
  code : ((Command.watch o).output t file).code = 0

def durationLine : Nat := 5

section Begins
variable {t t' : PlatformTable} {file file' : String → Except FileFault ByteArray} {o o' : WatchOptions}
  {text text' : String} {d d' : Duration}

theorem Begins.exists_plan (h : Begins t file o text d) : ∃ plan,
    (o.prepare t.current (file (o.configPath.getD ""))).result = .ok plan ∧ plan.duration = some d ∧
      ((Command.watch o).output t file).out = plan.header := by
  obtain ⟨plan, hplan, hheader⟩ := exists_plan_of_code h.code
  have hduration := durationOf_of_prepare hplan
  simp only [WatchOptions.durationOf, h.given, Duration.ofText_of_told h.told] at hduration
  exact ⟨plan, hplan, (Except.ok.inj hduration).symm, hheader⟩

theorem Begins.line (h : Begins t file o text d) :
    ((Command.watch o).output t file).out[durationLine]? = some ("  Duration:  " ++ d.wholeText) := by
  obtain ⟨plan, -, hduration, hheader⟩ := h.exists_plan
  have htext : plan.durationText = d.wholeText := by
    unfold WatchPlan.durationText
    rw [hduration]
    rfl
  rw [hheader, ← htext]
  rfl

theorem Begins.line_eq_iff (h : Begins t file o text d) (h' : Begins t' file' o' text' d') :
    ((Command.watch o).output t file).out[durationLine]? = ((Command.watch o').output t' file').out[durationLine]? ↔
      d.wholeSeconds = d'.wholeSeconds := by
  rw [h.line, h'.line, Option.some.injEq, String.append_right_inj, Duration.wholeText_eq_iff]

def lasting (text : String) : WatchOptions := ⟨none, none, none, none, "60s", some text⟩

def noFile : String → Except FileFault ByteArray := fun _ => .ok .empty

theorem begins_lasting (h : Duration.told text = .ok d) : Begins .builtin noFile (lasting text) text d where
  given := rfl
  told := h
  code := by
    have hminute : Duration.ofText "60s" = .ok (.ofSeconds 60) := rfl
    have hlists : layered (lasting text) .nothing = Request.fallback := rfl
    have hread : (lasting text).duration.map Duration.ofText = (some d).map .ok :=
      congrArg some (Duration.ofText_of_told h)
    have hanswers : Answers (lasting text) PlatformTable.builtin.current noFile _ :=
      .header hminute hread (.unnamed rfl) (.inl (by rw [hlists]; decide +kernel))
    rw [answers_iff.2 hanswers]

end Begins

/-- **The duration in the header** is the whole seconds of the run, which are the duration itself just if nothing is
behind them. -/
theorem header_shows_whole_seconds (t : PlatformTable) (file : String → Except FileFault ByteArray) (o : WatchOptions)
    (text : String) (d : Duration) (h : Begins t file o text d) :
    (∃ plan, (o.prepare t.current (file (o.configPath.getD ""))).result = .ok plan ∧ plan.duration = some d) ∧
    ((Command.watch o).output t file).out[durationLine]? = some ("  Duration:  " ++ d.wholeText) ∧
    (Duration.told d.wholeText = .ok d ↔ 1000000000 ∣ d.nanoseconds) ∧
    (Duration.told d.wholeText =
      if d < .ofSeconds 1 then .error "Duration must be positive: 0s" else .ok (.ofSeconds d.wholeSeconds)) ∧
    ∀ t' file' o' text' d', Begins t' file' o' text' d' →
      (((Command.watch o).output t file).out[durationLine]? =
          ((Command.watch o').output t' file').out[durationLine]? ↔ d.wholeSeconds = d'.wholeSeconds) := by
  obtain ⟨plan, hplan, hduration, -⟩ := h.exists_plan
  exact ⟨⟨plan, hplan, hduration⟩, h.line, Duration.told_wholeText_eq_iff h.told, Duration.told_wholeText h.told,
    fun t' file' o' text' d' h' => h.line_eq_iff h'⟩

theorem begins_half_seconds : Begins .builtin noFile (lasting "1500ms") "1500ms" ⟨1500000000⟩ :=
  begins_lasting (by decide +kernel)

theorem begins_second : Begins .builtin noFile (lasting "1s") "1s" ⟨1000000000⟩ := begins_lasting (by decide +kernel)

/-- A run of one second and a half shows the duration of a run of one second. -/
theorem header_shows_whole_seconds_of_half :
    Begins .builtin noFile (lasting "1500ms") "1500ms" ⟨1500000000⟩ ∧
      ((Command.watch (lasting "1500ms")).output .builtin noFile).out[durationLine]? = some "  Duration:  1s" ∧
      ((Command.watch (lasting "1500ms")).output .builtin noFile).out[durationLine]? =
        ((Command.watch (lasting "1s")).output .builtin noFile).out[durationLine]? := by
  obtain ⟨-, hline, -, -, hsame⟩ := header_shows_whole_seconds _ _ _ _ _ begins_half_seconds
  exact ⟨begins_half_seconds, hline, (hsame _ _ _ _ _ begins_second).2 rfl⟩

/-- What the header shows is not always read as the duration of the run. -/
theorem not_header_tells_duration :
    (¬ ∀ t file o text d, Begins t file o text d → ∃ shown,
      ((Command.watch o).output t file).out[durationLine]? = some ("  Duration:  " ++ shown) ∧
        Duration.told shown = .ok d) ∧
    ¬ ∀ t file o o' text text' d d', Begins t file o text d → Begins t file o' text' d' → d ≠ d' →
      ((Command.watch o).output t file).out[durationLine]? ≠ ((Command.watch o').output t file).out[durationLine]? := by
  constructor
  · intro h
    obtain ⟨shown, hline, hread⟩ := h _ _ _ _ _ begins_half_seconds
    rw [begins_half_seconds.line, Option.some.injEq, String.append_right_inj] at hline
    rw [← hline, Duration.told_wholeText_eq_iff begins_half_seconds.told] at hread
    exact absurd hread (by decide)
  · intro h
    refine h _ _ _ _ _ _ _ _ begins_half_seconds begins_second (by decide) ?_
    rw [begins_half_seconds.line_eq_iff begins_second]
    rfl

end CommandLine

end CpuMonitor
