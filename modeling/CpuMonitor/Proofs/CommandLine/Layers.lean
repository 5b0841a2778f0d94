import CpuMonitor.CommandLine.Output
import CpuMonitor.Proofs.Request.FileReading

/-!
# The layers of a request to watch

What is watched is put together from the defaults, a file and the command line, list by list.

* `Request.Gives` : what a file gives; `ofFile_eq_ok_iff`, `gives_iff` : by its request, and by its document.
* `FileLayer`, `layered` : the layer below the command line, and the request of all layers.
* `Answers` : what the command that watches prints, failure by failure and then the header.
* `withFlag` : other options for one list; `list_layered_withFlag`, `out_withFlag` : they change this list only.
* `output_watch` : the command gives just the answer of its layers.
-/

set_option autoImplicit false

namespace CpuMonitor

namespace Request
open Json (Value Writes Reads)

/-! ## What a file gives -/

/-- A file is a text that gives some lists, with nothing but blanks behind them. -/
def Gives (content : Except FileFault ByteArray) (g : Given) : Prop :=
  ∃ bytes s t, content = .ok bytes ∧ String.fromUTF8? bytes = some s ∧ readGiven s.toList = .ok (g, t) ∧
    Json.next? t.val = none

theorem Gives.unique {content : Except FileFault ByteArray} {g g' : Given} (h : Gives content g)
    (h' : Gives content g') : g = g' := by
  obtain ⟨bytes, s, t, rfl, hs, hg, -⟩ := h
  obtain ⟨bytes', s', t', hbytes, hs', hg', -⟩ := h'
  cases hbytes
  cases hs.symm.trans hs'
  cases hg.symm.trans hg'
  rfl

/-- A file is accepted if it gives some lists, and the others are the defaults. -/
theorem ofFile_eq_ok_iff {content : Except FileFault ByteArray} {r : Request} :
    ofFile content = .ok r ↔ ∃ g, Gives content g ∧ g.request = r := by
  constructor
  · intro h
    unfold ofFile ofJson at h
    split at h
    · cases h
    split at h
    · cases h
    next s hs =>
    cases hread : readGiven s.toList with
    | error p => simp only [hread] at h; cases h
    | ok y =>
      obtain ⟨g, t⟩ := y
      cases hnext : Json.next? t.val with
      | some c => simp only [hread, hnext] at h; cases h
      | none =>
        simp only [hread, hnext] at h
        cases h
        exact ⟨g, ⟨_, s, t, rfl, hs, hread, hnext⟩, rfl⟩
  · rintro ⟨g, ⟨bytes, s, t, rfl, hs, hread, hnext⟩, rfl⟩
    simp only [ofFile, hs, ofJson, hread, hnext]
    rfl

theorem exists_ofFile_eq_error_iff {content : Except FileFault ByteArray} :
    (∃ e, ofFile content = .error e) ↔ ∀ g, ¬Gives content g := by
  constructor
  · rintro ⟨e, he⟩ g hg
    cases he.symm.trans (ofFile_eq_ok_iff.2 ⟨g, hg, rfl⟩)
  · intro h
    cases hfile : ofFile content with
    | error e => exact ⟨e, rfl⟩
    | ok r =>
      obtain ⟨g, hg, -⟩ := ofFile_eq_ok_iff.1 hfile
      exact absurd hg (h g)

/-- The text of a document gives just the lists of the document. -/
theorem gives_iff {v : Value} {s : String} (h : Writes (.item v) s.toList) {g : Given} :
    Gives (.ok s.toUTF8) g ↔ Lists v g := by
  obtain ⟨b, hb, hread⟩ := yields_readGiven h
  rw [← given?_eq_some_iff]
  constructor
  · rintro ⟨_, s', t, hbytes, hs, hg, -⟩
    cases hbytes
    cases (fromUTF8?_toUTF8 s).symm.trans hs
    cases hgiven : given? v with
    | none =>
      rw [hgiven] at hread
      obtain ⟨p, hp⟩ := hread
      cases hp.symm.trans hg
    | some g' =>
      rw [hgiven] at hread
      obtain ⟨_, hg'⟩ := Reads.eq hread
      cases hg'.symm.trans hg
      rfl
  · intro hg
    rw [hg] at hread
    obtain ⟨_, hg'⟩ := Reads.eq hread
    exact ⟨_, s, _, rfl, fromUTF8?_toUTF8 s, hg', Json.next?_blanks hb⟩

end Request

namespace CommandLine
open Request (Field Given FileFault)

/-! ## Layers -/

namespace WatchOptions

def flag? (o : WatchOptions) : Field → Option String
  | .loadWindows => o.loadWindows
  | .windows => o.windows
  | .kinds => o.kinds

/-- The options with something else, or nothing, for one list. -/
def withFlag (o : WatchOptions) (f : Field) (text? : Option String) : WatchOptions :=
  match f with
  | .loadWindows => { o with loadWindows := text? }
  | .windows => { o with windows := text? }
  | .kinds => { o with kinds := text? }

end WatchOptions

section Layers
variable {o : WatchOptions} {p : Platform} {file : String → Except FileFault ByteArray} {g : Given}

/-- The layer below the command line: what the file gives, if one is named. -/
inductive FileLayer (o : WatchOptions) (file : String → Except FileFault ByteArray) : Given → Prop
  | unnamed (h : o.configPath = none) : FileLayer o file .nothing
  | named {path : String} {g : Given} (h : o.configPath = some path) (hg : Request.Gives (file path) g) :
    FileLayer o file g

/-- A list from the first layer that gives it: command line, file, defaults. -/
def layeredList (o : WatchOptions) (g : Given) (f : Field) : List String :=
  match o.flag? f, g.get? f with
  | some text, _ => splitList text
  | none, some l => l
  | none, none => Request.fallback.list f

def layered (o : WatchOptions) (g : Given) : Request :=
  ⟨layeredList o g .loadWindows, layeredList o g .windows, layeredList o g .kinds⟩

@[simp] theorem list_layered (o : WatchOptions) (g : Given) (f : Field) : (layered o g).list f = layeredList o g f := by
  cases f <;> rfl

theorem override_request (o : WatchOptions) (g : Given) : o.override g.request = layered o g := by
  refine Request.ext_list fun f => ?_
  have hlist : (o.override g.request).list f = ((o.flag? f).map splitList).getD (g.request.list f) := by
    cases f <;> rfl
  rw [hlist, Given.list_request, list_layered]
  unfold layeredList
  cases o.flag? f with
  | some text => rfl
  | none => cases g.get? f <;> rfl

theorem FileLayer.iff_gives {path : String} (h : o.configPath = some path) :
    FileLayer o file g ↔ Request.Gives (file path) g := by
  constructor
  · intro hlayer
    cases hlayer with
    | unnamed hnone => cases hnone.symm.trans h
    | named hpath hg =>
      cases hpath.symm.trans h
      exact hg
  · exact .named h

theorem FileLayer.unique {g' : Given} (h : FileLayer o file g) (h' : FileLayer o file g') : g = g' := by
  cases h with
  | unnamed hpath =>
    cases h' with
    | unnamed _ => rfl
    | named hpath' _ => cases hpath.symm.trans hpath'
  | named hpath hg => exact hg.unique ((iff_gives hpath).1 h')

theorem FileLayer.base_eq (h : FileLayer o file g) : o.base (file (o.configPath.getD "")) = .ok g.request := by
  unfold WatchOptions.base
  cases h with
  | unnamed hpath =>
    rw [hpath]
    rfl
  | @named path _ hpath hg =>
    simp only [hpath, Option.getD_some, Request.ofFile_eq_ok_iff.2 ⟨g, hg, rfl⟩]

theorem exists_fileLayer (o : WatchOptions) (file : String → Except FileFault ByteArray) :
    (∃ g, FileLayer o file g) ∨ ∃ path e, o.configPath = some path ∧ Request.ofFile (file path) = .error e := by
  cases hpath : o.configPath with
  | none => exact .inl ⟨_, .unnamed hpath⟩
  | some path =>
    cases hfile : Request.ofFile (file path) with
    | error e => exact .inr ⟨path, e, rfl, hfile⟩
    | ok r =>
      obtain ⟨g, hg, -⟩ := Request.ofFile_eq_ok_iff.1 hfile
      exact .inl ⟨g, .named hpath hg⟩

/-! ## Answers -/

def failing (warnings : List Request.Warning) (message : String) : Output :=
  ⟨1, [], warnings.map (fun w => "Warning: " ++ w.message) ++ ["Error: " ++ message]⟩

/-- What is printed before anything is sampled: the first error that applies, or else the header. -/
inductive Answers (o : WatchOptions) (p : Platform) (file : String → Except FileFault ByteArray) : Output → Prop
  | exportEvery {e : Duration.ReadError} (h : Duration.ofText o.exportEvery = .error e) :
    Answers o p file (failing [] e.message)
  | duration {every : Duration} {e : Duration.ReadError} (hevery : Duration.ofText o.exportEvery = .ok every)
    (h : o.duration.map Duration.ofText = some (.error e)) : Answers o p file (failing [] e.message)
  | file {every : Duration} {d : Option Duration} {path : String} {e : Request.FileError}
    (hevery : Duration.ofText o.exportEvery = .ok every) (hd : o.duration.map Duration.ofText = d.map .ok)
    (hpath : o.configPath = some path) (h : Request.ofFile (file path) = .error e) :
    Answers o p file (failing [] (e.message path))
  | nothing {every : Duration} {d : Option Duration} {g : Given} (hevery : Duration.ofText o.exportEvery = .ok every)
    (hd : o.duration.map Duration.ofText = d.map .ok) (hg : FileLayer o file g)
    (hload : ((layered o g).narrow p).selection.loadWindows = ∅)
    (hsamples : ((layered o g).narrow p).selection.windows = ∅ ∨ ((layered o g).narrow p).selection.kinds = ∅) :
    Answers o p file (failing ((layered o g).narrow p).warnings ("nothing to collect on " ++ p.name))
  | header {every : Duration} {d : Option Duration} {g : Given} (hevery : Duration.ofText o.exportEvery = .ok every)
    (hd : o.duration.map Duration.ofText = d.map .ok) (hg : FileLayer o file g)
    (h : ((layered o g).narrow p).selection.loadWindows ≠ ∅ ∨
      ((layered o g).narrow p).selection.windows ≠ ∅ ∧ ((layered o g).narrow p).selection.kinds ≠ ∅) :
    Answers o p file ⟨0, (WatchPlan.mk ((layered o g).narrow p).selection every d).header,
      ((layered o g).narrow p).warnings.map fun w => "Warning: " ++ w.message⟩

theorem duration_cases (o : WatchOptions) : (∃ e, o.duration.map Duration.ofText = some (.error e)) ∨
    ∃ d : Option Duration, o.duration.map Duration.ofText = d.map .ok := by
  cases o.duration with
  | none => exact .inr ⟨none, rfl⟩
  | some text =>
    cases htext : Duration.ofText text with
    | error e => exact .inl ⟨e, congrArg some htext⟩
    | ok d => exact .inr ⟨some d, congrArg some htext⟩

theorem durationOf_eq_ok {d : Option Duration} (h : o.duration.map Duration.ofText = d.map .ok) :
    o.durationOf = .ok d := by
  unfold WatchOptions.durationOf
  cases ho : o.duration with
  | none =>
    rw [ho] at h
    cases d with
    | none => rfl
    | some d => cases h
  | some text =>
    rw [ho] at h
    cases d with
    | none => cases h
    | some d => simp only [Option.some.inj h]; rfl

theorem durationOf_eq_error {e : Duration.ReadError} (h : o.duration.map Duration.ofText = some (.error e)) :
    o.durationOf = .error e := by
  obtain ⟨text, htext, herror⟩ := Option.map_eq_some_iff.1 h
  simp only [WatchOptions.durationOf, htext, herror]
  rfl

theorem isEmpty_selection_iff {s : Selection} :
    s.isEmpty = true ↔ s.loadWindows = ∅ ∧ (s.windows = ∅ ∨ s.kinds = ∅) := by
  simp only [Selection.isEmpty, Selection.samples, Bool.and_eq_true, Bool.not_eq_true', Bool.and_eq_false_iff,
    Bool.not_eq_false', OrderedSet.isEmpty_iff]

theorem Answers.output_eq {out : Output} (h : Answers o p file out) :
    (o.prepare p (file (o.configPath.getD ""))).output = out := by
  unfold WatchOptions.prepare
  cases h with
  | exportEvery h =>
    simp only [h]
    rfl
  | duration hevery h =>
    simp only [hevery, durationOf_eq_error h]
    rfl
  | @file every d path e hevery hd hpath h =>
    have hbase : o.base (file (o.configPath.getD "")) = .error (.file path e) := by
      simp only [WatchOptions.base, hpath, Option.getD_some, h]
    simp only [hevery, durationOf_eq_ok hd, hbase]
    rfl
  | nothing hevery hd hg hload hsamples =>
    simp only [hevery, durationOf_eq_ok hd, hg.base_eq, override_request]
    rw [WatchOptions.planFor, if_pos (isEmpty_selection_iff.2 ⟨hload, hsamples⟩)]
    rfl
  | header hevery hd hg h =>
    simp only [hevery, durationOf_eq_ok hd, hg.base_eq, override_request]
    rw [WatchOptions.planFor, if_neg fun hempty => ?_]
    · rfl
    · obtain ⟨hload, hsamples⟩ := isEmpty_selection_iff.1 hempty
      rcases h with h | ⟨hwindows, hkinds⟩
      · exact h hload
      · exact hsamples.elim hwindows hkinds

theorem exists_answer (o : WatchOptions) (p : Platform) (file : String → Except FileFault ByteArray) :
    ∃ out, Answers o p file out := by
  cases hevery : Duration.ofText o.exportEvery with
  | error e => exact ⟨_, .exportEvery hevery⟩
  | ok every =>
    rcases duration_cases o with ⟨e, he⟩ | ⟨d, hd⟩
    · exact ⟨_, .duration hevery he⟩
    · rcases exists_fileLayer o file with ⟨g, hg⟩ | ⟨path, e, hpath, he⟩
      · by_cases hempty : ((layered o g).narrow p).selection.isEmpty = true
        · obtain ⟨hload, hsamples⟩ := isEmpty_selection_iff.1 hempty
          exact ⟨_, .nothing hevery hd hg hload hsamples⟩
        · rw [isEmpty_selection_iff, Classical.not_and_iff_not_or_not, not_or] at hempty
          exact ⟨_, .header hevery hd hg hempty⟩
      · exact ⟨_, .file hevery hd hpath he⟩

theorem answers_iff {t : PlatformTable} {out : Output} :
    (Command.watch o).output t file = out ↔ Answers o t.current file out := by
  have hprepare : (Command.watch o).output t file = (o.prepare t.current (file (o.configPath.getD ""))).output := rfl
  rw [hprepare]
  constructor
  · rintro rfl
    obtain ⟨out, hout⟩ := exists_answer o t.current file
    rw [hout.output_eq]
    exact hout
  · exact Answers.output_eq

theorem Answers.header_of_code {out : Output} (h : Answers o p file out) (hcode : out.code = 0) :
    ∃ every d g, Duration.ofText o.exportEvery = .ok every ∧ o.duration.map Duration.ofText = Option.map .ok d ∧
      FileLayer o file g ∧ out.out = (WatchPlan.mk ((layered o g).narrow p).selection every d).header := by
  cases h with
  | header hevery hd hg _ => exact ⟨_, _, _, hevery, hd, hg, rfl⟩
  | _ => cases hcode

/-! ## One list in the place of another -/

def headerLine : Field → Nat
  | .loadWindows => 1
  | .windows => 2
  | .kinds => 3

theorem list_layered_withFlag {f f' : Field} (hne : f' ≠ f) (text? : Option String) :
    (layered (o.withFlag f text?) g).list f' = (layered o g).list f' := by
  have hflag : (o.withFlag f text?).flag? f' = o.flag? f' := by
    cases f <;> cases f' <;> first | rfl | exact absurd rfl hne
  rw [list_layered, list_layered]
  unfold layeredList
  rw [hflag]

theorem fileLayer_withFlag {f : Field} {text? : Option String} :
    FileLayer (o.withFlag f text?) file g ↔ FileLayer o file g := by
  have hpath : (o.withFlag f text?).configPath = o.configPath := by cases f <;> rfl
  constructor
  · intro h
    cases h with
    | unnamed h => exact .unnamed (hpath.symm.trans h)
    | named h hg => exact .named (hpath.symm.trans h) hg
  · intro h
    cases h with
    | unnamed h => exact .unnamed (hpath.trans h)
    | named h hg => exact .named (hpath.trans h) hg

/-- A list of a request changes no other line of the header. -/
theorem header_narrow_congr {r r' : Request} {f : Field} (h : ∀ f', f' ≠ f → r'.list f' = r.list f')
    (every : Duration) (d : Option Duration) {i : Nat} (hi : i ≠ headerLine f) :
    (WatchPlan.mk (r'.narrow p).selection every d).header[i]? =
      (WatchPlan.mk (r.narrow p).selection every d).header[i]? := by
  obtain ⟨loads, windows, kinds⟩ := r
  obtain ⟨loads', windows', kinds'⟩ := r'
  have hloads : f ≠ .loadWindows → loads' = loads := fun hne => h .loadWindows hne.symm
  have hwindows : f ≠ .windows → windows' = windows := fun hne => h .windows hne.symm
  have hkinds : f ≠ .kinds → kinds' = kinds := fun hne => h .kinds hne.symm
  cases f with
  | loadWindows =>
    obtain rfl := hwindows nofun
    obtain rfl := hkinds nofun
    obtain _ | _ | i := i
    · rfl
    · exact absurd rfl hi
    · rfl
  | windows =>
    obtain rfl := hloads nofun
    obtain rfl := hkinds nofun
    obtain _ | _ | _ | i := i
    · rfl
    · rfl
    · exact absurd rfl hi
    · rfl
  | kinds =>
    obtain rfl := hloads nofun
    obtain rfl := hwindows nofun
    obtain _ | _ | _ | _ | i := i
    · rfl
    · rfl
    · rfl
    · exact absurd rfl hi
    · rfl

theorem Answers.out_withFlag {f : Field} {text? : Option String} {out out' : Output} (h : Answers o p file out)
    (h' : Answers (o.withFlag f text?) p file out') (hcode : out.code = 0) (hcode' : out'.code = 0) {i : Nat}
    (hi : i ≠ headerLine f) : out'.out[i]? = out.out[i]? := by
  obtain ⟨every, d, g, hevery, hd, hg, hout⟩ := h.header_of_code hcode
  obtain ⟨every', d', g', hevery', hd', hg', hout'⟩ := h'.header_of_code hcode'
  obtain rfl : g' = g := (fileLayer_withFlag.1 hg').unique hg
  have htimes : (o.withFlag f text?).exportEvery = o.exportEvery ∧ (o.withFlag f text?).duration = o.duration := by
    cases f <;> exact ⟨rfl, rfl⟩
  rw [htimes.1, hevery] at hevery'
  rw [htimes.2, hd] at hd'
  obtain rfl : every = every' := Except.ok.inj hevery'
  obtain rfl : d = d' := Option.map_injective (fun _ _ h => Except.ok.inj h) hd'
  rw [hout, hout']
  exact header_narrow_congr (fun f' hne => list_layered_withFlag hne text?) every d hi

end Layers

/-- **The layers of a request to watch.** The first failure that applies is printed, or else the header of what the
layers select; one list on the command line changes no other. -/
theorem output_watch (o : WatchOptions) (t : PlatformTable) (file : String → Except FileFault ByteArray) :
    let output := fun o : WatchOptions => (Command.watch o).output t file
    (∀ out, output o = out ↔ Answers o t.current file out) ∧
    (∀ (path : String) (v : Json.Value) (s : String), o.configPath = some path → file path = .ok s.toUTF8 →
      Json.Writes (.item v) s.toList →
      (∀ g, FileLayer o file g ↔ Request.Lists v g) ∧
      ((∃ e, Request.ofFile (file path) = .error e) ↔ ∀ g, ¬Request.Lists v g)) ∧
    ∀ f text?,
      (∀ g f', f' ≠ f → (layered (o.withFlag f text?) g).list f' = (layered o g).list f') ∧
      ∀ i, i ≠ headerLine f → (output o).code = 0 → (output (o.withFlag f text?)).code = 0 →
        (output (o.withFlag f text?)).out[i]? = (output o).out[i]? := by
  intro output
  have hanswers : ∀ o out, output o = out ↔ Answers o t.current file out := fun o out => answers_iff (o := o)
  refine ⟨hanswers o, fun path v s hpath hfile hv => ?_, fun f text? => ⟨fun g f' hne => ?_, ?_⟩⟩
  · have hgives : ∀ g, Request.Gives (file path) g ↔ Request.Lists v g := fun g => by
      rw [hfile]
      exact Request.gives_iff hv
    refine ⟨fun g => ?_, ?_⟩
    · rw [← hgives]
      exact FileLayer.iff_gives hpath
    · simp only [← hgives]
      exact Request.exists_ofFile_eq_error_iff
  · exact list_layered_withFlag hne text?
  · intro i hi hcode hcode'
    exact ((hanswers o _).1 rfl).out_withFlag ((hanswers (o.withFlag f text?) _).1 rfl) hcode hcode' hi

/-- Three lists, each from another layer; and a file that cannot be loaded. -/
theorem output_watch_of_three_layers :
    let file : String → Except FileFault ByteArray := fun path =>
      .ok (if path = "mixed.json" then Request.mixedText.toUTF8 else Request.twiceText.toUTF8)
    let o : WatchOptions := ⟨some "mixed.json", none, some "avg5, 2", none, "60s", some "2m"⟩
    let twice : WatchOptions := ⟨some "twice.json", some "1", some "1", some "user", "60s", none⟩
    let output := fun o : WatchOptions => (Command.watch o).output .builtin file
    output o = ⟨0, ["Watching CPU", "  Load:      avg1", "  Windows:   avg2, avg5", "  Types:     user",
      "  Export:    every 60s", "  Duration:  120s"], ["Warning: unknown utilization metric '😀'"]⟩ ∧
    (output (o.withFlag .loadWindows (some ""))).out[1]? = some "  Load:      (none)" ∧
    (output (o.withFlag .loadWindows (some ""))).out[2]? = some "  Windows:   avg2, avg5" ∧
    (output twice).code = 1 ∧ (output twice).out = [] := by
  intro file o twice output
  let g : Given := ⟨none, some [], some ["user", "😀"]⟩
  have hmixed : Request.Lists Request.mixedDocument g := .object fun f => by
    cases f with
    | loadWindows => exact .inl ⟨rfl, rfl⟩
    | windows => exact .inr ⟨[], rfl, rfl⟩
    | kinds => exact .inr ⟨["user", "😀"], rfl, rfl⟩
  have htwice : ∀ g, ¬Request.Lists Request.twiceDocument g := fun g hg => by
    cases hg with
    | object h =>
      obtain ⟨hnone, -⟩ | ⟨l, hone, -⟩ := h .windows
      · cases hnone
      · have hlen : 2 = 1 := congrArg List.length hone
        cases hlen
  have hlayer : FileLayer o file g :=
    (((output_watch o .builtin file).2.1 "mixed.json" Request.mixedDocument Request.mixedText rfl rfl
      Request.writes_mixedDocument).1 g).2 hmixed
  have hminute : Duration.ofText "60s" = .ok (.ofSeconds 60) := rfl
  have hminutes : Duration.ofText "2m" = .ok (.ofSeconds 120) := rfl
  have hmixedOutput : output o = _ := ((output_watch o .builtin file).1 _).2
    (.header (d := some (.ofSeconds 120)) hminute (congrArg some hminutes) hlayer (.inl (by decide +kernel)))
  have hblank : output (o.withFlag .loadWindows (some "")) = _ :=
    ((output_watch (o.withFlag .loadWindows (some "")) .builtin file).1 _).2
      (.header (d := some (.ofSeconds 120)) hminute (congrArg some hminutes) (fileLayer_withFlag.2 hlayer)
        (.inr (by decide +kernel)))
  obtain ⟨hanswers, hdocument, -⟩ := output_watch twice .builtin file
  obtain ⟨e, he⟩ := (hdocument "twice.json" Request.twiceDocument Request.twiceText rfl rfl
    Request.writes_twiceDocument).2.2 htwice
  have hfails : output twice = failing [] (e.message "twice.json") :=
    (hanswers _).2 (.file (d := none) hminute rfl rfl he)
  refine ⟨?_, ?_, ?_, ?_, ?_⟩
  · rw [hmixedOutput]
    decide +kernel
  · rw [hblank]
    decide +kernel
  · rw [hblank]
    decide +kernel
  · rw [hfails]
    rfl
  · rw [hfails]
    rfl

end CommandLine

end CpuMonitor
