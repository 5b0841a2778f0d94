import CpuMonitor.Proofs.Host.StatCores
import CpuMonitor.Proofs.Watcher.Utilization

/-!
# Core numbers of `/proc/stat` in a sample

The lines of cores carry numbers, and a system with cores offline leaves some out. Only the order of the numbers goes
into a sample: the values of a core stand under its place among them.

* `coreLines`, `coreNumbers` : the lines of cores and their numbers, in text order.
* `seconds?` : the time that a text tells of a kind for the core of a number.
* `cores_of_read` : the cores behind the times that are read.
* `place` : how many numbers are smaller than one; it is the number itself if none is left out (`place_eq_self`).
* `values_of_read` : the values of a sample by the lines of the text.
* `not_core_of_number` : they are not always those of the cores with these numbers.
-/

set_option autoImplicit false

namespace CpuMonitor.ProcStat

/-! ## Lines of cores -/

/-- The number in the label of a core's line, and the words behind the label. -/
def coreLine? (line : List Char) : Option (Nat × List (List Char)) :=
  match Text.words line with
  | [] => none
  | label :: fields => (coreOf? label).map fun index => (index, fields)

def coreLines (text : String) : List (Nat × List (List Char)) := (text.toList.splitOn '\n').filterMap coreLine?

def coreNumbers (text : String) : List Nat := (coreLines text).map Prod.fst

def ticks? (fields : List (List Char)) (k : Kind) : Option Binary64 :=
  match fields[column k]? with
  | none => some (.zero false)
  | some word => Binary64.read? word

/-- The ticks of a kind in the line of a core, of which `frequency` make a second. -/
def seconds? (text : String) (frequency : Binary64) (k : Kind) (index : Nat) : Option Binary64 :=
  ((coreLines text).lookup index).bind fun fields => (ticks? fields k).map (· / frequency)

section CoreLine
variable {frequency : Binary64} {line : List Char}

theorem coreLine?_eq_some_iff {index : Nat} {fields : List (List Char)} :
    coreLine? line = some (index, fields) ↔ ∃ label, CoreLine line label index fields := by
  constructor
  · intro h
    unfold coreLine? at h
    split at h
    · cases h
    · next label _ hwords =>
      obtain ⟨_, hindex, heq⟩ := Option.map_eq_some_iff.1 h
      cases heq
      exact ⟨label, Text.words_eq_iff.1 hwords, coreOf?_eq_some_iff.1 hindex⟩
  · rintro ⟨label, hcore⟩
    unfold coreLine?
    rw [hcore.worded.words_eq]
    exact Option.map_eq_some_iff.2 ⟨index, coreOf?_eq_some_iff.2 hcore.labels, rfl⟩

theorem coreLine?_eq_none (h : lineOf frequency line = none) : coreLine? line = none := by
  refine Option.eq_none_iff_forall_ne_some.2 fun (index, fields) hcore => ?_
  obtain ⟨label, hcore⟩ := coreLine?_eq_some_iff.1 hcore
  exact (lineOf_eq_none_iff frequency).1 h ⟨label, index, fields, hcore⟩

theorem ticks?_of_valid {fields : List (List Char)} {ticks : List Binary64}
    (valid : fields.map Binary64.read? = ticks.map some) (k : Kind) :
    ticks? fields k = some (ticks[column k]?.getD (.zero false)) := by
  have hplace : (fields[column k]?).map Binary64.read? = (ticks[column k]?).map some := by
    rw [← List.getElem?_map, ← List.getElem?_map, valid]
  unfold ticks?
  cases hf : fields[column k]? with
  | none =>
    rw [hf] at hplace
    rw [Option.map_eq_none_iff.1 hplace.symm]
    rfl
  | some word =>
    rw [hf] at hplace
    obtain ⟨t, ht, hw⟩ := Option.map_eq_some_iff.1 hplace.symm
    rw [ht]
    exact hw.symm

theorem coreLine?_of_lineOf {index : Nat} {t : CpuTimes} (h : lineOf frequency line = some (.ok (index, t))) :
    ∃ fields, coreLine? line = some (index, fields) ∧ ∀ k, (ticks? fields k).map (· / frequency) = some (t.get k) := by
  have hcore : IsCoreLine line := by
    refine Decidable.not_not.1 fun hno => ?_
    rw [(lineOf_eq_none_iff frequency).2 hno] at h
    cases h
  obtain ⟨label, _, fields, hcore⟩ := hcore
  rcases valid_or_invalid fields with ⟨ticks, valid⟩ | invalid
  · by_cases few : fields.length < 4
    · cases h.symm.trans (hcore.lineOf_of_few frequency valid few)
    · have hlength := length_of_valid valid
      cases h.symm.trans (hcore.lineOf_of_valid frequency valid (by omega))
      refine ⟨fields, coreLine?_eq_some_iff.2 ⟨label, hcore⟩, fun k => ?_⟩
      rw [ticks?_of_valid valid, timesOf, CpuTimes.get_ofFn]
      rfl
  · cases h.symm.trans (hcore.lineOf_of_invalid frequency invalid)

theorem coreLines_of_gather {lines : List (List Char)} {cores : List (Nat × CpuTimes)}
    (h : gather frequency lines = .ok cores) :
    (lines.filterMap coreLine?).map Prod.fst = cores.map Prod.fst ∧
      ∀ core ∈ cores, ∃ fields, (core.1, fields) ∈ lines.filterMap coreLine? ∧
        ∀ k, (ticks? fields k).map (· / frequency) = some (core.2.get k) := by
  induction lines generalizing cores with
  | nil =>
    cases h
    exact ⟨rfl, fun _ h => absurd h List.not_mem_nil⟩
  | cons line lines ih =>
    cases hline : lineOf frequency line with
    | none =>
      rw [gather_cons_of_none frequency lines hline] at h
      rw [List.filterMap_cons_none (coreLine?_eq_none hline)]
      exact ih h
    | some told =>
      cases told with
      | error fault =>
        rw [gather_cons_of_error frequency lines hline] at h
        cases h
      | ok core =>
        rw [gather_cons_of_ok frequency lines hline] at h
        cases hrest : gather frequency lines with
        | error fault =>
          rw [hrest] at h
          cases h
        | ok rest =>
          rw [hrest] at h
          cases h
          obtain ⟨fields, hfields, ht⟩ := coreLine?_of_lineOf hline
          obtain ⟨hnumbers, hlines⟩ := ih hrest
          rw [List.filterMap_cons_some hfields]
          refine ⟨by rw [List.map_cons, List.map_cons, hnumbers], fun core' hcore => ?_⟩
          rcases List.mem_cons.1 hcore with rfl | hcore
          · exact ⟨fields, List.mem_cons_self, ht⟩
          · obtain ⟨fields', hmem, h'⟩ := hlines core' hcore
            exact ⟨fields', List.mem_cons_of_mem _ hmem, h'⟩

end CoreLine

theorem lookup_eq_some_of_mem {β : Type} {a : Nat} {b : β} :
    ∀ {l : List (Nat × β)}, (l.map Prod.fst).Nodup → (a, b) ∈ l → l.lookup a = some b
  | (c, d) :: l, hl, h => by
    obtain ⟨hc, hl⟩ := List.nodup_cons.1 hl
    rcases List.mem_cons.1 h with heq | hmem
    · cases heq
      exact List.lookup_cons_self
    · have hne : a ≠ c := by
        rintro rfl
        exact hc (List.mem_map.2 ⟨_, hmem, rfl⟩)
      rw [List.lookup_cons, beq_false_of_ne hne]
      exact lookup_eq_some_of_mem hl hmem

theorem cores_of_read {text : String} {frequency : Binary64} {times : List CpuTimes}
    (h : read text frequency = .ok times) (distinct : (coreNumbers text).Nodup) :
    ∃ cores, times = inOrder cores ∧ cores ≠ [] ∧ cores.map Prod.fst = coreNumbers text ∧
      ∀ core ∈ cores, ∀ k, seconds? text frequency k core.1 = some (core.2.get k) := by
  rw [read_eq] at h
  cases hgather : gather frequency (text.toList.splitOn '\n') with
  | error fault =>
    rw [hgather] at h
    cases h
  | ok cores =>
    rw [hgather] at h
    replace h : (if cores.isEmpty = true then .error Fault.noCores else .ok (inOrder cores)) = Except.ok times := h
    split at h
    · cases h
    · next hne =>
      cases h
      obtain ⟨hnumbers, hlines⟩ := coreLines_of_gather hgather
      refine ⟨cores, rfl, fun h => hne (List.isEmpty_iff.2 h), hnumbers.symm, fun core hcore k => ?_⟩
      obtain ⟨fields, hmem, ht⟩ := hlines core hcore
      unfold seconds?
      rw [lookup_eq_some_of_mem distinct hmem]
      exact ht k

/-! ## Places of numbers -/

/-- How many numbers of a list are smaller than one. -/
def place (numbers : List Nat) (index : Nat) : Nat := numbers.countP fun i => decide (i < index)

section Place
variable {numbers : List Nat} (distinct : numbers.Nodup)
include distinct

theorem countP_le_length {p : Nat → Bool} {l : List Nat} (h : ∀ i ∈ numbers, p i = true → i ∈ l) :
    numbers.countP p ≤ l.length := by
  have hfilter : (numbers.filter p).Nodup := distinct.filter p
  rw [List.countP_eq_length_filter]
  exact hfilter.length_le_of_subset fun i hi => h i (List.mem_filter.1 hi).1 (List.mem_filter.1 hi).2

/-- If no number is left out, each is its own place. -/
theorem place_eq_self (gapless : ∀ i ∈ numbers, i < numbers.length) {index : Nat} (h : index ∈ numbers) :
    place numbers index = index := by
  have hbelow : numbers.countP (fun i => decide (i < index)) ≤ (List.range index).length :=
    countP_le_length distinct fun i _ hi => List.mem_range.2 (of_decide_eq_true hi)
  have habove : numbers.countP (fun i => decide ¬decide (i < index) = true) ≤
      (List.range' index (numbers.length - index)).length := by
    refine countP_le_length distinct fun i hi hge => ?_
    have := gapless i hi
    have hge : index ≤ i := by simpa using hge
    rw [List.mem_range'_1]
    omega
  have hall := List.length_eq_countP_add_countP (fun i => decide (i < index)) (l := numbers)
  have hindex := gapless index h
  rw [List.length_range] at hbelow
  rw [List.length_range'] at habove
  unfold place
  omega

theorem mem_of_gapless (gapless : ∀ i ∈ numbers, i < numbers.length) {index : Nat} (h : index < numbers.length) :
    index ∈ numbers := by
  refine Decidable.byContradiction fun hout => ?_
  -- with it they would be more than there are natural numbers below their count
  have hsub : index :: numbers ⊆ List.range numbers.length := by
    intro i hi
    rcases List.mem_cons.1 hi with rfl | hi
    · exact List.mem_range.2 h
    · exact List.mem_range.2 (gapless i hi)
  have hlen := (List.nodup_cons.2 ⟨hout, distinct⟩).length_le_of_subset hsub
  rw [List.length_range, List.length_cons] at hlen
  omega

end Place

/-- In order, a core stands behind those with smaller numbers. -/
theorem getElem?_inOrder {cores : List (Nat × CpuTimes)} (distinct : (cores.map Prod.fst).Nodup)
    {core : Nat × CpuTimes} (h : core ∈ cores) :
    (inOrder cores)[place (cores.map Prod.fst) core.1]? = some core.2 := by
  rw [inOrder_eq]
  -- sorted, the distinct numbers ascend strictly, so the place of one is the number of smaller ones
  generalize hsorted : byNumber cores = sorted
  have hperm : sorted.Perm cores := hsorted ▸ byNumber_perm cores
  have hle : sorted.Pairwise fun a b => a.1 ≤ b.1 := hsorted ▸ pairwise_byNumber cores
  have hnumbers := hperm.map Prod.fst
  have hlt : (sorted.map Prod.fst).Pairwise (· < ·) := by
    have hne := List.pairwise_map.1 (hnumbers.nodup_iff.2 distinct)
    rw [List.pairwise_map]
    exact (hle.and hne).imp fun h => Nat.lt_of_le_of_ne h.1 h.2
  obtain ⟨n, hn⟩ := List.mem_iff_getElem?.1 (hperm.mem_iff.2 h)
  have hplace : place (cores.map Prod.fst) core.1 = n := by
    unfold place
    rw [← hnumbers.countP_eq]
    refine countP_eq_of_getElem? Nat.lt_asymm hlt ?_
    rw [List.getElem?_map, hn]
    rfl
  rw [hplace, List.getElem?_map, hn]
  rfl

/-! ## Values of a sample -/

section Read
variable {text : String} {frequency : Binary64} {times : List CpuTimes} (h : read text frequency = .ok times)
  (distinct : (coreNumbers text).Nodup)
include h distinct

theorem length_of_read : times.length = (coreNumbers text).length ∧ times ≠ [] := by
  obtain ⟨cores, rfl, hne, hnumbers, -⟩ := cores_of_read h distinct
  have hlen : (inOrder cores).length = (coreNumbers text).length := by
    rw [length_inOrder, ← hnumbers, List.length_map]
  refine ⟨hlen, fun hnil => hne ?_⟩
  rw [← List.length_eq_zero_iff, ← length_inOrder, hnil]
  rfl

theorem getElem?_of_read {index : Nat} (hi : index ∈ coreNumbers text) :
    ∃ t, times[place (coreNumbers text) index]? = some t ∧ ∀ k, seconds? text frequency k index = some (t.get k) := by
  obtain ⟨cores, rfl, -, hnumbers, hseconds⟩ := cores_of_read h distinct
  rw [← hnumbers] at distinct hi ⊢
  obtain ⟨core, hcore, rfl⟩ := List.mem_map.1 hi
  exact ⟨core.2, getElem?_inOrder distinct hcore, hseconds core hcore⟩

theorem isSome_seconds?_iff (k : Kind) (index : Nat) :
    (seconds? text frequency k index).isSome = true ↔ index ∈ coreNumbers text := by
  constructor
  · intro hs
    unfold seconds? at hs
    cases hl : (coreLines text).lookup index with
    | none =>
      rw [hl] at hs
      cases hs
    | some fields =>
      obtain ⟨l₁, l₂, heq, -⟩ := List.lookup_eq_some_iff.1 hl
      exact List.mem_map.2 ⟨(index, fields), by rw [heq]; simp, rfl⟩
  · intro hi
    obtain ⟨t, -, ht⟩ := getElem?_of_read h distinct hi
    rw [ht k]
    rfl

end Read

theorem get?_sampleValues (times : List CpuTimes) (kinds : OrderedSet Kind) (k : Kind) (p : Nat) :
    (sampleValues times kinds).get? ⟨k, .core p⟩ = if k ∈ kinds then times[p]?.map (·.get k) else none :=
  Reading.get?_snapshot ⟨⟨0⟩, times⟩ kinds k (.core p)

/-- **The cores of a sample** have the numbers of the text if and only if these leave none out. -/
theorem values_of_read {text : String} {frequency : Binary64} {times : List CpuTimes}
    (h : read text frequency = .ok times) (distinct : (coreNumbers text).Nodup) (kinds : OrderedSet Kind) :
    let numbers := coreNumbers text
    let values := sampleValues times kinds
    times ≠ [] ∧
      (∀ k p, (values.get? ⟨k, .core p⟩).isSome = true ↔ k ∈ kinds ∧ p < numbers.length) ∧
      (∀ k ∈ kinds, ∀ i ∈ numbers, ∃ v, seconds? text frequency k i = some v ∧
        values.get? ⟨k, .core (place numbers i)⟩ = some v) ∧
      ∀ k ∈ kinds, (∀ i, values.get? ⟨k, .core i⟩ = seconds? text frequency k i) ↔
        ∀ i ∈ numbers, i < numbers.length := by
  intro numbers values
  obtain ⟨hlen, hne⟩ := length_of_read h distinct
  have hsome : ∀ k p, (values.get? ⟨k, .core p⟩).isSome = true ↔ k ∈ kinds ∧ p < numbers.length := by
    intro k p
    rw [get?_sampleValues]
    split
    · next hk =>
      rw [Option.isSome_map, isSome_getElem?, hlen]
      exact (and_iff_right hk).symm
    · next hk => exact iff_of_false Bool.false_ne_true fun h => hk h.1
  have hplace : ∀ k ∈ kinds, ∀ i ∈ numbers, ∃ v, seconds? text frequency k i = some v ∧
      values.get? ⟨k, .core (place numbers i)⟩ = some v := by
    intro k hk i hi
    obtain ⟨t, hget, ht⟩ := getElem?_of_read h distinct hi
    refine ⟨t.get k, ht k, ?_⟩
    rw [get?_sampleValues, if_pos hk, hget]
    rfl
  refine ⟨hne, hsome, hplace, fun k hk => ⟨fun hsame i hi => ?_, fun gapless i => ?_⟩⟩
  · refine ((hsome k i).1 ?_).2
    rw [hsame i]
    exact (isSome_seconds?_iff h distinct k i).2 hi
  · by_cases hi : i < numbers.length
    · have hmem := mem_of_gapless distinct gapless hi
      obtain ⟨v, hv, hget⟩ := hplace k hk i hmem
      rw [place_eq_self distinct gapless hmem] at hget
      rw [hget, hv]
    · -- neither the sample nor the text has a core with such a number
      have hvalue : values.get? ⟨k, .core i⟩ = none :=
        Option.not_isSome_iff_eq_none.1 fun hs => hi ((hsome k i).1 hs).2
      have hseconds : seconds? text frequency k i = none :=
        Option.not_isSome_iff_eq_none.1 fun hs => hi (gapless i ((isSome_seconds?_iff h distinct k i).1 hs))
      rw [hvalue, hseconds]

/-- The second of three cores is offline. -/
def offlineText : String := "cpu0 1 1 1 1 1 1 1 1\ncpu2 3 3 3 3 3 3 3 3\n"

theorem read_offlineText : read offlineText (.ofNat 1) = .ok (Watcher.coresOf [1, 3]) := by
  let cores : List (Nat × CpuTimes) := [0, 2].zip (Watcher.coresOf [1, 3])
  have hsorted : cores.Pairwise fun a b => decide (a.1 ≤ b.1) = true := by decide
  have hcores : (((offlineText.toList.splitOn '\n').filterMap (lineOf (.ofNat 1))).mapM id).toOption = some cores := by
    decide +kernel
  unfold read
  cases hm : ((offlineText.toList.splitOn '\n').filterMap (lineOf (.ofNat 1))).mapM id with
  | error e =>
    rw [hm] at hcores
    cases hcores
  | ok cores' =>
    rw [hm] at hcores
    cases hcores
    show Except.ok (inOrder cores) = _
    unfold inOrder
    rw [List.mergeSort_of_pairwise hsorted]
    rfl

theorem values_of_read_offline :
    let kinds : OrderedSet Kind := .ofList [.user]
    let values := sampleValues (Watcher.coresOf [1, 3]) kinds
    read offlineText (.ofNat 1) = .ok (Watcher.coresOf [1, 3]) ∧ (coreNumbers offlineText).Nodup ∧ .user ∈ kinds ∧
      coreNumbers offlineText = [0, 2] ∧ values.get? ⟨.user, .core 1⟩ = some (.ofNat 3) ∧
      ¬ (values.get? ⟨.user, .core 2⟩).isSome = true := by
  intro kinds values
  have distinct : (coreNumbers offlineText).Nodup := by decide +kernel
  have huser : .user ∈ kinds := by decide
  have hnumbers : coreNumbers offlineText = [0, 2] := by decide +kernel
  have hthree : seconds? offlineText (.ofNat 1) .user 2 = some (.ofNat 3) := by decide +kernel
  obtain ⟨-, hsome, hplace, -⟩ := values_of_read read_offlineText distinct kinds
  obtain ⟨v, hv, hget⟩ := hplace .user huser 2 (by rw [hnumbers]; decide)
  refine ⟨read_offlineText, distinct, huser, hnumbers, ?_, fun h => ?_⟩
  · rw [hthree] at hv
    rw [hnumbers] at hget
    exact hget.trans hv.symm
  · have hlt := ((hsome .user 2).1 h).2
    rw [hnumbers] at hlt
    exact absurd hlt (by decide)

/-- The sample has no core `2`, for which the text has a line. -/
theorem not_core_of_number :
    ¬ ∀ (text : String) (frequency : Binary64) (times : List CpuTimes), read text frequency = .ok times →
      (coreNumbers text).Nodup → ∀ (kinds : OrderedSet Kind) (k : Kind) (i : Nat),
        (((sampleValues times kinds).get? ⟨k, .core i⟩).isSome = true ↔ k ∈ kinds ∧ i ∈ coreNumbers text) ∧
          ∀ v, (sampleValues times kinds).get? ⟨k, .core i⟩ = some v → seconds? text frequency k i = some v := by
  intro h
  obtain ⟨hkey, -⟩ := h offlineText (.ofNat 1) _ read_offlineText (by decide +kernel) (.ofList [.user]) .user 2
  have hsome := hkey.2 ⟨by decide, by decide +kernel⟩
  exact absurd hsome (by decide +kernel)

end CpuMonitor.ProcStat
