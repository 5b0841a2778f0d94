import CpuMonitor.Proofs.Host.StatLines
import Mathlib.Data.List.Forall2
import Mathlib.Data.List.Nodup

/-!
# The cores that `/proc/stat` tells

What is read of a text without faults.

* `Line`, `Line.Writes`, `Written` : what lines tell, the ways to write them, and the texts that are made of lines.
* `byNumber` : pairs in the order of their numbers, and in their old order where these are the same.
* `read_written` : the times of the cores of a text, in this order.
* `cores_of_written` : the same, column by column, and which changes of a text leave it as it is.
-/

set_option autoImplicit false

namespace CpuMonitor.ProcStat

/-! ## Texts of lines -/

/-- What a line tells. -/
inductive Line where
  | core (index : Nat) (ticks : List Binary64)
  | other

/-- The ways to write a line. -/
inductive Line.Writes : Line → List Char → Prop where
  | core {line label : List Char} {index : Nat} {fields : List (List Char)} {ticks : List Binary64}
      (core : CoreLine line label index fields) (valid : fields.map Binary64.read? = ticks.map some)
      (enough : 4 ≤ ticks.length) : Writes (.core index ticks) line
  | other {line : List Char} (other : ¬ IsCoreLine line) : Writes .other line

/-- A text of these lines. -/
def Written (lines : List Line) (text : String) : Prop :=
  ∃ texts, text.toList = ['\n'].intercalate texts ∧ (∀ t ∈ texts, '\n' ∉ t) ∧ List.Forall₂ Line.Writes lines texts

def Line.core? : Line → Option (Nat × List Binary64)
  | .core index ticks => some (index, ticks)
  | .other => none

def coresOf (lines : List Line) : List (Nat × List Binary64) := lines.filterMap Line.core?

def timed (frequency : Binary64) (core : Nat × List Binary64) : Nat × CpuTimes := (core.1, timesOf frequency core.2)

section Written
variable {lines : List Line} (frequency : Binary64)

theorem gather_written {texts : List (List Char)} (h : List.Forall₂ Line.Writes lines texts) :
    gather frequency texts = .ok ((coresOf lines).map (timed frequency)) := by
  induction h with
  | nil => rfl
  | cons hline _ ih =>
    cases hline with
    | core core valid enough =>
      rw [gather_cons_of_ok frequency _ (core.lineOf_of_valid frequency valid enough), ih]
      rfl
    | other other => rw [gather_cons_of_none frequency _ ((lineOf_eq_none_iff frequency).2 other), ih]; rfl

theorem read_written {text : String} (h : Written lines text) (hne : coresOf lines ≠ []) :
    read text frequency = .ok (inOrder ((coresOf lines).map (timed frequency))) := by
  obtain ⟨texts, htext, hnewline, hlines⟩ := h
  have hsplit : text.toList.splitOn '\n' = texts := by
    rw [htext]
    refine List.splitOn_intercalate '\n' hnewline ?_
    rintro rfl
    cases hlines
    exact hne rfl
  rw [read_eq, hsplit, gather_written frequency hlines]
  exact if_neg (by simpa using hne)

end Written

/-! ## Order -/

section Order
variable {α β : Type}

/-- In the order of the numbers, and those of one number in their old order. -/
def byNumber (l : List (Nat × α)) : List (Nat × α) := l.mergeSort fun a b => decide (a.1 ≤ b.1)

theorem inOrder_eq (cores : List (Nat × CpuTimes)) : inOrder cores = (byNumber cores).map Prod.snd := rfl

theorem byNumber_perm (l : List (Nat × α)) : (byNumber l).Perm l := List.mergeSort_perm _ _

theorem number_trans (a b c : Nat × α) :
    decide (a.1 ≤ b.1) = true → decide (b.1 ≤ c.1) = true → decide (a.1 ≤ c.1) = true := by
  simp only [decide_eq_true_eq]
  omega

theorem number_total (a b : Nat × α) : (decide (a.1 ≤ b.1) || decide (b.1 ≤ a.1)) = true := by
  simp only [Bool.or_eq_true, decide_eq_true_eq]
  omega

theorem pairwise_byNumber (l : List (Nat × α)) : (byNumber l).Pairwise fun a b => a.1 ≤ b.1 :=
  (List.pairwise_mergeSort number_trans number_total l).imp of_decide_eq_true

theorem filter_byNumber (l : List (Nat × α)) (i : Nat) :
    (byNumber l).filter (fun a => a.1 == i) = l.filter (fun a => a.1 == i) := by
  have hsame : (l.filter fun a => a.1 == i).Pairwise fun a b => decide (a.1 ≤ b.1) = true := by
    refine List.pairwise_of_forall_mem_list fun a ha b hb => ?_
    have hi := (List.mem_filter.1 ha).2
    have hi' := (List.mem_filter.1 hb).2
    simp only [beq_iff_eq] at hi hi'
    simp [hi, hi']
  have hsub : (l.filter fun a => a.1 == i).Sublist (byNumber l) :=
    List.sublist_mergeSort number_trans number_total hsame List.filter_sublist
  have hfilter := hsub.filter fun a => a.1 == i
  rw [List.filter_filter] at hfilter
  simp only [Bool.and_self] at hfilter
  exact (hfilter.eq_of_length ((byNumber_perm l).filter _).length_eq.symm).symm

theorem map_byNumber (f : Nat × α → Nat × β) (hf : ∀ a, (f a).1 = a.1) (l : List (Nat × α)) :
    (byNumber l).map f = byNumber (l.map f) :=
  List.map_mergeSort fun a _ b _ => by rw [hf a, hf b]

/-- Pairs with distinct numbers have one order only. -/
theorem byNumber_congr {l m : List (Nat × α)} (h : l.Perm m) (distinct : (m.map Prod.fst).Nodup) :
    byNumber l = byNumber m := by
  have hperm : (byNumber l).Perm (byNumber m) := ((byNumber_perm l).trans h).trans (byNumber_perm m).symm
  refine hperm.eq_of_pairwise (fun a b ha hb hab hba => ?_) (pairwise_byNumber l) (pairwise_byNumber m)
  have ha' : a ∈ m := ((byNumber_perm l).trans h).mem_iff.1 ha
  have hb' : b ∈ m := (byNumber_perm m).mem_iff.1 hb
  exact List.inj_on_of_nodup_map distinct ha' hb' (Nat.le_antisymm hab hba)

end Order

/-! ## Columns -/

def columns : List Kind := [.user, .nice, .system, .idle, .iowait, .irq, .softirq, .steal]

theorem column_of_columns {n : Nat} {k : Kind} (h : columns[n]? = some k) : column k = n := by
  rcases n with _ | _ | _ | _ | _ | _ | _ | _ | n <;> cases h <;> rfl

theorem column_lt (k : Kind) : column k < 8 := by cases k <;> decide

/-- The ticks behind the eighth column are not used. -/
theorem timesOf_take (frequency : Binary64) (ticks : List Binary64) :
    timesOf frequency (ticks.take 8) = timesOf frequency ticks := by
  unfold timesOf
  congr 1
  funext k
  rw [List.getElem?_take_of_lt (column_lt k)]

def used (core : Nat × List Binary64) : Nat × List Binary64 := (core.1, core.2.take 8)

theorem timed_used (frequency : Binary64) (core : Nat × List Binary64) :
    timed frequency (used core) = timed frequency core := by
  unfold timed used
  rw [timesOf_take]

/-- **The cores of a text** come in the order of their numbers, with their columns over the frequency; no other line
matters. -/
theorem cores_of_written {lines : List Line} {text : String} (written : Written lines text)
    (hne : coresOf lines ≠ []) (frequency : Binary64) :
    (∃ sorted times, read text frequency = .ok times ∧
      sorted.Perm (coresOf lines) ∧ sorted.Pairwise (fun a b => a.1 ≤ b.1) ∧
      (∀ i, sorted.filter (fun a => a.1 == i) = (coresOf lines).filter (fun a => a.1 == i)) ∧
      List.Forall₂ (fun (core : Nat × List Binary64) (t : CpuTimes) => ∀ (n : Nat) k, columns[n]? = some k →
        t.get k = core.2[n]?.getD (.zero false) / frequency) sorted times) ∧
    (((coresOf lines).map Prod.fst).Nodup → ∀ lines' text', Written lines' text' →
      ((coresOf lines').map used).Perm ((coresOf lines).map used) → read text' frequency = read text frequency) := by
  have hread := read_written frequency written hne
  constructor
  · refine ⟨byNumber (coresOf lines), _, hread, byNumber_perm _, pairwise_byNumber _, filter_byNumber _, ?_⟩
    rw [inOrder_eq, ← map_byNumber (timed frequency) (fun _ => rfl), List.map_map, List.forall₂_map_right_iff,
      List.forall₂_same]
    intro core _ n k hk
    show (timesOf frequency core.2).get k = _
    rw [timesOf, CpuTimes.get_ofFn, column_of_columns hk]
  · intro distinct lines' text' written' hperm
    have hne' : coresOf lines' ≠ [] := by
      rintro hnil
      rw [hnil] at hperm
      exact hne (List.map_eq_nil_iff.1 hperm.symm.eq_nil)
    have htimed : ((coresOf lines').map (timed frequency)).Perm ((coresOf lines).map (timed frequency)) := by
      have hmap := hperm.map (timed frequency)
      simp only [List.map_map] at hmap
      simpa only [Function.comp_def, timed_used] using hmap
    have hnumbers : (((coresOf lines).map (timed frequency)).map Prod.fst).Nodup := by
      rw [List.map_map]
      exact distinct
    rw [hread, read_written frequency written' hne', inOrder_eq, inOrder_eq, byNumber_congr htimed hnumbers]

/-- Two cores out of order among other lines, and the same two in order without them. -/
theorem cores_of_written_of_two :
    let lines : List Line := [.other, .core 10 ([3, 0, 0, 0].map .ofNat), .other,
      .core 2 ([1, 2, 3, 4, 5, 6, 7, 8, 9, 10].map .ofNat), .other]
    let text := "cpu  9 9 9 9\ncpu10 3 0 0 0\nintr 5 x\n cpu2\t1 2 3 4  5 6 7 8 9 10\r\n"
    let lines' : List Line := [.core 2 ([1, 2, 3, 4, 5, 6, 7, 8].map .ofNat), .core 10 ([3, 0, 0, 0].map .ofNat)]
    let text' := "cpu+02 1 2 3 4 5 6 7 8\ncpu10 3 0 0 0"
    Written lines text ∧ Written lines' text' ∧ coresOf lines ≠ [] ∧
      (∃ times, read text (.ofNat 100) = .ok times ∧ times.length = 2) ∧
      read text' (.ofNat 100) = read text (.ofNat 100) := by
  intro lines text lines' text'
  have tenth : CoreLine "cpu10 3 0 0 0".toList "cpu10".toList 10 (["3", "0", "0", "0"].map String.toList) :=
    ⟨Text.words_eq_iff.1 (by decide +kernel), coreOf?_eq_some_iff.1 (by decide +kernel)⟩
  have second : CoreLine " cpu2\t1 2 3 4  5 6 7 8 9 10\r".toList "cpu2".toList 2
      (["1", "2", "3", "4", "5", "6", "7", "8", "9", "10"].map String.toList) :=
    ⟨Text.words_eq_iff.1 (by decide +kernel), coreOf?_eq_some_iff.1 (by decide +kernel)⟩
  have second' : CoreLine "cpu+02 1 2 3 4 5 6 7 8".toList "cpu+02".toList 2
      (["1", "2", "3", "4", "5", "6", "7", "8"].map String.toList) :=
    ⟨Text.words_eq_iff.1 (by decide +kernel), coreOf?_eq_some_iff.1 (by decide +kernel)⟩
  have written : Written lines text := by
    refine ⟨["cpu  9 9 9 9", "cpu10 3 0 0 0", "intr 5 x", " cpu2\t1 2 3 4  5 6 7 8 9 10\r", ""].map String.toList,
      by decide +kernel, by decide +kernel, ?_⟩
    exact .cons (.other (by decide +kernel)) (.cons (.core tenth (by decide +kernel) (by decide))
      (.cons (.other (by decide +kernel)) (.cons (.core second (by decide +kernel) (by decide))
        (.cons (.other (by decide +kernel)) .nil))))
  have written' : Written lines' text' := by
    refine ⟨["cpu+02 1 2 3 4 5 6 7 8", "cpu10 3 0 0 0"].map String.toList, by decide +kernel, by decide +kernel, ?_⟩
    exact .cons (.core second' (by decide +kernel) (by decide)) (.cons (.core tenth (by decide +kernel) (by decide)) .nil)
  have hne : coresOf lines ≠ [] := nofun
  obtain ⟨⟨sorted, times, hread, hperm, -, -, htimes⟩, hsame⟩ := cores_of_written written hne (.ofNat 100)
  refine ⟨written, written', hne, ⟨times, hread, ?_⟩, hsame (by decide) lines' text' written' (by decide +kernel)⟩
  rw [← htimes.length_eq, hperm.length_eq]
  rfl

end CpuMonitor.ProcStat
