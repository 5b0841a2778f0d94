import CpuMonitor.Proofs.Series.Pruning
import Mathlib.Data.List.Chain

/-!
# How many snapshots a series holds

The retention bounds the size of a series when its snapshots keep some distance.

* `Spaced d l`, `Close d l`, `EvenlySpaced d l` : each snapshot of `l` is later than the one before it by at least, by at
  most and by exactly `d`.
* `Spaced.le_span`, `Close.span_le` : the time from the first snapshot to the last one, by their number.
* `length_retained_le`, `le_length_retained` : how many snapshots of a history are retained.
* `size_of_spaced` : the bound on the size of a series, and the size itself for snapshots at equal distances.
-/

set_option autoImplicit false

namespace CpuMonitor.TimeSeries
variable {κ : Type} [Ord κ] {d retention : Duration} {l : List (Snapshot κ)}

/-! ## Distances -/

def Apart (d : Duration) (a b : Snapshot κ) : Prop := (a.time + d : Instant) ≤ b.time

instance : Trans (Apart (κ := κ) d) (Apart d) (Apart d) where
  trans {a b c} hab hbc := by
    have hab' : a.time.nanoseconds + d.nanoseconds ≤ b.time.nanoseconds := hab
    have hbc' : b.time.nanoseconds + d.nanoseconds ≤ c.time.nanoseconds := hbc
    show a.time.nanoseconds + d.nanoseconds ≤ c.time.nanoseconds
    omega

/-- Each snapshot is later than the one before it by at least `d`. -/
def Spaced (d : Duration) (l : List (Snapshot κ)) : Prop := l.IsChain (Apart d)

def Close (d : Duration) (l : List (Snapshot κ)) : Prop := l.IsChain fun a b => b.time ≤ (a.time + d : Instant)

def EvenlySpaced (d : Duration) (l : List (Snapshot κ)) : Prop := l.IsChain fun a b => b.time = (a.time + d : Instant)

theorem EvenlySpaced.spaced (h : EvenlySpaced d l) : Spaced d l :=
  List.IsChain.imp (fun _ _ hab => Int.le_of_eq (congrArg Instant.nanoseconds hab).symm) h

theorem EvenlySpaced.close (h : EvenlySpaced d l) : Close d l :=
  List.IsChain.imp (fun _ _ hab => Int.le_of_eq (congrArg Instant.nanoseconds hab)) h

theorem Spaced.pairwise (h : Spaced d l) : l.Pairwise (Apart d) := List.isChain_iff_pairwise.1 h

theorem Spaced.inOrder (h : Spaced d l) : InOrder l :=
  h.pairwise.imp fun {a b} hab => by
    have hab' : a.time.nanoseconds + d.nanoseconds ≤ b.time.nanoseconds := hab
    show a.time.nanoseconds ≤ b.time.nanoseconds
    omega

/-- Snapshots that were left out leave larger distances. -/
theorem Spaced.filter (h : Spaced d l) (p : Snapshot κ → Bool) : Spaced d (l.filter p) :=
  (h.pairwise.sublist List.filter_sublist).isChain

theorem Spaced.le_span : ∀ {x : Snapshot κ} {l : List (Snapshot κ)}, Spaced d (x :: l) →
    x.time.nanoseconds + (l.length * d.nanoseconds : Nat) ≤ ((x :: l).getLast (List.cons_ne_nil x l)).time.nanoseconds
  | x, [], _ => by simp
  | x, y :: l, h => by
    obtain ⟨hxy, hl⟩ := List.isChain_cons_cons.1 h
    have hstep : x.time.nanoseconds + d.nanoseconds ≤ y.time.nanoseconds := hxy
    have ih := Spaced.le_span hl
    rw [List.getLast_cons_cons, List.length_cons, Nat.succ_mul]
    omega

theorem Close.span_le : ∀ {x : Snapshot κ} {l : List (Snapshot κ)}, Close d (x :: l) →
    ((x :: l).getLast (List.cons_ne_nil x l)).time.nanoseconds ≤ x.time.nanoseconds + (l.length * d.nanoseconds : Nat)
  | x, [], _ => by simp
  | x, y :: l, h => by
    obtain ⟨hxy, hl⟩ := List.isChain_cons_cons.1 h
    have hstep : y.time.nanoseconds ≤ x.time.nanoseconds + d.nanoseconds := hxy
    have ih := Close.span_le hl
    rw [List.getLast_cons_cons, List.length_cons, Nat.succ_mul]
    omega

/-! ## Retained snapshots -/

theorem getLast?_retained (d : Duration) (l : List (Snapshot κ)) : (retained d l).getLast? = l.getLast? := by
  rcases List.eq_nil_or_concat l with rfl | ⟨l, x, rfl⟩
  · rfl
  · rw [List.concat_eq_append, retained_concat, recent_concat_self, List.getLast?_concat, List.getLast?_concat]

/-- The retained snapshots are no more than the retention has room for. -/
theorem length_retained_le (pos : 0 < d.nanoseconds) (h : Spaced d l) :
    (retained retention l).length ≤ retention.nanoseconds / d.nanoseconds + 1 := by
  have hspaced : Spaced d (retained retention l) := h.filter _
  cases hkept : retained retention l with
  | nil => exact Nat.zero_le _
  | cons first rest =>
    have hlast : l.getLast? = some ((first :: rest).getLast (List.cons_ne_nil first rest)) := by
      rw [← getLast?_retained retention l, hkept, List.getLast?_eq_some_getLast]
    have hage := age_of_mem_retained (d := retention) hlast (hkept ▸ List.mem_cons_self)
    rw [Instant.since_le_iff] at hage
    rw [hkept] at hspaced
    have hspan := hspaced.le_span
    rw [List.length_cons, Nat.add_le_add_iff_right, Nat.le_div_iff_mul_le pos]
    omega

theorem le_length_retained (inOrder : InOrder l) (h : Close d l) :
    min l.length (retention.nanoseconds / d.nanoseconds + 1) ≤ (retained retention l).length := by
  generalize hn : min l.length (retention.nanoseconds / d.nanoseconds + 1) = n
  have hle : n ≤ l.length := hn ▸ Nat.min_le_left _ _
  rcases Nat.eq_zero_or_pos n with rfl | hpos
  · exact Nat.zero_le _
  · obtain ⟨first, rest, hsuffix⟩ : ∃ first rest, l.drop (l.length - n) = first :: rest :=
      List.exists_cons_of_length_pos (by rw [List.length_drop]; omega)
    have hlength : rest.length + 1 = n := by
      rw [← List.length_cons (a := first), ← hsuffix, List.length_drop]
      omega
    have hspan := Close.span_le (hsuffix ▸ List.IsChain.drop h _)
    have hroom : rest.length * d.nanoseconds ≤ retention.nanoseconds :=
      Nat.le_trans (Nat.mul_le_mul_right _ (by omega)) (Nat.div_mul_le_self retention.nanoseconds d.nanoseconds)
    refine Reaches.le_length_retained ⟨hle, first, (first :: rest).getLast (List.cons_ne_nil first rest), ?_, ?_, ?_⟩ inOrder
    · rw [← List.head?_drop, hsuffix]
      rfl
    · have hlast := List.getLast?_drop (l := l) (i := l.length - n)
      rw [if_neg (by omega), hsuffix, List.getLast?_eq_some_getLast (List.cons_ne_nil first rest)] at hlast
      exact hlast.symm
    · rw [Instant.since_le_iff]
      omega

/-! ## Sizes -/

theorem size_appendAll_empty (retention interval : Duration) (inOrder : InOrder l) :
    ((empty retention interval).appendAll l).size = (retained retention l).length := by
  rw [size, snapshots_appendAll_empty retention interval inOrder]

/-- **The size of a series.** At least `d` apart, its snapshots are at most one more than `d` fits into the retention;
exactly `d` apart, just so many. -/
theorem size_of_spaced (retention interval : Duration) {d : Duration} (pos : 0 < d.nanoseconds)
    (l : List (Snapshot κ)) :
    (Spaced d l → ∀ n, ((empty retention interval).appendAll (l.take n)).size ≤
      retention.nanoseconds / d.nanoseconds + 1) ∧
    (EvenlySpaced d l → ∀ n ≤ l.length, ((empty retention interval).appendAll (l.take n)).size =
      min n (retention.nanoseconds / d.nanoseconds + 1)) := by
  refine ⟨fun h n => ?_, fun h n hn => ?_⟩
  · have htake : Spaced d (l.take n) := List.IsChain.take h n
    rw [size_appendAll_empty retention interval htake.inOrder]
    exact length_retained_le pos htake
  · have htake : EvenlySpaced d (l.take n) := List.IsChain.take h n
    have hlength : (l.take n).length = n := List.length_take_of_le hn
    have hle : (retained retention (l.take n)).length ≤ n :=
      Nat.le_trans (List.length_filter_le _ _) (Nat.le_of_eq hlength)
    have hlower : min (l.take n).length (retention.nanoseconds / d.nanoseconds + 1) ≤
        (retained retention (l.take n)).length := le_length_retained htake.spaced.inOrder htake.close
    rw [hlength] at hlower
    rw [size_appendAll_empty retention interval htake.spaced.inOrder]
    exact Nat.le_antisymm (Nat.le_min.2 ⟨hle, length_retained_le pos htake.spaced⟩) hlower

/-- At the edge of the retention three snapshots stay, and with a bit less only two. -/
theorem size_of_spaced_of_edge :
    let evenly : List (Snapshot Nat) := [⟨⟨0⟩, .ofList []⟩, ⟨⟨10⟩, .ofList []⟩, ⟨⟨20⟩, .ofList []⟩, ⟨⟨30⟩, .ofList []⟩]
    let freely : List (Snapshot Nat) := [⟨⟨0⟩, .ofList []⟩, ⟨⟨10⟩, .ofList []⟩, ⟨⟨27⟩, .ofList []⟩, ⟨⟨37⟩, .ofList []⟩]
    0 < (⟨10⟩ : Duration).nanoseconds ∧ EvenlySpaced ⟨10⟩ evenly ∧ Spaced ⟨10⟩ freely ∧
      ((empty ⟨20⟩ ⟨1⟩).appendAll (evenly.take 4)).size = 3 ∧ ((empty ⟨19⟩ ⟨1⟩).appendAll (evenly.take 4)).size = 2 ∧
      ((empty ⟨20⟩ ⟨1⟩).appendAll (freely.take 4)).size ≤ 3 := by
  intro evenly freely
  have pos : 0 < (⟨10⟩ : Duration).nanoseconds := by decide
  have hevenly : EvenlySpaced ⟨10⟩ evenly := by unfold EvenlySpaced; decide
  have hfreely : Spaced ⟨10⟩ freely := by unfold Spaced Apart; decide
  exact ⟨pos, hevenly, hfreely, (size_of_spaced ⟨20⟩ ⟨1⟩ pos evenly).2 hevenly 4 (by decide),
    (size_of_spaced ⟨19⟩ ⟨1⟩ pos evenly).2 hevenly 4 (by decide), (size_of_spaced ⟨20⟩ ⟨1⟩ pos freely).1 hfreely 4⟩

end CpuMonitor.TimeSeries
