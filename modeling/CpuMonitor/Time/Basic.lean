import CpuMonitor.Binary64.Arithmetic

/-!
# Durations and instants

Both count nanoseconds. The time from one instant to another is never negative: it is zero when the second instant does
not lie after the first.

* `Instant.since` : the time between two instants; `since_le_iff`, `since_pos_iff` compare it by nanoseconds.
* `Duration.seconds` : a duration in seconds, as a double.
-/

set_option autoImplicit false

namespace CpuMonitor

structure Duration where
  nanoseconds : Nat
  deriving DecidableEq, Inhabited

structure Instant where
  nanoseconds : Int
  deriving DecidableEq, Inhabited

namespace Duration

def ofMilliseconds (n : Nat) : Duration := ⟨n * 1000000⟩

def ofSeconds (n : Nat) : Duration := ⟨n * 1000000000⟩

instance : LE Duration := ⟨fun a b => a.nanoseconds ≤ b.nanoseconds⟩

instance : LT Duration := ⟨fun a b => a.nanoseconds < b.nanoseconds⟩

instance (a b : Duration) : Decidable (a ≤ b) := inferInstanceAs (Decidable (a.nanoseconds ≤ b.nanoseconds))

instance (a b : Duration) : Decidable (a < b) := inferInstanceAs (Decidable (a.nanoseconds < b.nanoseconds))

theorem not_lt {a b : Duration} : ¬ a < b ↔ b ≤ a := Nat.not_lt

theorem le_trans {a b c : Duration} (h : a ≤ b) (h' : b ≤ c) : a ≤ c := Nat.le_trans h h'

theorem le_of_not_le {a b : Duration} (h : ¬ a ≤ b) : b ≤ a := Nat.le_of_not_le h

def max (a b : Duration) : Duration := ⟨Nat.max a.nanoseconds b.nanoseconds⟩

theorem max_eq_left {a b : Duration} (h : b ≤ a) : a.max b = a := by
  unfold max
  rw [show Nat.max a.nanoseconds b.nanoseconds = a.nanoseconds from Nat.max_eq_left h]

theorem max_eq_right {a b : Duration} (h : a ≤ b) : a.max b = b := by
  unfold max
  rw [show Nat.max a.nanoseconds b.nanoseconds = b.nanoseconds from Nat.max_eq_right h]

def wholeSeconds (d : Duration) : Nat := d.nanoseconds / 1000000000

/-- The duration in seconds: the whole seconds plus the rest, which is divided first. -/
def seconds (d : Duration) : Binary64 :=
  .ofNat d.wholeSeconds + .ofNat (d.nanoseconds % 1000000000) / .ofNat 1000000000

end Duration

namespace Instant

/-- The time from `earlier` to `later`, and zero if that is not after it. -/
def since (later earlier : Instant) : Duration := ⟨(later.nanoseconds - earlier.nanoseconds).toNat⟩

def add (t : Instant) (d : Duration) : Instant := ⟨t.nanoseconds + d.nanoseconds⟩

instance : HAdd Instant Duration Instant := ⟨add⟩

instance : LE Instant := ⟨fun a b => a.nanoseconds ≤ b.nanoseconds⟩

instance : LT Instant := ⟨fun a b => a.nanoseconds < b.nanoseconds⟩

instance (a b : Instant) : Decidable (a ≤ b) := inferInstanceAs (Decidable (a.nanoseconds ≤ b.nanoseconds))

instance (a b : Instant) : Decidable (a < b) := inferInstanceAs (Decidable (a.nanoseconds < b.nanoseconds))

theorem not_lt_of_lt {t u : Instant} (h : t < u) : ¬ u < t := by
  have h' : t.nanoseconds < u.nanoseconds := h
  show ¬ u.nanoseconds < t.nanoseconds
  omega

theorem not_le {t u : Instant} : ¬ t ≤ u ↔ u < t := Int.not_le

theorem lt_of_lt_of_le {t u v : Instant} (h : t < u) (h' : u ≤ v) : t < v := Int.lt_of_lt_of_le h h'

theorem since_le_iff {t u : Instant} {d : Duration} : t.since u ≤ d ↔ t.nanoseconds ≤ u.nanoseconds + d.nanoseconds := by
  show (t.nanoseconds - u.nanoseconds).toNat ≤ d.nanoseconds ↔ _
  omega

theorem since_pos_iff {t u : Instant} : 0 < (t.since u).nanoseconds ↔ u < t := by
  show 0 < (t.nanoseconds - u.nanoseconds).toNat ↔ u.nanoseconds < t.nanoseconds
  omega

theorem since_le_since_of_le {t t' u : Instant} (h : t ≤ t') : t.since u ≤ t'.since u := by
  have h' : t.nanoseconds ≤ t'.nanoseconds := h
  show (t.nanoseconds - u.nanoseconds).toNat ≤ (t'.nanoseconds - u.nanoseconds).toNat
  omega

theorem since_le_since_of_ge {t u u' : Instant} (h : u' ≤ u) : t.since u ≤ t.since u' := by
  have h' : u'.nanoseconds ≤ u.nanoseconds := h
  show (t.nanoseconds - u.nanoseconds).toNat ≤ (t.nanoseconds - u'.nanoseconds).toNat
  omega

end Instant

end CpuMonitor
