import CpuMonitor.Metric.Kind
import CpuMonitor.Metric.Window

/-!
# Names of measurements

* `Scope` : one core, or all cores together.
* `MetricKey` : what one stored value measures.
* `MetricName` : what one reported value measures.

Keys and names are ordered by structure, not by text, through the numbers of their `sortKey`: utilization before load
averages, kinds in the order of reports, windows by length, cores by number, and the total behind all cores.
-/

set_option autoImplicit false

namespace CpuMonitor

/-! ## Scopes -/

inductive Scope where
  | core (index : Nat)
  | total
  deriving DecidableEq, Inhabited

namespace Scope

def text : Scope → String
  | .core index => "cpu" ++ toString index
  | .total => "total"

def sortKey : Scope → List Nat
  | .core index => [0, index]
  | .total => [1]

theorem sortKey_injective {a b : Scope} (h : a.sortKey = b.sortKey) : a = b := by
  cases a <;> cases b <;> simp_all [sortKey]

instance : Ord Scope := ⟨compareOn sortKey⟩

instance : Std.TransOrd Scope := inferInstanceAs (Std.TransCmp (compareOn sortKey))

instance : Std.LawfulEqOrd Scope where
  eq_of_compare h := sortKey_injective (eq_of_compareOn h)

end Scope

/-! ## Keys -/

structure MetricKey where
  kind : Kind
  scope : Scope
  deriving DecidableEq, Inhabited

namespace MetricKey

def text (k : MetricKey) : String := k.kind.text ++ "." ++ k.scope.text

def sortKey (k : MetricKey) : List Nat := k.kind.rank :: k.scope.sortKey

theorem sortKey_injective {a b : MetricKey} (h : a.sortKey = b.sortKey) : a = b := by
  obtain ⟨k, s⟩ := a
  obtain ⟨k', s'⟩ := b
  obtain ⟨hk, hs⟩ := List.cons.inj h
  rw [show k = k' from Kind.rank_injective hk, show s = s' from Scope.sortKey_injective hs]

instance : Ord MetricKey := ⟨compareOn sortKey⟩

instance : Std.TransOrd MetricKey := inferInstanceAs (Std.TransCmp (compareOn sortKey))

instance : Std.LawfulEqOrd MetricKey where
  eq_of_compare h := sortKey_injective (eq_of_compareOn h)

end MetricKey

/-! ## Names -/

inductive MetricName where
  | utilization (kind : Kind) (window : Window) (scope : Scope)
  | loadAverage (window : LoadWindow)
  deriving DecidableEq

namespace MetricName

def text : MetricName → String
  | .utilization kind window scope => "util." ++ kind.text ++ "." ++ window.text ++ "." ++ scope.text
  | .loadAverage window => "load.avg." ++ window.text

def sortKey : MetricName → List Nat
  | .utilization kind window scope => 0 :: kind.rank :: window.minutes :: scope.sortKey
  | .loadAverage window => [1, window.minutes]

theorem sortKey_injective {a b : MetricName} (h : a.sortKey = b.sortKey) : a = b := by
  cases a <;> cases b <;> simp only [sortKey, List.cons.injEq] at h
  · rw [Kind.rank_injective h.2.1, Window.minutes_injective h.2.2.1, Scope.sortKey_injective h.2.2.2]
  · cases h.1
  · cases h.1
  · rw [LoadWindow.minutes_injective h.2.1]

instance : Ord MetricName := ⟨compareOn sortKey⟩

instance : Std.TransOrd MetricName := inferInstanceAs (Std.TransCmp (compareOn sortKey))

instance : Std.LawfulEqOrd MetricName where
  eq_of_compare h := sortKey_injective (eq_of_compareOn h)

end MetricName

end CpuMonitor
