import CpuMonitor.Ordered.Insertion
import CpuMonitor.Text.Blank

/-!
# Kinds of processor time

`Kind` : the states of a processor whose cumulative time is measured, in the order of reports.

* `Kind.ofText` : the kind that a text names, whatever its case and the blanks around it.
-/

set_option autoImplicit false

namespace CpuMonitor

inductive Kind where
  | system
  | user
  | nice
  | idle
  | iowait
  | irq
  | softirq
  | steal
  deriving DecidableEq, Inhabited

namespace Kind

def all : List Kind := [.system, .user, .nice, .idle, .iowait, .irq, .softirq, .steal]

/-- The place of the kind in the order of reports. -/
def rank : Kind → Nat
  | .system => 0
  | .user => 1
  | .nice => 2
  | .idle => 3
  | .iowait => 4
  | .irq => 5
  | .softirq => 6
  | .steal => 7

def text : Kind → String
  | .system => "system"
  | .user => "user"
  | .nice => "nice"
  | .idle => "idle"
  | .iowait => "iowait"
  | .irq => "irq"
  | .softirq => "softirq"
  | .steal => "steal"

theorem mem_all (k : Kind) : k ∈ all := by cases k <;> decide

theorem rank_injective {a b : Kind} (h : a.rank = b.rank) : a = b := by
  cases a <;> cases b <;> first | rfl | cases h

instance : Ord Kind := ⟨compareOn rank⟩

instance : Std.TransOrd Kind := inferInstanceAs (Std.TransCmp (compareOn rank))

instance : Std.LawfulEqOrd Kind where
  eq_of_compare h := rank_injective (eq_of_compareOn h)

/-- A text that names no kind. -/
structure Unknown where
  given : String
  deriving DecidableEq

def Unknown.message (e : Unknown) : String := "unknown utilization type '" ++ e.given ++ "'"

def ofText? (s : String) : Option Kind := all.find? fun k => k.text == Text.normalize s

/-- The kind that a text names in any case, with blanks around it. -/
def ofText (s : String) : Except Unknown Kind :=
  match ofText? s with
  | some k => .ok k
  | none => .error ⟨s⟩

end Kind

end CpuMonitor
