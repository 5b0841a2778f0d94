import CpuMonitor.Binary64.Arithmetic
import CpuMonitor.Metric.Kind

/-!
# What a host tells

* `CpuTimes` : the seconds one core has spent in each kind of state since the start of the system.
* `LoadAverage` : the three load averages.
* `HostError` : why a host tells nothing.
-/

set_option autoImplicit false

namespace CpuMonitor

structure CpuTimes where
  system : Binary64
  user : Binary64
  nice : Binary64
  idle : Binary64
  iowait : Binary64
  irq : Binary64
  softirq : Binary64
  steal : Binary64
  deriving DecidableEq

namespace CpuTimes

def get (t : CpuTimes) : Kind → Binary64
  | .system => t.system
  | .user => t.user
  | .nice => t.nice
  | .idle => t.idle
  | .iowait => t.iowait
  | .irq => t.irq
  | .softirq => t.softirq
  | .steal => t.steal

/-- The times that a function of the kind gives. -/
def ofFn (f : Kind → Binary64) : CpuTimes where
  system := f .system
  user := f .user
  nice := f .nice
  idle := f .idle
  iowait := f .iowait
  irq := f .irq
  softirq := f .softirq
  steal := f .steal

@[simp] theorem get_ofFn (f : Kind → Binary64) (k : Kind) : (ofFn f).get k = f k := by cases k <;> rfl

@[simp] theorem ofFn_get (t : CpuTimes) : ofFn t.get = t := rfl

end CpuTimes

structure LoadAverage where
  one : Binary64
  five : Binary64
  fifteen : Binary64
  deriving DecidableEq

inductive HostError where
  | io (path message : String)
  | parse (what detail : String)
  | command (line detail : String)
  | unsupported (what platformName : String)
  deriving DecidableEq

def HostError.message : HostError → String
  | .io path message => "failed to read " ++ path ++ ": " ++ message
  | .parse what detail => "failed to parse " ++ what ++ ": " ++ detail
  | .command line detail => "`" ++ line ++ "` " ++ detail
  | .unsupported what platformName => what ++ " is not implemented on " ++ platformName

end CpuMonitor
