import CpuMonitor.Host.Times
import CpuMonitor.Metric.Name
import CpuMonitor.Ordered.Map

/-!
# The values of one sample

* `sampleValues` : for each kind the value of every core, and their mean as the total.

Cores are numbered from zero in the order in which the host tells them.
-/

set_option autoImplicit false

namespace CpuMonitor

/-- The mean of a kind over all cores: the sum in the order of the cores, divided by their number. -/
def totalOf (cores : List CpuTimes) (k : Kind) : Binary64 :=
  cores.foldl (fun sum t => sum + t.get k) (.zero false) / .ofNat cores.length

/-- The values of a kind: one for each core, and the total. -/
def kindValues (cores : List CpuTimes) (k : Kind) : List (MetricKey × Binary64) :=
  cores.zipIdx.map (fun (t, i) => (⟨k, .core i⟩, t.get k)) ++ [(⟨k, .total⟩, totalOf cores k)]

def sampleValues (cores : List CpuTimes) (kinds : OrderedSet Kind) : OrderedMap MetricKey Binary64 :=
  .ofList (kinds.toList.flatMap (kindValues cores))

end CpuMonitor
