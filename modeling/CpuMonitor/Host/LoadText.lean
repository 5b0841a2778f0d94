import CpuMonitor.Decimal.Reader
import CpuMonitor.Host.Times
import CpuMonitor.Text.Blank

/-!
# The text of `/proc/loadavg`

Its first three words are the load averages over one, five and fifteen minutes.
-/

set_option autoImplicit false

namespace CpuMonitor.LoadText

/-- The load averages that a text begins with. -/
def read (text : String) : Except HostError LoadAverage :=
  match ((Text.words text.toList).take 3).mapM Binary64.read? with
  | some [one, five, fifteen] => .ok ⟨one, five, fifteen⟩
  | _ => .error (.parse "/proc/loadavg" "expected three numbers")

end CpuMonitor.LoadText
