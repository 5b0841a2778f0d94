import CpuMonitor.Platform

/-!
# Requests

`Request` : what a user asks to collect, as three lists of texts.
-/

set_option autoImplicit false

namespace CpuMonitor

structure Request where
  loadWindows : List String
  windows : List String
  kinds : List String
  deriving DecidableEq

namespace Request

/-- What is collected on a platform if nothing else is asked for. On Windows there is neither a load average nor a time
of waiting for input and output. -/
def defaults (platformName : String) : Request :=
  if platformName = "windows" then ⟨[], ["avg1"], ["user", "system", "idle"]⟩
  else ⟨["avg1"], ["avg1"], ["user", "system", "idle", "iowait"]⟩

/-- What is collected on this platform if nothing else is asked for. -/
def fallback : Request := defaults PlatformTable.currentName

instance : Inhabited Request := ⟨fallback⟩

end Request

end CpuMonitor
