import CpuMonitor.Metric.Kind
import CpuMonitor.Ordered.Map

/-!
# Platforms

* `Platform` : what can be measured on one operating system.
* `PlatformTable` : platforms by name; `PlatformTable.builtin` holds the known ones.
* `PlatformTable.find` : the platform of a name; one that is not in the table measures nothing.
-/

set_option autoImplicit false

namespace CpuMonitor

structure Platform where
  name : String
  kinds : OrderedSet Kind
  loadAverage : Bool
  deriving DecidableEq

namespace Platform

def none (name : String) : Platform := ⟨name, ∅, false⟩

/-- A platform that tells its load averages, but not the times of its processors. -/
def loadOnly (name : String) : Platform := { none name with loadAverage := true }

def supports (p : Platform) (k : Kind) : Bool := decide (k ∈ p.kinds)

end Platform

structure PlatformTable where
  byName : OrderedMap String Platform

namespace PlatformTable

/-- The table of a list of platforms; of two with one name the later one counts. -/
def ofList (platforms : List Platform) : PlatformTable := ⟨.ofList (platforms.map fun p => (p.name, p))⟩

/-- The known platforms, and what can be measured on them without special rights. -/
def builtin : PlatformTable :=
  ofList
    [⟨"linux", .ofList Kind.all, true⟩,
      ⟨"freebsd", .ofList [.system, .user, .nice, .idle, .irq], true⟩,
      .loadOnly "macos",
      .loadOnly "openbsd",
      .loadOnly "netbsd",
      .loadOnly "dragonfly",
      .loadOnly "solaris",
      .loadOnly "illumos",
      .none "windows"]

def find (t : PlatformTable) (name : String) : Platform := (t.byName.get? name).getD (.none name)

def platforms (t : PlatformTable) : List Platform := t.byName.toList.map Prod.snd

def currentName : String := "linux"

def current (t : PlatformTable) : Platform := t.find currentName

end PlatformTable

end CpuMonitor
