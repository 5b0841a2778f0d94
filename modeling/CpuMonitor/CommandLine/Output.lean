import CpuMonitor.CommandLine.Watch

/-!
# What the program prints

* `Output` : the lines that a command prints, and its exit code.
* `describe` : the lines about a platform.
* `valueText` : an exported value.
* `Command.output` : what a command prints before it samples anything.
-/

set_option autoImplicit false

namespace CpuMonitor.CommandLine

structure Output where
  code : Nat
  out : List String
  err : List String
  deriving DecidableEq

/-- A value with four decimal places; `null` without history. -/
def valueText : Option Binary64 → String
  | none => "null"
  | some x => x.fixed 4

def versionText : String := "cpuwatch 0.1.0"

def describe (p : Platform) : List String :=
  [p.name,
    "  utilization types: " ++ joinList (p.kinds.toList.map Kind.text),
    "  load average:      " ++ if p.loadAverage then "yes" else "no"]

def PlatformChoice.platforms (t : PlatformTable) : PlatformChoice → List Platform
  | .current => [t.current]
  | .named name => [t.find name]
  | .all => t.platforms

/-- What is printed of the preparations to watch: the warnings, and then the header or the error. -/
def Prepared.output (p : Prepared) : Output :=
  let warnings := p.warnings.map fun w => "Warning: " ++ w.message
  match p.result with
  | .ok plan => ⟨0, plan.header, warnings⟩
  | .error e => ⟨1, [], warnings ++ ["Error: " ++ e.message]⟩

def usageText : String := "usage: cpuwatch [--verbose] (capabilities | sample | watch) [options]"

def Output.misuse : Output := ⟨2, [], [usageText]⟩

/-- What a command prints before it samples anything; `file` tells what is in the file that its options name. -/
def Command.output (t : PlatformTable) (file : String → Except Request.FileFault ByteArray) : Command → Output
  | .version => ⟨0, [versionText], []⟩
  | .capabilities choice => ⟨0, (choice.platforms t).flatMap describe, []⟩
  | .sample => ⟨0, [], []⟩
  | .watch o => (o.prepare t.current (file (o.configPath.getD ""))).output

end CpuMonitor.CommandLine
