import CpuMonitor.CommandLine.Options

/-!
# Commands

* `Command` : what the program is asked to do.
* `Command.read?` : the command that the words of a command line give; nothing if they are not used rightly.
-/

set_option autoImplicit false

namespace CpuMonitor.CommandLine

inductive PlatformChoice where
  | current
  | named (name : String)
  | all
  deriving DecidableEq

structure WatchOptions where
  configPath : Option String
  loadWindows : Option String
  windows : Option String
  kinds : Option String
  exportEvery : String
  duration : Option String
  deriving DecidableEq

inductive Command where
  | version
  | capabilities (choice : PlatformChoice)
  | sample
  | watch (options : WatchOptions)
  deriving DecidableEq

namespace Command

def verboseOption : OptionName := ⟨verboseName, true⟩

def capabilitiesOptions : List OptionName := [⟨"os", false⟩, ⟨"all", true⟩, verboseOption]

def sampleOptions : List OptionName := [verboseOption]

def watchOptions : List OptionName :=
  [⟨"config", false⟩, ⟨"load", false⟩, ⟨"util", false⟩, ⟨"types", false⟩, ⟨"export-every", false⟩, ⟨"duration", false⟩,
    verboseOption]

/-- How often results are exported unless told otherwise. -/
def standardExportEvery : String := "60s"

/-- A platform by name and all platforms together are not asked for at once. -/
def capabilitiesOf? (o : Options) : Option Command :=
  match o.lookup "os", o.has "all" with
  | none, false => some (.capabilities .current)
  | none, true => some (.capabilities .all)
  | some name, false => some (.capabilities (.named name))
  | some _, true => none

def watchOf (o : Options) : Command :=
  .watch
    { configPath := o.lookup "config"
      loadWindows := o.lookup "load"
      windows := o.lookup "util"
      kinds := o.lookup "types"
      exportEvery := (o.lookup "export-every").getD standardExportEvery
      duration := o.lookup "duration" }

/-- The command of a name with the words behind it. -/
def named? (name : String) (rest : List String) : Option Command :=
  match name with
  | "capabilities" => (readOptions capabilitiesOptions [] rest).bind capabilitiesOf?
  | "sample" => (readOptions sampleOptions [] rest).map fun _ => .sample
  | "watch" => (readOptions watchOptions [] rest).map watchOf
  | _ => none

/-- What switches before the name of a command ask for. -/
inductive Switches where
  | version
  | verbose
  deriving DecidableEq

/-- The switches of a word, read letter by letter; a version asked for counts at once. -/
def switches? (verbose : Bool) : List Char → Option Switches
  | [] => some .verbose
  | c :: r =>
    if c = 'V' then some .version
    else if c = verboseLetter && !verbose then switches? true r
    else none

/-- The command that the words of a command line give, `verbose` telling whether that switch was given before. -/
def readFrom? (verbose : Bool) : List String → Option Command
  | [] => none
  | word :: rest =>
    match Word.ofText word with
    | .endOfOptions => none
    | .plain => named? word rest
    | .long name value =>
      if value.isSome then none
      else if name = "version" then some .version
      else if name = verboseName && !verbose then readFrom? true rest
      else none
    | .short letters =>
      match switches? verbose letters with
      | none => none
      | some .version => some .version
      | some .verbose => readFrom? true rest

def read? (words : List String) : Option Command := readFrom? false words

end Command

end CpuMonitor.CommandLine
