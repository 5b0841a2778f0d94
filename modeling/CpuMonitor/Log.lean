/-!
# Log records

`Logged α` : a result together with the log records written on the way to it, in order.
-/

set_option autoImplicit false

namespace CpuMonitor

inductive Severity where
  | error
  | warn
  | debug
  deriving DecidableEq

def Severity.text : Severity → String
  | .error => "ERROR"
  | .warn => "WARN"
  | .debug => "DEBUG"

structure LogRecord where
  severity : Severity
  message : String
  deriving DecidableEq

namespace LogRecord

def text (r : LogRecord) : String := r.severity.text ++ " " ++ r.message

def error (message : String) : LogRecord := ⟨.error, "[CPU] " ++ message⟩

def warn (message : String) : LogRecord := ⟨.warn, "[CPU] " ++ message⟩

end LogRecord

structure Logged (α : Type) where
  value : α
  log : List LogRecord
  deriving DecidableEq

end CpuMonitor
