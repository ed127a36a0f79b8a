/-!
Diagnostic records. They are values that an operation returns beside its result; nothing reads
them back.
-/

namespace SporkNode.Log

inductive Level
  | trace | debug | info | warn | error
  deriving DecidableEq, Repr

def Level.name : Level → String
  | .trace => "TRACE"
  | .debug => "DEBUG"
  | .info => "INFO"
  | .warn => "WARN"
  | .error => "ERROR"

inductive Field
  | number (n : Int)
  | text (s : String)
  deriving DecidableEq, Repr

structure Entry where
  level : Level
  message : String
  fields : List (String × Field)
  deriving DecidableEq, Repr

end SporkNode.Log
