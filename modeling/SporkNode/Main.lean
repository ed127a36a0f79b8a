import SporkNode.Node.Lifecycle

/-!
The node as a program. It takes its configuration from the file named by its argument, or else by
the environment, and runs until a line or the end of its input. It has no peers and no disk of its
own: outbound messages and diagnostics are printed, and the store lasts as long as the program.
-/

namespace SporkNode.CommandLine

open Node Spork

def configVariable : String := "GC_CONFIG"

def fieldText : String × Log.Field → String
  | (name, .number n) => s!"{name}={n}"
  | (name, .text s) => s!"{name}={s}"

def effectText : Effect → String
  | .relay item => "announce " ++ item.display
  | .send peer m => s!"send {peer.display} {m.display}"
  | .penalize peer score => s!"penalize {peer.display} {score}"
  | .reprocess blocks => s!"reprocess {blocks}"
  | .stored key _ => "store " ++ Text.hexOfBytes key
  | .log e => " ".intercalate (e.level.name :: e.message :: e.fields.map fieldText)

def environment : IO (Variable → Option String) := do
  let network ← IO.getEnv Variable.network.name
  let dataDir ← IO.getEnv Variable.dataDir.name
  let sporkKey ← IO.getEnv Variable.sporkKey.name
  let log ← IO.getEnv Variable.log.name
  return fun
    | .network => network
    | .dataDir => dataDir
    | .sporkKey => sporkKey
    | .log => log

/-- The text of the configuration file, if one is named, if it can be read. -/
def configText (args : List String) : IO (Option (Option String)) := do
  match args.head?.or (← IO.getEnv configVariable) with
  | none => return none
  | some path =>
    try return some (some (← IO.FS.readFile path))
    catch _ => return some none

def fail (message : String) : IO UInt32 := do
  IO.eprintln ("Error: " ++ message)
  return 1

def run (args : List String) : IO UInt32 := do
  match Config.load (← configText args) (← environment) with
  | .error e => fail ("failed to load configuration: " ++ e.message)
  | .ok config =>
    let startup := Node.start config .empty none true
    for e in startup.effects do IO.println (effectText e)
    match startup.result with
    | .error e => fail e.message
    | .ok node =>
      -- nothing is queued yet, so the time is not looked at
      let running := node.run ⟨0, 0⟩
      for e in running.effects do IO.println (effectText e)
      IO.println ("Node is running on " ++ config.network.name)
      let _ ← (← IO.getStdin).getLine
      for e in running.state.shutdownLog do IO.println (effectText (.log e))
      return 0

end SporkNode.CommandLine

def main (args : List String) : IO UInt32 := SporkNode.CommandLine.run args
