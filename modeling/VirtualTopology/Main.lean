import VirtualTopology.Demo

/-!
# The command line

Runs the demonstration with the settings of the process, which keeps no log.
-/

namespace VirtualTopology

/-- The settings that were made for this process. -/
def currentEnvironment : IO Environment := do
  let mut env : Environment := []
  for setting in Setting.all do
    if let some value ← IO.getEnv setting.name then
      env := (setting.name, .text value) :: env
  return env

end VirtualTopology

def main : IO UInt32 := do
  let outcome := VirtualTopology.Demo.run (← VirtualTopology.currentEnvironment)
  let out ← IO.getStdout
  out.putStr outcome.output
  out.flush
  return outcome.exitCode.toUInt32
