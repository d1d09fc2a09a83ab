import CashHerald.Service.Report

/-!
The command line: reads the options and shows the settings that they make, or why there are none.
-/

namespace CashHerald.Service

/-- The variables of the environment that name settings. -/
def readEnvironment : IO (List (String × String)) :=
  Setting.all.filterMapM fun setting => do
    let value ← IO.getEnv setting.environmentName
    return value.map fun text => (setting.environmentName, text)

def showLines (lines : List String) : IO Unit :=
  lines.forM fun line => IO.println line

/-- Shows the settings, the help, or why there are none. -/
def run (arguments : List String) : IO UInt32 := do
  let environment ← readEnvironment
  match Options.read arguments fun name => environment.lookup name with
  | .ok options => do
    showLines options.lines
    return 0
  | .error .helpRequested => do
    showLines usageLines
    return Halt.helpRequested.exitCode
  | .error halt => do
    IO.eprintln ("error: " ++ halt.message)
    return halt.exitCode

end CashHerald.Service

def main (arguments : List String) : IO UInt32 :=
  CashHerald.Service.run arguments
