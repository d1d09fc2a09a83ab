import CashHerald.Service.Options

/-!
The texts that the program shows about its options: why reading them ended, how they are given, and
what they are.
-/

namespace CashHerald.Service

def Halt.message : Halt → String
  | .unknownArgument => "an argument is not known"
  | .missingValue => "a setting is named without a value"
  | .notBoolean => "a value is neither true nor false"
  | .unreadableValue => "a value cannot be read"
  | .repeatedSetting => "a setting is given more than once"
  | .needlessValue => "a flag is given with a value"
  | .helpRequested => "help is requested"

/-- A request for help is no failure. -/
def Halt.exitCode : Halt → UInt32
  | .helpRequested => 0
  | _ => 2

namespace Setting

/-- The text of a setting's value. -/
def render : (setting : Setting) → setting.Value → String
  | .bindAddress, address => IpAddress.text address
  | .port, number => toString (UInt16.toNat number)
  | .restart, flag => if flag = true then "true" else "false"
  | .subProtocols, names => ",".intercalate names
  | .feedUrl, text => text
  | .blockSubject, text => text
  | .transactionSubject, text => text
  | .network, text => text
  | .healthAddress, address => SocketAddress.text address
  | .jsonLogs, flag => if flag = true then "true" else "false"

/-- One line of help. -/
def usage (setting : Setting) : String :=
  "  --" ++ setting.name ++ (if setting.takesValue then " VALUE" else "") ++ "  " ++
    setting.purpose ++ " (environment: " ++ setting.environmentName ++ ")"

end Setting

/-- The lines of help, one for each setting. -/
def usageLines : List String :=
  "Options:" :: Setting.all.map Setting.usage

/-- The lines that show every setting with its value. -/
def Options.lines (options : Options) : List String :=
  Setting.all.map fun setting => setting.name ++ " = " ++ setting.render (options setting)

end CashHerald.Service
