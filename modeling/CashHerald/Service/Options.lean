import CashHerald.Service.NetAddress
import CashHerald.Session.Life
import CashHerald.Text.Blank
import CashHerald.Text.Pieces

/-!
The options of the program, from its command line and its environment. Arguments win over the
environment, and the environment wins over the defaults.
-/

namespace CashHerald.Service

/-- What can be set, in the order in which the environment is asked. -/
inductive Setting where
  | bindAddress
  | port
  | restart
  | subProtocols
  | feedUrl
  | blockSubject
  | transactionSubject
  | network
  | healthAddress
  | jsonLogs
  deriving DecidableEq, Repr

/-- Why reading the options ends without options. -/
inductive Halt where
  | unknownArgument
  | missingValue
  | notBoolean
  | unreadableValue
  | repeatedSetting
  | needlessValue
  | helpRequested
  deriving DecidableEq, Repr

namespace Setting

/-- Every setting. -/
def all : List Setting :=
  [.bindAddress, .port, .restart, .subProtocols, .feedUrl, .blockSubject, .transactionSubject,
    .network, .healthAddress, .jsonLogs]

/-- The type of a setting's value. -/
abbrev Value : Setting → Type
  | .bindAddress => IpAddress
  | .port => UInt16
  | .restart => Bool
  | .subProtocols => List String
  | .feedUrl => String
  | .blockSubject => String
  | .transactionSubject => String
  | .network => String
  | .healthAddress => SocketAddress
  | .jsonLogs => Bool

/-- The name of a setting on the command line, behind two hyphens. -/
def name : Setting → String
  | .bindAddress => "bind-ip"
  | .port => "port"
  | .restart => "restart-after-listen-error"
  | .subProtocols => "sub-protocols"
  | .feedUrl => "nats-url"
  | .blockSubject => "block-subject"
  | .transactionSubject => "tx-subject"
  | .network => "address-prefix"
  | .healthAddress => "health-addr"
  | .jsonLogs => "log-json"

/-- The name of a setting in the environment. -/
def environmentName : Setting → String
  | .bindAddress => "BCHSOCK_BIND_IP"
  | .port => "BCHSOCK_PORT"
  | .restart => "BCHSOCK_RESTART_LISTENER"
  | .subProtocols => "BCHSOCK_SUB_PROTOCOLS"
  | .feedUrl => "NATS_URL"
  | .blockSubject => "BCHSOCK_BLOCK_SUBJECT"
  | .transactionSubject => "BCHSOCK_TX_SUBJECT"
  | .network => "BCHSOCK_ADDRESS_PREFIX"
  | .healthAddress => "BCHSOCK_HEALTH_ADDR"
  | .jsonLogs => "BCHSOCK_LOG_JSON"

/-- What a setting is for. -/
def purpose : Setting → String
  | .bindAddress => "address on which clients are awaited"
  | .port => "port on which clients are awaited"
  | .restart => "listen again after listening has failed (true or false)"
  | .subProtocols => "accepted sub-protocols, with commas between them"
  | .feedUrl => "server of the feed of blocks and transactions"
  | .blockSubject => "subject of the feed's blocks"
  | .transactionSubject => "subject of the feed's transactions"
  | .network => "network whose addresses are shown"
  | .healthAddress => "socket on which questions about health are awaited"
  | .jsonLogs => "write the log as JSON"

def default : (setting : Setting) → setting.Value
  | .bindAddress => IpAddress.v4 ⟨0, 0, 0, 0⟩
  | .port => (8181 : UInt16)
  | .restart => true
  | .subProtocols => ([] : List String)
  | .feedUrl => "nats://localhost:4222"
  | .blockSubject => "bch.rawblock"
  | .transactionSubject => "bch.rawtx"
  | .network => "bitcoincash"
  | .healthAddress => SocketAddress.v4 ⟨0, 0, 0, 0⟩ 9090
  | .jsonLogs => false

/-- A setting that is a mere flag takes no value on the command line. -/
def takesValue (setting : Setting) : Bool :=
  setting ≠ .jsonLogs

/-- The sub-protocols may be given by several arguments. -/
def isRepeatable (setting : Setting) : Bool :=
  setting = .subProtocols

/-- A port is a decimal number that may have a sign. -/
def readPort (text : List Char) : Except Halt UInt16 :=
  let found :=
    match text with
    | '+' :: digits => Numeral.ofText? 10 65536 digits
    | '-' :: digits => Numeral.ofText? 10 1 digits
    | digits => Numeral.ofText? 10 65536 digits
  match found with
  | some number => .ok (UInt16.ofNat number)
  | none => .error .unreadableValue

def readBool : String → Except Halt Bool
  | "true" => .ok true
  | "false" => .ok false
  | _ => .error .notBoolean

/-- A value that a text writes, if it writes one. -/
def readSome {Address : Type} : Option Address → Except Halt Address
  | some value => .ok value
  | none => .error .unreadableValue

/-- Reads the text of a setting's value. -/
def read (text : String) : (setting : Setting) → Except Halt setting.Value
  | .bindAddress => readSome (IpAddress.ofText? text)
  | .port => readPort text.toList
  | .restart => readBool text
  | .subProtocols => .ok ((Pieces.splitAll (· = ',') text.toList).map String.ofList)
  | .feedUrl => .ok text
  | .blockSubject => .ok text
  | .transactionSubject => .ok text
  | .network => .ok text
  | .healthAddress => readSome (SocketAddress.ofText? text)
  | .jsonLogs => readBool text

/-- A later value behind an earlier one; sub-protocols are kept from both. -/
def join : (setting : Setting) → Option setting.Value → setting.Value → setting.Value
  | .subProtocols, some earlier, later => List.append earlier later
  | _, _, later => later

/-- The setting of a name on the command line. -/
def named? (name : String) : Option Setting :=
  all.find? (·.name = name)

end Setting

/-- The values given so far. -/
def Given : Type :=
  (setting : Setting) → Option setting.Value

namespace Given

def none : Given := fun _ => .none

/-- Gives a setting a value. -/
def put (given : Given) (setting : Setting) (value : setting.Value) : Given := fun other =>
  if same : setting = other then some (same ▸ value) else given other

/-- Gives a setting the value of a text. -/
def add (given : Given) (setting : Setting) (text : String) : Except Halt Given :=
  if (given setting).isSome ∧ setting.isRepeatable = false then .error .repeatedSetting
  else
    match setting.read text with
    | .error halt => .error halt
    | .ok value => .ok (given.put setting (setting.join (given setting) value))

/-- Asks the environment for a setting that has no value. -/
def ask (environment : String → Option String) (given : Given) (setting : Setting) :
    Except Halt Given :=
  match given setting, environment setting.environmentName with
  | .none, some text => given.add setting text
  | _, _ => .ok given

/-- Asks the environment for every setting that has no value. -/
def askAll (environment : String → Option String) (given : Given) : Except Halt Given :=
  Setting.all.foldlM (ask environment) given

end Given

/-- The form of an argument: the mark behind which no names stand, a name behind two hyphens with
the value attached by an equals sign, a letter behind one hyphen, or a plain text. -/
inductive Argument where
  | mark
  | long (name : String) (attached : Option String)
  | short (letter : Char)
  | plain (text : String)
  deriving DecidableEq, Repr

/-- The form of a text given as an argument. -/
def Argument.ofText (text : String) : Argument :=
  match text.toList with
  | ['-', '-'] => .mark
  | '-' :: '-' :: rest =>
    match Pieces.splitFirst? '=' rest with
    | some (name, value) => .long (String.ofList name) (some (String.ofList value))
    | none => .long (String.ofList rest) none
  | '-' :: letter :: _ => .short letter
  | _ => .plain text

/-- What the arguments so far give, beside a named setting whose value is not read yet or not even
there. -/
structure Progress where
  given : Given
  pending : Option (Setting × Option String)

namespace Progress

def start : Progress :=
  ⟨.none, none⟩

/-- Reads the value that is pending. -/
def settle (progress : Progress) : Except Halt Given :=
  match progress.pending with
  | none => .ok progress.given
  | some (_, none) => .error .missingValue
  | some (setting, some text) => progress.given.add setting text

/-- Ends in a request for help, behind the value that is pending. -/
def help (progress : Progress) : Except Halt Progress := do
  let _ ← progress.settle
  .error .helpRequested

/-- Takes a named setting. -/
def name (progress : Progress) (setting : Setting) (attached : Option String) :
    Except Halt Progress :=
  if setting.takesValue then do
    let given ← progress.settle
    match attached with
    | some text => return ⟨← given.add setting text, none⟩
    | none => return ⟨given, some (setting, none)⟩
  else if attached.isSome then .error .needlessValue
  else do
    let given ← progress.settle
    return ⟨← given.add setting "true", none⟩

/-- Takes one argument in front of the mark. -/
def take (progress : Progress) : Argument → Except Halt Progress
  | .mark => .ok progress
  | .long "help" attached =>
    if attached.isSome then .error .needlessValue else progress.help
  | .long name attached =>
    match Setting.named? name with
    | some setting => progress.name setting attached
    | none => .error .unknownArgument
  | .short 'h' => progress.help
  | .short _ => .error .unknownArgument
  | .plain text =>
    match progress.pending with
    | some (setting, none) => .ok ⟨progress.given, some (setting, some text)⟩
    | _ => .error .unknownArgument

/-- Takes all arguments. Behind the mark no argument is known. -/
def takeAll (progress : Progress) : List String → Except Halt Given
  | [] => progress.settle
  | text :: rest =>
    match Argument.ofText text with
    | .mark => if rest = [] then progress.settle else .error .unknownArgument
    | argument => do (← progress.take argument).takeAll rest

end Progress

/-- Every setting with its value. -/
def Options : Type :=
  (setting : Setting) → setting.Value

/-- What a server needs to know. A silent connection is probed after a time, and then again after
each interval, both in seconds. -/
structure ServerSettings where
  address : SocketAddress
  session : Session.Settings
  restart : Bool
  probeAfter : Nat
  probeInterval : Nat
  deriving DecidableEq, Repr

namespace Options

/-- The given values, with defaults for the others. -/
def ofGiven (given : Given) : Options := fun setting =>
  (given setting).getD setting.default

/-- Reads the options from arguments and an environment. -/
def read (arguments : List String) (environment : String → Option String) :
    Except Halt Options := do
  let given ← Progress.start.takeAll arguments
  return ofGiven (← given.askAll environment)

/-- The sub-protocols without the blanks around them; empty ones are left out. -/
def acceptedSubProtocols (options : Options) : List String :=
  ((options .subProtocols).map fun name => String.ofList (Blank.trim name.toList)).filter (· ≠ "")

def server (options : Options) : ServerSettings where
  address := .ofIp (options .bindAddress) (options .port)
  session := ⟨"ws", options.acceptedSubProtocols, 16384⟩
  restart := options .restart
  probeAfter := 60
  probeInterval := 10

end Options

end CashHerald.Service
