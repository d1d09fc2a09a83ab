import CashHerald.Octets.Basic
import CashHerald.Text.Numeral

/-!
Internet addresses and the addresses of sockets, with the texts that are read and the one that is
written. An address of the newer kind is eight groups of sixteen bits, and its longest run of zero
groups is written as two colons. Main statement: reading never finds more groups than there is room
for.
-/

namespace CashHerald.Service

/-- An address of four octets. -/
structure Ipv4 where
  first : UInt8
  second : UInt8
  third : UInt8
  fourth : UInt8
  deriving DecidableEq, Repr

namespace Ipv4

/-- An octet is at most three decimal digits without a needless zero in front. -/
def octet? (text : List Char) : Option (UInt8 × List Char) :=
  let digits := Numeral.leading 10 text
  if digits.length > 3 ∨ digits.head? = some '0' ∧ digits.length > 1 then none
  else (Numeral.read? 10 256 text).map fun (number, rest) => (UInt8.ofNat number, rest)

/-- An octet behind a full stop. -/
def nextOctet? : List Char → Option (UInt8 × List Char)
  | '.' :: rest => octet? rest
  | _ => none

/-- Reads the address that a text starts with. -/
def read? (text : List Char) : Option (Ipv4 × List Char) := do
  let (first, behindFirst) ← octet? text
  let (second, behindSecond) ← nextOctet? behindFirst
  let (third, behindThird) ← nextOctet? behindSecond
  let (fourth, rest) ← nextOctet? behindThird
  some (⟨first, second, third, fourth⟩, rest)

/-- The four numbers in decimal with full stops between them. -/
def text (address : Ipv4) : String :=
  toString address.first ++ "." ++ toString address.second ++ "." ++ toString address.third ++
    "." ++ toString address.fourth

/-- The two groups that hold the octets of an address. -/
def groups (address : Ipv4) : List UInt16 :=
  [address.first.toUInt16 * 256 + address.second.toUInt16,
    address.third.toUInt16 * 256 + address.fourth.toUInt16]

/-- The address held by two groups. -/
def ofGroups (high low : UInt16) : Ipv4 :=
  ⟨(high / 256).toUInt8, high.toUInt8, (low / 256).toUInt8, low.toUInt8⟩

end Ipv4

/-- Groups read at the start of a text; they may end with an address of four octets. -/
structure Groups where
  values : List UInt16
  endsInOctets : Bool
  rest : List Char

namespace Groups

/-- Reads an item, behind a colon unless it is the first. -/
def item? {Item : Type} (first : Bool) (read? : List Char → Option (Item × List Char))
    (text : List Char) : Option (Item × List Char) :=
  if first then read? text
  else
    match text with
    | ':' :: rest => read? rest
    | _ => none

/-- A group is at most four hexadecimal digits. -/
def group? (text : List Char) : Option (UInt16 × List Char) :=
  if (Numeral.leading 16 text).length > 4 then none
  else (Numeral.read? 16 65536 text).map fun (number, rest) => (UInt16.ofNat number, rest)

/-- Reads groups while there is room. An address of four octets takes the room of two groups and
ends them. -/
def read (first : Bool) : Nat → List Char → Groups
  | 0, text => ⟨[], false, text⟩
  | room + 1, text =>
    match if room = 0 then none else item? first Ipv4.read? text with
    | some (address, rest) => ⟨address.groups, true, rest⟩
    | none =>
      match item? first group? text with
      | none => ⟨[], false, text⟩
      | some (value, behind) =>
        let later := read false room behind
        ⟨value :: later.values, later.endsInOctets, later.rest⟩

/-- Reading never finds more groups than there is room for. -/
theorem length_read_le (first : Bool) (room : Nat) (text : List Char) :
    (read first room text).values.length ≤ room := by
  induction room generalizing first text with
  | zero => simp [read]
  | succ room inductionHypothesis =>
    rw [read]
    split
    · rename_i address rest found
      have two : room ≠ 0 := by
        intro none
        simp [none] at found
      simp only [Ipv4.groups, List.length_cons, List.length_nil]
      omega
    · split
      · simp
      · simpa using inductionHypothesis _ _

end Groups

/-- An address of eight groups. -/
structure Ipv6 where
  groups : List UInt16
  length_groups : groups.length = 8
  deriving DecidableEq, Repr

namespace Ipv6

/-- Reads the address that a text starts with: eight groups, or fewer with two colons in place of
the zero groups that are missing. -/
def read? (text : List Char) : Option (Ipv6 × List Char) :=
  let head := Groups.read true 8 text
  if whole : head.values.length = 8 then some (⟨head.values, whole⟩, head.rest)
  else if head.endsInOctets then none
  else
    match head.rest with
    | ':' :: ':' :: behind =>
      let tail := Groups.read true (7 - head.values.length) behind
      let missing := 8 - head.values.length - tail.values.length
      some (⟨head.values ++ List.replicate missing 0 ++ tail.values, by
        have headFits : head.values.length ≤ 8 := Groups.length_read_le true 8 text
        have tailFits : tail.values.length ≤ 7 - head.values.length :=
          Groups.length_read_le true (7 - head.values.length) behind
        simp only [List.length_append, List.length_replicate]
        omega⟩, tail.rest)
    | _ => none

/-- The start and the length of the first longest run of zero groups, counted from an index. -/
def longestZeros (index : Nat) : List UInt16 → Nat × Nat
  | [] => (index, 0)
  | group :: rest =>
    let here := ((group :: rest).takeWhile (· = 0)).length
    let later := longestZeros (index + 1) rest
    if later.2 > here then later else (index, here)

/-- Groups in lower-case hexadecimal with colons between them. -/
def groupsText (groups : List UInt16) : String :=
  ":".intercalate (groups.map fun group => String.ofList (Nat.toDigits 16 group.toNat))

/-- Groups with their first longest run of at least two zero groups written as two colons. -/
def shortened (groups : List UInt16) : String :=
  let (start, length) := longestZeros 0 groups
  if length > 1 then
    groupsText (groups.take start) ++ "::" ++ groupsText (groups.drop (start + length))
  else groupsText groups

/-- The written form of an address; one that embeds an address of four octets shows it. -/
def text (address : Ipv6) : String :=
  match address.groups with
  | [0, 0, 0, 0, 0, 0xffff, high, low] => "::ffff:" ++ (Ipv4.ofGroups high low).text
  | groups => shortened groups

end Ipv6

inductive IpAddress where
  | v4 (address : Ipv4)
  | v6 (address : Ipv6)
  deriving DecidableEq, Repr

namespace IpAddress

/-- Reads a text that is an address and nothing else. -/
def ofText? (text : String) : Option IpAddress :=
  match Ipv4.read? text.toList, Ipv6.read? text.toList with
  | some (address, []), _ => some (.v4 address)
  | _, some (address, []) => some (.v6 address)
  | _, _ => none

def text : IpAddress → String
  | .v4 address => address.text
  | .v6 address => address.text

end IpAddress

/-- A socket's address is an internet address with a port; the newer kind has a scope too. -/
inductive SocketAddress where
  | v4 (address : Ipv4) (port : UInt16)
  | v6 (address : Ipv6) (scope : UInt32) (port : UInt16)
  deriving DecidableEq, Repr

namespace SocketAddress

/-- An address with a port, in no scope. -/
def ofIp (address : IpAddress) (port : UInt16) : SocketAddress :=
  match address with
  | .v4 address => .v4 address port
  | .v6 address => .v6 address 0 port

/-- Reads a colon and a port that end a text. -/
def port? : List Char → Option UInt16
  | ':' :: rest => (Numeral.ofText? 10 65536 rest).map UInt16.ofNat
  | _ => none

/-- Reads a scope behind a per cent sign, if there is one. -/
def scope (text : List Char) : UInt32 × List Char :=
  match text with
  | '%' :: rest =>
    match Numeral.read? 10 4294967296 rest with
    | some (number, behind) => (UInt32.ofNat number, behind)
    | none => (0, text)
  | _ => (0, text)

/-- Reads an address of four octets and a port. -/
def ofOctetsText? (text : List Char) : Option SocketAddress := do
  let (address, rest) ← Ipv4.read? text
  some (.v4 address (← port? rest))

/-- Reads an address of eight groups in square brackets, with its scope, and a port. -/
def ofGroupsText? : List Char → Option SocketAddress
  | '[' :: inside =>
    (Ipv6.read? inside).bind fun (address, behind) =>
      match scope behind with
      | (number, ']' :: rest) => (port? rest).map (.v6 address number)
      | _ => none
  | _ => none

/-- Reads a text that is a socket's address and nothing else. -/
def ofText? (text : String) : Option SocketAddress :=
  (ofOctetsText? text.toList).or (ofGroupsText? text.toList)

def text : SocketAddress → String
  | .v4 address port => address.text ++ ":" ++ toString port
  | .v6 address scope port =>
    let scopeText := if scope = 0 then "" else "%" ++ toString scope
    "[" ++ address.text ++ scopeText ++ "]:" ++ toString port

end SocketAddress

end CashHerald.Service
