import CashHerald.Address.Basic
import CashHerald.Address.Checksum
import CashHerald.Address.Regroup
import CashHerald.Octets.Hex
import CashHerald.Text.Blank
import CashHerald.Text.Pieces

/-!
Addresses as text: a network name, a colon, and in 32 characters a version, the hash and a
checksum that covers the network name too.
-/

namespace CashHerald

/-- An address error names what is wrong with a text. -/
inductive AddressError where
  | empty
  | mixedCase
  | invalidCharacter (character : Char)
  | checksumMismatch
  | unsupportedVersion (version : UInt8)
  | invalidLength (length : Nat)
  | invalidPadding
  deriving DecidableEq, Repr

/-- The text of an address error. -/
def AddressError.message : AddressError → String
  | .empty => "address is empty"
  | .mixedCase => "address mixes upper and lower case"
  | .invalidCharacter character => s!"invalid character '{character}'"
  | .checksumMismatch => "checksum mismatch"
  | .unsupportedVersion version => "unsupported version byte 0x" ++ Hex.encode [version]
  | .invalidLength length => s!"invalid payload length {length}"
  | .invalidPadding => "invalid padding"

/-- The version octet of a kind, for hashes of 160 bits. -/
def AddressKind.version : AddressKind → UInt8
  | .keyHash => 0
  | .scriptHash => 8

namespace Address

/-- The character at each value of five bits. -/
def alphabet : List Char :=
  "qpzry9x8gf2tvdw0s3jn54khce6mua7l".toList

def symbol (group : UInt8) : Char :=
  alphabet.getD group.toNat 'q'

def symbolValue? (character : Char) : Option UInt8 :=
  (alphabet.idxOf? character).map UInt8.ofNat

/-- The kind named by a version octet. -/
def kindOfVersion? (version : UInt8) : Option AddressKind :=
  if version = AddressKind.version .keyHash then some .keyHash
  else if version = AddressKind.version .scriptHash then some .scriptHash
  else none

/-- The groups of an address without its checksum. -/
def payload (address : Address) : List UInt8 :=
  (Regroup.toGroups? (AddressKind.version address.kind :: address.hash.octets)).getD []

/-- The text of an address. -/
def encode (address : Address) : String :=
  let payload := address.payload
  let groups := payload ++ Checksum.make address.network payload
  String.ofList (address.network.toList ++ ':' :: groups.map symbol)

/-- The network name and the payload of a text in lower case. -/
def separate (defaultNetwork : String) (text : List Char) : List Char × List Char :=
  match Pieces.splitFirst? ':' text with
  | some parts => parts
  | none => (Letters.lower defaultNetwork.toList, text)

/-- The values of characters behind those read so far, the latest first. -/
def groupsBehind (earlier : List UInt8) : List Char → Except AddressError (List UInt8)
  | [] => .ok earlier.reverse
  | character :: rest =>
    match symbolValue? character with
    | none => .error (.invalidCharacter character)
    | some group => groupsBehind (group :: earlier) rest

/-- The address that a version and a hash name on a network. -/
def ofVersioned (network : String) : Octets → Except AddressError Address
  | [] => .error (.invalidLength 0)
  | version :: hash =>
    match kindOfVersion? version with
    | none => .error (.unsupportedVersion version)
    | some kind =>
      if exact : hash.length = 20 then .ok ⟨network, kind, ⟨hash, exact⟩⟩
      else .error (.invalidLength hash.length)

/-- The address that groups with a checksum name on a network. -/
def ofGroups (network : String) (groups : List UInt8) : Except AddressError Address :=
  if groups.length ≤ Checksum.size then .error (.invalidLength groups.length)
  else if Checksum.verify network groups = false then .error .checksumMismatch
  else
    match Regroup.ofGroups? (groups.take (groups.length - Checksum.size)) with
    | none => .error .invalidPadding
    | some versioned => ofVersioned network versioned

/-- The address written by a text in lower case without blanks around it. -/
def decodeFolded (defaultNetwork : String) (text : List Char) : Except AddressError Address :=
  let (network, symbols) := separate defaultNetwork text
  if network = [] ∨ symbols = [] then .error .empty
  else
    match groupsBehind [] symbols with
    | .error reason => .error reason
    | .ok groups => ofGroups (String.ofList network) groups

/-- The address written by a text, with or without a network name. -/
def decode (defaultNetwork : String) (text : String) : Except AddressError Address :=
  let trimmed := Blank.trim text.toList
  if trimmed = [] then .error .empty
  else if Letters.hasLower trimmed ∧ Letters.hasUpper trimmed then .error .mixedCase
  else decodeFolded defaultNetwork (Letters.lower trimmed)

end Address

end CashHerald
