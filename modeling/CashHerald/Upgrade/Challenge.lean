import CashHerald.Digest.Md5
import CashHerald.Digest.Sha1
import CashHerald.Text.Base64
import CashHerald.Text.Utf8
import CashHerald.Wire.Fault

/-!
Proofs that a server has read an upgrade request: the digest of a key for the standard dialect, and
of two key numbers and a challenge for the older one. Main statement: an answer has 16 octets.
-/

namespace CashHerald.Upgrade

/-- The key's digest under the name that the standard fixes. -/
def acceptKey (key : String) : String :=
  Base64.encode (Sha1.hash (Utf8.encode key ++
    Utf8.encode "258EAFA5-E914-47DA-95CA-C5AB0DC85B11"))

namespace Challenge

/-- The number written by the digits of a text, if it fits into 64 bits. -/
def digits? (key : List Char) : Option Nat :=
  (key.filter Char.isDigit).foldlM (fun total digit =>
    let next := total * 10 + (digit.toNat - 48)
    if next < UInt64.size then some next else none) 0

/-- The number of a key: its digits as a number, divided by its count of spaces. -/
def keyNumber (key : String) : Except Wire.Refusal UInt32 :=
  let spaces := key.toList.count ' '
  if spaces = 0 then .error (.keyWithoutSpaces key)
  else
    match digits? key.toList with
    | none => .error (.keyOverflow key)
    | some number =>
      if number / spaces < UInt32.size then .ok (UInt32.ofNat (number / spaces))
      else .error (.keyOutOfRange key)

/-- The digest of both key numbers and the challenge. -/
def answer (firstKey secondKey : String) (challenge : Octets) : Except Wire.Refusal Octets := do
  let first ← keyNumber firstKey
  let second ← keyNumber secondKey
  pure (Md5.hash
    (Octets.bigEndian 4 first.toNat ++ Octets.bigEndian 4 second.toNat ++ challenge))

theorem length_answer {firstKey secondKey : String} {challenge result : Octets}
    (found : answer firstKey secondKey challenge = .ok result) : result.length = 16 := by
  unfold answer at found
  cases first : keyNumber firstKey with
  | error refusal =>
    rw [first] at found
    cases found
  | ok firstNumber =>
    cases second : keyNumber secondKey with
    | error refusal =>
      rw [first, second] at found
      cases found
    | ok secondNumber =>
      rw [first, second] at found
      cases found
      exact Md5.length_hash _

end Challenge

end CashHerald.Upgrade
