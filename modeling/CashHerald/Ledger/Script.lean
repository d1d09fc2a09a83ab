import CashHerald.Octets.Basic

/-!
Locking scripts: the standard templates, the hash that some of them carry, and the data pushed
behind the operation that marks a data output. Main statements: a push is shorter than the script
it is read from, and gathering pushes keeps the ones gathered before.
-/

namespace CashHerald.Ledger

/-- A hash of 160 bits names a destination. -/
structure Hash160 where
  octets : Octets
  length_octets : octets.length = 20
  deriving DecidableEq, Repr

/-- A standard form of a locking script, with the hash that it carries. -/
inductive Template where
  | payToKeyHash (hash : Hash160)
  | payToScriptHash (hash : Hash160)
  | payToKey
  | data
  | other
  deriving DecidableEq, Repr

/-- The short name of a template. -/
def Template.label : Template → String
  | .payToKeyHash _ => "P2PKH"
  | .payToScriptHash _ => "P2SH"
  | .payToKey => "P2PK"
  | .data => "DATA"
  | .other => "OTHER"

/-- The hash carried by a template. -/
def Template.hash? : Template → Option Hash160
  | .payToKeyHash hash => some hash
  | .payToScriptHash hash => some hash
  | _ => none

namespace Script

/-- The operation that marks a data output. -/
def dataMark : UInt8 := 0x6a

/-- The octets between a fixed front and a fixed back. -/
def between? (front back script : Octets) : Option Octets :=
  if front.isPrefixOf script ∧ back.isSuffixOf script ∧
      front.length + back.length ≤ script.length then
    some ((script.drop front.length).take (script.length - front.length - back.length))
  else none

/-- The hash between a fixed front and a fixed back. -/
def hashBetween? (front back script : Octets) : Option Hash160 :=
  match between? front back script with
  | none => none
  | some middle => if exact : middle.length = 20 then some ⟨middle, exact⟩ else none

/-- A script that pushes a public key of either length and checks a signature against it. -/
def isPayToKey (script : Octets) : Bool :=
  (between? [33] [0xac] script).any (·.length = 33) ||
    (between? [65] [0xac] script).any (·.length = 65)

/-- The template of a locking script. -/
def template (script : Octets) : Template :=
  match hashBetween? [0x76, 0xa9, 20] [0x88, 0xac] script with
  | some hash => .payToKeyHash hash
  | none =>
    match hashBetween? [0xa9, 20] [0x87] script with
    | some hash => .payToScriptHash hash
    | none =>
      if script.head? = some dataMark then .data
      else if isPayToKey script then .payToKey
      else .other

/-- A payload behind its little-endian length of `width` octets, and the rest. -/
def sized? (width : Nat) (script : Octets) : Option (Octets × Octets) :=
  match Octets.splitExactly? width script with
  | none => none
  | some (field, rest) => Octets.splitExactly? (Octets.ofLittleEndian field) rest

/-- The payload of the push that a script starts with, and the rest. -/
def push? : Octets → Option (Octets × Octets)
  | [] => none
  | operation :: rest =>
    if 1 ≤ operation ∧ operation ≤ 0x4b then Octets.splitExactly? operation.toNat rest
    else if operation = 0x4c then sized? 1 rest
    else if operation = 0x4d then sized? 2 rest
    else if operation = 0x4e then sized? 4 rest
    else none

theorem length_rest_of_splitExactly? {count : Nat} {script payload rest : Octets}
    (split : Octets.splitExactly? count script = some (payload, rest)) :
    rest.length ≤ script.length := by
  obtain ⟨rfl, -⟩ := Octets.splitExactly?_eq_some_iff.mp split
  simp

theorem length_rest_of_sized? {width : Nat} {script payload rest : Octets}
    (found : sized? width script = some (payload, rest)) : rest.length ≤ script.length := by
  unfold sized? at found
  split at found
  · cases found
  · rename_i field later split
    exact Nat.le_trans (length_rest_of_splitExactly? found) (length_rest_of_splitExactly? split)

/-- What follows a push is shorter than the script. -/
theorem length_rest_of_push? {script payload rest : Octets}
    (found : push? script = some (payload, rest)) : rest.length < script.length := by
  cases script with
  | nil => cases found
  | cons operation later =>
    apply Nat.lt_succ_of_le
    simp only [push?] at found
    split at found
    · exact length_rest_of_splitExactly? found
    · split at found
      · exact length_rest_of_sized? found
      · split at found
        · exact length_rest_of_sized? found
        · split at found
          · exact length_rest_of_sized? found
          · cases found

/-- The payloads of the pushes that a script starts with, behind those gathered earlier, the latest
first. Nothing more is gathered when there is no room for another octet. -/
def pushesBehind (earlier : List Octets) (room : Nat) (script : Octets) : List Octets :=
  if room = 0 then earlier.reverse
  else
    match _found : push? script with
    | none => earlier.reverse
    | some (payload, rest) => pushesBehind (payload :: earlier) (room - payload.length) rest
termination_by script.length
decreasing_by exact length_rest_of_push? _found

/-- The payloads of the pushes that a script starts with, as far as there is room for octets. -/
def pushes (room : Nat) (script : Octets) : List Octets :=
  pushesBehind [] room script

/-- The first `limit` octets pushed behind the data mark, if the script starts with it. -/
def embeddedData? (limit : Nat) : Octets → Option Octets
  | [] => none
  | operation :: rest =>
    if operation = dataMark then some ((pushes limit rest).flatten.take limit) else none

theorem pushesBehind_eq (earlier : List Octets) (room : Nat) (script : Octets) :
    pushesBehind earlier room script = earlier.reverse ++ pushes room script := by
  unfold pushes
  induction size : script.length using Nat.strongRecOn generalizing script earlier room with
  | ind bound inductionHypothesis =>
    subst size
    rw [pushesBehind.eq_def earlier, pushesBehind.eq_def []]
    split
    · simp
    · split
      · simp
      · rename_i payload rest found
        have shorter := length_rest_of_push? found
        rw [inductionHypothesis _ shorter (payload :: earlier) _ rest rfl,
          inductionHypothesis _ shorter [payload] _ rest rfl]
        simp

theorem pushes_of_push?_eq_none {script : Octets} (found : push? script = none) (room : Nat) :
    pushes room script = [] := by
  rw [pushes, pushesBehind]
  split
  · rfl
  · split
    · rfl
    · simp_all

/-- The first payload comes before those of the rest, for which there is less room. -/
theorem pushes_of_push?_eq_some {script payload rest : Octets}
    (found : push? script = some (payload, rest)) {room : Nat} (some : room ≠ 0) :
    pushes room script = payload :: pushes (room - payload.length) rest := by
  rw [pushes, pushesBehind, if_neg some]
  split
  · simp_all
  · rename_i otherPayload otherRest otherFound
    rw [found] at otherFound
    cases otherFound
    exact pushesBehind_eq [payload] _ rest

end Script

end CashHerald.Ledger
