import CashHerald.Ledger.CompactSize
import CashHerald.Proofs.Ledger.Format

/-!
Octets and items behind their number. Main statements: a number is read in each of its forms, and the
check of a number against what is left to read refuses nothing that could be read to its end.
-/

namespace CashHerald.Ledger

/-- Octets behind their number. -/
def Sized : Format Octets := fun content octets =>
  ∃ size, CompactSize.Written content.length size ∧ octets = size ++ content

/-- Values behind their number, each in its own octets. -/
def Listed {Value : Type} (format : Format Value) : Format (List Value) := fun values octets =>
  ∃ size parts, CompactSize.Written values.length size ∧ List.Forall₂ format values parts ∧
    octets = size ++ parts.flatten

/-- A property of the values is apart from how they are written. -/
theorem listed_and_iff {Value : Type} {format : Format Value} {property : Value → Prop}
    {values : List Value} {octets : Octets} :
    Listed (fun value part => property value ∧ format value part) values octets ↔
      (∀ value ∈ values, property value) ∧ Listed format values octets := by
  simp only [Listed, List.forall₂_and_left]
  constructor
  · intro listed
    obtain ⟨size, parts, announced, ⟨holds, written⟩, whole⟩ := listed
    exact ⟨holds, size, parts, announced, written, whole⟩
  · intro listed
    obtain ⟨holds, size, parts, announced, written, whole⟩ := listed
    exact ⟨size, parts, announced, ⟨holds, written⟩, whole⟩

/-- Values that take at least `smallest` octets each. -/
theorem length_flatten_of_forall₂ {Value : Type} {format : Format Value} {smallest : Nat}
    (bound : ∀ value octets, format value octets → smallest ≤ octets.length)
    {values : List Value} {parts : List Octets} (written : List.Forall₂ format values parts) :
    values.length * smallest ≤ parts.flatten.length := by
  induction written with
  | nil => simp
  | cons first _ inductionHypothesis =>
    have least := bound _ _ first
    rw [List.flatten_cons, List.length_append, List.length_cons, Nat.succ_mul]
    omega

namespace CompactSize

theorem one_le_length {value : Nat} {size : Octets} (written : Written value size) :
    1 ≤ size.length := by
  cases written <;> simp

theorem width?_eq_none_iff {first : UInt8} : width? first = none ↔ first.toNat < 253 := by
  have bound := first.toNat_lt
  have three : first = 0xfd ↔ first.toNat = 253 := UInt8.toNat_inj.symm
  have five : first = 0xfe ↔ first.toNat = 254 := UInt8.toNat_inj.symm
  have nine : first = 0xff ↔ first.toNat = 255 := UInt8.toNat_inj.symm
  simp only [width?, three, five, nine]
  split
  · simp [*]
  · split
    · simp [*]
    · split
      · simp [*]
      · constructor
        · intro _
          omega
        · intro _
          rfl

/-- What stands behind the first octet of a number. -/
def Announced (first : Nat) : Format Nat := fun value octets =>
  match width? (UInt8.ofNat first) with
  | none => value = first ∧ octets = []
  | some width => value < 256 ^ width ∧ octets = Octets.littleEndian width value

theorem reads_announced (first : Nat) :
    Decoder.Reads
      (match width? (UInt8.ofNat first) with
        | none => pure first
        | some width => Decoder.number width)
      (Announced first) := by
  unfold Announced
  cases width? (UInt8.ofNat first) with
  | none => exact Decoder.reads_pure first
  | some width => exact Decoder.reads_number width

/-- Every form of a number is a first octet and what this announces. -/
theorem announced_iff_written {value : Nat} {octets : Octets} :
    (∃ first front back, octets = front ++ back ∧
        (first < 256 ^ 1 ∧ front = Octets.littleEndian 1 first) ∧ Announced first value back) ↔
      Written value octets := by
  unfold Announced
  constructor
  · intro read
    obtain ⟨first, front, back, rfl, ⟨fits, rfl⟩, announced⟩ := read
    have alone : Octets.littleEndian 1 first = [UInt8.ofNat first] := rfl
    have plain : (UInt8.ofNat first).toNat = first := UInt8.toNat_ofNat_of_lt' fits
    rw [alone]
    cases found : width? (UInt8.ofNat first) with
    | none =>
      rw [found] at announced
      obtain ⟨rfl, rfl⟩ := announced
      rw [width?_eq_none_iff, plain] at found
      exact .one found
    | some width =>
      rw [found] at announced
      obtain ⟨fits, rfl⟩ := announced
      unfold width? at found
      split at found
      · rename_i marker
        cases found
        rw [marker]
        exact .three fits
      · split at found
        · rename_i marker
          cases found
          rw [marker]
          exact .five fits
        · split at found
          · rename_i marker
            cases found
            rw [marker]
            exact .nine fits
          · cases found
  · intro written
    cases written with
    | one small =>
      have fits : value < 256 ^ 1 := by omega
      have plain : (UInt8.ofNat value).toNat = value := UInt8.toNat_ofNat_of_lt' fits
      refine ⟨value, [UInt8.ofNat value], [], rfl, ⟨fits, rfl⟩, ?_⟩
      rw [width?_eq_none_iff.mpr (plain.symm ▸ small)]
      exact ⟨rfl, rfl⟩
    | three fits => exact ⟨253, [0xfd], _, rfl, ⟨by decide, rfl⟩, fits, rfl⟩
    | five fits => exact ⟨254, [0xfe], _, rfl, ⟨by decide, rfl⟩, fits, rfl⟩
    | nine fits => exact ⟨255, [0xff], _, rfl, ⟨by decide, rfl⟩, fits, rfl⟩

/-- A number is read in each of its forms. -/
theorem reads_number : number.Reads Written :=
  ((Decoder.reads_number 1).bind reads_announced).congr fun _ _ => announced_iff_written

/-- A number may be written in a longer form than it needs. -/
example : (number (.start [0xfe, 5, 0, 0, 0])).map Prod.fst = .ok 5 := rfl

/-- The check of a number that was announced against what is left behind it. -/
def within (limit : Nat → Nat) (announced : Nat) : Decoder Nat := do
  let left ← Decoder.remaining
  if announced > limit left then throw (.lengthOverflow announced)
  pure announced

/-- The check stays where it is and refuses a number that passes the limit. -/
theorem within_eq (limit : Nat → Nat) (announced : Nat) (cursor : Cursor) :
    within limit announced cursor =
      if announced > limit cursor.rest.length then .error (.lengthOverflow announced)
      else .ok (announced, cursor) := by
  rw [← cursor.remaining_eq]
  change (if announced > limit cursor.remaining then _ else _ : Decoder Nat) cursor = _
  split <;> rfl

/-- A number that is checked against what is left behind it. -/
def checked (limit : Nat → Nat) : Decoder Nat := do
  let announced ← number
  let left ← Decoder.remaining
  if announced > limit left then throw (.lengthOverflow announced)
  pure announced

theorem length_eq_checked : length = checked id := rfl

theorem count_eq_checked (smallest : Nat) : count smallest = checked (· / smallest) := rfl

theorem checked_eq (limit : Nat → Nat) : checked limit = number >>= within limit := rfl

/-- A checked number is one that was read and does not pass the limit. -/
theorem checked_eq_ok_iff {limit : Nat → Nat} {cursor next : Cursor} {announced : Nat} :
    checked limit cursor = .ok (announced, next) ↔
      number cursor = .ok (announced, next) ∧ announced ≤ limit next.rest.length := by
  rw [checked_eq, Decoder.bind_eq_ok_iff]
  simp only [within_eq]
  constructor
  · intro parts
    obtain ⟨value, middle, read, passed⟩ := parts
    split at passed
    · cases passed
    · rename_i within
      cases passed
      exact ⟨read, Nat.not_lt.mp within⟩
  · intro parts
    obtain ⟨read, within⟩ := parts
    exact ⟨announced, next, read, if_neg (Nat.not_lt.mpr within)⟩

section Checked

variable {Other : Type} {limit : Nat → Nat} {next : Nat → Decoder Other}

/-- An early check refuses nothing if what can be read behind the number keeps to the limit. -/
theorem checked_bind_eq_ok_iff
    (room : ∀ {announced cursor result}, next announced cursor = .ok result →
      announced ≤ limit cursor.rest.length) {cursor : Cursor} {result : Other × Cursor} :
    (checked limit >>= next) cursor = .ok result ↔ (number >>= next) cursor = .ok result := by
  obtain ⟨value, last⟩ := result
  rw [Decoder.bind_eq_ok_iff, Decoder.bind_eq_ok_iff]
  constructor
  · intro parts
    obtain ⟨announced, middle, passed, read⟩ := parts
    exact ⟨announced, middle, (checked_eq_ok_iff.mp passed).1, read⟩
  · intro parts
    obtain ⟨announced, middle, numbered, read⟩ := parts
    exact ⟨announced, middle, checked_eq_ok_iff.mpr ⟨numbered, room read⟩, read⟩

theorem reads_checked {format : Format Other} (reads : (number >>= next).Reads format)
    (room : ∀ {announced cursor result}, next announced cursor = .ok result →
      announced ≤ limit cursor.rest.length) :
    (checked limit >>= next).Reads format := by
  intro cursor value last
  rw [checked_bind_eq_ok_iff room]
  exact reads cursor value last

end Checked

/-- No octets that are all there are refused by the check of their number. -/
theorem reads_octets : octets.Reads Sized := by
  rw [octets, length_eq_checked]
  apply reads_checked
  · apply (reads_number.bind Decoder.reads_take).congr
    intro content octets
    constructor
    · intro read
      obtain ⟨announced, size, back, whole, written, rfl, rfl⟩ := read
      exact ⟨size, written, whole⟩
    · intro sized
      obtain ⟨size, written, whole⟩ := sized
      exact ⟨content.length, size, content, whole, written, rfl, rfl⟩
  · intro announced cursor result taken
    exact (Decoder.take_eq_ok_iff.mp taken).1

/-- No items that are all there are refused by the check of their number, if each of them takes at
least as many octets as the check expects. -/
theorem reads_list {Value : Type} {item : Decoder Value} {format : Format Value} {smallest : Nat}
    (reads : item.Reads format) (positive : 0 < smallest)
    (bound : ∀ value octets, format value octets → smallest ≤ octets.length) :
    (list smallest item).Reads (Listed format) := by
  rw [list, count_eq_checked]
  apply reads_checked
  · apply (reads_number.bind (Decoder.reads_items reads)).congr
    intro values octets
    constructor
    · intro read
      obtain ⟨announced, size, back, whole, written, rfl, parts, others, rfl⟩ := read
      exact ⟨size, parts, written, others, whole⟩
    · intro listed
      obtain ⟨size, parts, written, others, whole⟩ := listed
      exact ⟨values.length, size, _, whole, written, rfl, parts, others, rfl⟩
  · intro announced cursor result listed
    obtain ⟨values, last⟩ := result
    obtain ⟨octets, leads, ⟨rfl, parts, written, rfl⟩, rfl⟩ :=
      (Decoder.reads_items reads announced cursor values last).mp listed
    have fits := Nat.le_trans (length_flatten_of_forall₂ bound written) leads.length_le
    exact (Nat.le_div_iff_mul_le positive).mpr fits

end CompactSize

theorem one_le_length_of_sized {content octets : Octets} (sized : Sized content octets) :
    1 ≤ octets.length := by
  obtain ⟨size, written, rfl⟩ := sized
  have least := CompactSize.one_le_length written
  rw [List.length_append]
  omega

theorem one_le_length_of_listed {Value : Type} {format : Format Value} {values : List Value}
    {octets : Octets} (listed : Listed format values octets) : 1 ≤ octets.length := by
  obtain ⟨size, parts, written, -, rfl⟩ := listed
  have least := CompactSize.one_le_length written
  rw [List.length_append]
  omega

end CashHerald.Ledger
