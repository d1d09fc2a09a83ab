import CashHerald.Upgrade.Request

/-!
The first octets of a connection while they come in. Main statements: a request is read from the
octets up to its end, whatever follows them, and of fewer octets nothing can be said yet.
-/

namespace CashHerald.Upgrade

namespace Head

theorem cutBehind?_cons (before : Octets) (byte : UInt8) (rest : Octets) :
    cutBehind? before (byte :: rest) =
      if ending <+: byte :: rest then some (before.reverse, (byte :: rest).drop 4)
      else cutBehind? (byte :: before) rest := by
  split
  · rename_i leads
    obtain ⟨later, same⟩ := leads
    rw [← same]
    rfl
  · rename_i other
    rw [cutBehind?]
    rintro later rfl rfl
    exact other ⟨later, rfl⟩

/-- Whether octets start with a blank line is decided by as many octets. -/
theorem ending_leads_iff {front : Octets} (long : 4 ≤ front.length) (back : Octets) :
    ending <+: front ++ back ↔ ending <+: front :=
  ⟨fun leads => List.prefix_of_prefix_length_le leads (List.prefix_append front back) long,
    fun leads => leads.trans (List.prefix_append front back)⟩

/-- Where the first blank line is does not depend on the octets behind it. -/
theorem cutBehind?_congr {before middle first : Octets}
    (found : cutBehind? before (middle ++ ending ++ first) =
      some (before.reverse ++ middle, first)) (second : Octets) :
    cutBehind? before (middle ++ ending ++ second) = some (before.reverse ++ middle, second) := by
  induction middle generalizing before with
  | nil =>
    rw [List.append_nil]
    rfl
  | cons byte middle inductionHypothesis =>
    have long : 4 ≤ (byte :: middle ++ ending).length := by
      rw [List.length_append]
      exact Nat.le_add_left _ _
    have later (back : Octets) : ¬ ending <+: byte :: middle ++ ending →
        cutBehind? before (byte :: middle ++ ending ++ back) =
          cutBehind? (byte :: before) (middle ++ ending ++ back) := by
      intro other
      rw [← ending_leads_iff long back] at other
      exact (cutBehind?_cons _ _ _).trans (if_neg other)
    have other : ¬ ending <+: byte :: middle ++ ending := by
      intro leads
      rw [← ending_leads_iff long first] at leads
      have here := found.symm.trans ((cutBehind?_cons _ _ _).trans (if_pos leads))
      simp at here
    rw [later first other] at found
    rw [later second other]
    have behind := @inductionHypothesis (byte :: before) (by simpa using found)
    simpa using behind

theorem cut?_congr {front first : Octets} (found : cut? (front ++ ending ++ first) =
    some (front, first)) (second : Octets) :
    cut? (front ++ ending ++ second) = some (front, second) :=
  @cutBehind?_congr [] front first found second

end Head

namespace Reading

/-- A request is a head in front of the first blank line, the line, and the octets that belong to
the request behind it. -/
structure Consists (scheme : String) (request : Request) (front body : Octets) (head : Head) :
    Prop where
  cut : Head.cut? request.raw = some (front, body)
  names : Head.ofOctets? front = some head
  length : body.length = head.bodyLength
  request : request = head.request scheme body request.raw

namespace Consists

variable {scheme : String} {request : Request} {front body : Octets} {head : Head}

theorem raw (consists : Consists scheme request front body head) :
    request.raw = front ++ Head.ending ++ body :=
  Head.cut?_eq_some consists.cut

/-- Whatever follows a head and its blank line is cut off there. -/
theorem cut_front (consists : Consists scheme request front body head) (behind : Octets) :
    Head.cut? (front ++ Head.ending ++ behind) = some (front, behind) :=
  Head.cut?_congr (consists.raw ▸ consists.cut) behind

/-- The octets of a request are read as the request, whatever follows them. -/
theorem ofHead (consists : Consists scheme request front body head) (behind : Octets) :
    ofHead scheme (request.raw ++ behind) = .request request := by
  rw [consists.raw, List.append_assoc, Reading.ofHead, consists.cut_front]
  simp only [consists.names, Octets.splitExactly?, ← consists.length, List.take_left,
    if_pos, ← consists.raw]
  rw [← consists.request]

/-- Of fewer octets than those of the request nothing can be said yet. -/
theorem ofHead_of_short (consists : Consists scheme request front body head) {part later : Octets}
    (same : part ++ later = request.raw) (short : part.length < request.raw.length) :
    Reading.ofHead scheme part = .incomplete := by
  rw [Reading.ofHead]
  rcases cut : Head.cut? part with _ | ⟨otherFront, rest⟩
  · rfl
  · -- The blank line of the part is that of the request, so some of the body is still to come.
    obtain rfl := Head.cut?_eq_some cut
    have whole := Head.cut?_congr cut (rest ++ later)
    rw [← List.append_assoc, same, consists.cut] at whole
    cases whole
    have few : (rest.take head.bodyLength).length ≠ head.bodyLength := by
      have total := consists.length
      have missing := congrArg List.length same
      rw [List.length_append] at total missing
      rw [List.length_take]
      omega
    simp only [consists.names, Octets.splitExactly?, if_neg few]

end Consists

theorem exists_consists_of_ofHead {scheme : String} {data : Octets} {request : Request}
    (read : ofHead scheme data = .request request) :
    request.raw <+: data ∧ ∃ front body head, Consists scheme request front body head := by
  unfold ofHead at read
  rcases cut : Head.cut? data with _ | ⟨front, rest⟩
  · simp [cut] at read
  rcases names : Head.ofOctets? front with _ | head
  · simp [cut, names] at read
  simp only [cut, names, Octets.splitExactly?] at read
  split at read
  · cases read
  · rename_i body behind split
    obtain ⟨length, same⟩ := Option.ite_none_right_eq_some.mp split
    cases same
    cases read
    obtain rfl := Head.cut?_eq_some cut
    refine ⟨?_, front, _, head, ⟨Head.cut?_congr cut _, names, length, rfl⟩⟩
    exact (List.prefix_append_right_inj _).mpr (List.take_prefix _ _)

variable {scheme : String} {request : Request}

theorem exists_consists {data : Octets} (read : of scheme data = .request request) :
    request.raw <+: data ∧ (∃ front body head, Consists scheme request front body head) ∧
      data.head? ≠ some 0x3c := by
  unfold of at read
  split at read
  · unfold ofTag at read
    repeat' split at read
    all_goals cases read
  · rename_i untagged
    exact ⟨(exists_consists_of_ofHead read).1, (exists_consists_of_ofHead read).2, untagged⟩

theorem length_raw_pos {data : Octets} (read : of scheme data = .request request) :
    0 < request.raw.length := by
  obtain ⟨-, ⟨front, body, head, consists⟩, -⟩ := exists_consists read
  rw [consists.raw, List.append_assoc, List.length_append, List.length_append]
  exact Nat.lt_of_lt_of_le (by decide : 0 < Head.ending.length) (by omega)

/-- A request is read from every part of the stream that reaches its end, and of a shorter part
nothing can be said yet. -/
theorem of_part {part later : Octets} (read : of scheme (part ++ later) = .request request) :
    of scheme part =
      if part.length < request.raw.length then .incomplete else .request request := by
  obtain ⟨leads, ⟨front, body, head, consists⟩, untagged⟩ := exists_consists read
  have other : part.head? ≠ some 0x3c := by
    cases part with
    | nil => simp
    | cons byte rest => exact untagged
  rw [of, if_neg other]
  split
  · rename_i short
    have inside : part <+: request.raw :=
      List.prefix_of_prefix_length_le (List.prefix_append part later) leads (Nat.le_of_lt short)
    obtain ⟨missing, same⟩ := inside
    exact consists.ofHead_of_short same short
  · rename_i long
    have reaches : request.raw <+: part :=
      List.prefix_of_prefix_length_le leads (List.prefix_append part later) (Nat.not_lt.mp long)
    obtain ⟨behind, rfl⟩ := reaches
    exact consists.ofHead behind

end Reading

end CashHerald.Upgrade
