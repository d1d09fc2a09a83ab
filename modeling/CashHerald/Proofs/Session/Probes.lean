import CashHerald.Proofs.Session.Handshake
import CashHerald.Proofs.Session.Reads
import CashHerald.Proofs.Upgrade.Probing

/-!
What becomes of policy probes in reads. Main statement: what is a probe stays one, and so does what
is invalid and starts no probe; but a part of a probe is invalid already when the probe has blanks
or a long s, so that every cut of a probe is answered only if it has neither.
-/

namespace CashHerald.Session

open Upgrade (Reading PolicyProbe.Probe PolicyProbe.tag)

section Parts

variable {settings : Settings} {text : String} {part later : Octets}

theorem of_part_of_probe (probe : PolicyProbe.Probe text) (cut : part ++ later = Utf8.encode text)
    (missing : later ≠ []) (begun : part ≠ []) :
    Reading.of settings.scheme part =
      if part.length < PolicyProbe.tag.length + 2 ∧ 0xc5 ∉ part.take PolicyProbe.tag.length then
        .incomplete
      else .invalid := by
  have tagged : part.head? = some 0x3c := by
    rw [← probe.head?, ← cut]
    exact (List.head?_append_of_ne_nil _ begun).symm
  rw [Reading.of_of_tagged tagged, Reading.ofTag_part probe cut missing]

/-- Of a part of a probe nothing can be said yet if the probe is as short as can be and the limit
lets all of it but one octet in. -/
theorem undecided_of_part (probe : PolicyProbe.Probe text)
    (shortest : (Utf8.encode text).length = PolicyProbe.tag.length + 2)
    (fits : PolicyProbe.tag.length < settings.handshakeLimit)
    (cut : part ++ later = Utf8.encode text) (missing : later ≠ []) :
    Undecided settings part := by
  by_cases nothing : part = []
  · rw [nothing]
    exact undecided_nil settings
  · have sized := congrArg List.length cut
    have positive := List.length_pos_iff.mpr missing
    rw [List.length_append, shortest] at sized
    have free : 0xc5 ∉ part.take PolicyProbe.tag.length := by
      intro mem
      have whole := probe.length_le.2 shortest
      rw [← cut, List.take_append] at whole
      exact whole (List.mem_append_left _ mem)
    refine ⟨?_, by omega⟩
    rw [of_part_of_probe probe cut missing nothing]
    exact if_pos ⟨by omega, free⟩

/-- Otherwise a probe is refused before its last octet has come in. -/
theorem refused_of_part (probe : PolicyProbe.Probe text)
    (other : ¬ ((Utf8.encode text).length = PolicyProbe.tag.length + 2 ∧
      PolicyProbe.tag.length < settings.handshakeLimit)) :
    Verdict.of settings (Utf8.encode text).dropLast = .refused := by
  have long := probe.length_le.1
  have whole : Utf8.encode text ≠ [] := List.ne_nil_of_length_pos (by omega)
  have sized : (Utf8.encode text).dropLast.length = _ := List.length_dropLast
  have begun : (Utf8.encode text).dropLast ≠ [] := List.ne_nil_of_length_pos (by omega)
  have read := @of_part_of_probe settings text _ _ probe (List.dropLast_append_getLast whole)
    (List.cons_ne_nil _ _) begun
  rw [Verdict.of, read]
  by_cases early : (Utf8.encode text).dropLast.length < PolicyProbe.tag.length + 2 ∧
      0xc5 ∉ (Utf8.encode text).dropLast.take PolicyProbe.tag.length
  · have tooLong : settings.handshakeLimit < (Utf8.encode text).dropLast.length := by omega
    simp only [if_pos early, if_pos tooLong]
  · simp only [if_neg early]

end Parts

namespace Moment

variable {Memory : Type} {handler : Handler Memory} {settings : Settings} {client : Nat}
  {memory : Memory} {reads : List Octets} {ending : Ending} {last : Moment Memory}
  {text : String} {data more : Octets}

/-- The policy is written to a client, and nothing else, and the session is over. -/
structure Answered (last : Moment Memory) : Prop where
  untold : last.callbacks = []
  written : last.written = Utf8.encode Upgrade.PolicyProbe.response
  ended : last.Over

theorem recognised_of_probe (probe : PolicyProbe.Probe text)
    (shortest : (Utf8.encode text).length = PolicyProbe.tag.length + 2)
    (fits : PolicyProbe.tag.length < settings.handshakeLimit)
    (same : reads.flatten = Utf8.encode text ++ more) :
    Recognised settings reads .policyProbe := by
  have tagged (front rest : Octets) (cut : front = Utf8.encode text ++ rest) :
      Reading.of settings.scheme front = .policyProbe := by
    have starts : front.head? = some 0x3c := by
      rw [cut, List.head?_append, probe.head?]
      rfl
    rw [Reading.of_of_tagged starts, Reading.ofTag_eq_policyProbe_iff]
    exact Upgrade.PolicyProbe.isProbe_iff.mpr ⟨text, rest, probe, cut⟩
  rcases undecided_or_decided settings reads with undecided | ⟨front, leads, decided, first⟩
  · have incomplete := (undecided reads List.prefix_rfl).1
    rw [tagged _ _ same] at incomplete
    cases incomplete
  · refine ⟨front, leads, ?_, first⟩
    obtain ⟨behind, rfl⟩ := leads
    rw [List.flatten_append] at same
    rcases List.append_eq_append_iff.mp same with ⟨later, cut, -⟩ | ⟨rest, cut, -⟩
    · by_cases missing : later = []
      · rw [missing, List.append_nil] at cut
        exact tagged _ [] (by rw [cut, List.append_nil])
      · exact absurd (undecided_of_part probe shortest fits cut.symm missing) decided
    · exact tagged _ rest cut

/-- Every cut of a stream that starts with a probe is answered exactly if the probe has neither
blanks nor a long s and the limit lets all of it but one octet in. -/
theorem answered_iff (probe : PolicyProbe.Probe text) :
    (∀ reads ending last, reads.flatten = Utf8.encode text ++ more →
      Settled handler settings client memory reads ending last → last.Answered) ↔
    (Utf8.encode text).length = PolicyProbe.tag.length + 2 ∧
      PolicyProbe.tag.length < settings.handshakeLimit := by
  constructor
  · intro always
    by_contra other
    have whole : Utf8.encode text ≠ [] := by
      have starts := probe.head?
      rintro nothing
      rw [nothing] at starts
      cases starts
    let cut : List Octets := [(Utf8.encode text).dropLast, (Utf8.encode text).getLast whole :: more]
    have same : cut.flatten = Utf8.encode text ++ more := by
      have joined := congrArg (· ++ more) (List.dropLast_append_getLast whole)
      simpa [cut] using joined
    obtain ⟨last, settled⟩ := Settled.exists_settled handler settings client memory cut .stays
    have refused : Verdict.ofArrivals settings (cut.map .data ++ Ending.stays.arrivals) =
        .refused := by
      have first : Verdict.hear settings (.undecided []) (.data (Utf8.encode text).dropLast) =
          .refused := refused_of_part probe other
      rw [Verdict.ofArrivals, List.map_cons, List.cons_append, List.foldl_cons, first]
      exact Verdict.foldl_hear (by simp) _
    have written := (settled.dismissed (congrArg Verdict.dismissal? refused)).2.1
    rw [(always cut .stays last same settled).written] at written
    exact absurd written (by decide +kernel)
  · rintro ⟨shortest, fits⟩ reads ending last same settled
    have recognised := recognised_of_probe probe shortest fits same
    obtain ⟨untold, written, ended⟩ := settled.outcome.probed recognised
    exact ⟨untold, written, ended⟩

/-- Octets that start like a probe are one if they start with its text, and then so are all that go
on from them. Those that are invalid stay so exactly if no probe starts with them; a part of a probe
is incomplete only while it is shorter than every probe and without an octet of a long s, and
invalid otherwise. So every cut of a probe is answered exactly if the probe is as short as can
be, for all limits that let its parts in. -/
theorem of_tagged (handler : Handler Memory) (settings : Settings) (client : Nat) (memory : Memory)
    (tagged : data.head? = some 0x3c) :
    (Reading.of settings.scheme data = .policyProbe ↔
      ∃ text rest, PolicyProbe.Probe text ∧ data = Utf8.encode text ++ rest) ∧
    (Reading.of settings.scheme data = .policyProbe →
      ∀ more, Reading.of settings.scheme (data ++ more) = .policyProbe) ∧
    (Reading.of settings.scheme data = .invalid →
      ((∀ more, Reading.of settings.scheme (data ++ more) = .invalid) ↔
        ∀ text, PolicyProbe.Probe text → ¬ data <+: Utf8.encode text)) ∧
    (∀ text later, PolicyProbe.Probe text → data ++ later = Utf8.encode text → later ≠ [] →
      Reading.of settings.scheme data =
        if data.length < PolicyProbe.tag.length + 2 ∧ 0xc5 ∉ data.take PolicyProbe.tag.length then
          .incomplete
        else .invalid) ∧
    ∀ text rest, PolicyProbe.Probe text → data = Utf8.encode text ++ rest →
      ((∀ reads ending last, reads.flatten = data →
        Settled handler settings client memory reads ending last → last.Answered) ↔
      (Utf8.encode text).length = PolicyProbe.tag.length + 2 ∧
        PolicyProbe.tag.length < settings.handshakeLimit) := by
  have extended (more : Octets) : Reading.of settings.scheme (data ++ more) =
      Reading.ofTag (data ++ more) := by
    refine Reading.of_of_tagged ?_
    rw [List.head?_append, tagged]
    rfl
  simp only [Reading.of_of_tagged tagged, extended]
  refine ⟨Reading.ofTag_eq_policyProbe_iff.trans Upgrade.PolicyProbe.isProbe_iff,
    Reading.ofTag_append_of_probe, Reading.ofTag_append_of_invalid_iff,
    fun text later probe cut missing => Reading.ofTag_part probe cut missing, ?_⟩
  rintro text rest probe rfl
  exact answered_iff probe

/-- The shortest probe is answered in every cut. -/
theorem answered_shortest : (Utf8.encode "<policy-file-request/>").head? = some 0x3c ∧
    ∀ reads ending last, reads.flatten = Utf8.encode "<policy-file-request/>" →
      Settled greeter ⟨"ws", [], 100⟩ 0 () reads ending last → last.Answered := by
  have tagged : (Utf8.encode "<policy-file-request/>").head? = some 0x3c := by decide +kernel
  have probe : PolicyProbe.Probe "<policy-file-request/>" :=
    ⟨PolicyProbe.tag, [], by decide +kernel, List.forall₂_same.mpr fun _ _ => .inl rfl, by simp⟩
  obtain ⟨-, -, -, -, answered⟩ := of_tagged greeter ⟨"ws", [], 100⟩ 0 () tagged
  refine ⟨tagged, (answered _ [] probe (List.append_nil _).symm).mpr ?_⟩
  decide +kernel

/-- A probe with two blanks is invalid when its end is still to come. -/
theorem invalid_blanks :
    Reading.of "ws" (Utf8.encode "<policy-file-request  ") = .invalid ∧
      Reading.of "ws" (Utf8.encode "<policy-file-request  " ++ Utf8.encode "/>") =
        .policyProbe := by
  decide +kernel

end Moment

end CashHerald.Session
