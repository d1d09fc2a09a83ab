import CashHerald.Proofs.Session.Handshake
import CashHerald.Proofs.Session.Reads
import CashHerald.Proofs.Upgrade.Grammar
import CashHerald.Proofs.Upgrade.Probing

/-!
The limit on a handshake. It is tested behind a read that leaves the request incomplete, and not
behind the read that completes it. Main statement: a connection opens exactly if no read ends behind
the limit and in front of the end of its request, so that a request can be longer than the limit by
as much as is left of it for one read.
-/

namespace CashHerald.Session

open Upgrade (Reading)

/-- The reads that leave a request incomplete leave it within the limit. -/
def Tolerated (settings : Settings) (reads : List Octets) (request : Upgrade.Request) : Prop :=
  ∀ front, front <+: reads → front.flatten.length < request.raw.length →
    front.flatten.length ≤ settings.handshakeLimit

section Reads

variable {settings : Settings} {reads : List Octets} {request : Upgrade.Request}

/-- A request is recognised exactly if the stream starts with it and none of the reads in front of
its end goes beyond the limit. -/
theorem recognised_request_iff : Recognised settings reads (.request request) ↔
    Reading.of settings.scheme reads.flatten = .request request ∧
      Tolerated settings reads request := by
  constructor
  · rintro ⟨front, ⟨rest, rfl⟩, read, first⟩
    refine ⟨?_, fun early leads short => ?_⟩
    · rw [List.flatten_append]
      exact Reading.of_append_of_request read rest.flatten
    · have reaches := (Reading.exists_consists read).1.length_le
      have shorter : early.flatten.length < front.flatten.length := short.trans_le reaches
      have inside : early <+: front := by
        refine (List.prefix_or_prefix_of_prefix leads (List.prefix_append front rest)).resolve_right
          fun longer => ?_
        exact Nat.not_le_of_gt shorter longer.flatten.length_le
      exact (first early inside (by rintro rfl; exact Nat.lt_irrefl _ shorter)).2
  · rintro ⟨read, tolerated⟩
    rcases undecided_or_decided settings reads with undecided | ⟨front, leads, decided, first⟩
    · have incomplete := (undecided reads List.prefix_rfl).1
      rw [read] at incomplete
      cases incomplete
    · have within := tolerated front leads
      refine ⟨front, leads, ?_, first⟩
      obtain ⟨behind, rfl⟩ := leads
      rw [List.flatten_append] at read
      rw [Reading.of_part read]
      refine if_neg fun short => decided ⟨?_, within short⟩
      rw [Reading.of_part read, if_pos short]

/-- Reads within the limit may be followed by any read that completes the request. -/
theorem tolerated_concat {read : Octets} (within : reads.flatten.length ≤ settings.handshakeLimit)
    (reaches : request.raw.length ≤ reads.flatten.length + read.length) :
    Tolerated settings (reads ++ [read]) request := by
  intro front leads short
  rcases List.prefix_concat_iff.mp leads with rfl | earlier
  · rw [List.flatten_append, List.flatten_singleton, List.length_append] at short
    exact absurd reaches (Nat.not_le.mpr short)
  · exact earlier.flatten.length_le.trans within

/-- One of the reads is the first with which a stream has some length. -/
theorem exists_completing {length : Nat} (positive : 0 < length)
    (reaches : length ≤ reads.flatten.length) : ∃ front read, front ++ [read] <+: reads ∧
      front.flatten.length < length ∧ length ≤ front.flatten.length + read.length := by
  induction reads using List.reverseRecOn with
  | nil => exact absurd (positive.trans_le reaches) (Nat.lt_irrefl 0)
  | append_singleton reads read inductionHypothesis =>
    by_cases short : reads.flatten.length < length
    · rw [List.flatten_append, List.flatten_singleton, List.length_append] at reaches
      exact ⟨reads, read, List.prefix_rfl, short, reaches⟩
    · obtain ⟨front, other, leads, parts⟩ := inductionHypothesis (Nat.not_lt.mp short)
      exact ⟨front, other, leads.trans (List.prefix_append _ _), parts⟩

/-- Octets that are read as a probe stay one, whatever follows them. -/
theorem of_append_of_policyProbe {scheme : String} {data : Octets}
    (read : Reading.of scheme data = .policyProbe) (more : Octets) :
    Reading.of scheme (data ++ more) = .policyProbe := by
  by_cases tagged : data.head? = some 0x3c
  · have still : (data ++ more).head? = some 0x3c := by
      rw [List.head?_append, tagged]
      rfl
    rw [Reading.of_of_tagged tagged] at read
    rw [Reading.of_of_tagged still, Reading.ofTag_append_of_probe read]
  · rw [Reading.of, if_neg tagged] at read
    exact absurd read Reading.ofHead_ne_policyProbe

/-- Nothing is recognised behind a read that leaves something incomplete beyond the limit. -/
theorem not_recognised_of_excess {reading : Reading} {front : List Octets}
    (leads : front <+: reads)
    (incomplete : Reading.of settings.scheme front.flatten = .incomplete)
    (excess : settings.handshakeLimit < front.flatten.length)
    (kept : ∀ early more, Reading.of settings.scheme early = reading →
      Reading.of settings.scheme (early ++ more) = reading)
    (named : reading ≠ .incomplete) : ¬ Recognised settings reads reading := by
  rintro ⟨other, otherLeads, read, first⟩
  rcases List.prefix_or_prefix_of_prefix leads otherLeads with shorter | ⟨rest, rfl⟩
  · by_cases same : front = other
    · rw [same, read] at incomplete
      exact named incomplete
    · exact Nat.not_lt.mpr (first front shorter same).2 excess
  · rw [List.flatten_append, kept _ _ read] at incomplete
    exact named incomplete

end Reads

namespace Moment

variable {Memory : Type} {handler : Handler Memory} {settings : Settings} {client : Nat}
  {memory : Memory} {reads : List Octets} {ending : Ending} {last : Moment Memory}

namespace Settled

/-- A connection opens exactly if the stream starts with a request that can be answered, and the
reads that leave it incomplete leave it within the limit. -/
theorem heard_iff (settled : Settled handler settings client memory reads ending last) :
    last.callbacks ≠ [] ↔ ∃ request dialect subProtocol,
      Reading.of settings.scheme reads.flatten = .request request ∧
        request.Eligible settings.subProtocols dialect subProtocol ∧
          Tolerated settings reads request := by
  constructor
  · intro heard
    obtain ⟨request, dialect, subProtocol, recognised, eligible⟩ := settled.outcome.heard heard
    obtain ⟨read, tolerated⟩ := recognised_request_iff.mp recognised
    exact ⟨request, dialect, subProtocol, read, eligible, tolerated⟩
  · rintro ⟨request, dialect, subProtocol, read, eligible, tolerated⟩ silent
    obtain ⟨response, -, -, -, told, -⟩ := settled.outcome.opened request dialect subProtocol
      (recognised_request_iff.mpr ⟨read, tolerated⟩) eligible
    rw [silent] at told
    cases told

/-- A connection is dropped with the first read that leaves something incomplete beyond the
limit. -/
theorem dropped_of_excess (settled : Settled handler settings client memory reads ending last)
    {front : List Octets} (leads : front <+: reads)
    (incomplete : Reading.of settings.scheme front.flatten = .incomplete)
    (excess : settings.handshakeLimit < front.flatten.length) :
    last.callbacks = [] ∧ last.written = [] ∧ last.Over := by
  have silent : last.callbacks = [] := by
    by_contra heard
    obtain ⟨request, -, -, recognised, -⟩ := settled.outcome.heard heard
    exact not_recognised_of_excess leads incomplete excess
      (fun early more read => Reading.of_append_of_request read more) (by simp) recognised
  have unprobed : ¬ Recognised settings reads .policyProbe :=
    not_recognised_of_excess leads incomplete excess
      (fun early more read => of_append_of_policyProbe read more) (by simp)
  obtain ⟨blank, undecided | ended⟩ := settled.outcome.otherwise silent unprobed
  · exact absurd (undecided.1 front leads).2 (Nat.not_le.mpr excess)
  · exact ⟨silent, blank, ended⟩

end Settled

/-- The limit on a handshake drops a connection with the first read that leaves something incomplete
beyond it, and with no other read: a connection opens exactly if its stream starts with a request
that can be answered and no read ends behind the limit and in front of the end of the request. So a
request that opens a connection goes beyond the limit with the read that completes it at most. -/
theorem exists_settled_limited (handler : Handler Memory) (settings : Settings) (client : Nat)
    (memory : Memory) (reads : List Octets) (ending : Ending) :
    (∃ last, Settled handler settings client memory reads ending last) ∧
      ∀ last, Settled handler settings client memory reads ending last →
        (∀ front, front <+: reads →
          Reading.of settings.scheme front.flatten = .incomplete →
            settings.handshakeLimit < front.flatten.length →
              last.callbacks = [] ∧ last.written = [] ∧ last.Over) ∧
        (last.callbacks ≠ [] ↔ ∃ request dialect subProtocol,
          Reading.of settings.scheme reads.flatten = .request request ∧
            request.Eligible settings.subProtocols dialect subProtocol ∧
              Tolerated settings reads request) ∧
        ∀ request, Reading.of settings.scheme reads.flatten = .request request →
          last.callbacks ≠ [] → ∃ front read, front ++ [read] <+: reads ∧
            front.flatten.length ≤ settings.handshakeLimit ∧
            front.flatten.length < request.raw.length ∧
            request.raw.length ≤ front.flatten.length + read.length := by
  refine ⟨Settled.exists_settled handler settings client memory reads ending,
    fun last settled => ⟨fun front leads => settled.dropped_of_excess leads, settled.heard_iff,
      fun request read heard => ?_⟩⟩
  obtain ⟨other, -, -, otherRead, -, tolerated⟩ := settled.heard_iff.mp heard
  obtain rfl : request = other := by simpa using read.symm.trans otherRead
  obtain ⟨front, final, leads, short, reaches⟩ := exists_completing
    (Reading.length_raw_pos read) (Reading.exists_consists read).1.length_le
  have earlier : front <+: reads := (List.prefix_append front [final]).trans leads
  exact ⟨front, final, leads, tolerated front earlier short, short, reaches⟩

theorem length_raw_knock : knock.raw.length = 90 := by
  decide +kernel

theorem read_knock : Reading.of "ws" knock.raw = .request knock := by
  decide +kernel

theorem eligible_knock : knock.Eligible [] .hybi13 none where
  version := ⟨"13", by decide, .version (by decide +kernel)⟩
  shared := .none (.inl rfl)
  keyed := ⟨"dGhlIHNhbXBsZSBub25jZQ==", by decide +kernel⟩

/-- The first of two reads fills the limit, and the second one completes the request. -/
theorem heard_filled : ∃ last,
    Settled greeter ⟨"ws", [], 20⟩ 0 () [knock.raw.take 20, knock.raw.drop 20] .stays last ∧
      last.callbacks ≠ [] ∧
      ∃ front read, front ++ [read] <+: [knock.raw.take 20, knock.raw.drop 20] ∧
        front.flatten.length ≤ 20 ∧ 90 ≤ front.flatten.length + read.length := by
  obtain ⟨⟨last, settled⟩, outcome⟩ := exists_settled_limited greeter ⟨"ws", [], 20⟩ 0 ()
    [knock.raw.take 20, knock.raw.drop 20] .stays
  obtain ⟨-, opens, completed⟩ := outcome last settled
  have read : Reading.of "ws" [knock.raw.take 20, knock.raw.drop 20].flatten =
      .request knock := by
    rw [List.flatten_cons, List.flatten_singleton, List.take_append_drop]
    exact read_knock
  have tolerated : Tolerated ⟨"ws", [], 20⟩ [knock.raw.take 20, knock.raw.drop 20] knock := by
    have length := length_raw_knock
    refine @tolerated_concat _ [knock.raw.take 20] knock (knock.raw.drop 20) ?_ ?_
    · rw [List.flatten_singleton]
      exact List.length_take_le ..
    · rw [List.flatten_singleton, List.length_take, List.length_drop]
      omega
  have heard := opens.mpr ⟨knock, .hybi13, none, read, eligible_knock, tolerated⟩
  obtain ⟨front, final, leads, within, -, reaches⟩ := completed knock read heard
  rw [length_raw_knock] at reaches
  exact ⟨last, settled, heard, front, final, leads, within, reaches⟩

/-- A request that is longer than the limit opens a connection when it comes in one read, and is
dropped when a read ends between the limit and its end. -/
theorem opened_beyond_limit :
    Reading.of "ws" knock.raw = .request knock ∧ 20 < knock.raw.length ∧
      knock.raw.length ≤ 4096 ∧
      (∃ last, Settled greeter ⟨"ws", [], 20⟩ 0 () [knock.raw] .stays last ∧
        last.callbacks.head? = some .opened) ∧
      ∃ last, Settled greeter ⟨"ws", [], 20⟩ 0 () [knock.raw.take 21, knock.raw.drop 21] .stays
        last ∧ last.callbacks = [] := by
  have length := length_raw_knock
  refine ⟨read_knock, by omega, by omega, ?_, ?_⟩
  · obtain ⟨last, settled⟩ := Settled.exists_settled greeter ⟨"ws", [], 20⟩ 0 () [knock.raw] .stays
    have tolerated : Tolerated ⟨"ws", [], 20⟩ [knock.raw] knock :=
      @tolerated_concat _ [] knock knock.raw (Nat.zero_le 20) (Nat.le_add_left _ 0)
    have recognised : Recognised ⟨"ws", [], 20⟩ [knock.raw] (.request knock) :=
      recognised_request_iff.mpr ⟨List.flatten_singleton.symm ▸ read_knock, tolerated⟩
    obtain ⟨response, -, -, -, told, -⟩ :=
      settled.outcome.opened knock .hybi13 none recognised eligible_knock
    exact ⟨last, settled, told⟩
  · obtain ⟨last, settled⟩ := Settled.exists_settled greeter ⟨"ws", [], 20⟩ 0 ()
      [knock.raw.take 21, knock.raw.drop 21] .stays
    have leads : [knock.raw.take 21] <+: [knock.raw.take 21, knock.raw.drop 21] :=
      List.prefix_append [_] [_]
    refine ⟨last, settled, (settled.dropped_of_excess leads ?_ ?_).1⟩
    · decide +kernel
    · rw [List.flatten_singleton, List.length_take]
      change 20 < _
      omega

end Moment

end CashHerald.Session
