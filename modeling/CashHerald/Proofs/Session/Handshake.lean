import CashHerald.Proofs.Session.Verdict
import CashHerald.Proofs.Upgrade.Answers

/-!
How a handshake comes out. Main statement: however the stream of a client is cut into reads, the
policy is all that is written to a probe, a request that can be answered opens the connection with
its response, and to everything else nothing is written and nothing comes of it.
-/

namespace CashHerald.Session

/-- Nothing can be said yet of the octets that a session has taken up. -/
def Undecided (settings : Settings) (received : Octets) : Prop :=
  Upgrade.Reading.of settings.scheme received = .incomplete ∧
    received.length ≤ settings.handshakeLimit

/-- Nothing can be said yet of fewer reads. -/
def UndecidedBefore (settings : Settings) (front : List Octets) : Prop :=
  ∀ early, early <+: front → early ≠ front → Undecided settings early.flatten

/-- The octets of some reads are recognised with one of them, and not before. -/
def Recognised (settings : Settings) (reads : List Octets) (reading : Upgrade.Reading) : Prop :=
  ∃ front, front <+: reads ∧ Upgrade.Reading.of settings.scheme front.flatten = reading ∧
    UndecidedBefore settings front

/-- What becomes of the stream of a client behind what has been read: it stays open, it ends, or a
read fails. -/
inductive Ending where
  | stays
  | ends
  | fails
  deriving DecidableEq

def Ending.arrivals : Ending → List Arrival
  | .stays => []
  | .ends => [.endOfStream]
  | .fails => [.failure]

section Reads

variable {settings : Settings} {reads front rest : List Octets}

theorem undecided_nil (settings : Settings) : Undecided settings [] :=
  ⟨rfl, Nat.zero_le _⟩

/-- Either nothing has been decided with any read, or something is decided with one of them and not
before. -/
theorem undecided_or_decided (settings : Settings) (reads : List Octets) :
    (∀ early, early <+: reads → Undecided settings early.flatten) ∨
      ∃ front, front <+: reads ∧ ¬ Undecided settings front.flatten ∧
        UndecidedBefore settings front := by
  induction reads using List.reverseRecOn with
  | nil =>
    refine .inl fun early leads => ?_
    rw [List.prefix_nil.mp leads]
    exact undecided_nil settings
  | append_singleton reads read inductionHypothesis =>
    rcases inductionHypothesis with undecided | ⟨front, leads, decided, first⟩
    · by_cases whole : Undecided settings (reads ++ [read]).flatten
      · refine .inl fun early leads => ?_
        rcases List.prefix_concat_iff.mp leads with rfl | leads
        · exact whole
        · exact undecided early leads
      · refine .inr ⟨_, List.prefix_rfl, whole, fun early leads differs => ?_⟩
        exact undecided early ((List.prefix_concat_iff.mp leads).resolve_left differs)
    · exact .inr ⟨front, leads.trans (List.prefix_append _ _), decided, first⟩

/-- What is recognised is read from the first octets of which something can be said. -/
theorem Recognised.read {reading : Upgrade.Reading}
    (recognised : Recognised settings reads reading) (named : reading ≠ .incomplete)
    (leads : front <+: reads) (decided : ¬ Undecided settings front.flatten)
    (first : UndecidedBefore settings front) :
    Upgrade.Reading.of settings.scheme front.flatten = reading := by
  obtain ⟨other, otherLeads, read, otherFirst⟩ := recognised
  obtain rfl | differs := eq_or_ne other front
  · exact read
  rcases List.prefix_or_prefix_of_prefix otherLeads leads with shorter | longer
  · have undecided := first other shorter differs
    exact absurd (read.symm.trans undecided.1) named
  · exact absurd (otherFirst front longer differs.symm) decided

theorem not_recognised_of_undecided {reading : Upgrade.Reading} (named : reading ≠ .incomplete)
    (undecided : ∀ early, early <+: reads → Undecided settings early.flatten) :
    ¬ Recognised settings reads reading := by
  rintro ⟨front, leads, read, -⟩
  exact named (read.symm.trans (undecided front leads).1)

namespace Verdict

theorem of_undecided {received : Octets} (undecided : Undecided settings received) :
    Verdict.of settings received = .undecided received := by
  unfold Verdict.of
  rw [undecided.1]
  exact if_neg (Nat.not_lt.mpr undecided.2)

theorem ne_undecided {received : Octets} (decided : ¬ Undecided settings received)
    (other : Octets) : Verdict.of settings received ≠ .undecided other := by
  unfold Verdict.of
  split
  · rename_i incomplete
    split
    · exact nofun
    · rename_i short
      exact absurd ⟨incomplete, Nat.not_lt.mp short⟩ decided
  · exact nofun
  · exact nofun
  · split <;> exact nofun

/-- A verdict that has been given stays. -/
theorem foldl_hear {verdict : Verdict} (given : ∀ received, verdict ≠ .undecided received)
    (arrivals : List Arrival) : arrivals.foldl (hear settings) verdict = verdict := by
  induction arrivals with
  | nil => rfl
  | cons arrival rest inductionHypothesis =>
    have same : verdict.hear settings arrival = verdict := by
      cases verdict with
      | undecided received => exact absurd rfl (given received)
      | _ => rfl
    rw [List.foldl_cons, same, inductionHypothesis]

theorem ofArrivals_of_undecided
    (undecided : ∀ early, early <+: reads → Undecided settings early.flatten) :
    ofArrivals settings (reads.map .data) = .undecided reads.flatten := by
  induction reads using List.reverseRecOn with
  | nil => rfl
  | append_singleton reads read inductionHypothesis =>
    have earlier := inductionHypothesis fun early leads =>
      undecided early (leads.trans (List.prefix_append _ _))
    rw [ofArrivals] at earlier ⊢
    rw [List.map_append, List.foldl_append, earlier]
    have whole := of_undecided (undecided _ List.prefix_rfl)
    simpa [hear] using whole

/-- The verdict is given with the first octets of which something can be said. -/
theorem ofArrivals_of_front (decided : ¬ Undecided settings front.flatten)
    (first : UndecidedBefore settings front)
    (rest : List Arrival) :
    ofArrivals settings (front.map .data ++ rest) = .of settings front.flatten := by
  induction front using List.reverseRecOn with
  | nil => exact absurd (undecided_nil settings) decided
  | append_singleton early read _ =>
    have shorter (part : List Octets) (leads : part <+: early) : part ≠ early ++ [read] := by
      rintro rfl
      have short := leads.length_le
      rw [List.length_append] at short
      exact Nat.not_succ_le_self _ short
    have earlier : ofArrivals settings (early.map .data) = .undecided early.flatten :=
      ofArrivals_of_undecided fun part leads =>
        first part (leads.trans (List.prefix_append _ _)) (shorter part leads)
    have now : hear settings (.undecided early.flatten) (.data read) =
        .of settings (early ++ [read]).flatten := by
      simp [hear]
    rw [ofArrivals] at earlier ⊢
    rw [List.map_append, List.foldl_append, List.foldl_append, earlier, List.map_singleton,
      List.foldl_cons, List.foldl_nil, now, foldl_hear (ne_undecided decided)]

end Verdict

end Reads

section Answers

variable {settings : Settings} {request : Upgrade.Request} {received : Octets}

/-- A request that has been read is answered in the dialect and with the sub-protocol for which it
is eligible. -/
theorem answer?_of_eligible {dialect : Wire.Dialect} {subProtocol : Option String}
    (read : Upgrade.Reading.of settings.scheme received = .request request)
    (eligible : request.Eligible settings.subProtocols dialect subProtocol) :
    ∃ response, Upgrade.Response.ofDialect dialect request subProtocol = .ok response ∧
      answer? settings request = some (.ofRequest dialect request subProtocol, response) := by
  have asked := Upgrade.dialect?_eq_some_iff.mpr eligible.version
  have agreed := Upgrade.agree_eq_ok_iff.mpr eligible.shared
  obtain ⟨response, answered⟩ :=
    (Upgrade.exists_ofDialect_iff read eligible.ne_flashPolicy subProtocol).mpr eligible.keyed
  refine ⟨response, answered, ?_⟩
  simp only [answer?, asked, agreed, answered]

theorem exists_eligible_of_answer? {details : Details} {response : Octets}
    (read : Upgrade.Reading.of settings.scheme received = .request request)
    (answers : answer? settings request = some (details, response)) :
    ∃ dialect subProtocol, request.Eligible settings.subProtocols dialect subProtocol := by
  unfold answer? at answers
  split at answers
  · rename_i dialect subProtocol asked agreed
    split at answers
    · rename_i answered
      have version := Upgrade.dialect?_eq_some_iff.mp asked
      have named : dialect ≠ .flashPolicy := by
        rintro rfl
        obtain ⟨_, never, -⟩ := version
        cases never
      exact ⟨dialect, subProtocol, version, Upgrade.agree_eq_ok_iff.mp agreed,
        (Upgrade.exists_ofDialect_iff read named subProtocol).mp ⟨_, answered⟩⟩
    · cases answers
  · cases answers

end Answers

namespace Moment

variable {Memory : Type} {handler : Handler Memory} {settings : Settings} {client : Nat}
  {memory : Memory}

/-- The session has ended, and its writer has left. -/
structure Over (moment : Moment Memory) : Prop where
  ended : moment.activity = .waiting .ended
  left : moment.connection.attached = false

/-- A run has come to rest behind some reads and what became of the stream: the session waits, and
all is written. -/
structure Settled (handler : Handler Memory) (settings : Settings) (client : Nat) (memory : Memory)
    (reads : List Octets) (ending : Ending) (last : Moment Memory) : Prop where
  run : Course handler settings client memory (reads.map .data ++ ending.arrivals) last
  waits : ∃ phase, last.activity = .waiting phase
  written : last.connection.queue = []

/-- How the handshake of a client comes out. The response to a request that can be answered stands at
the front of all that is written, line by line as its dialect has it; a scheme that breaks a line
would break one of the response. -/
structure Outcome (settings : Settings) (reads : List Octets) (ending : Ending)
    (last : Moment Memory) : Prop where
  probed : Recognised settings reads .policyProbe →
    last.callbacks = [] ∧ last.written = Utf8.encode Upgrade.PolicyProbe.response ∧ last.Over
  opened : ∀ request dialect subProtocol, Recognised settings reads (.request request) →
    request.Eligible settings.subProtocols dialect subProtocol →
      ∃ response, Upgrade.Response.ofDialect dialect request subProtocol = .ok response ∧
        (¬ Pieces.lineEnd <:+: settings.scheme.toList →
          Upgrade.Response.Shows settings.scheme request subProtocol dialect response) ∧
        response <+: last.written ∧ last.callbacks.head? = some .opened ∧
        last.connection.details = some (.ofRequest dialect request subProtocol)
  heard : last.callbacks ≠ [] → ∃ request dialect subProtocol,
    Recognised settings reads (.request request) ∧
      request.Eligible settings.subProtocols dialect subProtocol
  otherwise : last.callbacks = [] → ¬ Recognised settings reads .policyProbe →
    last.written = [] ∧
      ((∀ early, early <+: reads → Undecided settings early.flatten) ∧ ending = .stays ∨ last.Over)

namespace Settled

variable {reads : List Octets} {ending : Ending} {last : Moment Memory}

/-- Reads and what becomes of the stream can be taken up until the session is at rest. -/
theorem exists_settled (handler : Handler Memory) (settings : Settings) (client : Nat)
    (memory : Memory) (reads : List Octets) (ending : Ending) :
    ∃ last, Settled handler settings client memory reads ending last := by
  obtain ⟨moment, phase, run, waits⟩ := Undisturbed.exists_waiting handler settings client memory
    (reads.map .data ++ ending.arrivals)
  obtain ⟨count, flushed⟩ := exists_writes handler settings client moment.connection moment.memory
    moment.activity moment.written moment.journal
  have written : Undisturbed handler settings client memory _
      ⟨moment.connection.flush.2, moment.memory, moment.activity, _, _⟩ :=
    flushed ▸ run.writes count
  exact ⟨_, .of_undisturbed written, ⟨phase, waits⟩, rfl⟩

theorem output_eq_written (settled : Settled handler settings client memory reads ending last) :
    last.connection.output last.written = last.written := by
  rw [Connection.output, settled.written]
  exact List.append_nil _

/-- Whoever is dismissed is told what the verdict asks for, and that is the end. -/
theorem dismissed (settled : Settled handler settings client memory reads ending last)
    {octets : Octets}
    (dismissal : (Verdict.ofArrivals settings
      (reads.map .data ++ ending.arrivals)).dismissal? = some octets) :
    last.callbacks = [] ∧ last.written = octets ∧ last.Over := by
  obtain ⟨phase, waits⟩ := settled.waits
  cases settled.run.meets with
  | pending fresh blank untold leaves =>
    rw [waits] at leaves
    obtain ⟨received, undecided, -⟩ := leaves.waiting
    rw [undecided] at dismissal
    cases dismissal
  | dismissed untold unavailable written =>
    obtain ⟨⟨account, -⟩, stage, disciplined⟩ := settled.run.regular
    obtain ⟨-, left⟩ := Meets.tasks_of_dismissed disciplined untold unavailable
    have ended : phase = .ended := by
      rw [waits] at left
      cases phase with
      | ended => rfl
      | _ => simp [Activity.tasks] at left
    rw [settled.output_eq_written, dismissal] at written
    refine ⟨untold, (Option.some.inj written).symm, ended ▸ waits, ?_⟩
    -- Whoever is attached still has an end in the queue, and the queue is empty.
    rcases account.goes_or_ended with ⟨available, -⟩ | ⟨-, ends⟩
    · rw [unavailable] at available
      cases available
    · by_contra attached
      have pending := ends (Bool.not_eq_false _ ▸ attached)
      rw [settled.written] at pending
      cases pending
  | opened accepted =>
    rw [accepted] at dismissal
    cases dismissal

/-- A session at rest of which nothing has been decided yet. -/
theorem pending (settled : Settled handler settings client memory reads ending last)
    {received : Octets} (undecided : Verdict.ofArrivals settings
      (reads.map .data ++ ending.arrivals) = .undecided received) :
    last.callbacks = [] ∧ last.written = [] := by
  cases settled.run.meets with
  | pending fresh blank untold leaves => exact ⟨untold, blank⟩
  | dismissed untold unavailable written =>
    rw [undecided] at written
    cases written
  | opened accepted =>
    rw [undecided] at accepted
    cases accepted

theorem opened (settled : Settled handler settings client memory reads ending last)
    {details : Details} {response : Octets} (accepted : Verdict.ofArrivals settings
      (reads.map .data ++ ending.arrivals) = .accepted details response) :
    last.callbacks.head? = some .opened ∧ last.connection.details = some details ∧
      response <+: last.written := by
  have meets := settled.run.meets
  rw [accepted] at meets
  cases meets with
  | pending fresh blank untold leaves =>
    obtain ⟨phase, waits⟩ := settled.waits
    rw [waits] at leaves
    obtain ⟨received, undecided, -⟩ := leaves.waiting
    cases undecided
  | dismissed untold unavailable written => cases written
  | opened same told known leads =>
    cases same
    rw [settled.output_eq_written] at leads
    exact ⟨told, known, leads⟩

/-- A client that is refused, and is neither a probe nor eligible. -/
theorem outcome_of_refused (settled : Settled handler settings client memory reads ending last)
    (refused : Verdict.ofArrivals settings (reads.map .data ++ ending.arrivals) = .refused)
    (unprobed : ¬ Recognised settings reads .policyProbe)
    (ineligible : ∀ request dialect subProtocol, Recognised settings reads (.request request) →
      ¬ request.Eligible settings.subProtocols dialect subProtocol) :
    Outcome settings reads ending last := by
  obtain ⟨untold, blank, ended⟩ := settled.dismissed (congrArg Verdict.dismissal? refused)
  exact ⟨fun probed => absurd probed unprobed,
    fun request dialect subProtocol recognised eligible =>
      absurd eligible (ineligible request dialect subProtocol recognised),
    fun heard => absurd untold heard, fun _ _ => ⟨blank, .inr ended⟩⟩

/-- A client whose request is answered, and of which nothing else is recognised. -/
theorem outcome_of_accepted (settled : Settled handler settings client memory reads ending last)
    {request : Upgrade.Request} {details : Details} {response : Octets}
    (accepted : Verdict.ofArrivals settings (reads.map .data ++ ending.arrivals) =
      .accepted details response)
    (answers : answer? settings request = some (details, response))
    (unprobed : ¬ Recognised settings reads .policyProbe)
    (recognised : Recognised settings reads (.request request))
    (only : ∀ other, Recognised settings reads (.request other) → request = other) :
    Outcome settings reads ending last := by
  obtain ⟨front, -, reading, -⟩ := id recognised
  obtain ⟨told, known, leading⟩ := settled.opened accepted
  obtain ⟨dialect, subProtocol, eligible⟩ := exists_eligible_of_answer? reading answers
  have heard : last.callbacks ≠ [] := by
    intro silent
    rw [silent] at told
    cases told
  refine ⟨fun probed => absurd probed unprobed, ?_,
    fun _ => ⟨request, dialect, subProtocol, recognised, eligible⟩,
    fun silent => absurd silent heard⟩
  intro other dialect subProtocol recognised eligible
  obtain rfl := only other recognised
  obtain ⟨response, answer, answered⟩ := answer?_of_eligible reading eligible
  cases answers.symm.trans answered
  exact ⟨_, answer, fun unbroken => Upgrade.Response.shows_ofDialect unbroken reading
    (Upgrade.agree_eq_ok_iff.mpr eligible.shared) eligible.ne_flashPolicy answer, leading, told,
    known⟩

/-- Nothing has been decided with any read. -/
theorem outcome_of_undecided (settled : Settled handler settings client memory reads ending last)
    (undecided : ∀ early, early <+: reads → Undecided settings early.flatten) :
    Outcome settings reads ending last := by
  have unprobed : ¬ Recognised settings reads .policyProbe :=
    not_recognised_of_undecided nofun undecided
  have unread (request : Upgrade.Request) : ¬ Recognised settings reads (.request request) :=
    not_recognised_of_undecided nofun undecided
  have sofar := Verdict.ofArrivals_of_undecided undecided
  have whole : Verdict.ofArrivals settings (reads.map .data ++ ending.arrivals) =
      ending.arrivals.foldl (Verdict.hear settings) (.undecided reads.flatten) := by
    rw [← sofar]
    exact List.foldl_append
  cases ending with
  | stays =>
    obtain ⟨untold, blank⟩ := settled.pending whole
    exact ⟨fun probed => absurd probed unprobed,
      fun request _ _ recognised => absurd recognised (unread request),
      fun heard => absurd untold heard, fun _ _ => ⟨blank, .inl ⟨undecided, rfl⟩⟩⟩
  | ends =>
    exact settled.outcome_of_refused whole unprobed fun request _ _ recognised =>
      absurd recognised (unread request)
  | fails =>
    exact settled.outcome_of_refused whole unprobed fun request _ _ recognised =>
      absurd recognised (unread request)

/-- Something has been decided with one of the reads, and not before. -/
theorem outcome_of_front (settled : Settled handler settings client memory reads ending last)
    {front : List Octets} (leads : front <+: reads)
    (decided : ¬ Undecided settings front.flatten)
    (first : UndecidedBefore settings front) :
    Outcome settings reads ending last := by
  have verdict : Verdict.ofArrivals settings (reads.map .data ++ ending.arrivals) =
      .of settings front.flatten := by
    obtain ⟨behind, rfl⟩ := leads
    rw [List.map_append, List.append_assoc]
    exact Verdict.ofArrivals_of_front decided first _
  have read {reading : Upgrade.Reading} (recognised : Recognised settings reads reading)
      (named : reading ≠ .incomplete) :
      Upgrade.Reading.of settings.scheme front.flatten = reading :=
    recognised.read named leads decided first
  -- Nothing else than what has been decided can be recognised.
  have unprobed (other : Upgrade.Reading.of settings.scheme front.flatten ≠ .policyProbe) :
      ¬ Recognised settings reads .policyProbe := fun probed => other (read probed nofun)
  have unread (other : ∀ request, Upgrade.Reading.of settings.scheme front.flatten ≠
      .request request) (request : Upgrade.Request) :
      ¬ Recognised settings reads (.request request) :=
    fun recognised => other request (read recognised nofun)
  have refused (other : ∀ request, Upgrade.Reading.of settings.scheme front.flatten ≠
      .request request) (unserved : Upgrade.Reading.of settings.scheme front.flatten ≠ .policyProbe)
      (judged : Verdict.of settings front.flatten = .refused) :
      Outcome settings reads ending last :=
    settled.outcome_of_refused (verdict.trans judged) (unprobed unserved)
      fun request _ _ recognised => absurd recognised (unread other request)
  rcases reading : Upgrade.Reading.of settings.scheme front.flatten with request | _ | _ | _
  · rw [reading] at unprobed
    have only (other : Upgrade.Request) (recognised : Recognised settings reads (.request other)) :
        request = other := by
      simpa using reading.symm.trans (read recognised nofun)
    rcases answers : answer? settings request with _ | ⟨details, response⟩
    · simp only [Verdict.of, reading, answers] at verdict
      refine settled.outcome_of_refused verdict (unprobed nofun) ?_
      intro other dialect subProtocol recognised eligible
      obtain rfl := only other recognised
      obtain ⟨response, -, answered⟩ := answer?_of_eligible reading eligible
      cases answers.symm.trans answered
    · simp only [Verdict.of, reading, answers] at verdict
      exact settled.outcome_of_accepted verdict answers (unprobed nofun)
        ⟨front, leads, reading, first⟩ only
  · have probed : Recognised settings reads .policyProbe := ⟨front, leads, reading, first⟩
    simp only [Verdict.of, reading] at verdict
    have dismissed := settled.dismissed (congrArg Verdict.dismissal? verdict)
    rw [reading] at unread
    exact ⟨fun _ => dismissed,
      fun request _ _ recognised => absurd recognised (unread nofun request),
      fun heard => absurd dismissed.1 heard, fun _ unprobed => absurd probed unprobed⟩
  · have long : front.flatten.length > settings.handshakeLimit := by
      by_contra short
      exact decided ⟨reading, Nat.not_lt.mp short⟩
    rw [reading] at refused
    exact refused nofun nofun (by simp only [Verdict.of, reading, if_pos long])
  · rw [reading] at refused
    exact refused nofun nofun (by simp only [Verdict.of, reading])

theorem outcome (settled : Settled handler settings client memory reads ending last) :
    Outcome settings reads ending last := by
  rcases undecided_or_decided settings reads with undecided | ⟨front, leads, decided, first⟩
  · exact settled.outcome_of_undecided undecided
  · exact settled.outcome_of_front leads decided first

end Settled

end Moment

end CashHerald.Session
