import CashHerald.Proofs.Session.Growth

/-!
What a session makes of the first octets of its client. The verdict depends on the arrivals alone:
it fixes what is left to do on the fresh connection, and once that is done, nothing that anybody
does changes the outcome. Main statement: every run of a connection in which no write fails has come
to what its verdict demands.
-/

namespace CashHerald.Session

/-- The details and the response with which a server answers a request. -/
def answer? (settings : Settings) (request : Upgrade.Request) : Option (Details × Octets) :=
  match request.dialect?, Upgrade.agree settings.subProtocols request.subProtocols with
  | some dialect, .ok subProtocol =>
    match Upgrade.Response.ofDialect dialect request subProtocol with
    | .ok response => some (.ofRequest dialect request subProtocol, response)
    | .error _ => none
  | _, _ => none

/-- What has been made of the octets that a session has taken up. -/
inductive Verdict where
  | undecided (received : Octets)
  | refused
  | probed
  | accepted (details : Details) (response : Octets)

/-- What is made of the first octets of a stream. -/
def Verdict.of (settings : Settings) (received : Octets) : Verdict :=
  match Upgrade.Reading.of settings.scheme received with
  | .incomplete => if received.length > settings.handshakeLimit then .refused
    else .undecided received
  | .invalid => .refused
  | .policyProbe => .probed
  | .request request =>
    match answer? settings request with
    | none => .refused
    | some (details, response) => .accepted details response

/-- What an arrival makes of a verdict: one that has been given stays. -/
def Verdict.hear (settings : Settings) : Verdict → Arrival → Verdict
  | .undecided received, .data octets => .of settings (received ++ octets)
  | .undecided _, _ => .refused
  | given, _ => given

/-- What some arrivals come to. -/
def Verdict.ofArrivals (settings : Settings) (arrivals : List Arrival) : Verdict :=
  arrivals.foldl (hear settings) (.undecided [])

/-- What a verdict leaves to do on a connection of which nothing is known. -/
inductive Verdict.Leaves : Verdict → List Task → Prop
  | wait (received : Octets) : Leaves (.undecided received) [.wait (.awaiting received)]
  | fail (fault : Wire.Fault) : Leaves .refused (Task.failing fault)
  | last {tasks : List Task} (last : Task.Last tasks) : Leaves .refused tasks
  | servePolicy : Leaves .probed [.servePolicy, .finish]
  | complete (details : Details) (response : Octets) (rest : List Task) :
    Leaves (.accepted details response) (.complete details response :: rest)

namespace Verdict

variable {settings : Settings}

theorem leaves_awaitRequest (settings : Settings) (received : Octets) :
    (Verdict.of settings received).Leaves (Phase.awaitRequest settings received) := by
  unfold Verdict.of Phase.awaitRequest
  rcases Upgrade.Reading.of settings.scheme received with request | _ | _ | _
  · dsimp only
    unfold answer? Phase.upgrade
    rcases request.dialect? with _ | dialect
    · exact .last .finish
    rcases Upgrade.agree settings.subProtocols request.subProtocols with fault | subProtocol
    · exact .fail fault
    dsimp only
    rcases Upgrade.Response.ofDialect dialect request subProtocol with refusal | response
    · exact .fail _
    · exact .complete _ _ _
  · exact .servePolicy
  · dsimp only
    split
    · exact .last .finish
    · exact .wait received
  · exact .last .finish

/-- A session waits under a verdict only as long as nothing is decided. -/
theorem Leaves.waiting {Memory : Type} {verdict : Verdict} {phase : Phase}
    (leaves : verdict.Leaves (Activity.waiting phase : Activity Memory).tasks) :
    ∃ received, verdict = .undecided received ∧ phase = .awaiting received := by
  cases phase with
  | awaiting received =>
    cases leaves with
    | wait => exact ⟨received, rfl, rfl⟩
    | last last => cases last
  | _ =>
    cases leaves with
    | last last => cases last

/-- An arrival at a session that waits leaves it with what the next verdict leaves to do. -/
theorem Leaves.arrive {Memory : Type} {verdict : Verdict} {phase : Phase}
    (leaves : verdict.Leaves (Activity.waiting phase : Activity Memory).tasks)
    (settings : Settings) (arrival : Arrival) :
    (verdict.hear settings arrival).Leaves (phase.tasks settings arrival) := by
  obtain ⟨received, rfl, rfl⟩ := leaves.waiting
  cases arrival with
  | data octets => exact leaves_awaitRequest settings (received ++ octets)
  | endOfStream => exact .last .finish
  | failure => exact .fail _
  | writerEnded => exact .last .finish

/-- What is written under a verdict that does not open the connection. -/
def dismissal? : Verdict → Option Octets
  | .refused => some []
  | .probed => some (Utf8.encode Upgrade.PolicyProbe.response)
  | _ => none

end Verdict

namespace Moment

variable {Memory : Type}

/-- What a moment has come to under a verdict. What the verdict leaves to do is still to be done on
a fresh connection; or the connection is done with, with nothing heard and no more written than the
verdict asks for; or it has opened with the response. -/
inductive Meets (moment : Moment Memory) (verdict : Verdict) : Prop
  | pending (fresh : moment.connection = .fresh) (blank : moment.written = [])
    (untold : moment.callbacks = []) (leaves : verdict.Leaves moment.activity.tasks)
  | dismissed (untold : moment.callbacks = [])
    (unavailable : moment.connection.isAvailable = false)
    (written : verdict.dismissal? = some (moment.connection.output moment.written))
  | opened {details : Details} {response : Octets} (accepted : verdict = .accepted details response)
    (told : moment.callbacks.head? = some .opened)
    (known : moment.connection.details = some details)
    (leads : response <+: moment.connection.output moment.written)

theorem meets_start (memory : Memory) : (start memory).Meets (.undecided []) :=
  .pending rfl rfl rfl (.wait [])

namespace Meets

variable {moment later : Moment Memory} {verdict : Verdict}

/-- An open connection stays what it is. -/
theorem of_growsInto {details : Details} {response : Octets}
    (told : moment.callbacks.head? = some .opened)
    (known : moment.connection.details = some details)
    (leads : response <+: moment.connection.output moment.written)
    (grows : moment.GrowsInto later) : later.Meets (.accepted details response) := by
  refine .opened rfl ?_ (grows.details details known) (leads.trans grows.output)
  obtain ⟨more, same⟩ := grows.callbacks
  rw [← same, List.head?_append, told]
  rfl

/-- The first task of a verdict on a fresh connection is carried out. -/
theorem take (fresh : moment.connection = .fresh) (blank : moment.written = [])
    (untold : moment.callbacks = []) {task : Task} {rest : List Task}
    (works : moment.activity = .working (task :: rest)) (leaves : verdict.Leaves (task :: rest))
    (handler : Handler Memory) (client : Nat) :
    (moment.take handler client task rest).Meets verdict := by
  obtain ⟨connection, memory, activity, written, journal⟩ := moment
  obtain rfl : connection = .fresh := fresh
  obtain rfl : written = [] := blank
  have told (move : Move) (moment : Moment Memory)
      (noted : moment.journal = journal ++ [.took task .connecting]) :
      (moment.follow handler client move).callbacks = move.event.toList := by
    have silent : moment.callbacks = [] := by
      rw [callbacks, noted]
      exact (Note.events_note rfl journal).trans untold
    rw [callbacks_follow, silent, List.nil_append]
  cases leaves with
  | wait received => exact .pending rfl rfl untold (.wait received)
  | fail fault => exact .pending rfl rfl (told _ _ rfl) (.last (.close _))
  | last last =>
    cases last with
    | close code => exact .dismissed (told _ _ rfl) rfl rfl
    | finish => exact .dismissed (told _ _ rfl) rfl rfl
  | servePolicy => exact .dismissed (told _ _ rfl) rfl rfl
  | complete details response rest =>
    exact .opened rfl (congrArg List.head? (told _ _ rfl)) rfl (List.prefix_append _ _)

/-- On a connection that is done with, before anything has been heard, an end is all that is left to
do. -/
theorem tasks_of_dismissed {stage : Stage} (disciplined : moment.Disciplined stage)
    (untold : moment.callbacks = []) (unavailable : moment.connection.isAvailable = false) :
    moment.connection.hasOpened = false ∧
      (moment.activity.tasks = [.finish] ∨ moment.activity.tasks = []) := by
  have standing := disciplined.standing
  rw [disciplined.unheard_iff.mpr untold] at standing
  cases known : moment.connection
  rw [known] at standing unavailable
  cases standing with
  | fresh early => cases unavailable
  | refused silent left touched => exact ⟨silent, left⟩

theorem dismissed_proceed (regular : moment.Regular) (untold : moment.callbacks = [])
    (unavailable : moment.connection.isAvailable = false)
    (written : verdict.dismissal? = some (moment.connection.output moment.written))
    (handler : Handler Memory) (client : Nat) :
    (moment.proceed handler client).Meets verdict := by
  obtain ⟨⟨account, -⟩, stage, disciplined⟩ := regular
  obtain ⟨silent, left⟩ := tasks_of_dismissed disciplined untold unavailable
  unfold Moment.proceed
  split
  · exact .dismissed untold unavailable written
  · exact .dismissed untold unavailable written
  · rename_i task rest works
    obtain ⟨rfl, rfl⟩ : task = .finish ∧ rest = [] := by
      simpa [works, Activity.tasks] using left
    have move : Task.move moment.connection [] .finish = ⟨some .finish, none, []⟩ := by
      simp [Task.move, silent]
    have ended : moment.connection.Ended := by
      rcases account.goes_or_ended with ⟨available, -⟩ | ⟨-, ended⟩
      · rw [unavailable] at available
        cases available
      · exact ended
    simp only [Moment.take, Task.rest?, move]
    refine .dismissed ?_ rfl ?_
    · rw [callbacks_follow]
      exact (List.append_nil _).trans ((Note.events_note rfl _).trans untold)
    · exact written.trans (congrArg some (ended.output_enqueue (.close none) moment.written).symm)
  · rename_i reaction tasks reacts
    exact absurd (disciplined.unheard_iff.mpr untold) (disciplined.reacting _ _ reacts)

/-- What the session does next fits the verdict. -/
theorem proceed (meets : moment.Meets verdict) (regular : moment.Regular)
    (handler : Handler Memory) (client : Nat) : (moment.proceed handler client).Meets verdict := by
  cases meets with
  | pending fresh blank untold leaves =>
    unfold Moment.proceed
    split
    · exact .pending fresh blank untold leaves
    · rename_i works
      rw [works] at leaves
      cases leaves with
      | last last => cases last
    · rename_i works
      rw [works] at leaves
      exact take fresh blank untold works leaves handler client
    · rename_i reaction tasks reacts
      obtain ⟨stage, disciplined⟩ := regular.disciplined
      exact absurd (disciplined.unheard_iff.mpr untold) (disciplined.reacting _ _ reacts)
  | dismissed untold unavailable written =>
    exact dismissed_proceed regular untold unavailable written handler client
  | opened accepted told known leads =>
    exact accepted ▸ of_growsInto told known leads (growsInto_proceed regular handler client)

/-- An arrival at a session that waits is judged. -/
theorem arrive (meets : moment.Meets verdict) {phase : Phase}
    (waits : moment.activity = .waiting phase) (settings : Settings) (arrival : Arrival) :
    (moment.arrive settings arrival).Meets (verdict.hear settings arrival) := by
  have same : moment.arrive settings arrival =
      moment.turnTo (.working (phase.tasks settings arrival)) := by
    simp only [Moment.arrive, waits]
  rw [same]
  cases meets with
  | pending fresh blank untold leaves =>
    rw [waits] at leaves
    exact .pending fresh blank untold (leaves.arrive settings arrival)
  | dismissed untold unavailable written =>
    have given : verdict.hear settings arrival = verdict := by
      cases verdict with
      | undecided received => cases written
      | _ => rfl
    rw [given]
    exact .dismissed untold unavailable written
  | opened accepted told known leads =>
    subst accepted
    exact of_growsInto told known leads (growsInto_turnTo moment _)

/-- Nothing else that happens makes a difference to what fits the verdict. -/
theorem turn (meets : moment.Meets verdict) (regular : moment.Regular) (handler : Handler Memory)
    (settings : Settings) (client : Nat) {turn : Turn Memory}
    (arrives : ∀ arrival, turn ≠ .arrive arrival) (writes : ∀ count, turn ≠ .failWrite count) :
    (moment.turn handler settings client turn).Meets verdict := by
  cases meets with
  | opened accepted told known leads =>
    exact accepted ▸ of_growsInto told known leads
      (regular.growsInto_turn handler settings client writes)
  | pending fresh blank untold leaves =>
    have meets : moment.Meets verdict := .pending fresh blank untold leaves
    cases turn with
    | arrive arrival => exact absurd rfl (arrives arrival)
    | proceed => exact meets.proceed regular handler client
    | send opcode payload => rwa [Moment.turn, if_pos untold]
    | close code => rwa [Moment.turn, if_pos untold]
    | remember memory => exact .pending fresh blank untold leaves
    | write =>
      have nothing : moment.connection.queue = [] := by rw [fresh]; rfl
      simpa only [Moment.turn, Moment.write, nothing] using meets
    | failWrite count => exact absurd rfl (writes count)
  | dismissed untold unavailable written =>
    have meets : moment.Meets verdict := .dismissed untold unavailable written
    cases turn with
    | arrive arrival => exact absurd rfl (arrives arrival)
    | proceed => exact meets.proceed regular handler client
    | send opcode payload => rwa [Moment.turn, if_pos untold]
    | close code => rwa [Moment.turn, if_pos untold]
    | remember memory => exact .dismissed untold unavailable written
    | write =>
      have alike := (Alike.refl moment).write
      refine .dismissed (alike.callbacks.trans untold)
        (alike.connection.isAvailable.trans unavailable) ?_
      exact written.trans (congrArg some alike.connection.output.symm)
    | failWrite count => exact absurd rfl (writes count)

end Meets

/-- What a run of a connection may come to after some arrivals, none of its writes failing. The
session takes up an arrival when it waits for one, and it learns that the writer has left; its
handler reacts, and everyone who was told of the connection sends and closes in between. -/
inductive Course (handler : Handler Memory) (settings : Settings) (client : Nat)
    (memory : Memory) : List Arrival → Moment Memory → Prop
  | start : Course handler settings client memory [] (start memory)
  | arrive {arrivals : List Arrival} {moment : Moment Memory} {phase : Phase}
    (earlier : Course handler settings client memory arrivals moment)
    (waits : moment.activity = .waiting phase) (arrival : Arrival) :
    Course handler settings client memory (arrivals ++ [arrival]) (moment.arrive settings arrival)
  | writerEnds {arrivals : List Arrival} {moment : Moment Memory}
    (earlier : Course handler settings client memory arrivals moment)
    (left : moment.connection.attached = false) :
    Course handler settings client memory arrivals (moment.arrive settings .writerEnded)
  | turn {arrivals : List Arrival} {moment : Moment Memory} {turn : Turn Memory}
    (earlier : Course handler settings client memory arrivals moment)
    (arrives : ∀ arrival, turn ≠ .arrive arrival) (writes : ∀ count, turn ≠ .failWrite count) :
    Course handler settings client memory arrivals (moment.turn handler settings client turn)

namespace Course

variable {handler : Handler Memory} {settings : Settings} {client : Nat} {memory : Memory}
  {arrivals : List Arrival} {moment : Moment Memory}

theorem of_undisturbed (run : Undisturbed handler settings client memory arrivals moment) :
    Course handler settings client memory arrivals moment := by
  induction run with
  | start => exact .start
  | arrive earlier waits arrival inductionHypothesis =>
    exact inductionHypothesis.arrive waits arrival
  | proceed earlier inductionHypothesis =>
    have arrives (arrival : Arrival) : (.proceed : Turn Memory) ≠ .arrive arrival := nofun
    exact inductionHypothesis.turn arrives (by simp)
  | write earlier inductionHypothesis =>
    have arrives (arrival : Arrival) : (.write : Turn Memory) ≠ .arrive arrival := nofun
    exact inductionHypothesis.turn arrives (by simp)
  | writerEnds earlier left inductionHypothesis => exact inductionHypothesis.writerEnds left

theorem regular (course : Course handler settings client memory arrivals moment) :
    moment.Regular := by
  induction course with
  | start => exact regular_start memory
  | arrive earlier waits arrival inductionHypothesis =>
    exact inductionHypothesis.turn handler settings client (.arrive arrival) (by simp)
  | writerEnds earlier left inductionHypothesis =>
    exact inductionHypothesis.turn handler settings client (.arrive .writerEnded) (by simp)
  | turn earlier arrives writes inductionHypothesis =>
    exact inductionHypothesis.turn handler settings client _ writes

/-- A run comes to what the arrivals come to. -/
theorem meets (course : Course handler settings client memory arrivals moment) :
    moment.Meets (.ofArrivals settings arrivals) := by
  induction course with
  | start => exact meets_start memory
  | arrive earlier waits arrival inductionHypothesis =>
    rw [Verdict.ofArrivals, List.foldl_append]
    exact inductionHypothesis.arrive waits settings arrival
  | writerEnds earlier left inductionHypothesis =>
    cases inductionHypothesis with
    | pending fresh => rw [fresh] at left; cases left
    | dismissed untold unavailable written =>
      unfold Moment.arrive
      split <;> exact .dismissed untold unavailable written
    | opened accepted told known leads =>
      rw [accepted]
      exact .of_growsInto told known leads (growsInto_arrive _ settings _)
  | turn earlier arrives writes inductionHypothesis =>
    exact inductionHypothesis.turn earlier.regular handler settings client arrives writes

end Course

end Moment

end CashHerald.Session
