import CashHerald.Hub.Pipeline
import Mathlib

/-!
A pipeline that threads and a shutdown contend for. A submission takes two steps, the check of the
flag and the send, and others may step in between; the shutdown sets the flag, sends the end and
joins the worker, which takes one job per step. Main statement: when all of them have returned, what
was accepted is what the worker has taken, and behind that what was sent between the end and the
worker's meeting it. These payloads are lost and stay in the queue depth, so nothing is lost exactly
in the runs in which there are none. Every run can be brought to that point.
-/

namespace CashHerald.Hub

/-- How far the shutdown has got: it has not begun, it has set the flag, it has sent the end, or it
has joined the worker. -/
inductive Ending where
  | absent
  | forbidden
  | announced
  | returned
  deriving DecidableEq, Repr

/-- A pipeline with the record of its worker, the payloads of the submissions that have passed the
check and not sent yet, those of the submissions that have returned, and what the worker has
taken. -/
structure Contention (Value : Type) where
  pipeline : Pipeline
  record : Worker.Record Value
  checked : List Octets
  accepted : List Octets
  refused : List Octets
  taken : List Octets
  ending : Ending

/-- The steps: a submission checks the flag, or one of those that have done so sends; the shutdown
sets the flag, sends the end or joins the worker; the worker takes a job. -/
inductive Stride where
  | check (raw : Octets)
  | send (index : Nat)
  | forbid
  | announce
  | join
  | work
  deriving DecidableEq, Repr

namespace Contention

variable {Value : Type} (decode : Octets → Except Ledger.DecodeError Value)

/-- A pipeline of which nobody has made use. -/
def start (event : FeedEvent) : Contention Value :=
  ⟨.start event, ⟨.empty, []⟩, [], [], [], [], .absent⟩

/-- Adds to the depth of the queue. -/
def countDepth (contention : Contention Value) (amount : Int) : Worker.Record Value :=
  (Worker.recorder decode).count contention.record (.queueDepth contention.pipeline.event) amount

/-- A submission counts its payload and sends it, and takes the count back if the worker is gone. -/
def send (contention : Contention Value) (index : Nat) (raw : Octets) : Contention Value :=
  let counted := { contention with
    record := contention.countDepth decode 1, checked := contention.checked.eraseIdx index }
  match contention.pipeline.deliver (.payload raw) with
  | (later, true) => { counted with pipeline := later, accepted := contention.accepted ++ [raw] }
  | (_, false) => { counted with
      record := counted.countDepth decode (-1), refused := contention.refused ++ [raw] }

/-- The worker does the next job, if there is one. -/
def work (contention : Contention Value) : Contention Value :=
  match contention.pipeline.take? with
  | none => contention
  | some (.finish, later) => { contention with pipeline := later }
  | some (.payload raw, later) => { contention with
      pipeline := later, taken := contention.taken ++ [raw],
      record := (Worker.recorder decode).process contention.pipeline.event contention.record raw }

/-- What a step makes of it. A step whose time has not come does nothing. -/
def stride (contention : Contention Value) : Stride → Contention Value
  | .check raw =>
    if contention.pipeline.closed then
      { contention with refused := contention.refused ++ [raw] }
    else { contention with checked := contention.checked ++ [raw] }
  | .send index =>
    match contention.checked[index]? with
    | none => contention
    | some raw => contention.send decode index raw
  | .forbid =>
    if contention.ending = .absent then
      { contention with pipeline := contention.pipeline.forbid, ending := .forbidden }
    else contention
  | .announce =>
    if contention.ending = .forbidden then
      { contention with pipeline := (contention.pipeline.deliver .finish).1, ending := .announced }
    else contention
  | .join =>
    if contention.ending = .announced ∧ contention.pipeline.working = false then
      { contention with ending := .returned }
    else contention
  | .work => contention.work decode

/-- What a run makes of it. -/
def run (contention : Contention Value) (strides : List Stride) : Contention Value :=
  strides.foldl (stride decode) contention

/-- The payload that a step sends behind the end to a worker that has not met the end yet. -/
def lostBy (contention : Contention Value) : Stride → List Octets
  | .send index =>
    if contention.ending = .announced ∧ contention.pipeline.working then
      contention.checked[index]?.toList
    else []
  | _ => []

/-- The payloads that a run sends behind the end to a worker that has not met the end yet. -/
def lost (contention : Contention Value) : List Stride → List Octets
  | [] => []
  | stride :: rest => contention.lostBy stride ++ (contention.stride decode stride).lost rest

/-- All submissions and the shutdown have returned. -/
def Returned (contention : Contention Value) : Prop :=
  contention.checked = [] ∧ contention.ending = .returned

instance (contention : Contention Value) : Decidable contention.Returned :=
  inferInstanceAs (Decidable (_ ∧ _))

/-- Whatever was accepted has been taken and decoded, and the queue depth is back at zero. -/
structure Lossless (contention : Contention Value) : Prop where
  taken : ∀ raw ∈ contention.accepted, raw ∈ contention.taken
  handled : contention.record.handled =
    contention.accepted.filterMap fun raw => (decode raw).toOption
  depth : contention.record.tally.get (.queueDepth contention.pipeline.event) = 0

section Sequential

variable (contention : Contention Value)

/-- A submission that nobody interrupts is a submission to the worker. -/
theorem run_check_send (raw : Octets)
    (fair : contention.pipeline.closed = true ∨ contention.pipeline.working = true) :
    ∃ queued, (Worker.recorder decode).submit contention.pipeline contention.record raw =
        ((contention.run decode [.check raw, .send contention.checked.length]).pipeline,
          (contention.run decode [.check raw, .send contention.checked.length]).record, queued) ∧
      (contention.run decode [.check raw, .send contention.checked.length]).accepted =
        contention.accepted ++ if queued then [raw] else [] := by
  by_cases closed : contention.pipeline.closed = true
  · exact ⟨false, by simp [run, stride, Worker.submit, Pipeline.submit, closed],
      by simp [run, stride, closed]⟩
  · have working := fair.resolve_left closed
    have opened := Bool.eq_false_of_not_eq_true closed
    refine ⟨true, ?_, ?_⟩
    · simp [run, stride, send, countDepth, Worker.submit, Pipeline.submit, Pipeline.deliver,
        opened, working]
    · simp [run, stride, send, Pipeline.deliver, opened, working]

/-- A shutdown that nobody interrupts closes the pipeline. -/
theorem pipeline_run_forbid_announce (absent : contention.ending = .absent)
    (opened : contention.pipeline.closed = false) :
    (contention.run decode [.forbid, .announce]).pipeline = contention.pipeline.close := by
  simp [run, stride, absent, opened, Pipeline.close]

/-- The worker does what it does when nobody contends. -/
theorem stride_work :
    ((contention.stride decode .work).pipeline, (contention.stride decode .work).record) =
      ((Worker.recorder decode).work? contention.pipeline contention.record).getD
        (contention.pipeline, contention.record) := by
  simp only [stride, work, Worker.work?]
  rcases contention.pipeline.take? with _ | ⟨raw | _, later⟩ <;> rfl

end Sequential

/-- How the queue stands when the shutdown has got so far: the payloads that wait for the worker are
in front of the end, and those that are lost are behind it. -/
inductive Stands (event : FeedEvent) : Ending → Pipeline → List Octets → List Octets → Prop
  | opened (waiting : List Octets) :
    Stands event .absent ⟨event, waiting.map .payload, false, true⟩ waiting []
  | forbidden (waiting : List Octets) :
    Stands event .forbidden ⟨event, waiting.map .payload, true, true⟩ waiting []
  | announced (waiting lost : List Octets) :
    Stands event .announced
      ⟨event, waiting.map .payload ++ .finish :: lost.map .payload, true, true⟩ waiting lost
  | met (lost : List Octets) :
    Stands event .announced ⟨event, lost.map .payload, true, false⟩ [] lost
  | returned (lost : List Octets) :
    Stands event .returned ⟨event, lost.map .payload, true, false⟩ [] lost

/-- What is accepted has been taken, waits or is lost; what has been taken is handled and counted,
and the depth is that of the queue. -/
structure Sound (event : FeedEvent) (waiting lost : List Octets)
    (contention : Contention Value) : Prop where
  stands : Stands event contention.ending contention.pipeline waiting lost
  accepted : contention.accepted = contention.taken ++ (waiting ++ lost)
  handled : contention.record.handled =
    contention.taken.filterMap fun raw => (decode raw).toOption
  decoded : contention.record.tally.get (.decoded event) =
    contention.taken.countP fun raw => (decode raw).toOption.isSome
  failures : contention.record.tally.get (.decodeFailures event) =
    contention.taken.countP fun raw => (decode raw).toOption.isNone
  depth : contention.record.tally.get (.queueDepth event) = (waiting ++ lost).length

variable {decode}

section Sound

variable {event : FeedEvent} {waiting left : List Octets} {contention : Contention Value}

theorem sound_start (decode : Octets → Except Ledger.DecodeError Value) (event : FeedEvent) :
    Sound decode event [] [] (start event) :=
  ⟨.opened [], rfl, rfl, rfl, rfl, rfl⟩

theorem Stands.event_eq {ending : Ending} {pipeline : Pipeline}
    (stands : Stands event ending pipeline waiting left) : pipeline.event = event := by
  cases stands <;> rfl

/-- A step that concerns neither the payloads nor their counts leaves everything sound. -/
theorem Sound.moved (sound : Sound decode event waiting left contention) {pipeline : Pipeline}
    {ending : Ending} (stands : Stands event ending pipeline waiting left) :
    Sound decode event waiting left { contention with pipeline := pipeline, ending := ending } :=
  ⟨stands, sound.accepted, sound.handled, sound.decoded, sound.failures, sound.depth⟩

/-- A payload that is sent gets behind the others, or is refused by a worker that has gone. Sent
behind the end it is lost. -/
theorem Stands.deliver {ending : Ending} {pipeline : Pipeline}
    (stands : Stands event ending pipeline waiting left) (raw : Octets) :
    (pipeline.working = false ∧ pipeline.deliver (.payload raw) = (pipeline, false)) ∨
      (pipeline.working = true ∧ ∃ later more, pipeline.deliver (.payload raw) = (later, true) ∧
        Stands event ending later more (left ++ if ending = .announced then [raw] else []) ∧
        more ++ (left ++ if ending = .announced then [raw] else []) =
          waiting ++ left ++ [raw]) := by
  cases stands with
  | opened =>
    refine .inr ⟨rfl, _, waiting ++ [raw], rfl, ?_, by simp⟩
    have opened : Stands event .absent _ (waiting ++ [raw]) [] := .opened _
    simpa using opened
  | forbidden =>
    refine .inr ⟨rfl, _, waiting ++ [raw], rfl, ?_, by simp⟩
    have forbidden : Stands event .forbidden _ (waiting ++ [raw]) [] := .forbidden _
    simpa using forbidden
  | announced =>
    refine .inr ⟨rfl, _, waiting, rfl, ?_, by simp⟩
    have announced : Stands event .announced _ waiting (left ++ [raw]) := .announced _ _
    simpa using announced
  | met => exact .inl ⟨rfl, rfl⟩
  | returned => exact .inl ⟨rfl, rfl⟩

theorem get_countDepth (contention : Contention Value) (amount : Int) (sample : Sample) :
    (contention.countDepth decode amount).tally.get sample =
      contention.record.tally.get sample +
        if sample = .queueDepth contention.pipeline.event then amount else 0 :=
  Tally.get_add _ _ _ _

/-- A payload that is sent is accepted and counted, or nothing comes of it. -/
theorem Sound.send (sound : Sound decode event waiting left contention) {index : Nat}
    {raw : Octets} (found : contention.checked[index]? = some raw) :
    ∃ more, Sound decode event more (left ++ contention.lostBy (.send index))
      (contention.send decode index raw) := by
  have named := sound.stands.event_eq
  obtain ⟨stopped, refused⟩ | ⟨working, later, more, queued, stands, total⟩ :=
    sound.stands.deliver raw
  · refine ⟨waiting, ?_⟩
    simp only [Contention.send, refused, lostBy, stopped, Bool.false_eq_true, and_false, if_false,
      List.append_nil]
    refine ⟨sound.stands, sound.accepted, sound.handled, ?_, ?_, ?_⟩
    · simpa [get_countDepth] using sound.decoded
    · simpa [get_countDepth] using sound.failures
    · simpa [get_countDepth, named] using sound.depth
  · refine ⟨more, ?_⟩
    have same : contention.lostBy (.send index) =
        if contention.ending = .announced then [raw] else [] := by
      simp [lostBy, found, working]
    rw [same]
    simp only [Contention.send, queued]
    refine ⟨stands, ?_, sound.handled, ?_, ?_, ?_⟩
    · rw [total, sound.accepted]
      simp
    · simpa [get_countDepth] using sound.decoded
    · simpa [get_countDepth] using sound.failures
    · rw [total]
      simp [get_countDepth, named, sound.depth]
      omega

/-- What the worker counts of a payload. -/
theorem get_process (event : FeedEvent) (record : Worker.Record Value) (raw : Octets)
    (sample : Sample) :
    ((Worker.recorder decode).process event record raw).tally.get sample =
      record.tally.get sample + (if sample = .queueDepth event then -1 else 0) +
        if sample = (if (decode raw).toOption.isSome then .decoded event
          else .decodeFailures event) then 1 else 0 := by
  simp only [Worker.process, Worker.recorder]
  cases decode raw <;> simp [Tally.get_add, Except.toOption]

theorem handled_process (event : FeedEvent) (record : Worker.Record Value) (raw : Octets) :
    ((Worker.recorder decode).process event record raw).handled =
      record.handled ++ (decode raw).toOption.toList := by
  simp only [Worker.process, Worker.recorder]
  cases decode raw <;> simp [Except.toOption]

/-- The worker takes the first payload that waits, or meets the end. -/
theorem Stands.take? {ending : Ending} {pipeline : Pipeline}
    (stands : Stands event ending pipeline waiting left) :
    pipeline.take? = none ∨
      (waiting = [] ∧ ∃ later, pipeline.take? = some (.finish, later) ∧
        Stands event ending later [] left) ∨
      ∃ raw rest later, waiting = raw :: rest ∧ pipeline.take? = some (.payload raw, later) ∧
        Stands event ending later rest left := by
  cases stands with
  | opened =>
    cases waiting with
    | nil => exact .inl rfl
    | cons raw rest => exact .inr (.inr ⟨raw, rest, _, rfl, rfl, .opened rest⟩)
  | forbidden =>
    cases waiting with
    | nil => exact .inl rfl
    | cons raw rest => exact .inr (.inr ⟨raw, rest, _, rfl, rfl, .forbidden rest⟩)
  | announced =>
    cases waiting with
    | nil => exact .inr (.inl ⟨rfl, _, rfl, .met left⟩)
    | cons raw rest => exact .inr (.inr ⟨raw, rest, _, rfl, rfl, .announced rest left⟩)
  | met => exact .inl rfl
  | returned => exact .inl rfl

/-- A payload that the worker takes is handled and counted. -/
theorem Sound.work (sound : Sound decode event waiting left contention) :
    ∃ more, Sound decode event more left (contention.work decode) := by
  have named := sound.stands.event_eq
  obtain idle | ⟨rfl, later, met, stands⟩ | ⟨raw, rest, later, rfl, taken, stands⟩ :=
    sound.stands.take?
  · exact ⟨waiting, by simpa only [Contention.work, idle] using sound⟩
  · exact ⟨[], by simpa only [Contention.work, met] using sound.moved stands⟩
  · refine ⟨rest, ?_⟩
    simp only [Contention.work, taken, named]
    refine ⟨stands, ?_, ?_, ?_, ?_, ?_⟩
    · rw [sound.accepted]
      simp
    · rw [handled_process, sound.handled, List.filterMap_append]
      cases found : (decode raw).toOption <;> simp [found]
    · rw [get_process, sound.decoded, List.countP_append]
      cases found : (decode raw).toOption <;> simp [found]
    · rw [get_process, sound.failures, List.countP_append]
      cases found : (decode raw).toOption <;> simp [found]
    · rw [get_process, sound.depth]
      cases found : (decode raw).toOption <;> simp

section Ending

variable {pipeline : Pipeline}

theorem Stands.forbid (stands : Stands event .absent pipeline waiting left) :
    Stands event .forbidden pipeline.forbid waiting left := by
  cases stands
  exact .forbidden waiting

theorem Stands.announce (stands : Stands event .forbidden pipeline waiting left) :
    Stands event .announced (pipeline.deliver .finish).1 waiting left := by
  cases stands
  exact .announced waiting []

/-- The worker has gone only when nothing waits for it any more. -/
theorem Stands.join (stands : Stands event .announced pipeline waiting left)
    (stopped : pipeline.working = false) : Stands event .returned pipeline waiting left := by
  cases stands with
  | announced => cases stopped
  | met => exact .returned left

end Ending

/-- Every step leaves everything sound, with the payload it loses. -/
theorem Sound.stride (sound : Sound decode event waiting left contention) (stride : Stride) :
    ∃ more, Sound decode event more (left ++ contention.lostBy stride)
      (contention.stride decode stride) := by
  cases stride with
  | check raw =>
    refine ⟨waiting, ?_⟩
    simp only [lostBy, List.append_nil, Contention.stride]
    split_ifs <;> exact ⟨sound.stands, sound.accepted, sound.handled, sound.decoded,
      sound.failures, sound.depth⟩
  | send index =>
    cases found : contention.checked[index]? with
    | none => exact ⟨waiting, by simpa [Contention.stride, lostBy, found] using sound⟩
    | some raw => simpa only [Contention.stride, found] using sound.send found
  | forbid =>
    refine ⟨waiting, ?_⟩
    simp only [lostBy, List.append_nil, Contention.stride]
    split_ifs with absent
    · exact sound.moved (absent ▸ sound.stands).forbid
    · exact sound
  | announce =>
    refine ⟨waiting, ?_⟩
    simp only [lostBy, List.append_nil, Contention.stride]
    split_ifs with forbidden
    · exact sound.moved (forbidden ▸ sound.stands).announce
    · exact sound
  | join =>
    refine ⟨waiting, ?_⟩
    simp only [lostBy, List.append_nil, Contention.stride]
    split_ifs with joined
    · exact sound.moved ((joined.1 ▸ sound.stands).join joined.2)
    · exact sound
  | work =>
    simp only [lostBy, List.append_nil]
    exact sound.work

theorem Sound.run (sound : Sound decode event waiting left contention) (strides : List Stride) :
    ∃ more, Sound decode event more (left ++ contention.lost decode strides)
      (contention.run decode strides) := by
  induction strides generalizing contention waiting left with
  | nil => exact ⟨waiting, by simpa [lost, Contention.run] using sound⟩
  | cons stride rest inductionHypothesis =>
    obtain ⟨more, next⟩ := sound.stride stride
    obtain ⟨most, last⟩ := inductionHypothesis next
    rw [List.append_assoc] at last
    exact ⟨most, last⟩

end Sound

section Submitted

/-- The payload that a step submits. -/
def submittedBy : Stride → List Octets
  | .check raw => [raw]
  | _ => []

/-- The payloads that are submitted. -/
def submitted (strides : List Stride) : List Octets :=
  strides.flatMap submittedBy

/-- The submissions so far: those that have returned, and those between their two steps. -/
def submissions (contention : Contention Value) : List Octets :=
  contention.accepted ++ contention.refused ++ contention.checked

/-- A submission that sends returns, accepted or refused. -/
theorem perm_submissions_send (contention : Contention Value) {index : Nat} {raw : Octets}
    (found : contention.checked[index]? = some raw) :
    (contention.send decode index raw).submissions.Perm contention.submissions := by
  obtain ⟨inside, rfl⟩ := List.getElem?_eq_some_iff.mp found
  have cut := List.getElem_cons_eraseIdx_perm inside
  rw [List.perm_iff_count] at cut ⊢
  intro payload
  have counted := cut payload
  simp only [submissions, send]
  split <;> simp only [List.count_append, List.count_cons, List.count_nil] at counted ⊢ <;> omega

theorem perm_submissions_stride (decode : Octets → Except Ledger.DecodeError Value)
    (contention : Contention Value) (stride : Stride) :
    (contention.stride decode stride).submissions.Perm
      (contention.submissions ++ submittedBy stride) := by
  cases stride with
  | check raw =>
    simp only [stride, submittedBy]
    split_ifs
    · rw [List.perm_iff_count]
      intro payload
      simp only [submissions, List.count_append]
      omega
    · simp [submissions]
  | send index =>
    simp only [stride, submittedBy, List.append_nil]
    split
    · rfl
    · rename_i raw found
      exact perm_submissions_send contention found
  | work =>
    simp only [stride, work, submittedBy, List.append_nil]
    split <;> rfl
  | _ =>
    simp only [stride, submittedBy, List.append_nil]
    split_ifs <;> rfl

theorem perm_submissions_run (decode : Octets → Except Ledger.DecodeError Value)
    (contention : Contention Value) (strides : List Stride) :
    (contention.run decode strides).submissions.Perm
      (contention.submissions ++ submitted strides) := by
  induction strides generalizing contention with
  | nil => simp [run, submitted]
  | cons stride rest inductionHypothesis =>
    have first := perm_submissions_stride decode contention stride
    refine (inductionHypothesis (contention.stride decode stride)).trans ?_
    simpa [submitted] using first.append_right (submitted rest)

end Submitted

section Ends

variable {event : FeedEvent} {waiting left : List Octets} {contention : Contention Value}

theorem run_append (contention : Contention Value) (front back : List Stride) :
    contention.run decode (front ++ back) = (contention.run decode front).run decode back :=
  List.foldl_append

/-- The submissions between their two steps can all send. -/
theorem exists_run_sends (decode : Octets → Except Ledger.DecodeError Value)
    (contention : Contention Value) :
    ∃ times, (contention.run decode (List.replicate times (.send 0))).checked = [] := by
  induction measured : contention.checked.length generalizing contention with
  | zero => exact ⟨0, List.length_eq_zero_iff.mp measured⟩
  | succ length inductionHypothesis =>
    obtain ⟨raw, rest, found⟩ := List.exists_cons_of_length_eq_add_one measured
    have fewer : (contention.stride decode (.send 0)).checked = rest := by
      simp only [stride, found, List.getElem?_cons_zero, send]
      split <;> rfl
    have shorter : (contention.stride decode (.send 0)).checked.length = length := by
      rw [fewer]
      simpa [found] using measured
    obtain ⟨times, sent⟩ := inductionHypothesis _ shorter
    exact ⟨times + 1, sent⟩

theorem checked_work (contention : Contention Value) :
    (contention.work decode).checked = contention.checked := by
  unfold work
  split <;> rfl

theorem ending_work (contention : Contention Value) :
    (contention.work decode).ending = contention.ending := by
  unfold work
  split <;> rfl

/-- Behind the end a worker that finds nothing to do has met the end. -/
theorem Stands.stopped_of_idle {pipeline : Pipeline}
    (stands : Stands event .announced pipeline waiting left) (idle : pipeline.take? = none) :
    pipeline.working = false := by
  cases stands with
  | announced =>
    cases waiting with
    | nil => cases idle
    | cons raw rest => cases idle
  | met => rfl

/-- A worker that is left to itself behind the end meets the end. -/
theorem Sound.exists_run_stopped (sound : Sound decode event waiting left contention)
    (announced : contention.ending = .announced) :
    ∃ times, (contention.run decode (List.replicate times .work)).ending = .announced ∧
      (contention.run decode (List.replicate times .work)).checked = contention.checked ∧
      (contention.run decode (List.replicate times .work)).pipeline.working = false := by
  induction measured : contention.pipeline.queue.length using Nat.strong_induction_on
    generalizing contention waiting with
  | h length inductionHypothesis =>
    cases found : contention.pipeline.take? with
    | none =>
      have stands := sound.stands
      rw [announced] at stands
      exact ⟨0, announced, rfl, stands.stopped_of_idle found⟩
    | some taken =>
      obtain ⟨job, later⟩ := taken
      have shorter := Pipeline.length_queue_of_take? found
      have pipeline : (contention.work decode).pipeline = later := by
        cases job <;> simp only [Contention.work, found]
      obtain ⟨more, next⟩ := sound.work
      obtain ⟨times, ending, checked, stopped⟩ := inductionHypothesis _
        (measured ▸ pipeline ▸ shorter) next ((ending_work contention).trans announced) rfl
      exact ⟨times + 1, ending, checked.trans (checked_work contention), stopped⟩

/-- The shutdown can go on to send the end, and no submission is held up by that. -/
theorem run_forbid_announce (decode : Octets → Except Ledger.DecodeError Value)
    (contention : Contention Value) :
    ((contention.run decode [.forbid, .announce]).ending = .announced ∨
        (contention.run decode [.forbid, .announce]).ending = .returned) ∧
      (contention.run decode [.forbid, .announce]).checked = contention.checked := by
  cases ending : contention.ending <;> simp [run, stride, ending]

theorem exists_returned_of_run (front : List Stride)
    (ends : ∃ more, ((contention.run decode front).run decode more).Returned) :
    ∃ more, (contention.run decode more).Returned := by
  obtain ⟨more, returned⟩ := ends
  exact ⟨front ++ more, by rwa [run_append]⟩

/-- From wherever a run has got, all can return. -/
theorem Sound.exists_run_returned (sound : Sound decode event waiting left contention) :
    ∃ more, (contention.run decode more).Returned := by
  obtain ⟨times, sent⟩ := exists_run_sends decode contention
  obtain ⟨_, quiet⟩ := sound.run (List.replicate times (.send 0))
  refine exists_returned_of_run (List.replicate times (.send 0)) ?_
  generalize contention.run decode (List.replicate times (.send 0)) = silent at sent quiet ⊢
  obtain ⟨ending, checked⟩ := run_forbid_announce decode silent
  obtain ⟨_, shut⟩ := quiet.run [.forbid, .announce]
  rw [sent] at checked
  refine exists_returned_of_run [.forbid, .announce] ?_
  generalize silent.run decode [.forbid, .announce] = last at ending checked shut ⊢
  rcases ending with announced | returned
  · obtain ⟨worked, still, kept, stopped⟩ := shut.exists_run_stopped announced
    refine exists_returned_of_run (List.replicate worked .work) ⟨[.join], ?_⟩
    rw [checked] at kept
    generalize last.run decode (List.replicate worked .work) = idle at still kept stopped ⊢
    simp [Contention.run, Contention.stride, still, stopped, Returned, kept]
  · exact ⟨[], checked, returned⟩

/-- However the steps of a run have fallen so far, it can go on until all have returned. -/
theorem exists_returned_run_append (decode : Octets → Except Ledger.DecodeError Value)
    (event : FeedEvent) (strides : List Stride) :
    ∃ more, ((start event : Contention Value).run decode (strides ++ more)).Returned := by
  obtain ⟨_, sound⟩ := (sound_start decode event).run strides
  obtain ⟨more, returned⟩ := sound.exists_run_returned
  exact ⟨more, by rwa [run_append]⟩

end Ends

/-- What a run has come to when all have returned. Each submission has been accepted or refused.
What was accepted has been taken in order, decoded and counted, but for what was sent between the
end and the worker's meeting it, which is lost and still counted as queued. -/
structure Outcome (decode : Octets → Except Ledger.DecodeError Value) (event : FeedEvent)
    (strides : List Stride) (last : Contention Value) : Prop where
  submitted : (last.accepted ++ last.refused).Perm (submitted strides)
  accepted : last.accepted = last.taken ++ (start event).lost decode strides
  handled : last.record.handled = last.taken.filterMap fun raw => (decode raw).toOption
  decoded : last.record.tally.get (.decoded event) =
    last.taken.countP fun raw => (decode raw).toOption.isSome
  failures : last.record.tally.get (.decodeFailures event) =
    last.taken.countP fun raw => (decode raw).toOption.isNone
  depth : last.record.tally.get (.queueDepth event) =
    ((start event).lost decode strides).length
  lossless : last.Lossless decode ↔ (start event).lost decode strides = []

/-- However the steps of a run have fallen so far, it can go on until all have returned. Then nothing
that was accepted is lost exactly if no submission has sent between the end and the worker's meeting
it. -/
theorem outcome_of_returned (decode : Octets → Except Ledger.DecodeError Value) (event : FeedEvent)
    (strides : List Stride) :
    (∃ more, ((start event).run decode (strides ++ more)).Returned) ∧
      (((start event).run decode strides).Returned →
        Outcome decode event strides ((start event).run decode strides)) := by
  refine ⟨exists_returned_run_append decode event strides, fun returned => ?_⟩
  obtain ⟨waiting, sound⟩ := (sound_start decode event).run strides
  have all := perm_submissions_run decode (start event) strides
  rw [List.nil_append] at sound
  generalize (start event).run decode strides = last at returned sound all
  obtain ⟨none, ending⟩ := returned
  obtain rfl : waiting = [] := by
    have stands := sound.stands
    rw [ending] at stands
    generalize last.pipeline = pipeline at stands
    cases stands
    rfl
  have accepted := sound.accepted
  have depth := sound.depth
  rw [List.nil_append] at accepted depth
  refine ⟨?_, accepted, sound.handled, sound.decoded, sound.failures, depth, fun lossless => ?_,
    fun nothing => ?_⟩
  · simpa [submissions, none, start] using all
  · have zero := lossless.depth
    rw [sound.stands.event_eq, depth] at zero
    exact List.length_eq_zero_iff.mp (by exact_mod_cast zero)
  · rw [nothing, List.append_nil] at accepted
    refine ⟨fun raw mem => accepted ▸ mem, accepted.symm ▸ sound.handled, ?_⟩
    rw [sound.stands.event_eq, depth, nothing]
    rfl

/-- One transaction is sent in time, and another behind the end. -/
def photoFinish : List Stride :=
  [.check [1, 0, 0, 0, 0, 0, 0, 0, 0, 0], .send 0, .check [1], .forbid, .check [2], .announce,
    .work, .send 0, .work, .join]

theorem outcome_photoFinish :
    ((start .transaction).run Ledger.Transaction.decode photoFinish).Returned ∧
      (start .transaction).lost Ledger.Transaction.decode photoFinish = [[1]] ∧
      Outcome Ledger.Transaction.decode .transaction photoFinish
        ((start .transaction).run Ledger.Transaction.decode photoFinish) := by
  have returned : ((start .transaction).run Ledger.Transaction.decode photoFinish).Returned := by
    decide +kernel
  exact ⟨returned, by decide +kernel, (outcome_of_returned _ _ _).2 returned⟩

/-- A submission checks the flag, the shutdown sets it and sends the end, and the submission sends
behind that. -/
def overtaken : List Stride :=
  [.check [1, 0, 0, 0, 0, 0, 0, 0, 0, 0], .forbid, .announce, .send 0, .work, .join]

/-- The submission is accepted, all have returned, and the payload has not been taken. -/
theorem not_lossless_overtaken :
    let last := (start .transaction).run Ledger.Transaction.decode overtaken
    last.Returned ∧ last.accepted = [[1, 0, 0, 0, 0, 0, 0, 0, 0, 0]] ∧ last.taken = [] ∧
      last.record.tally.get (.queueDepth .transaction) = 1 ∧
      ¬last.Lossless Ledger.Transaction.decode := by
  refine ⟨by decide +kernel, by decide +kernel, by decide +kernel, by decide +kernel, ?_⟩
  intro lossless
  have kept : [1, 0, 0, 0, 0, 0, 0, 0, 0, 0] ∈
      ((start .transaction).run Ledger.Transaction.decode overtaken).taken :=
    lossless.taken _ (by decide +kernel)
  exact absurd kept (by decide +kernel)

end Contention

end CashHerald.Hub
