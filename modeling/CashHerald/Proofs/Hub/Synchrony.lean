import CashHerald.Proofs.Hub.Confinement

/-!
Two relays side by side, and a client in each. Main statements: a worker keeps every relation that
its counts and its announcements keep, and relays with the same work in front of them that look the
same to two clients still do when payloads have been submitted, when workers have done their work,
and when they have been shut down.
-/

namespace CashHerald.Hub

namespace Worker

variable {Value State : Type} (worker : Worker Value State) {pipeline later : Pipeline}

theorem workAll_of_idle (idle : pipeline.take? = none) (state : State) :
    worker.workAll pipeline state = (pipeline, state) := by
  rw [workAll.eq_def]
  split <;> simp_all

theorem workAll_of_finish (found : pipeline.take? = some (.finish, later)) (state : State) :
    worker.workAll pipeline state = worker.workAll later state := by
  rw [workAll.eq_def]
  split <;> simp_all

theorem workAll_of_payload {raw : Octets} (found : pipeline.take? = some (.payload raw, later))
    (state : State) :
    worker.workAll pipeline state =
      worker.workAll later (worker.process pipeline.event state raw) := by
  rw [workAll.eq_def]
  split <;> simp_all

/-- A worker keeps a relation between two states that its counts and its handling keep. -/
theorem workAll_related (Related : State → State → Prop)
    (counted : ∀ {first second} sample amount, Related first second →
      Related (worker.count first sample amount) (worker.count second sample amount))
    (handled : ∀ {first second} value, Related first second →
      Related (worker.handle first value) (worker.handle second value))
    (pipeline : Pipeline) {first second : State} (related : Related first second) :
    (worker.workAll pipeline first).1 = (worker.workAll pipeline second).1 ∧
      Related (worker.workAll pipeline first).2 (worker.workAll pipeline second).2 := by
  have processed (event : FeedEvent) (raw : Octets) {first second : State}
      (related : Related first second) :
      Related (worker.process event first raw) (worker.process event second raw) := by
    unfold process
    rcases worker.decode raw with error | value
    · exact counted _ _ (counted _ _ related)
    · exact handled _ (counted _ _ (counted _ _ related))
  induction pipeline, first using Worker.workAll.induct worker generalizing second with
  | case1 pipeline first idle =>
    rw [workAll_of_idle worker idle, workAll_of_idle worker idle]
    exact ⟨rfl, related⟩
  | case2 pipeline first later found inductionHypothesis =>
    rw [workAll_of_finish worker found, workAll_of_finish worker found]
    exact inductionHypothesis related
  | case3 pipeline first raw later found inductionHypothesis =>
    rw [workAll_of_payload worker found, workAll_of_payload worker found]
    exact inductionHypothesis (processed _ raw related)

/-- A worker keeps what its counts and its handling keep. -/
theorem workAll_kept (Kept : State → Prop)
    (counted : ∀ {state} sample amount, Kept state → Kept (worker.count state sample amount))
    (handled : ∀ {state} value, Kept state → Kept (worker.handle state value))
    (pipeline : Pipeline) {state : State} (kept : Kept state) :
    Kept (worker.workAll pipeline state).2 :=
  -- The relation is the property of two states that are one.
  (worker.workAll_related (fun first second => Kept first ∧ second = first)
    (fun sample amount both => ⟨counted sample amount both.1, by rw [both.2]⟩)
    (fun value both => ⟨handled value both.1, by rw [both.2]⟩) pipeline ⟨kept, rfl⟩).2.1

end Worker

/-- A hub whose clients are tracked once and have connections. -/
structure Housed (floor : Relay.Floor) : Prop where
  distinct : floor.1.registry.clients.Nodup
  bounded : ∀ {client}, client ∈ floor.1.registry.clients → client < floor.2.length

/-- Two floors that look the same to two clients, one in each. -/
structure Similar (client other : Nat) (first second : Relay.Floor) : Prop where
  hub : Alike client other first.1 second.1
  connection : first.2[client]? = second.2[other]?
  housed : Housed first
  otherHoused : Housed second

theorem Housed.broadcast {floor : Relay.Floor} (housed : Housed floor) (event : FeedEvent)
    (text : String) (targets : List Nat) :
    Housed (floor.1.broadcast event text floor.2 targets) := by
  have kept := (kept_broadcast event text floor.1 floor.2 targets).2
  refine ⟨kept ▸ housed.distinct, fun {client} mem => ?_⟩
  rw [kept] at mem
  rw [length_broadcast]
  exact housed.bounded mem

/-- An event of a client leaves every client tracked once and with a connection. -/
theorem Housed.heed {hub later : Hub} {connections : List Session.Connection} {client : Nat}
    (housed : Housed (hub, connections)) (within : client < connections.length)
    (confined : Confined client hub later) (changed : Session.Connection) :
    Housed (later, connections.set client changed) := by
  refine ⟨confined.registry.distinct housed.distinct, fun {tracked} mem => ?_⟩
  rw [List.length_set]
  rcases confined.registry.clients mem with before | rfl
  · exact housed.bounded before
  · exact within

namespace Similar

variable {client other : Nat} {first second : Relay.Floor}

theorem count (similar : Similar client other first second) (sample : Sample) (amount : Int) :
    Similar client other (Relay.countOn first sample amount) (Relay.countOn second sample amount) :=
  ⟨similar.hub.count _ _ _ _, similar.connection,
    ⟨similar.housed.distinct, similar.housed.bounded⟩,
    ⟨similar.otherHoused.distinct, similar.otherHoused.bounded⟩⟩

/-- A broadcast that goes to both clients equally often looks the same to them. -/
theorem broadcast (similar : Similar client other first second) (event : FeedEvent) (text : String)
    {targets otherTargets : List Nat} (often : targets.count client = otherTargets.count other) :
    Similar client other (first.1.broadcast event text first.2 targets)
      (second.1.broadcast event text second.2 otherTargets) := by
  obtain ⟨network, registry⟩ := kept_broadcast event text first.1 first.2 targets
  obtain ⟨otherNetwork, otherRegistry⟩ :=
    kept_broadcast event text second.1 second.2 otherTargets
  refine ⟨⟨?_, ?_⟩, ?_, similar.housed.broadcast _ _ _, similar.otherHoused.broadcast _ _ _⟩
  · rw [network, otherNetwork, similar.hub.network]
  · rw [registry, otherRegistry, similar.hub.subscriptions]
  · rw [broadcast_getElem?, broadcast_getElem?, often, similar.connection]

theorem announceBlock (similar : Similar client other first second) (block : Ledger.Block) :
    Similar client other (first.1.announceBlock first.2 block)
      (second.1.announceBlock second.2 block) := by
  refine similar.broadcast _ _ ?_
  rw [count_blockTargets similar.housed.distinct, count_blockTargets similar.otherHoused.distinct]
  simp only [blockDemand, similar.hub.held]

theorem announceTransaction (similar : Similar client other first second)
    (transaction : Ledger.Transaction) :
    Similar client other (first.1.announceTransaction first.2 transaction)
      (second.1.announceTransaction second.2 transaction) := by
  unfold Hub.announceTransaction
  rw [similar.hub.network]
  refine similar.broadcast _ _ ?_
  rw [count_transactionTargets similar.housed.distinct,
    count_transactionTargets similar.otherHoused.distinct]
  simp only [transactionDemand, similar.hub.held, similar.hub.network]

end Similar

/-- Two relays with their connections, at the same work and looking the same to two clients. -/
structure Synchronous (client other : Nat) (first second : Relay × List Session.Connection) :
    Prop where
  blocks : first.1.blocks = second.1.blocks
  transactions : first.1.transactions = second.1.transactions
  floor : Similar client other (first.1.hub, first.2) (second.1.hub, second.2)

namespace Synchronous

variable {client other : Nat} {first second : Relay × List Session.Connection}

theorem workAll (synchronous : Synchronous client other first second) (event : FeedEvent) :
    Synchronous client other (first.1.workAll first.2 event) (second.1.workAll second.2 event) := by
  cases event with
  | block =>
    obtain ⟨pipeline, floor⟩ := Relay.blockWorker.workAll_related (Similar client other)
      (fun sample amount similar => similar.count sample amount)
      (fun block similar => similar.announceBlock block) second.1.blocks synchronous.floor
    simp only [Relay.workAll, synchronous.blocks]
    exact ⟨pipeline, synchronous.transactions, floor⟩
  | transaction =>
    obtain ⟨pipeline, floor⟩ := Relay.transactionWorker.workAll_related (Similar client other)
      (fun sample amount similar => similar.count sample amount)
      (fun transaction similar => similar.announceTransaction transaction)
      second.1.transactions synchronous.floor
    simp only [Relay.workAll, synchronous.transactions]
    exact ⟨synchronous.blocks, pipeline, floor⟩

theorem submit (synchronous : Synchronous client other first second) (event : FeedEvent)
    (raw : Octets) :
    Synchronous client other ((first.1.submit event raw).1, first.2)
      ((second.1.submit event raw).1, second.2) := by
  have same : first.1.pipeline event = second.1.pipeline event := by
    cases event with
    | block => exact synchronous.blocks
    | transaction => exact synchronous.transactions
  unfold Relay.submit
  rw [same]
  split
  · exact synchronous
  · rename_i later _
    cases event with
    | block => exact ⟨rfl, synchronous.transactions, synchronous.floor.count _ 1⟩
    | transaction => exact ⟨synchronous.blocks, rfl, synchronous.floor.count _ 1⟩

theorem close (synchronous : Synchronous client other first second) (event : FeedEvent) :
    Synchronous client other (first.1.close event, first.2) (second.1.close event, second.2) := by
  cases event with
  | block =>
    exact ⟨congrArg Pipeline.close synchronous.blocks, synchronous.transactions, synchronous.floor⟩
  | transaction =>
    exact ⟨synchronous.blocks, congrArg Pipeline.close synchronous.transactions, synchronous.floor⟩

theorem shutdown (synchronous : Synchronous client other first second) :
    Synchronous client other (first.1.shutdown first.2) (second.1.shutdown second.2) :=
  (((synchronous.close .block).workAll .block).close .transaction).workAll .transaction

end Synchronous

theorem length_workAll (relay : Relay) (connections : List Session.Connection) (event : FeedEvent) :
    (relay.workAll connections event).2.length = connections.length := by
  have announced (event : FeedEvent) (text : String) {floor : Relay.Floor} (targets : List Nat)
      (kept : floor.2.length = connections.length) :
      (floor.1.broadcast event text floor.2 targets).2.length = connections.length :=
    (length_broadcast _ _ _).trans kept
  cases event with
  | block =>
    exact Relay.blockWorker.workAll_kept (fun floor => floor.2.length = connections.length)
      (fun _ _ kept => kept) (fun _ kept => announced _ _ _ kept) relay.blocks rfl
  | transaction =>
    exact Relay.transactionWorker.workAll_kept (fun floor => floor.2.length = connections.length)
      (fun _ _ kept => kept) (fun _ kept => announced _ _ _ kept) relay.transactions rfl

theorem length_shutdown (relay : Relay) (connections : List Session.Connection) :
    (relay.shutdown connections).2.length = connections.length := by
  have first := length_workAll (relay.close .block) connections .block
  exact (length_workAll _ _ .transaction).trans first

end CashHerald.Hub
