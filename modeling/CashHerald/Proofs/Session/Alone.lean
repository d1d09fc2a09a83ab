import CashHerald.Proofs.Session.Guests
import CashHerald.Session.Server

/-!
A client of a server that is left alone. Main statements: one thing after another, it does what a
step of its session does with an arrival, its writer writes what the connection has queued, and it
is settled as the server settles it.
-/

namespace CashHerald.Session

namespace Guest

/-- What a client shows of itself: its connection, and what its session is at. -/
def view (guest : Guest) : Connection × Duty :=
  (guest.connection, guest.duty)

/-- A client whose session waits for its socket. -/
def ofSession (session : Session) (journal : List Note) : Guest :=
  ⟨session.connection, .waiting session.phase, journal⟩

/-- What a client shows whose session waits for its socket. -/
def viewOf (session : Session) : Connection × Duty :=
  (session.connection, .waiting session.phase)

section Alone

variable {Memory : Type} (handler : Handler Memory) (settings : Settings) (client : Nat)

/-- The client after some things have been done for it. -/
def acts (guest : Guest) (memory : Memory) (doings : List Doing) : Guest × Memory :=
  doings.foldl (fun state doing => state.1.act handler settings client state.2 doing)
    (guest, memory)

/-- With some things done for it, a client comes to show something else. -/
def Leads (guest : Guest) (memory : Memory) (shown : Connection × Duty) (later : Memory) : Prop :=
  ∃ doings, (guest.acts handler settings client memory doings).1.view = shown ∧
    (guest.acts handler settings client memory doings).2 = later

variable {handler settings client}

theorem Leads.refl (guest : Guest) (memory : Memory) :
    Leads handler settings client guest memory guest.view memory :=
  ⟨[], rfl, rfl⟩

theorem Leads.head {guest : Guest} {memory last : Memory} {shown : Connection × Duty}
    (doing : Doing)
    (leads : Leads handler settings client (guest.act handler settings client memory doing).1
      (guest.act handler settings client memory doing).2 shown last) :
    Leads handler settings client guest memory shown last := by
  obtain ⟨doings, reached, remembered⟩ := leads
  exact ⟨doing :: doings, reached, remembered⟩

/-- One thing leads to the next, whatever has been noted. -/
theorem Leads.trans {guest : Guest} {memory middle last : Memory}
    {shown final : Connection × Duty} (front : Leads handler settings client guest memory shown middle)
    (back : ∀ journal, Leads handler settings client ⟨shown.1, shown.2, journal⟩ middle final last) :
    Leads handler settings client guest memory final last := by
  obtain ⟨doings, rfl, rfl⟩ := front
  obtain ⟨more, reached, remembered⟩ :=
    back (guest.acts handler settings client memory doings).1.journal
  refine ⟨doings ++ more, ?_, ?_⟩
  · rw [← reached, acts, List.foldl_append]
    rfl
  · rw [← remembered, acts, List.foldl_append]
    rfl

variable (handler settings client)

/-- Tasks that nothing interrupts come to what they do in one go. -/
theorem leads_carryOut (tasks : List Task) (scene : Scene Memory) (journal : List Note) :
    Leads handler settings client ⟨scene.connection, .working tasks, journal⟩ scene.memory
      ((scene.carryOut handler client tasks).1.connection,
        .waiting (scene.carryOut handler client tasks).2)
      (scene.carryOut handler client tasks).1.memory := by
  induction scene, tasks using Scene.carryOut.induct handler client generalizing journal with
  | case1 scene =>
    rw [Scene.carryOut]
    exact .head .proceed (.refl _ _)
  | case2 scene task rest phase rests =>
    simp only [Scene.carryOut, rests]
    refine .head .proceed ?_
    simp only [act, Guest.take, rests]
    exact .refl _ _
  | case3 scene task rest works inductionHypothesis =>
    simp only [Scene.carryOut, works]
    refine .head .proceed ?_
    simp only [act, Guest.take, works]
    exact inductionHypothesis _

/-- A session that is left alone after an arrival does what its step does. -/
theorem leads_step (session : Session) (memory : Memory) (arrival : Arrival)
    (journal : List Note) :
    Leads handler settings client (.ofSession session journal) memory
      (viewOf (session.step handler settings client memory arrival).1)
      (session.step handler settings client memory arrival).2 :=
  .head (.arrive arrival)
    (leads_carryOut handler settings client _ ⟨session.connection, memory⟩ journal)

/-- A writer that is left alone writes what the connection has queued. -/
theorem leads_flush (connection : Connection) (duty : Duty) (memory : Memory)
    (journal : List Note) :
    Leads handler settings client ⟨connection, duty, journal⟩ memory (connection.flush.2, duty)
      memory := by
  obtain ⟨state, details, attached, queue⟩ := connection
  induction queue with
  | nil =>
    have same : (⟨state, details, attached, []⟩ : Connection).flush.2 =
        ⟨state, details, attached, []⟩ := by
      simp [Connection.flush, Connection.written]
    rw [same]
    exact .refl _ _
  | cons item rest inductionHypothesis =>
    cases item with
    | data octets => exact .head .write inductionHypothesis
    | close frame =>
      have same : (⟨state, details, attached, .close frame :: rest⟩ : Connection).flush.2 =
          ⟨state, details, false, []⟩ := by
        simp [Connection.flush, Connection.written]
      rw [same]
      exact .head .write (.refl _ _)

/-- A client that is left alone is settled as the server settles it. -/
theorem leads_settleSession (session : Session) (memory : Memory) (journal : List Note) :
    Leads handler settings client (.ofSession session journal) memory
      (viewOf (Server.settleSession handler settings client session memory).2.1)
      (Server.settleSession handler settings client session memory).2.2 := by
  refine (leads_flush handler settings client session.connection (.waiting session.phase) memory
    journal).trans fun journal => ?_
  simp only [Server.settleSession, Session.flush]
  by_cases attached : session.connection.flush.2.attached = true
  · simp only [attached, if_true]
    exact .refl _ _
  · simp only [attached]
    exact leads_step handler settings client ⟨session.connection.flush.2, session.phase⟩ memory
      .writerEnded journal

end Alone

end Guest

end CashHerald.Session
