import GdbControl.Proofs.LastWords
import GdbControl.Proofs.Waiting

/-!
The loop of the reader does one thing with each reading: bytes are taken in, and silence lets a held
line go. The first reading that is neither ends the loop, and so do a fault on the way and the end of
the session. The session is closed then, whatever ended the loop, and what is read later reaches
nobody.
-/

namespace GdbControl

/-- What a session does with a reading that does not end the loop. -/
def Reading.intake (reading : Reading) : Engine Unit :=
  match reading.outcome with
  | .bytes available => Engine.ingest Engine.handle available
  | _ => discard Engine.flush

/-- Takes readings in one after another, up to the first fault. Gives what the session did, and the
session without that record. -/
def Session.takeIn : Session → List Reading → List Event × Session
  | session, [] => ([], session)
  | session, reading :: rest =>
    match reading.intake.run session with
    | .ok _ later =>
      let (events, last) := later.forgetful.takeIn rest
      (later.journal ++ events, last)
    | .error _ later => (later.journal, later.forgetful)

/-- A session that nobody reads into any more. -/
def Session.left (session : Session) : Session :=
  { session.close with display := session.display.markReady }

/-- What a session does and becomes by the reads of a script, up to the first that is neither silence
nor bytes. -/
def Session.takenIn (session : Session) (script : List Reading) : List Event × Session :=
  session.takeIn ((script.flatMap Reading.divided).takeWhile Reading.isLively)

/-- The client after one session did something and became another, while nothing but polling was
recorded besides. -/
structure Client.Took (client : Client) (id : String) (attachment : Attachment)
    (events : List Event) (session : Session) (later : Client) : Prop where
  kept : later.sessions.get? id = some { attachment with session := session }
  others : ∀ other, other ≠ id → later.sessions.get? other = client.sessions.get? other
  told : ∃ activities, later.journal = client.journal ++ activities ∧
    activities.filter Activity.isDeed = events.map (.did id) ∧
    ∀ activity ∈ activities, activity.isDeed = false → activity = .polled id Reading.interval

-- Nothing is lost with a record that is empty.
theorem forgetful_clean {session : Session} (clean : session.journal = []) :
    session.forgetful = session := by
  rw [Session.forgetful, ← clean]

-- A closed session takes nothing in.
theorem take_in_closed {session : Session} (closed : session.isClosed = true)
    (clean : session.journal = []) (readings : List Reading) :
    session.takeIn readings = ([], session) := by
  cases readings with
  | nil => rfl
  | cons reading rest =>
    have refused : reading.intake.run session = .error .tornDown session := by
      obtain ⟨outcome, closedBefore⟩ := reading
      cases outcome <;>
        simp [Reading.intake, Engine.run_ingest, Engine.run_discard, Engine.run_flush, closed]
    rw [Session.takeIn, refused]
    simp only [clean, forgetful_clean clean]

section Took

variable {client middle later : Client} {id : String} {attachment : Attachment}
  {session : Session} {events : List Event}

theorem took_refl (present : client.sessions.get? id = some attachment) :
    client.Took id attachment [] attachment.session client :=
  ⟨present, fun _ _ => rfl, [], (List.append_nil _).symm, rfl, by simp⟩

theorem took_polled (present : client.sessions.get? id = some attachment) :
    client.Took id attachment [] attachment.session (client.log (.polled id Reading.interval)) :=
  ⟨present, fun _ _ => rfl, [.polled id Reading.interval], rfl, rfl, by simp⟩

theorem took_keep (client : Client) (id : String) (attachment : Attachment) (session : Session) :
    client.Took id attachment session.journal session.forgetful
      (client.keep id attachment session) := by
  refine ⟨?_, fun other differs => ?_, session.journal.map (.did id), rfl, ?_, ?_⟩
  · rw [kept_get, if_pos rfl]
  · rw [kept_get, if_neg differs]
  · exact List.filter_eq_self.mpr (by simp [Activity.isDeed])
  · simp [Activity.isDeed]

theorem took_trans (first : client.Took id attachment events session middle) {more : List Event}
    {last : Session}
    (rest : middle.Took id { attachment with session := session } more last later) :
    client.Took id attachment (events ++ more) last later := by
  obtain ⟨activities, told, deeds, polls⟩ := first.told
  obtain ⟨others, further, doings, polling⟩ := rest.told
  refine ⟨rest.kept, fun other differs => (rest.others other differs).trans
    (first.others other differs), activities ++ others, ?_, ?_, fun activity member => ?_⟩
  · rw [further, told, List.append_assoc]
  · rw [List.filter_append, deeds, doings, List.map_append]
  · exact (List.mem_append.mp member).elim (polls activity) (polling activity)

end Took

namespace Control

section Pump

variable {client : Client} {id : String} {attachment : Attachment} {reading : Reading}

-- Nothing is read into a session that is closed.
theorem run_pump_closed (present : client.sessions.get? id = some attachment)
    (closed : attachment.session.isClosed = true) (readings : List Reading) :
    (pump id readings).run client = .ok () client := by
  cases readings with
  | nil => rfl
  | cons reading rest =>
    rw [pump, EStateM.run_bind, run_is_alive present, closed]
    rfl

theorem after_pump_lively (present : client.sessions.get? id = some attachment)
    (alive : attachment.session.isClosed = false) (lively : reading.isLively = true)
    (rest : List Reading) :
    ∃ noted, client.Took id attachment [] attachment.session noted ∧
      (pump id (reading :: rest)).after client =
        match reading.intake.run attachment.session with
        | .ok _ taken => (pump id rest).after (noted.keep id attachment taken)
        | .error _ taken => noted.keep id attachment taken := by
  have open_ {client : Client} (present : client.sessions.get? id = some attachment) :
      (isAlive id).run client = .ok true client := by
    rw [run_is_alive present, alive]
    rfl
  rcases Reading.lively_cases lively with rfl | ⟨first, others, rfl⟩
  · let polled := client.log (.polled id Reading.interval)
    refine ⟨polled, took_polled present, ?_⟩
    have still : polled.sessions.get? id = some attachment := present
    have recorded : (record (.polled id Reading.interval)).run client = .ok () polled := rfl
    have flushed := run_on_session still (discard Engine.flush : Engine Unit)
    rw [Reading.silence, pump, after_bind, open_ present]
    simp only [if_true, Bool.false_eq_true, if_false, after_bind, recorded, open_ still, flushed,
      Reading.intake]
    cases (discard Engine.flush : Engine Unit).run attachment.session <;> rfl
  · refine ⟨client, took_refl present, ?_⟩
    have taken := run_on_session present (Engine.ingest Engine.handle (first :: others))
    rw [pump, after_bind, open_ present]
    simp only [if_true, reduceCtorEq, Bool.false_eq_true, if_false, after_bind, taken,
      Reading.intake]
    cases (Engine.ingest Engine.handle (first :: others)).run attachment.session <;> rfl

-- The session may be closed in the meantime. Nothing else happens to it.
theorem after_pump_last (present : client.sessions.get? id = some attachment)
    (clean : attachment.session.journal = []) (alive : attachment.session.isClosed = false)
    (last : reading.isLively = false) (rest : List Reading) :
    ∃ kept : Session, client.Took id attachment [] kept ((pump id (reading :: rest)).after client) ∧
      kept.close = attachment.session.close ∧ kept.journal = [] := by
  obtain ⟨outcome, closedBefore⟩ := reading
  cases closedBefore with
  | false =>
    have same : (pump id (⟨outcome, false⟩ :: rest)).after client = client := by
      rw [pump, after_bind, run_is_alive present, alive]
      cases outcome with
      | quiet => cases last
      | bytes available =>
        cases available with
        | nil => rfl
        | cons first others => cases last
      | failed reason => rfl
    rw [same]
    exact ⟨attachment.session, took_refl present, rfl, clean⟩
  | true =>
    let closed := attachment.session.close
    have gone : closed.isClosed = true := attachment.session.isClosed_close
    have still : closed.journal = [] := by
      simp only [closed, Session.close, alive]
      exact clean
    have shut {before : Client} (first : client.Took id attachment [] attachment.session before) :
        client.Took id attachment [] closed (before.keep id attachment closed) := by
      have kept := took_trans first (took_keep before id attachment closed)
      rwa [still, forgetful_clean still] at kept
    have closing {before : Client} (kept : before.sessions.get? id = some attachment) :
        (onSession id (modify Session.close)).run before =
          .ok () (before.keep id attachment closed) := run_on_session kept _
    refine ⟨closed, ?_, Session.close_of_isClosed gone, still⟩
    rw [pump, after_bind, run_is_alive present, alive]
    cases outcome with
    | quiet =>
      have took := shut (took_polled present)
      have recorded : (record (.polled id Reading.interval)).run client =
          .ok () (client.log (.polled id Reading.interval)) := rfl
      have passed := run_is_alive took.kept
      have ended := run_pump_closed took.kept gone rest
      dsimp only at passed
      rw [gone] at passed
      simp only [Bool.not_false, if_true, after_bind, recorded, closing (took_polled present).kept,
        passed, Bool.not_true, Bool.false_eq_true, if_false]
      rw [after, ended]
      exact took
    | bytes available =>
      have took := shut (took_refl present)
      simp only [Bool.not_false, if_true, reduceCtorEq, if_false, after_bind, closing present]
      cases available with
      | nil => exact took
      | cons first others =>
        dsimp only
        rw [after_bind, run_on_session took.kept, Engine.run_ingest, gone]
        have again := took_trans took (took_keep _ id { attachment with session := closed } closed)
        rwa [still, forgetful_clean still] at again
    | failed reason =>
      simp only [Bool.not_false, if_true, reduceCtorEq, if_false, after_bind, closing present]
      exact shut (took_refl present)

/-- By induction on the readings. -/
theorem after_pump (present : client.sessions.get? id = some attachment)
    (clean : attachment.session.journal = []) (readings : List Reading) :
    let (events, read) := attachment.session.takeIn (readings.takeWhile Reading.isLively)
    ∃ kept : Session, client.Took id attachment events kept ((pump id readings).after client) ∧
      kept.close = read.close ∧ kept.journal = [] := by
  induction readings generalizing client attachment with
  | nil => exact ⟨attachment.session, took_refl present, rfl, clean⟩
  | cons reading rest ih =>
    cases alive : attachment.session.isClosed with
    | true =>
      rw [take_in_closed alive clean, after, run_pump_closed present alive]
      exact ⟨attachment.session, took_refl present, rfl, clean⟩
    | false =>
      cases lively : reading.isLively with
      | false =>
        rw [List.takeWhile_cons_of_neg (by simp [lively])]
        exact after_pump_last present clean alive lively rest
      | true =>
        rw [List.takeWhile_cons_of_pos lively]
        obtain ⟨noted, took, pumped⟩ := after_pump_lively present alive lively rest
        rw [pumped, Session.takeIn]
        cases done : reading.intake.run attachment.session with
        | error fault taken =>
          have kept := took_trans took (took_keep noted id attachment taken)
          exact ⟨taken.forgetful, kept, rfl, rfl⟩
        | ok _ taken =>
          have kept := took_trans took (took_keep noted id attachment taken)
          obtain ⟨last, rest, same, clean⟩ := ih kept.kept rfl
          exact ⟨last, took_trans kept rest, same, clean⟩

/-- However the loop comes to its end, the session is left behind. -/
theorem run_read_all (present : client.sessions.get? id = some attachment)
    (clean : attachment.session.journal = []) (script : List Reading) :
    ∃ later, (readAll id script).run client = .ok () later ∧
      client.Took id attachment (attachment.session.takenIn script).1
        (attachment.session.takenIn script).2.left later := by
  let readings := script.flatMap Reading.divided
  obtain ⟨kept, took, same, still⟩ := after_pump present clean readings
  let middle := (pump id readings).after client
  let exited : Session := { kept.close with display := kept.close.display.markReady }
  have last := took_trans took (took_keep middle id { attachment with session := kept } exited)
  have nothing : exited.journal = [] := (close_journal kept).trans still
  have left : exited = (attachment.session.takenIn script).2.left := by
    simp only [exited, same, Session.left, close_display, Session.takenIn, readings]
  rw [forgetful_clean nothing, nothing, left, List.append_nil] at last
  refine ⟨_, ?_, last⟩
  have caught : (tryCatch (pump id readings) fun _ => pure ()).run client = .ok () middle := by
    rw [Engine.run_catch]
    simp only [middle, after]
    cases (pump id readings).run client <;> rfl
  unfold readAll
  rw [EStateM.run_bind, caught, ← left]
  exact run_on_session took.kept (Engine.receive .exit)

end Pump

end Control

section Readings

end Readings

end GdbControl
