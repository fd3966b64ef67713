import ObjectTracking.Proofs.Run.Refusal
import ObjectTracking.Proofs.Steps
import ObjectTracking.Worker.Basic

/-!
# What a worker has done

Callers and the worker itself take turns in any order (`Worker.Step`): callers stand in line, get a
place, go away or are turned away, and the worker takes up commands and answers them. However they
take turns, what the worker has done is what its pipeline does when it runs the accepted commands one
after the other; the latest of them may still wait (`Worker.Follows`). A worker that is left alone in
the end carries out all of them (`Worker.Follows.drain`).
-/

namespace ObjectTracking

def Command.action : Command → Action
  | frame f => .frame f
  | update _ className u => .update className u

/-- What is replied to a command once it is answered; a frame gets no reply. -/
def Command.reply? {α : Type} : Command → Answer α → Option Reply
  | update ticket _ _, .updated answer => some ⟨ticket, answer⟩
  | _, _ => none

instance : Add WorkTotals where
  add a b := ⟨a.processed + b.processed, a.skipped + b.skipped, a.detections + b.detections⟩

/-- What the answers amount to. -/
def WorkTotals.ofAnswers {α : Type} (answers : List (Answer α)) : WorkTotals where
  processed := (answers.filterMap Answer.report?).length
  skipped := answers.countP Answer.isRefusal
  detections := ((answers.filterMap Answer.report?).flatMap (·.detections)).length

theorem WorkTotals.ofAnswers_append {α : Type} (first rest : List (Answer α)) :
    ofAnswers (first ++ rest) = ofAnswers first + ofAnswers rest := by
  show (⟨_, _, _⟩ : WorkTotals) = ⟨_ + _, _ + _, _ + _⟩
  simp only [ofAnswers, List.filterMap_append, List.length_append, List.countP_append,
    List.flatMap_append]

theorem Pipeline.length_answers {α : Type} [Scalar α] (p : Pipeline α) (actions : List Action) :
    (p.run actions).2.length = actions.length := by
  induction actions generalizing p with
  | nil => rfl
  | cons a rest ih => rw [run_cons, List.length_cons, ih, List.length_cons]

theorem WorkTotals.ofAnswers_report {α : Type} (items : List (Item α)) (report : Report α) :
    ofAnswers [.processed items (.ok report)] = ⟨1, 0, report.detections.length⟩ := by
  simp [ofAnswers, Answer.report?, Answer.isRefusal]

namespace Worker
variable {α : Type} [Scalar α]

/-! ### Taking turns -/

inductive Event (α : Type) where
  | waits (command : Command)
  | leaves (command : Command)
  | accepted (command : Command)
  | turnedAway (frame : Frame)
  | takenUp (command : Command)
  | answered (answer : Answer α)

def Event.accepted? : Event α → Option Command
  | accepted command => some command
  | _ => none

def Event.answer? : Event α → Option (Answer α)
  | answered answer => some answer
  | _ => none

/-- The commands that were accepted, in this order. -/
def accepted (events : List (Event α)) : List Command := events.filterMap Event.accepted?

def answers (events : List (Event α)) : List (Answer α) := events.filterMap Event.answer?

omit [Scalar α] in
theorem accepted_append (events later : List (Event α)) :
    accepted (events ++ later) = accepted events ++ accepted later := List.filterMap_append ..

omit [Scalar α] in
theorem accepted_append_singleton (events : List (Event α)) (event : Event α) :
    accepted (events ++ [event]) = accepted events ++ event.accepted?.toList :=
  filterMap_concat_toList ..

omit [Scalar α] in
theorem answers_append_singleton (events : List (Event α)) (event : Event α) :
    answers (events ++ [event]) = answers events ++ event.answer?.toList :=
  filterMap_concat_toList ..

/-- What can happen next. Which of those that wait gets a free place is left open, and so is when a
caller is turned away. -/
inductive Step (w : Worker α) : Event α → Worker α → Prop where
  | wait (command : Command) : w.Step (.waits command) { w with line := w.line ++ [command] }
  | leave {before after : List Command} {command : Command}
      (line_eq : w.line = before ++ command :: after) :
      w.Step (.leaves command) { w with line := before ++ after }
  | letIn {before after : List Command} {command : Command}
      (line_eq : w.line = before ++ command :: after) (free : w.queue.length < w.places) :
      w.Step (.accepted command)
        { w with queue := w.queue ++ [command], line := before ++ after }
  | accept (command : Command) (free : w.queue.length < w.places) :
      w.Step (.accepted command) { w with queue := w.queue ++ [command] }
  | turnAway (frame : Frame) : w.Step (.turnedAway frame) w
  | takeUp {command : Command} {rest : List Command} (idle : w.current = none)
      (queue_eq : w.queue = command :: rest) :
      w.Step (.takenUp command) { w with current := some command, queue := rest }
  | finish {command : Command} (busy : w.current = some command) :
      w.Step (.answered (w.pipeline.step command.action).2) w.finish

abbrev Run : Worker α → List (Event α) → Worker α → Prop := Steps Step

/-! ### One command after the other -/

/-- A worker that has carried out these commands in this order, and nothing else. -/
def afterAll (p : Pipeline α) (places : Nat) (commands : List Command) : Worker α :=
  let ran := p.run (commands.map Command.action)
  { start p places with
    pipeline := ran.1
    totals := .ofAnswers ran.2
    items := ran.2.flatMap Answer.items
    replies := (commands.zip ran.2).filterMap fun (command, answer) => command.reply? answer }

theorem perform_eq (w : Worker α) (command : Command) :
    let stepped := w.pipeline.step command.action
    w.perform command =
      { w with
        pipeline := stepped.1
        totals := w.totals + .ofAnswers [stepped.2]
        items := w.items ++ stepped.2.items
        replies := w.replies ++ (command.reply? stepped.2).toList } := by
  intro stepped
  cases command with
  | frame frame =>
    rcases h : w.pipeline.process frame with ⟨pipeline, items, result⟩
    cases result <;>
      simp [stepped, perform, Command.action, Pipeline.step, Pipeline.stepWith, h, Answer.items,
        Command.reply?, WorkTotals.ofAnswers_report] <;> rfl
  | update ticket name update =>
    simp [stepped, perform, Command.action, Pipeline.step, Pipeline.stepWith, Answer.items,
      Command.reply?]
    rfl

theorem afterAll_append_singleton (p : Pipeline α) (places : Nat) (done : List Command)
    (command : Command) :
    afterAll p places (done ++ [command]) = (afterAll p places done).perform command := by
  have same_length : done.length = (p.run (done.map Command.action)).2.length := by
    rw [Pipeline.length_answers, List.length_map]
  rw [perform_eq]
  simp only [afterAll, List.map_append, List.map_cons, List.map_nil, Pipeline.run_append,
    Pipeline.run_cons, List.zip_append same_length, List.filterMap_append, List.flatMap_append,
    WorkTotals.ofAnswers_append]
  congr 1
  exact congrArg _ (List.append_nil _)

omit [Scalar α] in
/-- The worker with this to do. -/
def withWork (w : Worker α) (queue line : List Command) (current : Option Command) : Worker α :=
  { w with queue, line, current }

/-- Carrying out a command does not look at what else is to be done. -/
theorem perform_withWork (w : Worker α) (queue line : List Command) (current : Option Command)
    (command : Command) :
    (w.withWork queue line current).perform command =
      (w.perform command).withWork queue line current := by
  rw [perform_eq, perform_eq]
  rfl

theorem finish_eq {w : Worker α} {command : Command} (busy : w.current = some command) :
    w.finish = { w.perform command with current := none } := by
  rw [finish, busy]

theorem finish_idle {w : Worker α} (idle : w.current = none) : w.finish = w := by
  rw [finish, idle]

/-- After these events, the accepted commands are those that were answered, the one being carried out
and those that wait, and nothing was done but what `done` asks for. -/
structure Follows (p : Pipeline α) (places : Nat) (events : List (Event α)) (done : List Command)
    (w : Worker α) : Prop where
  accepted_eq : accepted events = done ++ w.current.toList ++ w.queue
  answers_eq : answers events = (p.run (done.map Command.action)).2
  queue_le : w.queue.length ≤ w.places
  worker_eq : w = (afterAll p places done).withWork w.queue w.line w.current

namespace Follows
variable {p : Pipeline α} {places : Nat} {events : List (Event α)} {done : List Command}
  {w w' : Worker α}

theorem start (p : Pipeline α) (places : Nat) : Follows p places [] [] (start p places) where
  accepted_eq := rfl
  answers_eq := rfl
  queue_le := Nat.zero_le _
  worker_eq := rfl

theorem pipeline_eq (h : Follows p places events done w) :
    w.pipeline = (p.run (done.map Command.action)).1 := by
  rw [h.worker_eq]
  rfl

/-- Those that stand in line have no part in it. -/
theorem line (h : Follows p places events done w) (line : List Command) :
    Follows p places events done { w with line } where
  accepted_eq := h.accepted_eq
  answers_eq := h.answers_eq
  queue_le := h.queue_le
  worker_eq := by
    -- the worker is on the right as well, where it only stands for what is left to do
    conv => lhs; rw [h.worker_eq]
    rfl

theorem silent (h : Follows p places events done w) {event : Event α}
    (not_accepted : event.accepted? = none) (no_answer : event.answer? = none) :
    Follows p places (events ++ [event]) done w where
  accepted_eq := by
    rw [accepted_append_singleton, not_accepted, h.accepted_eq]
    exact List.append_nil _
  answers_eq := by
    rw [answers_append_singleton, no_answer, h.answers_eq]
    exact List.append_nil _
  queue_le := h.queue_le
  worker_eq := h.worker_eq

theorem accept (h : Follows p places events done w) (command : Command)
    (free : w.queue.length < w.places) :
    Follows p places (events ++ [.accepted command]) done
      { w with queue := w.queue ++ [command] } where
  accepted_eq := by
    rw [accepted_append_singleton, h.accepted_eq]
    exact List.append_assoc ..
  answers_eq := by
    rw [answers_append_singleton, h.answers_eq]
    exact List.append_nil _
  queue_le := by
    rw [List.length_append]
    exact free
  worker_eq := by
    conv => lhs; rw [h.worker_eq]
    rfl

theorem takeUp (h : Follows p places events done w) {command : Command} {rest : List Command}
    (idle : w.current = none) (queue_eq : w.queue = command :: rest) :
    Follows p places (events ++ [.takenUp command]) done
      { w with current := some command, queue := rest } := by
  refine silent ⟨?accepted_eq, h.answers_eq, ?queue_le, ?worker_eq⟩ rfl rfl
  case accepted_eq =>
    rw [h.accepted_eq, idle, queue_eq]
    simp
  case queue_le =>
    have := h.queue_le
    rw [queue_eq, List.length_cons] at this
    exact Nat.le_of_succ_le this
  case worker_eq =>
    conv => lhs; rw [h.worker_eq]
    rfl

theorem finish (h : Follows p places events done w) {command : Command}
    (busy : w.current = some command) :
    Follows p places (events ++ [.answered (w.pipeline.step command.action).2])
      (done ++ [command]) w.finish where
  accepted_eq := by
    rw [accepted_append_singleton, h.accepted_eq, busy, finish_eq busy, perform_eq]
    simp [Event.accepted?]
  answers_eq := by
    rw [answers_append_singleton, h.answers_eq, List.map_append, Pipeline.run_append,
      h.pipeline_eq]
    rfl
  queue_le := by
    rw [finish_eq busy, perform_eq]
    exact h.queue_le
  worker_eq := by
    rw [finish_eq busy]
    conv => lhs; rw [h.worker_eq, perform_withWork, ← afterAll_append_singleton]
    rw [perform_eq]
    rfl

/-- Whatever happens next, the commands are still carried out one after the other. -/
theorem step (h : Follows p places events done w) {event : Event α} (step : w.Step event w') :
    ∃ done', Follows p places (events ++ [event]) done' w' := by
  cases step with
  | wait command => exact ⟨done, (h.line _).silent rfl rfl⟩
  | leave line_eq => exact ⟨done, (h.line _).silent rfl rfl⟩
  | letIn line_eq free => exact ⟨done, (h.accept _ free).line _⟩
  | accept command free => exact ⟨done, h.accept command free⟩
  | turnAway frame => exact ⟨done, h.silent rfl rfl⟩
  | takeUp idle queue_eq => exact ⟨done, h.takeUp idle queue_eq⟩
  | finish busy => exact ⟨_, h.finish busy⟩

theorem run (h : Follows p places events done w) {later : List (Event α)}
    (ran : w.Run later w') : ∃ done', Follows p places (events ++ later) done' w' := by
  induction ran generalizing events done with
  | refl =>
    rw [List.append_nil]
    exact ⟨done, h⟩
  | @step _ _ _ event later step _ ih =>
    obtain ⟨done', stepped⟩ := h.step step
    obtain ⟨done'', ran⟩ := ih stepped
    rw [List.append_assoc] at ran
    exact ⟨done'', ran⟩

end Follows

/-! ### Left alone -/

/-- Work goes on and nobody comes or goes: whoever is accepted stood first in line. -/
structure Proceeds (w : Worker α) (events : List (Event α)) (w' : Worker α) : Prop where
  run : w.Run events w'
  line_eq : accepted events ++ w'.line = w.line
  nobody_comes : ∀ command, .waits command ∉ events

/-- Nothing is half done, and no place is free while somebody stands in line. -/
structure AtRest (w : Worker α) : Prop where
  idle : w.current = none
  full : w.line ≠ [] → w.places ≤ w.queue.length
  places_pos : 0 < w.places

section
variable {w w' w'' : Worker α} {events later : List (Event α)}

namespace Proceeds

theorem refl (w : Worker α) : w.Proceeds [] w := ⟨.refl w, rfl, nofun⟩

theorem trans (h : w.Proceeds events w') (h' : w'.Proceeds later w'') :
    w.Proceeds (events ++ later) w'' where
  run := h.run.append h'.run
  line_eq := by rw [accepted_append, List.append_assoc, h'.line_eq, h.line_eq]
  nobody_comes command hmem :=
    (List.mem_append.1 hmem).elim (h.nobody_comes command) (h'.nobody_comes command)

end Proceeds

theorem fixed_finish (w : Worker α) :
    w.finish.current = none ∧ w.finish.queue = w.queue ∧ w.finish.line = w.line ∧
      w.finish.places = w.places := by
  cases busy : w.current with
  | none =>
    rw [finish_idle busy]
    exact ⟨busy, rfl, rfl, rfl⟩
  | some command =>
    rw [finish_eq busy, perform_eq]
    exact ⟨rfl, rfl, rfl, rfl⟩

theorem finish_proceeds (w : Worker α) : ∃ events, w.Proceeds events w.finish := by
  cases busy : w.current with
  | none =>
    rw [finish_idle busy]
    exact ⟨[], .refl w⟩
  | some command =>
    exact ⟨_, .step (.finish busy) (.refl _), w.fixed_finish.2.2.1, by simp⟩

omit [Scalar α] in
/-- Nobody sits down if nobody stands in line or no place is free. -/
theorem seat_eq_self (h : w.line = [] ∨ w.places ≤ w.queue.length) : w.seat = w := by
  obtain ⟨pipeline, places, queue, line, current, totals, items, replies⟩ := w
  rcases h with nobody | full
  · obtain rfl : line = [] := nobody
    simp [seat]
  · have none_free : places - queue.length = 0 := Nat.sub_eq_zero_of_le full
    simp [seat, none_free]

theorem seat_proceeds (w : Worker α) : ∃ events, w.Proceeds events w.seat := by
  obtain ⟨line, line_eq⟩ : ∃ line, w.line = line := ⟨_, rfl⟩
  induction line generalizing w with
  | nil =>
    rw [seat_eq_self (.inl line_eq)]
    exact ⟨[], .refl w⟩
  | cons first line ih =>
    by_cases free : w.queue.length < w.places
    · let next : Worker α := { w with queue := w.queue ++ [first], line }
      have step : w.Step (.accepted first) next :=
        .letIn (show w.line = [] ++ first :: line from line_eq) free
      have seat_eq : next.seat = w.seat := by
        have one_less : w.places - w.queue.length = w.places - (w.queue.length + 1) + 1 := by omega
        simp [next, seat, line_eq, one_less]
      obtain ⟨events, h⟩ := ih next rfl
      have first_step : w.Proceeds [.accepted first] next :=
        ⟨.step step (.refl _), line_eq.symm, by simp⟩
      exact ⟨_, seat_eq ▸ first_step.trans h⟩
    · rw [seat_eq_self (.inr (Nat.le_of_not_lt free))]
      exact ⟨[], .refl w⟩

omit [Scalar α] in
theorem queue_append_line_seat (w : Worker α) :
    w.seat.queue ++ w.seat.line = w.queue ++ w.line := by
  simp [seat]

omit [Scalar α] in
theorem le_length_queue_seat (waiting : w.seat.line ≠ []) :
    w.places ≤ w.seat.queue.length := by
  have more := List.length_pos_iff.2 waiting
  simp only [seat, List.length_drop] at more
  simp only [seat, List.length_append, List.length_take]
  omega

/-- Once those who can have sat down and what was begun is done, the worker rests. -/
theorem atRest_finish_seat (places_pos : 0 < w.places) : w.seat.finish.AtRest := by
  obtain ⟨idle, queue', line', places'⟩ := w.seat.fixed_finish
  refine ⟨idle, fun waiting => ?_, ?_⟩
  · rw [line'] at waiting
    rw [places', queue']
    exact le_length_queue_seat waiting
  · rw [places']
    exact places_pos

theorem AtRest.runNext (h : w.AtRest) :
    ∃ events, w.Proceeds events w.runNext ∧ w.runNext.AtRest ∧
      w.runNext.queue ++ w.runNext.line = (w.queue ++ w.line).tail ∧
      w.runNext.places = w.places := by
  cases queue_eq : w.queue with
  | nil =>
    have nobody : w.line = [] := by
      by_contra waiting
      have full := h.full waiting
      rw [queue_eq] at full
      exact absurd h.places_pos (Nat.not_lt.2 full)
    have same : w.runNext = w := by
      rw [Worker.runNext, takeUp, h.idle, queue_eq]
      exact finish_idle h.idle
    rw [same, queue_eq, nobody]
    exact ⟨[], .refl w, h, rfl, rfl⟩
  | cons command rest =>
    let taken : Worker α := { w with current := some command, queue := rest }
    have took : w.Proceeds [.takenUp command] taken :=
      ⟨.step (.takeUp h.idle queue_eq) (.refl _), rfl, by simp⟩
    have next_eq : w.runNext = taken.seat.finish := by
      rw [Worker.runNext, takeUp, h.idle, queue_eq]
    obtain ⟨seating, seated⟩ := taken.seat_proceeds
    obtain ⟨finishing, finished⟩ := taken.seat.finish_proceeds
    obtain ⟨-, queue', line', places'⟩ := taken.seat.fixed_finish
    rw [next_eq, queue', line', queue_append_line_seat]
    exact ⟨_, took.trans (seated.trans finished), atRest_finish_seat h.places_pos, rfl, places'⟩

theorem AtRest.runMany (h : w.AtRest) (n : Nat) :
    ∃ events, w.Proceeds events (runMany n w) ∧ (runMany n w).AtRest ∧
      (runMany n w).queue ++ (runMany n w).line = (w.queue ++ w.line).drop n ∧
      (runMany n w).places = w.places := by
  induction n generalizing w with
  | zero => exact ⟨[], .refl w, h, rfl, rfl⟩
  | succ n ih =>
    obtain ⟨first, begun, rests, waiting_eq, places'⟩ := h.runNext
    obtain ⟨rest, ended, rests', waiting_eq', places''⟩ := ih rests
    refine ⟨first ++ rest, begun.trans ended, rests', ?_, places''.trans places'⟩
    rw [Worker.runMany, waiting_eq', waiting_eq, List.drop_tail]

/-- A worker that is left alone carries out all that waits and stands in line. -/
theorem drain_proceeds (places_pos : 0 < w.places) :
    ∃ events, w.Proceeds events w.drain ∧ w.drain.current = none ∧ w.drain.queue = [] ∧
      w.drain.line = [] := by
  obtain ⟨seating, seated⟩ := w.seat_proceeds
  obtain ⟨finishing, finished⟩ := w.seat.finish_proceeds
  obtain ⟨-, queue', line', -⟩ := w.seat.fixed_finish
  obtain ⟨working, worked, rests, waiting_eq, -⟩ :=
    (atRest_finish_seat places_pos).runMany (w.queue.length + w.line.length)
  have nothing : w.drain.queue ++ w.drain.line = [] := by
    rw [drain, waiting_eq, queue', line', queue_append_line_seat, ← List.length_append]
    exact List.drop_length
  obtain ⟨queue_eq, line_eq⟩ := List.append_eq_nil_iff.1 nothing
  exact ⟨_, seated.trans (finished.trans worked), rests.idle, queue_eq, line_eq⟩

/-- Once the worker has gone on, nobody stands in line any more. -/
theorem admitAll_proceeds (few : w.queue.length ≤ w.places) (places_pos : 0 < w.places) :
    ∃ events, w.Proceeds events w.admitAll ∧ w.admitAll.line = [] := by
  obtain ⟨seating, seated⟩ := w.seat_proceeds
  rw [admitAll]
  split
  next nobody => exact ⟨_, seated, List.isEmpty_iff.1 nobody⟩
  next =>
    obtain ⟨finishing, finished⟩ := w.seat.finish_proceeds
    obtain ⟨-, queue', line', places'⟩ := w.seat.fixed_finish
    obtain ⟨working, worked, rests, waiting_eq, places''⟩ :=
      (atRest_finish_seat places_pos).runMany w.seat.line.length
    refine ⟨_, seated.trans (finished.trans worked), ?_⟩
    by_contra waiting
    -- as many are left as had a place, so nobody can be left in line
    have full := rests.full waiting
    have some_left := List.length_pos_iff.2 waiting
    have lengths := congrArg List.length waiting_eq
    have few' : w.seat.queue.length ≤ w.places := by
      simp only [seat, List.length_append, List.length_take]
      omega
    have same_places : w.seat.finish.places = w.places := places'
    rw [queue', line', List.length_append, List.length_drop, List.length_append] at lengths
    rw [places'', same_places] at full
    omega

end

theorem Follows.places_eq {p : Pipeline α} {places : Nat} {events : List (Event α)}
    {done : List Command} {w : Worker α} (h : Follows p places events done w) :
    w.places = max places 1 := by
  rw [h.worker_eq]
  rfl

theorem Follows.places_pos {p : Pipeline α} {places : Nat} {events : List (Event α)}
    {done : List Command} {w : Worker α} (h : Follows p places events done w) : 0 < w.places := by
  rw [h.places_eq]
  exact Nat.le_max_right ..

/-- A worker that has nothing left to do has done all that was accepted, one after the other. -/
theorem Follows.eq_afterAll {p : Pipeline α} {places : Nat} {events : List (Event α)}
    {done : List Command} {w : Worker α} (h : Follows p places events done w)
    (idle : w.current = none) (queue_eq : w.queue = []) (nobody : w.line = []) :
    answers events = (p.run ((accepted events).map Command.action)).2 ∧
      w = afterAll p places (accepted events) := by
  have all_eq : accepted events = done := by
    have accepted_eq := h.accepted_eq
    rw [idle, queue_eq] at accepted_eq
    simpa using accepted_eq
  have worker_eq := h.worker_eq
  rw [queue_eq, nobody, idle] at worker_eq
  rw [all_eq]
  exact ⟨h.answers_eq, worker_eq⟩

/-- In the end all that was accepted or stood in line is done, one after the other. -/
theorem Follows.drain {p : Pipeline α} {places : Nat} {events : List (Event α)}
    {done : List Command} {w : Worker α} (h : Follows p places events done w) :
    ∃ later, w.Run later w.drain ∧
      answers (events ++ later) = (p.run ((accepted events ++ w.line).map Command.action)).2 ∧
      w.drain = afterAll p places (accepted events ++ w.line) := by
  obtain ⟨later, proceeds, idle, queue_eq, nobody⟩ := drain_proceeds h.places_pos
  obtain ⟨all, follows⟩ := h.run proceeds.run
  have seated : accepted later = w.line := by
    have line_eq := proceeds.line_eq
    rwa [nobody, List.append_nil] at line_eq
  have done_eq := follows.eq_afterAll idle queue_eq nobody
  rw [accepted_append, seated] at done_eq
  exact ⟨later, proceeds.run, done_eq⟩

/-! ### Answers -/

/-- What a command is answered after others were carried out. -/
def answerTo (p : Pipeline α) (before : List Command) (command : Command) : Answer α :=
  ((p.run (before.map Command.action)).1.step command.action).2

theorem split_at {commands : List Command} {i : Nat} {command : Command}
    (h : commands[i]? = some command) :
    commands = commands.take i ++ command :: commands.drop (i + 1) := by
  obtain ⟨hi, rfl⟩ := List.getElem?_eq_some_iff.1 h
  rw [← List.drop_eq_getElem_cons hi, List.take_append_drop]

theorem answer_at {p : Pipeline α} {done : List Command} {i : Nat} {command : Command}
    (h : done[i]? = some command) :
    (p.run (done.map Command.action)).2[i]? = some (answerTo p (done.take i) command) := by
  obtain ⟨hi, -⟩ := List.getElem?_eq_some_iff.1 h
  have length_eq : (p.run ((done.take i).map Command.action)).2.length = i := by
    rw [Pipeline.length_answers, List.length_map, List.length_take_of_le (Nat.le_of_lt hi)]
  conv => lhs; rw [split_at h]
  rw [List.map_append, Pipeline.run_append, List.getElem?_append_right (Nat.le_of_eq length_eq),
    length_eq, Nat.sub_self]
  rfl

omit [Scalar α] in
theorem of_reply?_eq_some {command : Command} {answer : Answer α} {reply : Reply}
    (h : command.reply? answer = some reply) :
    ∃ name update, command = .update reply.ticket name update ∧ answer = .updated reply.answer := by
  unfold Command.reply? at h
  split at h
  next ticket name update answer =>
    obtain rfl := Option.some.inj h
    exact ⟨name, update, rfl, rfl⟩
  next => cases h

section
variable {p : Pipeline α} {places : Nat} {events : List (Event α)} {done : List Command} {w : Worker α}

/-- The answer to a command depends on those accepted before it. -/
theorem Follows.answer_eq (h : Follows p places events done w) {before after : List Command}
    {command : Command} {answer : Answer α}
    (accepted_eq : accepted events = before ++ command :: after)
    (told : (answers events)[before.length]? = some answer) :
    answer = answerTo p before command := by
  have all_eq := h.accepted_eq.symm.trans accepted_eq
  rw [List.append_assoc] at all_eq
  have answered : before.length < done.length := by
    obtain ⟨hlt, -⟩ := List.getElem?_eq_some_iff.1 told
    rwa [h.answers_eq, Pipeline.length_answers, List.length_map] at hlt
  have command_eq : done[before.length]? = some command := by
    have all_at : (done ++ (w.current.toList ++ w.queue))[before.length]? = some command := by
      rw [all_eq]
      simp
    rwa [List.getElem?_append_left answered] at all_at
  have before_eq : done.take before.length = before := by
    have := congrArg (List.take before.length) all_eq
    rwa [List.take_append_of_le_length (Nat.le_of_lt answered), List.take_left] at this
  rw [h.answers_eq, answer_at command_eq, before_eq] at told
  exact (Option.some.inj told).symm

/-- A reply answers an update, as if it had come after what was done before. -/
theorem of_mem_replies {reply : Reply} (hreply : reply ∈ (afterAll p places done).replies) :
    ∃ before name update after, done = before ++ .update reply.ticket name update :: after ∧
      .updated reply.answer = answerTo p before (.update reply.ticket name update) := by
  obtain ⟨⟨command, answer⟩, hzip, replied⟩ := List.mem_filterMap.1 hreply
  obtain ⟨name, update, rfl, rfl⟩ := of_reply?_eq_some replied
  obtain ⟨i, hi⟩ := List.mem_iff_getElem?.1 hzip
  obtain ⟨command_eq, answer_eq⟩ := List.getElem?_zip_eq_some.1 hi
  rw [answer_at command_eq] at answer_eq
  exact ⟨done.take i, name, update, done.drop (i + 1), split_at command_eq,
    (Option.some.inj answer_eq).symm⟩

theorem Follows.of_mem_replies (h : Follows p places events done w) {reply : Reply}
    (hreply : reply ∈ w.replies) :
    ∃ before name update after,
      accepted events = before ++ .update reply.ticket name update :: after ∧
        .updated reply.answer = answerTo p before (.update reply.ticket name update) := by
  rw [h.worker_eq] at hreply
  change reply ∈ (afterAll p places done).replies at hreply
  obtain ⟨before, name, update, after, done_eq, answer_eq⟩ := Worker.of_mem_replies hreply
  refine ⟨before, name, update, after ++ (w.current.toList ++ w.queue), ?_, answer_eq⟩
  rw [h.accepted_eq, List.append_assoc, done_eq, List.append_assoc, List.cons_append]

end

end Worker

end ObjectTracking
