import ObjectTracking.Proofs.Worker.Dispatch

/-!
# Calls are runs

The calls of a dispatcher let a worker go on just as far as the caller has to wait. Whatever the
workers are doing, each call is a run of them in which the command of the caller is accepted, and
besides it just those that stood in line before (`Dispatcher.submit_accepts`,
`Dispatcher.updateClass_accepts`), or it is turned away (`Dispatcher.trySubmit_rules`). So under any
calls each worker does what its pipeline would do alone (`Dispatcher.workers_sequential`).
-/

namespace ObjectTracking

namespace Worker
variable {α : Type}

section
variable {w : Worker α}

theorem free_of_hasRoom (room : w.hasRoom = true) : w.queue.length + w.reserved < w.places :=
  of_decide_eq_true room

/-- There is no room exactly if each place is taken or kept for somebody. -/
theorem hasRoom_eq_false_iff (h : w.queue.length ≤ w.places) :
    w.hasRoom = false ↔ w.queue.length + w.reserved = w.places := by
  rw [hasRoom, decide_eq_false_iff_not, reserved]
  omega

theorem places_offer (w : Worker α) (command : Command) : (w.offer command).places = w.places := by
  rw [offer]
  split <;> rfl

theorem length_queue_offer (few : w.queue.length ≤ w.places) (command : Command) :
    (w.offer command).queue.length ≤ (w.offer command).places := by
  rw [places_offer, offer]
  split
  next room =>
    have free := free_of_hasRoom room
    rw [List.length_append, List.length_singleton]
    omega
  next => exact few

end

variable [Scalar α] {w w' : Worker α} {events : List (Event α)} {command : Command}

/-- Whoever comes is accepted, or is the last in line. -/
theorem offer_step (w : Worker α) (command : Command) :
    ∃ event, w.Step event (w.offer command) ∧ event.handedIn? = some command ∧
      (event.accepted? = some command ∧ (w.offer command).line = w.line ∨
        event.accepted? = none ∧ (w.offer command).line = w.line ++ [command]) := by
  rw [offer]
  split
  next room =>
    have free := free_of_hasRoom room
    exact ⟨_, .accept command (by omega), rfl, .inl ⟨rfl, rfl⟩⟩
  next => exact ⟨_, .wait command, rfl, .inr ⟨rfl, rfl⟩⟩

theorem Proceeds.of_mem_handedIn (h : w.Proceeds events w') {event : Event α} (mem : event ∈ events)
    (handed_in : event.handedIn? = some command) : command ∈ w.line := by
  cases event with
  | waits other => exact absurd mem (h.nobody_comes other)
  | accepted other =>
    obtain rfl := Option.some.inj handed_in
    rw [← h.line_eq]
    exact List.mem_append_left _ (List.mem_filterMap.2 ⟨_, mem, rfl⟩)
  | _ => cases handed_in

/-- Once nobody stands in line, the command that was handed in has been accepted, and besides it just
those that stood in line. -/
theorem Proceeds.of_offer (h : (w.offer command).Proceeds events w') (nobody : w'.line = []) :
    ∃ own before after, w.Run own w' ∧ before ++ after = w.line ∧
      accepted own = before ++ command :: after ∧
      ∀ event ∈ own, ∀ c ∈ event.handedIn?, c = command ∨ c ∈ w.line := by
  obtain ⟨event, step, handed_in, fate⟩ := w.offer_step command
  have seated : accepted events = (w.offer command).line := by
    have line_eq := h.line_eq
    rwa [nobody, List.append_nil] at line_eq
  have accepted_eq : accepted (event :: events) = event.accepted?.toList ++ accepted events :=
    filterMap_cons_toList ..
  have known : ∀ e ∈ event :: events, ∀ c ∈ e.handedIn?, c = command ∨ c ∈ w.line := by
    rintro e he c hc
    rcases List.mem_cons.1 he with rfl | he
    · exact .inl (Option.some.inj (hc.symm.trans handed_in))
    · have in_line := h.of_mem_handedIn he hc
      rcases fate with ⟨-, line_eq⟩ | ⟨-, line_eq⟩ <;> rw [line_eq] at in_line
      · exact .inr in_line
      · exact (List.mem_append.1 in_line).symm.imp_left List.mem_singleton.1
  rcases fate with ⟨at_once, line_eq⟩ | ⟨waits, line_eq⟩
  · refine ⟨_, [], w.line, .step step h.run, rfl, ?_, known⟩
    rw [accepted_eq, at_once, seated, line_eq]
    rfl
  · refine ⟨_, w.line, [], .step step h.run, List.append_nil _, ?_, known⟩
    rw [accepted_eq, waits, seated, line_eq]
    rfl

/-- Whatever is accepted or stands in line has stood in line before or was handed in. -/
theorem Run.of_mem (ran : w.Run events w') (mem : command ∈ accepted events ++ w'.line) :
    command ∈ w.line ∨ ∃ event ∈ events, event.handedIn? = some command := by
  induction ran with
  | refl w => exact .inl mem
  | @step w v w' event events step _ ih =>
    have split : command ∈ event.accepted?.toList ++ v.line ∨
        ∃ event ∈ events, event.handedIn? = some command := by
      rw [accepted, filterMap_cons_toList, List.append_assoc] at mem
      rcases List.mem_append.1 mem with now | later
      · exact .inl (List.mem_append_left _ now)
      · exact (ih later).imp_left (List.mem_append_right _)
    rcases split with here | ⟨e, he, handed_in⟩
    · cases step with
      | wait other =>
        exact (List.mem_append.1 (show command ∈ w.line ++ [other] from here)).imp_right fun new =>
          ⟨_, List.mem_cons_self .., congrArg some (List.mem_singleton.1 new).symm⟩
      | accept other =>
        exact (List.mem_cons.1 here).symm.imp_right fun new =>
          ⟨_, List.mem_cons_self .., congrArg some new.symm⟩
      | leave line_eq =>
        exact .inl (line_eq ▸ List.perm_middle.mem_iff.2 (List.mem_cons_of_mem _ here))
      | letIn line_eq _ => exact .inl (line_eq ▸ List.perm_middle.mem_iff.2 here)
      | turnAway | takeUp => exact .inl here
      | finish => exact .inl (w.fixed_finish.2.2.1 ▸ here)
    · exact .inr ⟨e, List.mem_cons_of_mem _ he, handed_in⟩

theorem exists_replies_append (p : Pipeline α) (places : Nat) (done rest : List Command) :
    ∃ more, (afterAll p places (done ++ rest)).replies =
      (afterAll p places done).replies ++ more := by
  induction rest generalizing done with
  | nil => exact ⟨[], by rw [List.append_nil, List.append_nil]⟩
  | cons command rest ih =>
    obtain ⟨more, replies_eq⟩ := ih (done ++ [command])
    rw [List.append_cons, replies_eq, afterAll_append_singleton, perform_eq, List.append_assoc]
    exact ⟨_, rfl⟩

/-- The replies once an update was carried out among others. -/
theorem exists_reply (p : Pipeline α) (places : Nat) (done : List Command) (ticket : Nat)
    (name : String) (update : ClassUpdate) (rest : List Command) :
    ∃ result more, answerTo p done (.update ticket name update) = .updated result ∧
      (afterAll p places (done ++ .update ticket name update :: rest)).replies =
        (afterAll p places done).replies ++ ⟨ticket, result⟩ :: more := by
  obtain ⟨result, stepped⟩ :=
    Pipeline.exists_step_update (p.run (done.map Command.action)).1 name update
  have answer_eq : answerTo p done (.update ticket name update) = .updated result :=
    congrArg Prod.snd stepped
  have replied : (Command.update ticket name update).reply?
      (answerTo p done (.update ticket name update)) = some ⟨ticket, result⟩ := by
    rw [answer_eq]
    rfl
  have now : (afterAll p places (done ++ [.update ticket name update])).replies =
      (afterAll p places done).replies ++ [⟨ticket, result⟩] := by
    rw [afterAll_append_singleton, perform_eq]
    exact congrArg (_ ++ Option.toList ·) replied
  obtain ⟨more, replies_eq⟩ :=
    exists_replies_append p places (done ++ [.update ticket name update]) rest
  refine ⟨result, more, answer_eq, ?_⟩
  rw [List.append_cons, replies_eq, now, List.append_assoc]
  rfl

end Worker

namespace Dispatcher
variable {α : Type} {d d' : Dispatcher α} {camera : Camera} {w w' : Worker α}

section

theorem put_self (distinct : d.cameras.Nodup) (hw : w ∈ d.workers) : d.put w = d := by
  have same : ∀ v ∈ d.workers, (if cameraOf v = cameraOf w then w else v) = v := by
    intro v hv
    split
    next h =>
      have found := worker?_of_mem distinct hv
      rw [h, worker?_of_mem distinct hw] at found
      exact Option.some.inj found
    next => rfl
  rw [put, List.map_congr_left same, List.map_id']

theorem put_put (same : cameraOf w' = cameraOf w) : (d.put w).put w' = d.put w' := by
  rw [put, put, put, List.map_map]
  congr 1
  refine List.map_congr_left fun v _ => ?_
  show (if cameraOf (if cameraOf v = cameraOf w then w else v) = cameraOf w' then w'
    else if cameraOf v = cameraOf w then w else v) = if cameraOf v = cameraOf w' then w' else v
  rw [cameraOf_put, same]
  split <;> rfl

theorem eventsAt_own (camera : Camera) (own : List (Worker.Event α)) :
    eventsAt camera (own.map (.own camera)) = own := by
  have seen : Event.at? camera ∘ .own camera = (some : Worker.Event α → _) :=
    funext fun _ => if_pos rfl
  rw [eventsAt, List.filterMap_map, seen, List.filterMap_some]

theorem eventsAt_other {other : Camera} (h : other ≠ camera) (own : List (Worker.Event α)) :
    eventsAt other (own.map (.own camera)) = [] := by
  rw [eventsAt, List.filterMap_map]
  exact List.filterMap_eq_nil_iff.2 fun _ _ => if_neg (Ne.symm h)

end

variable [Scalar α]

/-- The other workers can rest while one goes on. -/
theorem Run.own {events : List (Worker.Event α)} (ran : w.Run events w')
    (distinct : d.cameras.Nodup) (h : d.worker? camera = some w)
    (known : ∀ event ∈ events, d.Knows event) :
    d.Run (events.map (.own camera)) (d.put w') := by
  induction ran generalizing d with
  | refl w =>
    rw [put_self distinct (List.mem_of_find?_eq_some h)]
    exact .refl d
  | @step w v w' event events step rest ih =>
    have v_camera : cameraOf v = cameraOf w := step.camera
    have w'_camera : cameraOf w' = cameraOf v := Worker.Run.camera rest
    have next : (d.put v).worker? camera = some v := by
      rw [worker?_put, h, Option.map_some, if_pos v_camera.symm]
    obtain ⟨known, known_later⟩ := List.forall_mem_cons.1 known
    have later := ih (d := d.put v) (by rwa [cameras_put]) next known_later
    rw [put_put w'_camera] at later
    exact .step (.own (find_of_some h) step known) later

theorem Step.nextTicket_le {event : Event α} (step : d.Step event d') :
    d.nextTicket ≤ d'.nextTicket := by
  cases step with
  | own | refuse => exact Nat.le_refl _
  | ticket => exact Nat.le_succ _

theorem Run.nextTicket_le {events : List (Event α)} (run : d.Run events d') :
    d.nextTicket ≤ d'.nextTicket := by
  induction run with
  | refl => exact Nat.le_refl _
  | step step _ ih => exact Nat.le_trans step.nextTicket_le ih

theorem Run.knows {events : List (Event α)} (run : d.Run events d') {event : Worker.Event α}
    (mem : .own camera event ∈ events) : d'.Knows event := by
  induction run with
  | refl => cases mem
  | @step _ _ _ _ _ step rest ih =>
    rcases List.mem_cons.1 mem with rfl | later
    · cases step with
      | own _ _ known =>
        intro command hcommand ticket hticket
        have later := Run.nextTicket_le rest
        exact Nat.lt_of_lt_of_le (known command hcommand ticket hticket) later
    · exact ih later

section
variable {places : Nat} {pipelines : List (Pipeline α)} {events : List (Event α)} {p : Pipeline α}

theorem Run.distinct (distinct : (pipelines.map (·.camera)).Nodup)
    (run : (fresh places pipelines).Run events d) : d.cameras.Nodup := by
  rwa [run.cameras_eq, cameras_fresh]

/-- A worker carries out what is accepted for its camera, one command after the other. -/
theorem Run.follows (distinct : (pipelines.map (·.camera)).Nodup)
    (run : (fresh places pipelines).Run events d) (hp : p ∈ pipelines) :
    ∃ w done, d.worker? p.camera = some w ∧
      Worker.Follows p places (eventsAt p.camera events) done w := by
  obtain ⟨w, hw, ran⟩ := run.worker? (worker?_fresh distinct hp)
  obtain ⟨done, h⟩ := (Worker.Follows.start p places).run ran
  exact ⟨w, done, hw, h⟩

/-- No command that was accepted or stands in line has a ticket that is yet to be given. -/
theorem Run.tickets (distinct : (pipelines.map (·.camera)).Nodup)
    (run : (fresh places pipelines).Run events d) (hp : p ∈ pipelines)
    (hw : d.worker? p.camera = some w) :
    ∀ command ∈ Worker.accepted (eventsAt p.camera events) ++ w.line,
      ∀ ticket ∈ command.ticket?, ticket < d.nextTicket := by
  intro command mem ticket hticket
  obtain ⟨v, hv, ran⟩ := run.worker? (worker?_fresh distinct hp)
  obtain rfl : v = w := Option.some.inj (hv.symm.trans hw)
  rcases Worker.Run.of_mem ran mem with nobody | ⟨event, hevent, handed_in⟩
  · cases nobody
  · obtain ⟨own, hown, at_eq⟩ := List.mem_filterMap.1 hevent
    cases own with
    | own c e =>
      rw [Event.at?] at at_eq
      split at at_eq
      next => exact Run.knows run (Option.some.inj at_eq ▸ hown) command handed_in ticket hticket
      next => cases at_eq
    | _ => cases at_eq

end

/-! ### Calls -/

/-- Something happens at one camera and nowhere else, and these commands are accepted there, in this
order. -/
def Accepts (d : Dispatcher α) (camera : Camera) (commands : List Command) (d' : Dispatcher α) :
    Prop :=
  ∃ events, d.Run events d' ∧ Worker.accepted (eventsAt camera events) = commands ∧
    ∀ other, other ≠ camera → eventsAt other events = []

theorem accepts_of_run {own : List (Worker.Event α)} (run : d.Run (own.map (.own camera)) d') :
    d.Accepts camera (Worker.accepted own) d' :=
  ⟨_, run, by rw [eventsAt_own], fun _ h => eventsAt_other h own⟩

theorem Accepts.after_ticket {commands : List Command}
    (h : Accepts { d with nextTicket := d.nextTicket + 1 } camera commands d') :
    d.Accepts camera commands d' := by
  obtain ⟨events, run, accepted_eq, silent⟩ := h
  exact ⟨.ticket :: events, .step .ticket run, accepted_eq, silent⟩

section
variable {p : Pipeline α} {places : Nat} {events : List (Worker.Event α)} {done : List Command}

/-- A frame that is submitted is accepted, and besides it just those commands that stood in line. -/
theorem submit_accepts (distinct : d.cameras.Nodup) (hw : d.worker? camera = some w)
    (follows : Worker.Follows p places events done w)
    (tickets : ∀ c ∈ Worker.accepted events ++ w.line, ∀ ticket ∈ c.ticket?,
      ticket < d.nextTicket) {frame : Frame} (camera_eq : frame.camera = camera) :
    ∃ d' before after, d.submit frame = (d', .ok ()) ∧ before ++ after = w.line ∧
      d.Accepts camera (before ++ .frame frame :: after) d' := by
  subst camera_eq
  obtain ⟨went_on, proceeds, nobody⟩ := Worker.admitAll_proceeds
    (Worker.length_queue_offer follows.queue_le (.frame frame)) (by
      rw [Worker.places_offer]
      exact follows.places_pos)
  obtain ⟨own, before, after, ran, line_eq, accepted_eq, handed_in⟩ := proceeds.of_offer nobody
  have known : ∀ event ∈ own, d.Knows event := by
    intro event hevent c hc
    rcases handed_in event hevent c hc with rfl | in_line
    · exact nofun
    · exact tickets c (List.mem_append_right _ in_line)
  have accepts := accepts_of_run (Run.own ran distinct hw known)
  rw [accepted_eq] at accepts
  refine ⟨_, before, after, ?_, line_eq, accepts⟩
  rw [submit, find_of_some hw]

/-- A frame is accepted if a place is left for it. Otherwise it is turned away, and nothing
changes. -/
theorem trySubmit_rules (distinct : d.cameras.Nodup) (hw : d.worker? camera = some w)
    (follows : Worker.Follows p places events done w) {frame : Frame}
    (camera_eq : frame.camera = camera) :
    ∃ d' taken, d.trySubmit frame = (d', .ok taken) ∧
      (taken = true → w.queue.length + w.reserved < w.places ∧
        d.Step (.own camera (.accepted (.frame frame))) d') ∧
      (taken = false → w.queue.length + w.reserved = w.places ∧ d' = d) := by
  subst camera_eq
  have called : d.trySubmit frame =
      (d.put (w.tryOffer (.frame frame)).1, .ok (w.tryOffer (.frame frame)).2) := by
    rw [trySubmit, find_of_some hw]
  refine ⟨_, _, called, fun taken => ?_, fun turned_away => ?_⟩
  · by_cases room : w.hasRoom = true
    · have free := Worker.free_of_hasRoom room
      have no_ticket : d.Knows (.accepted (.frame frame)) := by
        simp [Knows, Worker.Event.handedIn?, Command.ticket?]
      rw [Worker.tryOffer, if_pos room]
      exact ⟨free, .own (find_of_some hw) (.accept _ (by omega)) no_ticket⟩
    · rw [Worker.tryOffer, if_neg room] at taken
      cases taken
  · by_cases room : w.hasRoom = true
    · rw [Worker.tryOffer, if_pos room] at turned_away
      cases turned_away
    · rw [Worker.tryOffer, if_neg room]
      refine ⟨(Worker.hasRoom_eq_false_iff follows.queue_le).1 (Bool.eq_false_iff.2 room), ?_⟩
      exact put_self distinct (List.mem_of_find?_eq_some hw)

/-- An update is accepted, and answered as if it came after all that was accepted before it. -/
theorem updateClass_accepts (distinct : d.cameras.Nodup) (hw : d.worker? camera = some w)
    (follows : Worker.Follows p places events done w)
    (tickets : ∀ c ∈ Worker.accepted events ++ w.line, ∀ ticket ∈ c.ticket?,
      ticket < d.nextTicket) (name : String) (update : ClassUpdate) :
    ∃ d' answer before after, d.updateClass camera name update = (d', answer) ∧
      before ++ after = w.line ∧
      d.Accepts camera (before ++ .update d.nextTicket name update :: after) d' ∧
      .updated answer = Worker.answerTo p (Worker.accepted events ++ before)
        (.update d.nextTicket name update) := by
  let command : Command := .update d.nextTicket name update
  let next : Dispatcher α := { d with nextTicket := d.nextTicket + 1 }
  obtain ⟨work, proceeds, idle, queue_eq, nobody⟩ :=
    Worker.drain_proceeds (w := w.offer command) (by
      rw [Worker.places_offer]
      exact follows.places_pos)
  obtain ⟨own, before, after, ran, line_eq, accepted_eq, handed_in⟩ := proceeds.of_offer nobody
  obtain ⟨all, follows'⟩ := follows.run ran
  obtain ⟨-, drained_eq⟩ := follows'.eq_afterAll idle queue_eq nobody
  obtain ⟨result, more, answer_eq, replies_eq⟩ := Worker.exists_reply p places
    (Worker.accepted events ++ before) d.nextTicket name update after
  rw [Worker.accepted_append, accepted_eq, ← List.append_assoc] at drained_eq
  -- no reply so far has the ticket of this update
  have unused : ∀ reply ∈ (Worker.afterAll p places (Worker.accepted events ++ before)).replies,
      ¬ reply.ticket = d.nextTicket := by
    intro reply hreply
    obtain ⟨first, name, update, rest, split, -⟩ := Worker.of_mem_replies hreply
    have earlier : .update reply.ticket name update ∈ Worker.accepted events ++ w.line := by
      rw [← line_eq, ← List.append_assoc, split]
      simp
    exact Nat.ne_of_lt (tickets _ earlier _ rfl)
  have picked : (w.offer command).drain.replies.find? (·.ticket = d.nextTicket) =
      some ⟨d.nextTicket, result⟩ := by
    rw [drained_eq, replies_eq, List.find?_append, List.find?_eq_none.2 (by simpa using unused),
      Option.none_or, List.find?_cons_of_pos (by simp)]
  have known : ∀ event ∈ own, next.Knows event := by
    intro event hevent c hc ticket hticket
    rcases handed_in event hevent c hc with rfl | in_line
    · obtain rfl := Option.some.inj hticket
      exact Nat.lt_succ_self _
    · exact Nat.lt_succ_of_lt (tickets c (List.mem_append_right _ in_line) ticket hticket)
  have called : d.updateClass camera name update =
      ({ d.put (w.offer command).drain with nextTicket := d.nextTicket + 1 }, result) := by
    rw [Dispatcher.updateClass, find_of_some hw]
    show (_, ((List.find? _ (w.offer command).drain.replies).map _).getD _) = _
    rw [picked]
    rfl
  have accepts := accepts_of_run (Run.own (d := next) ran distinct hw known)
  rw [accepted_eq] at accepts
  exact ⟨_, result, before, after, called, line_eq, accepts.after_ticket, answer_eq.symm⟩

end

/-! ### Whatever calls and work happen -/

/-- A worker for each camera does what its pipeline would do alone. Whatever calls and work happen in
whatever order, the commands of a camera are carried out in the order in which they were accepted,
each once, and nothing else is done; an answer depends on what was accepted before, and an update that
was replied to comes before whatever is accepted later. A frame that is submitted is accepted, one
that is tried if a place is left for it. An update is accepted, and answered as if it came after all
that was accepted before it. Nothing happens at other cameras then. A camera without a worker is
refused, and nothing changes. Once nobody waits for a place, the workers can be shut down, and
everything that was accepted is done. -/
theorem workers_sequential (places : Nat) (pipelines : List (Pipeline α))
    (distinct : (pipelines.map (·.camera)).Nodup) :
    ∃ d, spawn places pipelines [] = .ok d ∧ ∀ events d', d.Run events d' →
      (∀ p ∈ pipelines, let own := eventsAt p.camera events
        ∃ w done, d'.worker? p.camera = some w ∧ Worker.Follows p places own done w ∧
          (∀ before command after answer, Worker.accepted own = before ++ command :: after →
            (Worker.answers own)[before.length]? = some answer →
              answer = Worker.answerTo p before command) ∧
          (∀ reply ∈ w.replies, ∃ before name update after,
            .updated reply.answer =
              Worker.answerTo p before (.update reply.ticket name update) ∧
            ∀ later, Worker.accepted (eventsAt p.camera (events ++ later)) =
              before ++ .update reply.ticket name update :: after ++
                Worker.accepted (eventsAt p.camera later)) ∧
          (w.line = [] → ∃ later, w.Run later w.drain ∧ Worker.answers (own ++ later) =
            (p.run ((Worker.accepted own).map Command.action)).2) ∧
          (∀ frame, frame.camera = p.camera →
            (∃ d'' before after, d'.submit frame = (d'', .ok ()) ∧ before ++ after = w.line ∧
              d'.Accepts p.camera (before ++ .frame frame :: after) d'') ∧
            ∃ d'' taken, d'.trySubmit frame = (d'', .ok taken) ∧
              (taken = true → w.queue.length + w.reserved < w.places ∧
                d'.Step (.own p.camera (.accepted (.frame frame))) d'') ∧
              (taken = false → w.queue.length + w.reserved = w.places ∧ d'' = d')) ∧
          ∀ name update, ∃ d'' answer before after,
            d'.updateClass p.camera name update = (d'', answer) ∧ before ++ after = w.line ∧
            d'.Accepts p.camera (before ++ .update d'.nextTicket name update :: after) d'' ∧
            .updated answer = Worker.answerTo p (Worker.accepted own ++ before)
              (.update d'.nextTicket name update)) ∧
      (∀ camera, (∀ p ∈ pipelines, p.camera ≠ camera) →
        (∀ frame, frame.camera = camera →
          d'.submit frame = (d', .error (.noWorker camera)) ∧
            d'.trySubmit frame = (d', .error (.noWorker camera))) ∧
        (∀ name update,
          d'.updateClass camera name update = (d', .error (.noWorker camera))) ∧
        eventsAt camera events = []) ∧
      ((∀ w ∈ d'.workers, w.line = []) → d'.shutdown = pipelines.map fun p =>
        .afterAll p places (Worker.accepted (eventsAt p.camera events))) := by
  refine ⟨_, spawn_eq distinct, fun events d' run => ?_⟩
  have different := run.distinct distinct
  have now_eq : d'.cameras = pipelines.map (·.camera) := run.cameras_eq.trans cameras_fresh
  refine ⟨?work, ?missing, ?shutdown⟩
  case work =>
    intro p hp own
    obtain ⟨w, done, hw, h⟩ := run.follows distinct hp
    have tickets := run.tickets distinct hp hw
    refine ⟨w, done, hw, h, fun before command after answer => h.answer_eq, ?replies, ?drained,
      fun frame camera_eq => ⟨submit_accepts different hw h tickets camera_eq,
        trySubmit_rules different hw h camera_eq⟩,
      updateClass_accepts different hw h tickets⟩
    case replies =>
      intro reply hreply
      obtain ⟨before, name, update, after, accepted_eq, answer_eq⟩ := h.of_mem_replies hreply
      refine ⟨before, name, update, after, answer_eq, fun later => ?_⟩
      rw [← accepted_eq, eventsAt, List.filterMap_append]
      exact Worker.accepted_append ..
    case drained =>
      intro nobody
      obtain ⟨later, ran, answers_eq, -⟩ := h.drain
      rw [nobody, List.append_nil] at answers_eq
      exact ⟨later, ran, answers_eq⟩
  case missing =>
    intro camera missing
    have absent : camera ∉ pipelines.map (·.camera) := by simpa using missing
    have none_now : d'.worker? camera = none := by
      rwa [worker?_eq_none_iff, now_eq]
    refine ⟨?_, fun name update => ?_, run.eventsAt_eq_nil (by rwa [cameras_fresh])⟩
    · rintro frame rfl
      rw [submit, trySubmit, find_of_none none_now]
      exact ⟨rfl, rfl⟩
    · rw [updateClass, find_of_none none_now]
  case shutdown =>
    intro nobody
    have drained : ∀ p ∈ pipelines, (d'.worker? p.camera).map Worker.drain =
        some (.afterAll p places (Worker.accepted (eventsAt p.camera events))) := by
      intro p hp
      obtain ⟨w, done, hw, h⟩ := run.follows distinct hp
      obtain ⟨_, -, -, drain_eq⟩ := h.drain
      rw [hw, Option.map_some, drain_eq, nobody w (List.mem_of_find?_eq_some hw), List.append_nil]
    have found : ∀ w ∈ d'.workers, d'.worker? (cameraOf w) = some w := fun w hw =>
      worker?_of_mem different hw
    -- a worker is known by its camera, so both lists are read along the cameras
    refine List.map_injective_iff.2 (fun _ _ => Option.some.inj) ?_
    calc d'.shutdown.map some
        = d'.workers.map fun w => (d'.worker? (cameraOf w)).map Worker.drain := by
          rw [shutdown, List.map_map]
          refine List.map_congr_left fun w hw => ?_
          rw [found w hw]
          rfl
      _ = (pipelines.map (·.camera)).map fun c => (d'.worker? c).map Worker.drain := by
          rw [← now_eq, cameras, List.map_map]
          rfl
      _ = (pipelines.map fun p =>
            Worker.afterAll p places (Worker.accepted (eventsAt p.camera events))).map some := by
          rw [List.map_map, List.map_map]
          exact List.map_congr_left drained

/-- One of two workers is given a frame and an update, which has to wait for it. The next frame that
is submitted comes after both, and then the workers are shut down. -/
theorem shutdown_of_two_workers :
    let p : Pipeline Float := .start .forward (.usual 20)
    let q : Pipeline Float := .start .downward (.usual 20)
    let dark : Frame := ⟨.forward, .epoch, .filled 2 3 ⟨0, 0, 0⟩⟩
    let frame : Command := .frame dark
    let update : Command := .update 0 "gate" (.enabled false)
    let events : List (Event Float) :=
      [.ticket, .own .forward (.accepted frame), .own .forward (.waits update),
        .own .forward (.takenUp frame), .own .forward (.accepted update)]
    ([p, q].map (·.camera)).Nodup ∧ ∃ d d', spawn 1 [p, q] [] = .ok d ∧ d.Run events d' ∧
      d'.shutdown = [.afterAll p 1 [frame, update], .afterAll q 1 []] ∧
      ∃ d'', d'.submit dark = (d'', .ok ()) ∧ d'.Accepts .forward [frame] d'' := by
  intro p q dark frame update events
  have distinct : ([p, q].map (·.camera)).Nodup := by decide
  obtain ⟨d, spawned, runs⟩ := workers_sequential 1 [p, q] distinct
  obtain rfl : fresh 1 [p, q] = d := Except.ok.inj spawned
  let busy : Worker Float := { Worker.start p 1 with queue := [update], current := some frame }
  have run : (fresh 1 [p, q]).Run events ⟨[busy, .start q 1], 1⟩ :=
    .step .ticket <|
    .step (.own rfl (.accept frame (by decide)) (by decide)) <|
    .step (.own rfl (.wait update) (by decide)) <|
    .step (.own rfl (.takeUp rfl rfl) (by decide)) <|
    .step (.own rfl (.letIn (show _ = [] ++ update :: [] from rfl) (by decide)) (by decide)) <|
    .refl _
  obtain ⟨works, -, shutdown_eq⟩ := runs _ _ run
  obtain ⟨w, done, hw, -, -, -, -, calls, -⟩ := works p (List.mem_cons_self ..)
  obtain rfl : busy = w := Option.some.inj hw
  obtain ⟨⟨d'', before, after, called, line_eq, accepts⟩, -⟩ := calls dark rfl
  obtain ⟨rfl, rfl⟩ := List.append_eq_nil_iff.1 (line_eq : before ++ after = [])
  refine ⟨distinct, _, _, spawned, run, shutdown_eq ?_, d'', called, accepts⟩
  intro w hw
  rcases List.mem_cons.1 hw with rfl | hw
  · rfl
  · obtain rfl := List.mem_singleton.1 hw
    rfl

end Dispatcher

end ObjectTracking
