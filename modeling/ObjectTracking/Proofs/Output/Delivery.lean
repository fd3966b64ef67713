import Mathlib.Algebra.BigOperators.Group.List.Basic
import Mathlib.Algebra.Order.Ring.Nat
import ObjectTracking.Output.Broadcast
import ObjectTracking.Proofs.Steps

/-!
# What receivers get from a stream

A receiver reads the messages that are sent after it has joined, one after the other, and is told of
those it has missed (`Broadcast.Reads`). What it has not read yet is always the end of all that was
sent while anybody listened (`Broadcast.Holds`), so that the messages received and missed add up, and
nothing is missed by a receiver that is never further behind than the stream keeps messages
(`Broadcast.Run.delivers`).
-/

namespace ObjectTracking

namespace Received
variable {β : Type}

def message? : Received β → Option β
  | message m => some m
  | _ => none

/-- How many messages are reported as lost. -/
def lost : Received β → Nat
  | lagged missed => missed
  | _ => 0

/-- With this answer, a receiver goes past these messages. -/
inductive Takes : Received β → List β → Prop where
  | message (m : β) : Takes (.message m) [m]
  | lagged (lost : List β) : Takes (.lagged lost.length) lost
  | empty : Takes .empty []
  | closed : Takes .closed []

theorem Takes.account {answer : Received β} {taken : List β} (h : answer.Takes taken) :
    answer.message?.toList.Sublist taken ∧
      answer.message?.toList.length + answer.lost = taken.length := by
  cases h with
  | message m => exact ⟨.refl _, rfl⟩
  | lagged lost => exact ⟨List.nil_sublist _, Nat.zero_add _⟩
  | empty => exact ⟨.refl _, rfl⟩
  | closed => exact ⟨.refl _, rfl⟩

end Received

namespace Broadcast
variable {β : Type}

/-! ### Events -/

/-- What happens at a stream. Receivers are known by the order in which they have joined. -/
inductive Event (β : Type) where
  | sent (message : β)
  | joined
  | left (receiver : Nat)
  | given (receiver : Nat) (received : Received β)
  | closed

/-- What can happen next. -/
inductive Step (b : Broadcast β) : Event β → Broadcast β → Prop where
  | send (message : β) : b.Step (.sent message) (b.send message)
  | subscribe : b.Step .joined b.subscribe
  | leave (receiver : Nat) : b.Step (.left receiver) (b.leave receiver)
  | receive (receiver : Nat) : b.Step (.given receiver (b.receive receiver).2) (b.receive receiver).1
  | close : b.Step .closed b.close

abbrev Run : Broadcast β → List (Event β) → Broadcast β → Prop := Steps Step

namespace Event

def sent? : Event β → Option β
  | sent message => some message
  | _ => none

def isJoined : Event β → Bool
  | joined => true
  | _ => false

/-- What a receiver is given. -/
def given? (receiver : Nat) : Event β → Option (Received β)
  | given r received => if r = receiver then some received else none
  | _ => none

/-- The event without what came of it. -/
def asked : Event β → Event β
  | given receiver _ => given receiver .empty
  | event => event

end Event

/-- What happens after a receiver has joined. -/
def since : Nat → List (Event β) → List (Event β)
  | _, [] => []
  | 0, .joined :: rest => rest
  | receiver + 1, .joined :: rest => since receiver rest
  | receiver, _ :: rest => since receiver rest

/-- The messages that are sent after a receiver has joined. -/
def sentSince (receiver : Nat) (events : List (Event β)) : List β :=
  (since receiver events).filterMap Event.sent?

def givenTo (receiver : Nat) (events : List (Event β)) : List (Received β) :=
  events.filterMap (Event.given? receiver)

/-- The messages that a receiver has got. -/
def messagesOf (receiver : Nat) (events : List (Event β)) : List β :=
  (givenTo receiver events).filterMap Received.message?

/-- How many messages a receiver was told to have missed. -/
def missedBy (receiver : Nat) (events : List (Event β)) : Nat :=
  ((givenTo receiver events).map Received.lost).sum

/-- How far a receiver is behind what was sent since it has joined. -/
def behind (receiver : Nat) (events : List (Event β)) : Nat :=
  (sentSince receiver events).length -
    ((messagesOf receiver events).length + missedBy receiver events)

theorem since_append (receiver : Nat) (events later : List (Event β)) :
    since receiver (events ++ later) =
      if receiver < events.countP Event.isJoined then since receiver events ++ later
      else since (receiver - events.countP Event.isJoined) later := by
  induction events generalizing receiver with
  | nil => rfl
  | cons event rest ih =>
    cases event with
    | joined =>
      have count_eq : (Event.joined :: rest).countP Event.isJoined =
          rest.countP Event.isJoined + 1 := List.countP_cons_of_pos rfl
      rw [count_eq]
      cases receiver with
      | zero =>
        rw [if_pos (Nat.succ_pos _)]
        rfl
      | succ receiver =>
        show since receiver (rest ++ later) = _
        rw [ih]
        simp only [Nat.add_lt_add_iff_right, Nat.add_sub_add_right]
        rfl
    | _ =>
      rw [List.countP_cons_of_neg Bool.false_ne_true]
      cases receiver <;> exact ih _

theorem since_joined (events later : List (Event β)) :
    since (events.countP Event.isJoined) (events ++ .joined :: later) = later := by
  rw [since_append, if_neg (Nat.lt_irrefl _), Nat.sub_self]
  rfl

theorem since_eq_nil {receiver : Nat} {events : List (Event β)}
    (not_yet : events.countP Event.isJoined ≤ receiver) : since receiver events = [] := by
  have := since_append receiver events []
  rw [List.append_nil, if_neg (Nat.not_lt.2 not_yet)] at this
  rw [this]
  rfl

theorem sentSince_concat (receiver : Nat) (events : List (Event β)) (event : Event β) :
    sentSince receiver (events ++ [event]) = sentSince receiver events ++
      if receiver < events.countP Event.isJoined then event.sent?.toList else [] := by
  rw [sentSince, since_append]
  split
  · rw [List.filterMap_append]
    cases event <;> rfl
  · rename_i not_yet
    have nothing : (since (receiver - events.countP Event.isJoined) [event]).filterMap
        Event.sent? = [] := by
      generalize receiver - events.countP Event.isJoined = n
      cases event <;> cases n <;> rfl
    rw [nothing, sentSince, since_eq_nil (Nat.le_of_not_lt not_yet)]
    rfl

theorem givenTo_concat (receiver : Nat) (events : List (Event β)) (event : Event β) :
    givenTo receiver (events ++ [event]) =
      givenTo receiver events ++ (event.given? receiver).toList :=
  filterMap_concat_toList ..

theorem missedBy_concat (receiver : Nat) (events : List (Event β)) (event : Event β) :
    missedBy receiver (events ++ [event]) =
      missedBy receiver events + ((event.given? receiver).toList.map Received.lost).sum := by
  rw [missedBy, givenTo_concat, List.map_append, List.sum_append]
  rfl

/-! ### Reading -/

/-- Of what was sent, a receiver was given all this, and has still this to read. -/
inductive Reads (sent : List β) : List (Received β) → List β → Prop where
  | nothing : Reads sent [] sent
  | next {received : List (Received β)} {answer : Received β} {taken unread : List β}
      (before : Reads sent received (taken ++ unread)) (takes : answer.Takes taken) :
      Reads sent (received ++ [answer]) unread

namespace Reads
variable {sent unread : List β} {received : List (Received β)}

theorem more (h : Reads sent received unread) (later : List β) :
    Reads (sent ++ later) received (unread ++ later) := by
  induction h with
  | nothing => exact .nothing
  | next _ takes ih =>
    rw [List.append_assoc] at ih
    exact .next ih takes

/-- What was read comes first, in order; the messages received and lost add up to it. -/
theorem account (h : Reads sent received unread) :
    ∃ read, sent = read ++ unread ∧ (received.filterMap Received.message?).Sublist read ∧
      (received.filterMap Received.message?).length + (received.map Received.lost).sum =
        read.length := by
  induction h with
  | nothing => exact ⟨[], rfl, .slnil, rfl⟩
  | @next received answer taken unread _ takes ih =>
    obtain ⟨read, rfl, sub, count⟩ := ih
    obtain ⟨sub', count'⟩ := takes.account
    rw [filterMap_concat_toList, List.map_append, List.sum_append]
    refine ⟨read ++ taken, (List.append_assoc ..).symm, sub.append sub', ?_⟩
    simp only [List.length_append, List.map_cons, List.map_nil, List.sum_cons, List.sum_nil]
    omega

end Reads

/-! ### What a stream holds -/

/-- After these events, with all messages that were sent while anybody listened: the newest are kept,
and each receiver that has not gone away has the end of them still to read. -/
structure Holds (capacity : Nat) (events : List (Event β)) (all : List β) (b : Broadcast β) :
    Prop where
  capacity_eq : b.capacity = capacity
  sent_eq : b.sent = all.length
  kept_eq : b.kept = all.drop (all.length - capacity)
  receivers_eq : b.receivers.length = events.countP Event.isJoined
  reads : ∀ r, ∃ unread, Reads (sentSince r events) (givenTo r events) unread ∧
    ∀ next, b.receivers[r]? = some (some next) → next ≤ all.length ∧ unread = all.drop next
  /-- A receiver has missed nothing if it was never too far behind. -/
  near : ∀ r, (∀ first, first <+: events → behind r first ≤ capacity) → missedBy r events = 0

namespace Holds
variable {capacity : Nat} {events : List (Event β)} {all : List β} {b : Broadcast β}

theorem start (capacity : Nat) : Holds (powerAbove capacity) [] [] (start capacity : Broadcast β) where
  capacity_eq := rfl
  sent_eq := rfl
  kept_eq := List.drop_nil.symm
  receivers_eq := rfl
  reads := fun r => ⟨[], by cases r <;> exact .nothing, fun next h => by cases h⟩
  near := fun _ _ => rfl

theorem behind_eq (h : Holds capacity events all b) {r next : Nat}
    (live : b.receivers[r]? = some (some next)) : behind r events = all.length - next := by
  obtain ⟨unread, reads, unread_eq⟩ := h.reads r
  obtain ⟨read, sent_eq, -, count⟩ := reads.account
  obtain ⟨-, rfl⟩ := unread_eq next live
  rw [behind, sent_eq, messagesOf, missedBy, count, List.length_append, List.length_drop]
  omega

/-- The next answer to a receiver takes it past the messages that come next. It loses some only if
it is further behind than the stream keeps messages. -/
theorem deliver_rules (h : Holds capacity events all b) {next : Nat} (next_le : next ≤ all.length) :
    ∃ taken, (b.deliver next).2.Takes taken ∧ (b.deliver next).1 ≤ all.length ∧
      all.drop next = taken ++ all.drop (b.deliver next).1 ∧ (taken = [] → next = all.length) ∧
      (all.length - next ≤ capacity → (b.deliver next).2.lost = 0) := by
  have oldest_eq : b.oldest = all.length - capacity := by
    rw [oldest, h.sent_eq, h.kept_eq, List.length_drop]
    omega
  unfold deliver
  rw [oldest_eq, h.kept_eq]
  split
  · -- the next message is gone: the receiver is told, and goes on with the oldest that is kept
    rename_i behind_kept
    have length_eq : ((all.drop next).take (all.length - capacity - next)).length =
        all.length - capacity - next := by
      rw [List.length_take, List.length_drop]
      omega
    refine ⟨(all.drop next).take (all.length - capacity - next), ?_, Nat.sub_le .., ?_, ?_, ?_⟩
    · conv => lhs; rw [← length_eq]
      exact .lagged _
    · have drop_eq : all.drop (all.length - capacity) =
          (all.drop next).drop (all.length - capacity - next) := by
        rw [List.drop_drop]
        congr 1
        omega
      rw [drop_eq, List.take_append_drop]
    · intro nothing
      rw [nothing, List.length_nil] at length_eq
      omega
    · intro near
      show all.length - capacity - next = 0
      omega
  · rename_i kept_next
    have found : (all.drop (all.length - capacity))[next - (all.length - capacity)]? = all[next]? := by
      rw [List.getElem?_drop]
      congr 1
      omega
    rw [found]
    split
    · rename_i message here
      obtain ⟨lt, rfl⟩ := List.getElem?_eq_some_iff.1 here
      exact ⟨[all[next]], .message _, lt, List.drop_eq_getElem_cons lt, nofun, fun _ => rfl⟩
    · rename_i nothing_there
      have over_all : all.length ≤ next := List.getElem?_eq_none_iff.1 nothing_there
      -- nothing is taken only where nothing is left
      refine ⟨[], ?_, next_le, rfl, fun _ => Nat.le_antisymm next_le over_all, fun _ => ?_⟩
      · split
        · exact .closed
        · exact .empty
      · split <;> rfl

theorem near_concat (h : Holds capacity events all b) (event : Event β)
    (near : ∀ r, behind r events ≤ capacity →
      ∀ answer, event.given? r = some answer → answer.lost = 0) (r : Nat)
    (close : ∀ first, first <+: events ++ [event] → behind r first ≤ capacity) :
    missedBy r (events ++ [event]) = 0 := by
  have before := h.near r fun first hfirst => close first (hfirst.trans (List.prefix_append ..))
  have now := close events (List.prefix_append ..)
  rw [missedBy_concat, before]
  cases given : event.given? r with
  | none => rfl
  | some answer => simp [near r now answer given]

/-- Nothing is sent and nothing is given, and no receiver gets a place. -/
theorem quiet (h : Holds capacity events all b) {event : Event β} {b' : Broadcast β}
    (unsent : event.sent? = none) (not_given : ∀ r, event.given? r = none)
    (capacity_eq : b'.capacity = b.capacity) (sent_eq : b'.sent = b.sent)
    (kept_eq : b'.kept = b.kept)
    (receivers_eq : b'.receivers.length = (events ++ [event]).countP Event.isJoined)
    (places : ∀ r next, b'.receivers[r]? = some (some next) →
      b.receivers[r]? = some (some next) ∨
        events.countP Event.isJoined ≤ r ∧ next = all.length) :
    Holds capacity (events ++ [event]) all b' where
  capacity_eq := capacity_eq.trans h.capacity_eq
  sent_eq := sent_eq.trans h.sent_eq
  kept_eq := kept_eq.trans h.kept_eq
  receivers_eq := receivers_eq
  reads := by
    intro r
    obtain ⟨unread, reads, unread_eq⟩ := h.reads r
    have same_sent : sentSince r (events ++ [event]) = sentSince r events := by
      rw [sentSince_concat, unsent]
      split <;> exact List.append_nil _
    have same_given : givenTo r (events ++ [event]) = givenTo r events := by
      rw [givenTo_concat, not_given]
      exact List.append_nil _
    rw [same_sent, same_given]
    refine ⟨unread, reads, fun next live => ?_⟩
    rcases places r next live with live | ⟨new, rfl⟩
    · exact unread_eq next live
    · -- nothing was sent since a receiver has joined that is only joining
      obtain ⟨read, sent_eq, -, -⟩ := reads.account
      rw [sentSince, since_eq_nil new] at sent_eq
      obtain ⟨-, rfl⟩ := List.append_eq_nil_iff.1 sent_eq.symm
      exact ⟨Nat.le_refl _, List.drop_length.symm⟩
  near := h.near_concat event fun r _ answer given => by rw [not_given] at given; cases given

theorem not_live_of_nobody {r next : Nat} (nobody : b.listening = 0) :
    b.receivers[r]? ≠ some (some next) := by
  intro live
  have listens : some next ∈ b.receivers.filter Option.isSome :=
    List.mem_filter.2 ⟨List.mem_of_getElem? live, rfl⟩
  rw [List.eq_nil_of_length_eq_zero nobody] at listens
  cases listens

theorem send (h : Holds capacity events all b) (message : β) :
    ∃ all', Holds capacity (events ++ [.sent message]) all' (b.send message) := by
  have joined_eq : (events ++ [Event.sent message]).countP Event.isJoined =
      events.countP Event.isJoined := by
    rw [List.countP_append]
    rfl
  have given_eq : ∀ r, givenTo r (events ++ [.sent message]) = givenTo r events := by
    intro r
    rw [givenTo_concat]
    exact List.append_nil _
  have near := h.near_concat (.sent message) (fun _ _ _ given => by cases given)
  by_cases nobody : b.listening = 0
  · refine ⟨all, ?_⟩
    rw [Broadcast.send, if_pos nobody]
    refine ⟨h.capacity_eq, h.sent_eq, h.kept_eq, h.receivers_eq.trans joined_eq.symm, ?_, near⟩
    intro r
    obtain ⟨unread, reads, -⟩ := h.reads r
    rw [given_eq, sentSince_concat]
    exact ⟨_, reads.more _, fun next live => absurd live (not_live_of_nobody nobody)⟩
  · refine ⟨all ++ [message], ?_⟩
    rw [Broadcast.send, if_neg nobody]
    refine ⟨h.capacity_eq, ?sent_eq, ?kept_eq, h.receivers_eq.trans joined_eq.symm, ?reads, near⟩
    case sent_eq =>
      rw [List.length_append]
      exact congrArg (· + 1) h.sent_eq
    case kept_eq =>
      show (b.kept ++ [message]).drop ((b.kept ++ [message]).length - b.capacity) = _
      rw [h.kept_eq, h.capacity_eq, ← List.drop_append_of_le_length (Nat.sub_le ..), List.drop_drop]
      congr 1
      simp only [List.length_append, List.length_drop, List.length_cons, List.length_nil]
      omega
    case reads =>
      intro r
      obtain ⟨unread, reads, unread_eq⟩ := h.reads r
      rw [given_eq, sentSince_concat]
      refine ⟨_, reads.more _, fun next live => ?_⟩
      have joined : r < events.countP Event.isJoined := by
        rw [← h.receivers_eq]
        exact (List.getElem?_eq_some_iff.1 live).1
      obtain ⟨next_le, rfl⟩ := unread_eq next live
      rw [if_pos joined, List.drop_append_of_le_length next_le, List.length_append]
      exact ⟨Nat.le_succ_of_le next_le, rfl⟩

theorem subscribe (h : Holds capacity events all b) :
    Holds capacity (events ++ [.joined]) all b.subscribe := by
  refine h.quiet rfl (fun _ => rfl) rfl rfl rfl ?_ fun r next live => ?_
  · show (b.receivers ++ [some b.sent]).length = _
    rw [List.length_append, h.receivers_eq, List.countP_append]
    rfl
  · change (b.receivers ++ [some b.sent])[r]? = some (some next) at live
    by_cases old : r < b.receivers.length
    · rw [List.getElem?_append_left old] at live
      exact .inl live
    · rw [List.getElem?_append_right (Nat.le_of_not_lt old)] at live
      have only : some next = some b.sent :=
        List.mem_singleton.1 (List.mem_of_getElem? live)
      refine .inr ⟨by rw [← h.receivers_eq]; exact Nat.le_of_not_lt old, ?_⟩
      rw [Option.some.inj only, h.sent_eq]

theorem leave (h : Holds capacity events all b) (receiver : Nat) :
    Holds capacity (events ++ [.left receiver]) all (b.leave receiver) := by
  refine h.quiet rfl (fun _ => rfl) rfl rfl rfl ?_ fun r next live => ?_
  · show (b.receivers.set receiver none).length = _
    rw [List.length_set, h.receivers_eq, List.countP_append]
    rfl
  · change (b.receivers.set receiver none)[r]? = some (some next) at live
    rw [List.getElem?_set] at live
    split at live
    · split at live <;> cases live
    · exact .inl live

theorem close (h : Holds capacity events all b) : Holds capacity (events ++ [.closed]) all b.close := by
  refine h.quiet rfl (fun _ => rfl) rfl rfl rfl ?_ fun r next live => .inl live
  rw [List.countP_append]
  exact h.receivers_eq

/-- A receiver that is given an answer has read what the answer takes it past. -/
theorem reads_given (h : Holds capacity events all b) {receiver : Nat} {answer : Received β}
    {b' : Broadcast β} (others : ∀ r, r ≠ receiver → b'.receivers[r]? = b.receivers[r]?)
    (own : ∀ unread, (∀ next, b.receivers[receiver]? = some (some next) →
        next ≤ all.length ∧ unread = all.drop next) →
      ∃ taken left, unread = taken ++ left ∧ answer.Takes taken ∧
        ∀ next, b'.receivers[receiver]? = some (some next) →
          next ≤ all.length ∧ left = all.drop next) (r : Nat) :
    ∃ unread, Reads (sentSince r (events ++ [.given receiver answer]))
        (givenTo r (events ++ [.given receiver answer])) unread ∧
      ∀ next, b'.receivers[r]? = some (some next) → next ≤ all.length ∧ unread = all.drop next := by
  obtain ⟨unread, reads, unread_eq⟩ := h.reads r
  have same_sent : sentSince r (events ++ [.given receiver answer]) = sentSince r events := by
    rw [sentSince_concat]
    split <;> exact List.append_nil _
  rw [same_sent, givenTo_concat, Event.given?]
  by_cases it_is : receiver = r
  · subst it_is
    obtain ⟨taken, left, rfl, takes, left_eq⟩ := own unread unread_eq
    rw [if_pos rfl]
    exact ⟨left, reads.next takes, left_eq⟩
  · rw [if_neg it_is, others r (Ne.symm it_is)]
    refine ⟨unread, ?_, unread_eq⟩
    rw [Option.toList_none, List.append_nil]
    exact reads

theorem receive (h : Holds capacity events all b) (receiver : Nat) :
    Holds capacity (events ++ [.given receiver (b.receive receiver).2]) all
      (b.receive receiver).1 := by
  have joined_eq : ∀ answer : Received β, (events ++ [Event.given receiver answer]).countP
      Event.isJoined = events.countP Event.isJoined := by
    intro answer
    rw [List.countP_append]
    rfl
  cases place : b.receivers[receiver]?.join with
  | none =>
    have gone : b.receive receiver = (b, .closed) := by rw [Broadcast.receive, place]
    have not_live : ∀ next, b.receivers[receiver]? ≠ some (some next) := by
      intro next live
      rw [live] at place
      cases place
    rw [gone]
    refine ⟨h.capacity_eq, h.sent_eq, h.kept_eq, h.receivers_eq.trans (joined_eq _).symm,
      h.reads_given (fun _ _ => rfl) fun unread _ => ?reads, h.near_concat _ ?near⟩
    case reads =>
      exact ⟨[], unread, rfl, .closed, fun next live => absurd live (not_live next)⟩
    case near =>
      intro r _ answer given
      simp only [Event.given?] at given
      split at given
      · obtain rfl := Option.some.inj given
        rfl
      · cases given
  | some next =>
    have live : b.receivers[receiver]? = some (some next) := Option.join_eq_some_iff.1 place
    obtain ⟨_, -, unread_eq⟩ := h.reads receiver
    have next_le := (unread_eq next live).1
    obtain ⟨taken, takes, next_le', split, -, near⟩ := h.deliver_rules next_le
    have received : b.receive receiver =
        ({ b with receivers := b.receivers.set receiver (some (b.deliver next).1) },
          (b.deliver next).2) := by rw [Broadcast.receive, place]
    rw [received]
    refine ⟨h.capacity_eq, h.sent_eq, h.kept_eq, ?receivers_eq,
      h.reads_given (fun r other => List.getElem?_set_ne (Ne.symm other)) ?reads,
      h.near_concat _ ?near⟩
    case receivers_eq =>
      rw [joined_eq, List.length_set]
      exact h.receivers_eq
    case reads =>
      intro unread unread_eq
      refine ⟨taken, all.drop (b.deliver next).1, ?_, takes, fun next' live' => ?_⟩
      · rw [(unread_eq next live).2, split]
      · have here : receiver < b.receivers.length := (List.getElem?_eq_some_iff.1 live).1
        rw [List.getElem?_set_self here] at live'
        obtain rfl := Option.some.inj (Option.some.inj live')
        exact ⟨next_le', rfl⟩
    case near =>
      intro r few answer given
      simp only [Event.given?] at given
      split at given
      · rename_i it_is
        subst it_is
        obtain rfl := Option.some.inj given
        rw [h.behind_eq live] at few
        exact near few
      · cases given

theorem step (h : Holds capacity events all b) {event : Event β} {b' : Broadcast β}
    (step : b.Step event b') : ∃ all', Holds capacity (events ++ [event]) all' b' := by
  cases step with
  | send message => exact h.send message
  | subscribe => exact ⟨all, h.subscribe⟩
  | leave receiver => exact ⟨all, h.leave receiver⟩
  | receive receiver => exact ⟨all, h.receive receiver⟩
  | close => exact ⟨all, h.close⟩

end Holds

/-! ### Runs -/

/-- A receiver that has not gone away is told that there is nothing new. -/
def HasRead (b : Broadcast β) (receiver : Nat) : Prop :=
  b.receivers[receiver]?.join.isSome = true ∧
    ((b.receive receiver).2 = .empty ∨ (b.receive receiver).2 = .closed)

theorem Holds.unread_of_hasRead {capacity : Nat} {events : List (Event β)} {all : List β}
    {b : Broadcast β} (h : Holds capacity events all b) {receiver : Nat}
    (hasRead : b.HasRead receiver) :
    Reads (sentSince receiver events) (givenTo receiver events) [] := by
  obtain ⟨listens, answer⟩ := hasRead
  obtain ⟨next, place⟩ := Option.isSome_iff_exists.1 listens
  obtain ⟨unread, reads, unread_eq⟩ := h.reads receiver
  obtain ⟨next_le, rfl⟩ := unread_eq next (Option.join_eq_some_iff.1 place)
  obtain ⟨taken, takes, -, -, all_read, -⟩ := h.deliver_rules next_le
  have answer_eq : (b.receive receiver).2 = (b.deliver next).2 := by
    rw [Broadcast.receive, place]
  rw [answer_eq] at answer
  have nothing : taken = [] := by
    rcases answer with h | h <;> rw [h] at takes <;> cases takes <;> rfl
  rw [all_read nothing, List.drop_length] at reads
  exact reads

/-- What receivers got while these events happened. -/
structure Delivers (capacity : Nat) (events : List (Event β)) (b : Broadcast β) : Prop where
  /-- A receiver gets messages that were sent since it has joined, in order and each at most once. -/
  in_order : ∀ r, (messagesOf r events).Sublist (sentSince r events)
  /-- Once it has read all, it has got those that it was not told to have missed. -/
  accounted : ∀ r, b.HasRead r →
    (messagesOf r events).length + missedBy r events = (sentSince r events).length
  /-- It misses none if it was never further behind than that. -/
  unmissed : ∀ r, (∀ first, first <+: events → behind r first ≤ capacity) →
    missedBy r events = 0 ∧ messagesOf r events <+: sentSince r events

theorem Holds.delivers {capacity : Nat} {events : List (Event β)} {all : List β} {b : Broadcast β}
    (h : Holds capacity events all b) : Delivers capacity events b where
  in_order := by
    intro r
    obtain ⟨unread, reads, -⟩ := h.reads r
    obtain ⟨read, sent_eq, sub, -⟩ := reads.account
    rw [sent_eq]
    exact sub.trans (List.sublist_append_left ..)
  accounted := by
    intro r hasRead
    obtain ⟨read, sent_eq, -, count⟩ := (h.unread_of_hasRead hasRead).account
    rw [sent_eq, List.append_nil]
    exact count
  unmissed := by
    intro r close
    have none_missed := h.near r close
    obtain ⟨unread, reads, -⟩ := h.reads r
    obtain ⟨read, sent_eq, sub, count⟩ := reads.account
    change _ + missedBy r events = _ at count
    rw [none_missed] at count
    refine ⟨none_missed, unread, ?_⟩
    rw [sent_eq, messagesOf, sub.eq_of_length count]

variable {b b' b'' : Broadcast β} {events events' : List (Event β)}

theorem Run.delivers {capacity : Nat} (run : (start capacity : Broadcast β).Run events b) :
    Delivers (powerAbove capacity) events b := by
  obtain ⟨all, h⟩ := run.invariant (fun events b => ∃ all, Holds (powerAbove capacity) events all b)
    (fun _ _ _ _ ⟨_, h⟩ step => h.step step) ⟨[], .start capacity⟩
  exact h.delivers

theorem Step.unique {event event' : Event β} (step : b.Step event b') (step' : b.Step event' b'')
    (same : event.asked = event'.asked) : event = event' ∧ b' = b'' := by
  cases step <;> cases step' <;> cases same <;> exact ⟨rfl, rfl⟩

/-- What comes of the events at a stream is decided by what is sent and asked for. -/
theorem Run.unique (run : b.Run events b') (run' : b.Run events' b'')
    (same : events.map Event.asked = events'.map Event.asked) : events = events' ∧ b' = b'' := by
  induction run generalizing events' with
  | refl =>
    obtain rfl := List.map_eq_nil_iff.1 same.symm
    cases run'
    exact ⟨rfl, rfl⟩
  | step step _ ih =>
    cases run' with
    | refl => cases same
    | step step' rest' =>
      obtain ⟨first, rest⟩ := List.cons.inj same
      obtain ⟨rfl, rfl⟩ := step.unique step' first
      obtain ⟨rfl, rfl⟩ := ih rest' rest
      exact ⟨rfl, rfl⟩

theorem Run.without_unheard {before after : List (Event β)} {message : β}
    (run : b.Run (before ++ .sent message :: after) b'') (first : b.Run before b')
    (nobody : b'.listening = 0) : b.Run (before ++ after) b'' := by
  obtain ⟨_, first', rest⟩ := run.of_append
  -- the first events lead to one state only, the one in which nobody listens
  obtain ⟨-, rfl⟩ := first.unique first' rfl
  cases rest with
  | step step rest =>
    cases step
    rw [send, if_pos nobody] at rest
    exact first.append rest

/-- What a stream does for its receivers. -/
structure Serves (capacity : Nat) (events : List (Event β)) (b : Broadcast β) : Prop where
  runs : (start capacity).Run events b
  delivers : Delivers (powerAbove capacity) events b
  /-- A message that is sent while nobody listens might as well not be sent. -/
  unheard : ∀ before message after b₀, events = before ++ .sent message :: after →
    (start capacity).Run before b₀ → b₀.listening = 0 →
      (start capacity).Run (before ++ after) b ∧
        Delivers (powerAbove capacity) (before ++ after) b
  /-- Where the same is sent and asked for, all answers are the same. -/
  alone : ∀ events' b', (start capacity).Run events' b' →
    events.map Event.asked = events'.map Event.asked → events = events' ∧ b = b'

theorem Run.serves {capacity : Nat} (run : (start capacity : Broadcast β).Run events b) :
    Serves capacity events b where
  runs := run
  delivers := run.delivers
  unheard := by
    rintro before message after b₀ rfl first nobody
    have without := run.without_unheard first nobody
    exact ⟨without, without.delivers⟩
  alone := fun _ _ run' same => run.unique run' same

/-! ### Capacity -/

/-- A stream keeps as many messages as asked for and one at least, rounded up to a power of two. -/
theorem powerAbove_rules (n : Nat) :
    (∃ k, powerAbove n = 2 ^ k) ∧ max n 1 ≤ powerAbove n ∧
      ∀ k, max n 1 ≤ 2 ^ k → powerAbove n ≤ 2 ^ k := by
  unfold powerAbove
  split
  · refine ⟨⟨0, rfl⟩, by omega, fun k _ => Nat.one_le_two_pow⟩
  · rename_i more
    rw [Nat.one_shiftLeft]
    have below : n - 1 < 2 ^ ((n - 1).log2 + 1) := Nat.lt_log2_self
    refine ⟨⟨_, rfl⟩, by omega, fun k hk => ?_⟩
    have log_lt : (n - 1).log2 < k := (Nat.log2_lt (by omega)).2 (by omega)
    exact Nat.pow_le_pow_right Nat.two_pos log_lt

end Broadcast

end ObjectTracking
