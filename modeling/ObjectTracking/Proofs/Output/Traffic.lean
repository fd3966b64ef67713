import ObjectTracking.Output.Bus
import ObjectTracking.Proofs.Output.Delivery

/-!
# Traffic on the output bus

Any number of callers hand on items while receivers come, read and go. A call with a picture looks
first whether anybody listens, and sends the picture once it is encoded; anything may happen in
between. Each stream then does what it would do on its own (`Bus.Traffic.Run.onPictures`), so that
receivers of either get what a stream delivers (`Bus.Traffic.served_on_both_streams`).
-/

namespace ObjectTracking

/-- How a picture travels. -/
def Item.packet? {α : Type} (format : FrameFormat) : Item α → Option Packet
  | .annotated camera frame image =>
    some ⟨camera, frame, .annotated, image.width, image.height, format⟩
  | .mask camera className frame image =>
    some ⟨camera, frame, .mask className, image.width, image.height, format⟩
  | .detection _ => none

namespace Bus
variable {α : Type}

/-- Publishes an item through a copy of the bus that has its own picture format. -/
def publishAs (bus : Bus α) (format : FrameFormat) (item : Item α) : Bus α :=
  { ({ bus with format } : Bus α).publish item with format := bus.format }

section
variable {bus : Bus α} {format : FrameFormat} {item : Item α} {packet : Packet}

theorem detections_publishAs (picture : item.packet? format = some packet) :
    (bus.publishAs format item).detections = bus.detections := by
  cases item with
  | detection d => cases picture
  | _ =>
    simp only [publishAs, publish, sendPicture]
    split <;> rfl

theorem frames_publishAs (picture : item.packet? format = some packet)
    (encodable : format.canHold packet.width packet.height = true) :
    (bus.publishAs format item).frames = bus.frames.send packet := by
  cases item with
  | detection d => cases picture
  | _ =>
    obtain rfl := Option.some.inj picture
    simp only [publishAs, publish, sendPicture, if_pos encodable]

end

/-! ### Events -/

inductive Event (α : Type) where
  /-- A call is over, and has sent its item if anybody listened. -/
  | published (format : FrameFormat) (item : Item α)
  /-- A call has found that somebody listens, and goes on to encode its picture. -/
  | encoding (format : FrameFormat) (item : Item α)
  /-- A receiver of detections comes, asks or goes. -/
  | detections (event : Broadcast.Event (Detection α))
  | pictures (event : Broadcast.Event Packet)
  | closed

namespace Event

def onDetections? : Event α → Option (Broadcast.Event (Detection α))
  | published _ (.detection d) => some (.sent d)
  | detections event => some event
  | closed => some .closed
  | _ => none

def onPictures? : Event α → Option (Broadcast.Event Packet)
  | published format item => (item.packet? format).map .sent
  | pictures event => some event
  | closed => some .closed
  | _ => none

/-- What a call has published on the stream of detections. -/
def detection? : Event α → Option (Detection α)
  | published _ (.detection d) => some d
  | _ => none

/-- What a call has published on the stream of pictures. -/
def packet? : Event α → Option Packet
  | published format item => item.packet? format
  | _ => none

/-- If it is the end of a call with a picture, the picture can be encoded. -/
def Encodable : Event α → Prop
  | published format item =>
    ∀ packet, item.packet? format = some packet → format.canHold packet.width packet.height = true
  | _ => True

end Event

/-- A bus in use. -/
structure Traffic (α : Type) where
  bus : Bus α
  /-- Pictures that are being encoded, with the formats they are to have. -/
  encoding : List (FrameFormat × Item α)

namespace Traffic

def start (capacity : Nat) (format : FrameFormat) : Traffic α := ⟨.start capacity format, []⟩

/-- What can happen next. -/
inductive Step (t : Traffic α) : Event α → Traffic α → Prop where
  | detection (format : FrameFormat) (d : Detection α) :
      t.Step (.published format (.detection d))
        { t with bus := t.bus.publishAs format (.detection d) }
  | unheard {format : FrameFormat} {item : Item α} {packet : Packet}
      (picture : item.packet? format = some packet) (nobody : t.bus.frames.listening = 0) :
      t.Step (.published format item) t
  | encode {format : FrameFormat} {item : Item α} {packet : Packet}
      (picture : item.packet? format = some packet) (heard : t.bus.frames.listening ≠ 0) :
      t.Step (.encoding format item) { t with encoding := t.encoding ++ [(format, item)] }
  | encoded {format : FrameFormat} {item : Item α} {packet : Packet}
      {before after : List (FrameFormat × Item α)}
      (picture : item.packet? format = some packet)
      (encoding_eq : t.encoding = before ++ (format, item) :: after) :
      t.Step (.published format item) ⟨t.bus.publishAs format item, before ++ after⟩
  | atDetections {event : Broadcast.Event (Detection α)} {stream : Broadcast (Detection α)}
      (unsent : event.sent? = none) (step : t.bus.detections.Step event stream) :
      t.Step (.detections event) { t with bus := { t.bus with detections := stream } }
  | atPictures {event : Broadcast.Event Packet} {stream : Broadcast Packet}
      (unsent : event.sent? = none) (step : t.bus.frames.Step event stream) :
      t.Step (.pictures event) { t with bus := { t.bus with frames := stream } }
  | close : t.Step .closed { t with bus := t.bus.close }

abbrev Run : Traffic α → List (Event α) → Traffic α → Prop := Steps Step

variable {t t' : Traffic α} {event : Event α} {events : List (Event α)}

/-! ### Each stream on its own -/

theorem onDetections?_of_picture {format : FrameFormat} {item : Item α} {packet : Packet}
    (picture : item.packet? format = some packet) :
    (Event.published format item).onDetections? = none := by
  cases item with
  | detection d => cases picture
  | _ => rfl

theorem Step.onDetections (step : t.Step event t') :
    t.bus.detections.Run event.onDetections?.toList t'.bus.detections := by
  cases step with
  | detection format d => exact .step (.send d) (.refl _)
  | unheard picture _ =>
    rw [onDetections?_of_picture picture]
    exact .refl _
  | encode _ _ => exact .refl _
  | encoded picture _ =>
    rw [onDetections?_of_picture picture, detections_publishAs picture]
    exact .refl _
  | atDetections _ step => exact .step step (.refl _)
  | atPictures _ _ => exact .refl _
  | close => exact .step .close (.refl _)

theorem Step.onPictures (step : t.Step event t') (encodable : event.Encodable) :
    t.bus.frames.Run event.onPictures?.toList t'.bus.frames := by
  cases step with
  | detection format d => exact .refl _
  | @unheard format item packet picture nobody =>
    -- the call has not sent its picture, and sending it would have changed nothing
    have unsent : t.bus.frames.send packet = t.bus.frames := by rw [Broadcast.send, if_pos nobody]
    have sent : t.bus.frames.Step (.sent packet) (t.bus.frames.send packet) := .send packet
    rw [unsent] at sent
    rw [Event.onPictures?, picture]
    exact .step sent (.refl _)
  | encode _ _ => exact .refl _
  | @encoded format item packet _ _ picture _ =>
    rw [Event.onPictures?, picture, frames_publishAs picture (encodable packet picture)]
    exact .step (.send packet) (.refl _)
  | atDetections _ _ => exact .refl _
  | atPictures _ step => exact .step step (.refl _)
  | close => exact .step .close (.refl _)

theorem Run.onDetections (run : t.Run events t') :
    t.bus.detections.Run (events.filterMap Event.onDetections?) t'.bus.detections :=
  run.project (·.bus.detections) _ fun _ _ _ _ step => step.onDetections

theorem Run.onPictures (run : t.Run events t') (encodable : ∀ event ∈ events, event.Encodable) :
    t.bus.frames.Run (events.filterMap Event.onPictures?) t'.bus.frames :=
  run.project (·.bus.frames) _ fun event h _ _ step => step.onPictures (encodable event h)

theorem Step.sent_detection (step : t.Step event t') :
    event.onDetections?.bind Broadcast.Event.sent? = event.detection? := by
  have of_call : ∀ format (item : Item α),
      (Event.published format item).onDetections?.bind Broadcast.Event.sent? =
        (Event.published format item).detection? := by
    intro format item
    cases item <;> rfl
  cases step with
  | unheard _ _ => exact of_call _ _
  | encoded _ _ => exact of_call _ _
  | atDetections unsent _ => exact unsent
  | _ => rfl

theorem Step.sent_packet (step : t.Step event t') :
    event.onPictures?.bind Broadcast.Event.sent? = event.packet? := by
  have of_call : ∀ format (item : Item α),
      (Event.published format item).onPictures?.bind Broadcast.Event.sent? =
        (Event.published format item).packet? := by
    intro format item
    cases item <;> rfl
  cases step with
  | unheard _ _ => exact of_call _ _
  | encoded _ _ => exact of_call _ _
  | atPictures unsent _ => exact unsent
  | _ => rfl

/-- A stream of the bus serves those who listen to it, and what is sent to them is what calls have
published since they have joined. -/
structure Carries {β : Type} (capacity : Nat) (on? : Event α → Option (Broadcast.Event β))
    (published? : Event α → Option β) (events : List (Event α)) (stream : Broadcast β) : Prop where
  serves : Broadcast.Serves capacity (events.filterMap on?) stream
  published : ∀ before joined after, events = before ++ joined :: after → on? joined = some .joined →
    Broadcast.sentSince ((before.filterMap on?).countP Broadcast.Event.isJoined)
      (events.filterMap on?) = after.filterMap published?

theorem Carries.of_run {β : Type} {capacity : Nat} {on? : Event α → Option (Broadcast.Event β)}
    {published? : Event α → Option β} {stream : Broadcast β}
    (run : (Broadcast.start capacity).Run (events.filterMap on?) stream)
    (sent : ∀ event ∈ events, (on? event).bind Broadcast.Event.sent? = published? event) :
    Carries capacity on? published? events stream where
  serves := run.serves
  published := by
    rintro before joined after rfl joins
    rw [Broadcast.sentSince, List.filterMap_append, List.filterMap_cons_some joins,
      Broadcast.since_joined, List.filterMap_filterMap]
    refine List.filterMap_congr fun event h => sent event ?_
    exact List.mem_append_right _ (List.mem_cons_of_mem _ h)

/-- Whatever callers and receivers do in whatever order: as long as pictures can be encoded, either
stream carries what is published on it, like a stream of its own that keeps at least as many messages
as asked for. -/
theorem served_on_both_streams (capacity : Nat) (format : FrameFormat)
    (run : (start capacity format).Run events t) (encodable : ∀ event ∈ events, event.Encodable) :
    Carries capacity Event.onDetections? Event.detection? events t.bus.detections ∧
      Carries capacity Event.onPictures? Event.packet? events t.bus.frames ∧
      (∃ k, Broadcast.powerAbove capacity = 2 ^ k) ∧
      max capacity 1 ≤ Broadcast.powerAbove capacity ∧
      ∀ k, max capacity 1 ≤ 2 ^ k → Broadcast.powerAbove capacity ≤ 2 ^ k := by
  refine ⟨.of_run run.onDetections ?_, .of_run (run.onPictures encodable) ?_,
    Broadcast.powerAbove_rules capacity⟩
  · exact run.forall_mem fun _ _ _ step => step.sent_detection
  · exact run.forall_mem fun _ _ _ step => step.sent_packet

/-- Two pictures are encoded at once. The receiver asks when both are out, where there is room for
one. -/
theorem served_after_missing_one :
    let whole : Item Float := .annotated .forward 7 (.filled 2 3 ⟨0, 0, 0⟩)
    let labels : Item Float := .mask .forward "gate" 7 (.filled 2 3 0)
    let packet : Packet := ⟨.forward, 7, .annotated, 2, 3, .usual⟩
    let events : List (Event Float) :=
      [.pictures .joined, .encoding .usual whole, .encoding .usual labels,
        .published .usual labels, .published .usual whole,
        .pictures (.given 0 (.lagged 1)), .pictures (.given 0 (.message packet))]
    (∀ event ∈ events, event.Encodable) ∧ ∃ t, (start 1 .usual).Run events t ∧
      (Broadcast.messagesOf 0 (events.filterMap Event.onPictures?)).length +
        Broadcast.missedBy 0 (events.filterMap Event.onPictures?) = 2 := by
  intro whole labels packet events
  have encodable : ∀ event ∈ events, event.Encodable := by
    simp only [events, List.forall_mem_cons]
    refine ⟨trivial, trivial, trivial, fun packet h => ?_, fun packet h => ?_, trivial, trivial,
      List.forall_mem_nil _⟩
    all_goals
      obtain rfl := Option.some.inj h
      decide
  let gate : Packet := ⟨.forward, 7, .mask "gate", 2, 3, .usual⟩
  let stage (stream : Broadcast Packet) (encoding : List (FrameFormat × Item Float)) :
      Traffic Float := ⟨⟨.usual, .start 1, stream⟩, encoding⟩
  have joined : (start 1 .usual).Step (.pictures .joined) (stage ⟨1, 0, [], [some 0], false⟩ []) :=
    .atPictures rfl .subscribe
  have first : (stage ⟨1, 0, [], [some 0], false⟩ [(.usual, whole), (.usual, labels)]).Step
      (.published .usual labels) (stage ⟨1, 1, [gate], [some 0], false⟩ [(.usual, whole)]) :=
    @Step.encoded _ _ _ _ _ [(.usual, whole)] [] rfl rfl
  have second : (stage ⟨1, 1, [gate], [some 0], false⟩ [(.usual, whole)]).Step
      (.published .usual whole) (stage ⟨1, 2, [packet], [some 0], false⟩ []) :=
    @Step.encoded _ _ _ _ _ [] [] rfl rfl
  have missed : (stage ⟨1, 2, [packet], [some 0], false⟩ []).Step
      (.pictures (.given 0 (.lagged 1))) (stage ⟨1, 2, [packet], [some 1], false⟩ []) :=
    .atPictures rfl (.receive 0)
  have got : (stage ⟨1, 2, [packet], [some 1], false⟩ []).Step
      (.pictures (.given 0 (.message packet))) (stage ⟨1, 2, [packet], [some 2], false⟩ []) :=
    .atPictures rfl (.receive 0)
  have run : (start 1 .usual).Run events (stage ⟨1, 2, [packet], [some 2], false⟩ []) :=
    .step joined <| .step (.encode rfl (by decide)) <| .step (.encode rfl (by decide)) <|
    .step first <| .step second <| .step missed <| .step got <| .refl _
  obtain ⟨-, pictures, -⟩ := served_on_both_streams 1 .usual run encodable
  have sent_eq := pictures.published [] _ _ rfl rfl
  have account := pictures.serves.delivers.accounted 0 ⟨rfl, .inl rfl⟩
  refine ⟨encodable, _, run, ?_⟩
  rw [account]
  exact congrArg List.length sent_eq

end Traffic

end Bus

end ObjectTracking
