import ObjectTracking.Output.Folder
import ObjectTracking.Proofs.Json.Reading
import ObjectTracking.Proofs.Run.Published

/-!
# The file of detections, line by line

A detection of 1970 or later is a record on a line of its own, whatever its name and its numbers are
(`Detection.readsAs_written`). The writing of an earlier one stops at the moment, with the record
open (`Detection.opens_written`). What is written by then stays in the file, without a line end, and
the next line cannot be read (`OutputFolder.lines_of_detections`).
-/

namespace ObjectTracking

open Json (Member ReadsAs Opens)

namespace Timestamp
variable {t : Timestamp} {text : String}

def secs (t : Timestamp) : Member := .nat "secs_since_epoch" t.seconds.toNat

def nanos (t : Timestamp) : Member := .nat "nanos_since_epoch" t.nanoseconds

def toJson (t : Timestamp) : Json := .object (Member.members [t.secs, t.nanos])

theorem record?_eq_none_iff : t.record? = none ↔ t.seconds < 0 := by
  unfold record?
  split <;> simp [*]

theorem toList_record? (h : t.record? = some text) :
    text.toList = '\x7b' :: (t.secs.written ++ Member.later [t.nanos] ++ ['\x7d']) := by
  unfold record? at h
  split at h
  · cases h
  · have first : Json.quoted "secs_since_epoch" = "\"secs_since_epoch\"" := by decide
    have second : Json.quoted "nanos_since_epoch" = "\"nanos_since_epoch\"" := by decide
    obtain rfl := Option.some.inj h
    simp [secs, nanos, Member.written, Member.later, Member.nat, first, second]

def member (t : Timestamp) (h : t.record? = some text) : Member where
  key := "timestamp"
  text := text
  value := t.toJson
  reads := toList_record? h ▸ Json.readsAs_record t.secs [t.nanos]
  oneLine := by
    rw [toList_record? h]
    simp [Member.newline_not_mem_written, Member.newline_not_mem_later]

end Timestamp

namespace Detection
variable {d : Detection Float} {text : String}

def first (d : Detection Float) : Member := .nat "class_id" d.classId.toNat

def names (d : Detection Float) : List Member :=
  [.string "class_name" d.className, .string "camera" d.camera.name]

def measures (d : Detection Float) : List Member :=
  [.nat "frame" d.frame, .nat "blob_index" d.blobIndex, .double "x" d.x, .double "y" d.y,
    .double "width" d.width, .double "height" d.height,
    .double "rotation_degrees" d.rotationDegrees, .double "confidence" d.confidence,
    .nat "points" d.points]

/-- What the record of a detection is read as. -/
def toJson (d : Detection Float) : Json :=
  .object (Member.members (d.first :: d.names) ++
    (some "timestamp", d.taken.toJson) :: Member.members d.measures)

theorem fieldTexts_eq (d : Detection Float) :
    d.fieldTexts = Member.fields (d.first :: d.names) ++
      ("timestamp", d.taken.record?) :: Member.fields d.measures := rfl

/-- All that is written of a detection. -/
def written (d : Detection Float) : List Char := d.write.1.toList

theorem written_of_record (h : d.taken.record? = some text) :
    d.write.2 = true ∧ d.written =
      '\x7b' :: (d.first.written ++ Member.later (d.names ++ d.taken.member h :: d.measures) ++
        ['\x7d']) := by
  have fields_eq : d.fieldTexts =
      Member.fields (d.first :: (d.names ++ d.taken.member h :: d.measures)) ++ [] := by
    rw [fieldTexts_eq, h]
    rfl
  obtain ⟨text_eq, complete⟩ :=
    Json.writeFields_all d.first (d.names ++ d.taken.member h :: d.measures) []
  rw [← fields_eq] at text_eq complete
  have complete : (writeFields d.fieldTexts "").2 = true := complete
  simp [written, write, complete, text_eq, writeFields]

theorem written_of_none (h : d.taken.record? = none) :
    d.write.2 = false ∧ d.written = '\x7b' :: (d.first.written ++ Member.later d.names ++
      ',' :: ((Json.quoted "timestamp").toList ++ [':'])) := by
  obtain ⟨text_eq, complete⟩ :=
    Json.writeFields_all d.first d.names (("timestamp", none) :: Member.fields d.measures)
  rw [← h, ← fieldTexts_eq, h] at text_eq complete
  have complete : (writeFields d.fieldTexts "").2 = false := complete
  simp [written, write, complete, text_eq, writeFields]

/-- A record is read as the detection it is of, whatever is in its name. -/
theorem readsAs_written (since : 0 ≤ d.taken.seconds) : ReadsAs d.written d.toJson := by
  cases h : d.taken.record? with
  | none => exact absurd (Timestamp.record?_eq_none_iff.1 h) (by omega)
  | some text =>
    rw [(written_of_record h).2]
    exact Json.readsAs_record d.first (d.names ++ d.taken.member h :: d.measures)

/-- The moment of an earlier detection has no text, and the record stays open. -/
theorem opens_written (before : d.taken.seconds < 0) : Opens d.written := by
  rw [(written_of_none (Timestamp.record?_eq_none_iff.2 before)).2]
  exact Json.opens_record d.first d.names "timestamp"

theorem newline_not_mem_record (d : Detection Float) : '\n' ∉ d.written := by
  cases h : d.taken.record? with
  | none =>
    rw [(written_of_none h).2]
    simp [Member.newline_not_mem_written, Member.newline_not_mem_later, Json.newline_not_mem_quoted]
  | some text =>
    rw [(written_of_record h).2]
    simp [Member.newline_not_mem_written, Member.newline_not_mem_later]

theorem write_complete_iff : d.write.2 = true ↔ 0 ≤ d.taken.seconds := by
  cases h : d.taken.record? with
  | none =>
    have before := Timestamp.record?_eq_none_iff.1 h
    simp [(written_of_none h).1, before]
  | some text =>
    have since : ¬ d.taken.seconds < 0 := fun before => by
      rw [Timestamp.record?_eq_none_iff.2 before] at h
      cases h
    simpa [(written_of_record h).1] using since

/-- What a detection adds to the file. -/
def entry (d : Detection Float) : List Char :=
  d.written ++ if 0 ≤ d.taken.seconds then ['\n'] else []

end Detection

namespace OutputFolder

/-- The text of the file of detections. -/
def detectionChars (folder : OutputFolder) : List Char := folder.detections.toList

theorem detectionChars_publish (folder : OutputFolder) (item : Item Float) :
    (folder.publish item).detectionChars =
      folder.detectionChars ++ item.detection?.toList.flatMap Detection.entry := by
  have picture : ∀ name, (folder.writePicture name).detectionChars = folder.detectionChars := by
    intro name
    unfold writePicture
    split <;> rfl
  cases item with
  | detection d =>
    by_cases since : 0 ≤ d.taken.seconds
    · have complete := Detection.write_complete_iff.2 since
      simp [publish, writeDetection, detectionChars, Item.detection?, Detection.entry,
        Detection.written, since, complete]
    · have complete : ¬ d.write.2 = true := mt Detection.write_complete_iff.1 since
      simp [publish, writeDetection, detectionChars, Item.detection?, Detection.entry,
        Detection.written, since, complete]
  | mask camera className frame image =>
    simp [publish, picture, Item.detection?]
  | annotated camera frame image =>
    simp [publish, picture, Item.detection?]

theorem detectionChars_foldl (items : List (Item Float)) (folder : OutputFolder) :
    (items.foldl publish folder).detectionChars =
      folder.detectionChars ++ (items.filterMap Item.detection?).flatMap Detection.entry := by
  induction items generalizing folder with
  | nil => simp
  | cons item rest ih =>
    rw [List.foldl_cons, ih, detectionChars_publish, filterMap_cons_toList, List.flatMap_append,
      List.append_assoc]

theorem detectionChars_foldl_empty (items : List (Item Float)) :
    (items.foldl publish empty).detectionChars =
      (items.filterMap Item.detection?).flatMap Detection.entry := by
  have nothing : empty.detectionChars = [] := by simp [detectionChars, empty]
  rw [detectionChars_foldl, nothing, List.nil_append]

/-- A line of the file: what has been written of detections before 1970, and the record of a later
one. -/
structure Line where
  begun : List (Detection Float)
  whole : Detection Float
  before : ∀ d ∈ begun, d.taken.seconds < 0
  since : 0 ≤ whole.taken.seconds

namespace Line

def detections (line : Line) : List (Detection Float) := line.begun ++ [line.whole]

def text (line : Line) : List Char := line.detections.flatMap Detection.written

/-- A line is read as its record, unless there is something in front of it. -/
theorem ofText?_text (line : Line) :
    Json.ofText? (String.ofList line.text) =
      if line.begun = [] then some line.whole.toJson else none := by
  have reads := Detection.readsAs_written line.since
  have text_eq : line.text = (line.begun.map Detection.written).flatten ++ line.whole.written := by
    simp [text, detections, List.flatMap_def]
  rw [text_eq]
  split
  · rename_i alone
    refine Json.ofText?_of_readsAs ?_
    simpa [alone] using reads
  · rename_i some_begun
    refine Json.ofText?_of_opens (fun text htext => ?_) (by simpa using some_begun) reads
    obtain ⟨d, hd, rfl⟩ := List.mem_map.1 htext
    exact Detection.opens_written (line.before d hd)

end Line

theorem newline_not_mem_flatMap (ds : List (Detection Float)) :
    '\n' ∉ ds.flatMap Detection.written := by
  simp [Detection.newline_not_mem_record]

/-- Each detection since 1970 ends a line, and those before it are in front of it. -/
theorem exists_lines (ds : List (Detection Float)) :
    ∃ (lines : List Line) (begun : List (Detection Float)),
      ds = lines.flatMap Line.detections ++ begun ∧ (∀ d ∈ begun, d.taken.seconds < 0) ∧
      ds.flatMap Detection.entry =
        lines.flatMap (·.text ++ ['\n']) ++ begun.flatMap Detection.written := by
  induction ds using List.reverseRecOn with
  | nil => exact ⟨[], [], rfl, nofun, rfl⟩
  | append_singleton ds d ih =>
    obtain ⟨lines, begun, ds_eq, before, text_eq⟩ := ih
    by_cases since : 0 ≤ d.taken.seconds
    · refine ⟨lines ++ [⟨begun, d, before, since⟩], [], ?_, nofun, ?_⟩
      · simp [ds_eq, Line.detections]
      · simp [text_eq, Line.detections, Line.text, Detection.entry, since]
    · refine ⟨lines, begun ++ [d], ?_, ?_, ?_⟩
      · simp [ds_eq]
      · exact List.forall_mem_append.2 ⟨before, List.forall_mem_singleton.2 (by omega)⟩
      · simp [text_eq, Detection.entry, since]

theorem splitOn_lines {lines : List (List Char)} {last : List Char}
    (h : ∀ line ∈ lines, '\n' ∉ line) (h' : '\n' ∉ last) :
    (lines.flatMap (· ++ ['\n']) ++ last).splitOn '\n' = lines ++ [last] := by
  induction lines with
  | nil => exact List.splitOn_eq_singleton h'
  | cons line lines ih =>
    obtain ⟨first, rest⟩ := List.forall_mem_cons.1 h
    rw [List.flatMap_cons, List.append_assoc, List.append_assoc, List.singleton_append,
      List.splitOn_append_cons_self_of_not_mem first, ih rest, List.cons_append]

/-- The file that has whole records only. -/
def wholeRecords (ds : List (Detection Float)) : List Char :=
  (ds.filter (0 ≤ ·.taken.seconds)).flatMap (·.written ++ ['\n'])

theorem length_entries (ds : List (Detection Float)) :
    (ds.flatMap Detection.entry).length = (wholeRecords ds).length +
      ((ds.filter (·.taken.seconds < 0)).flatMap Detection.written).length := by
  induction ds with
  | nil => rfl
  | cons d ds ih =>
    simp only [wholeRecords] at ih ⊢
    by_cases since : 0 ≤ d.taken.seconds
    · have not_before : ¬ d.taken.seconds < 0 := by omega
      simp [Detection.entry, since, not_before, ih]
      omega
    · have before : d.taken.seconds < 0 := by omega
      simp [Detection.entry, since, before, ih]
      omega

/-- There are only whole records if there is nothing but these. -/
theorem entries_eq_wholeRecords_iff (ds : List (Detection Float)) :
    ds.flatMap Detection.entry = wholeRecords ds ↔ ∀ d ∈ ds, 0 ≤ d.taken.seconds := by
  constructor
  · intro same
    by_contra early
    obtain ⟨d, hd, before⟩ : ∃ d ∈ ds, d.taken.seconds < 0 := by simpa using early
    have nothing : ((ds.filter (·.taken.seconds < 0)).flatMap Detection.written).length = 0 := by
      have lengths := length_entries ds
      rw [same] at lengths
      omega
    have mem : d ∈ ds.filter (·.taken.seconds < 0) :=
      List.mem_filter.2 ⟨hd, decide_eq_true before⟩
    have unwritten := List.flatMap_eq_nil_iff.1 (List.length_eq_zero_iff.1 nothing) d mem
    rw [(Detection.written_of_none (Timestamp.record?_eq_none_iff.2 before)).2] at unwritten
    cases unwritten
  · intro all
    have kept : ds.filter (0 ≤ ·.taken.seconds) = ds :=
      List.filter_eq_self.2 fun d hd => decide_eq_true (all d hd)
    rw [wholeRecords, kept]
    exact List.flatMap_congr fun d hd => by rw [Detection.entry, if_pos (all d hd)]

/-- The file of detections after any items were handed on. It has one line for each detection since
1970, in order; in front of its record stands what has been written of those that came before it and
are of an earlier moment, up to that moment and without a line end; what has been written of those
that come after the last line stands at the end. A line with its record alone is read as the
detection, whatever the name and the numbers are; any other cannot be read. So the file consists of
whole records if and only if no detection is of a moment before 1970. -/
theorem lines_of_detections (items : List (Item Float)) :
    let ds := items.filterMap Item.detection?
    let file := (items.foldl publish empty).detectionChars
    (∃ (lines : List Line) (begun : List (Detection Float)),
      ds = lines.flatMap Line.detections ++ begun ∧ (∀ d ∈ begun, d.taken.seconds < 0) ∧
      file.splitOn '\n' = lines.map Line.text ++ [begun.flatMap Detection.written] ∧
      ∀ line ∈ lines, Json.ofText? (String.ofList line.text) =
        if line.begun = [] then some line.whole.toJson else none) ∧
    (file = wholeRecords ds ↔ ∀ d ∈ ds, 0 ≤ d.taken.seconds) := by
  intro ds file
  have file_eq : file = ds.flatMap Detection.entry := detectionChars_foldl_empty items
  rw [file_eq]
  refine ⟨?_, entries_eq_wholeRecords_iff ds⟩
  obtain ⟨lines, begun, ds_eq, before, text_eq⟩ := exists_lines ds
  refine ⟨lines, begun, ds_eq, before, ?_, fun line _ => line.ofText?_text⟩
  have text_eq' : ds.flatMap Detection.entry =
      (lines.map Line.text).flatMap (· ++ ['\n']) ++ begun.flatMap Detection.written := by
    rw [text_eq, List.flatMap_map]
  rw [text_eq']
  refine splitOn_lines (fun text htext => ?_) (newline_not_mem_flatMap begun)
  obtain ⟨line, -, rfl⟩ := List.mem_map.1 htext
  exact newline_not_mem_flatMap line.detections

/-- A moment before 1970, and a detection of it before one of the first moment of 1970: the file is
not made of whole records. -/
theorem early_detection_left_open :
    let gate (seconds : Int) : Detection Float :=
      ⟨2, "gate", .forward, .ofParts seconds 0, 7, 0, 1, -2, 10, 20, 90, 0.8, 40⟩
    let ds := [gate (-1), gate 0]
    ((ds.map Item.detection).foldl publish empty).detectionChars ≠ wholeRecords ds := by
  intro gate ds whole
  rw [detectionChars_foldl_empty] at whole
  have since := (entries_eq_wholeRecords_iff ds).1 whole (gate (-1)) (List.mem_cons_self ..)
  exact absurd since (by decide)

end OutputFolder

end ObjectTracking
