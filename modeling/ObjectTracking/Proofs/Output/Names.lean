import Mathlib.Data.List.Dedup
import ObjectTracking.Output.Folder
import ObjectTracking.Proofs.Json.Numbers
import ObjectTracking.Proofs.Steps
import ObjectTracking.Settings.Basic

/-!
# The names of the picture files

The name of a picture tells which picture it is (`PictureKey.fileName_injective`): the number ends
at the first character that is no digit, and whatever the name of a class is, it stands between an
underscore and a fixed ending. So a folder has one file for each picture that was published, if it
can have a file of that name at all (`OutputFolder.Keeps`).
-/

namespace ObjectTracking

namespace FileName

/-- Nothing here ends a name or leads into a directory. -/
def Inseparable (text : List Char) : Prop := ∀ c ∈ text, c ≠ '/' ∧ c ≠ '\x00'

instance (text : List Char) : Decidable (Inseparable text) :=
  List.decidableBAll (fun c => c ≠ '/' ∧ c ≠ '\x00') text

theorem inseparable_cons {c : Char} {text : List Char} :
    Inseparable (c :: text) ↔ (c ≠ '/' ∧ c ≠ '\x00') ∧ Inseparable text :=
  List.forall_mem_cons

theorem inseparable_append {text text' : List Char} :
    Inseparable (text ++ text') ↔ Inseparable text ∧ Inseparable text' :=
  List.forall_mem_append

theorem isPlain_iff {name : String} : isPlain name = true ↔
    name ∉ ["", ".", ".."] ∧ Inseparable name.toList ∧ name.utf8ByteSize ≤ maxBytes := by
  simp [isPlain, Inseparable, and_assoc]

end FileName

/-! ### Camera and number -/

theorem Camera.name_append_inj {camera camera' : Camera} {rest rest' : List Char}
    (h : camera.name.toList ++ rest = camera'.name.toList ++ rest') :
    camera = camera' ∧ rest = rest' := by
  cases camera <;> cases camera' <;> simp_all [Camera.name]

/-- Digits end where something else begins. -/
theorem digits_append_inj {digits digits' rest rest' : List Char}
    (all : ∀ c ∈ digits, c.isDigit = true) (all' : ∀ c ∈ digits', c.isDigit = true)
    (stop : ∀ c ∈ rest.head?, c.isDigit = false) (stop' : ∀ c ∈ rest'.head?, c.isDigit = false)
    (h : digits ++ rest = digits' ++ rest') : digits = digits' ∧ rest = rest' := by
  have read := Json.takeDigits_append all stop
  rw [h, Json.takeDigits_append all' stop'] at read
  obtain rfl : rest' = rest := (Prod.mk.inj read).2
  exact ⟨List.append_cancel_right h, rfl⟩

namespace OutputName

theorem toList_number (frame : Nat) : (number frame).toList =
    List.replicate (6 - (Nat.toDigits 10 frame).length) '0' ++ Nat.toDigits 10 frame :=
  String.toList_ofList

theorem isDigit_number (frame : Nat) : ∀ c ∈ (number frame).toList, c.isDigit = true := by
  rw [toList_number]
  refine List.forall_mem_append.2 ⟨fun c hc => ?_, isDigit_toDigits frame⟩
  rw [List.eq_of_mem_replicate hc]
  rfl

/-- The zeros in front do not count. -/
theorem ofDigitChars_number (frame : Nat) :
    Nat.ofDigitChars 10 (number frame).toList 0 = frame := by
  rw [toList_number, Nat.ofDigitChars_append, Nat.ofDigitChars_replicate_zero]
  exact Nat.ofDigitChars_ten_toDigits

theorem number_inj {frame frame' : Nat} (h : (number frame).toList = (number frame').toList) :
    frame = frame' := by
  rw [← ofDigitChars_number frame, h, ofDigitChars_number]

end OutputName

/-! ### Pictures -/

/-- What tells one picture from another. -/
inductive PictureKey where
  | annotated (camera : Camera) (frame : Nat)
  | mask (camera : Camera) (className : String) (frame : Nat)
  deriving DecidableEq, Repr

namespace PictureKey
variable {p q : PictureKey}

def fileName : PictureKey → String
  | annotated camera frame => OutputName.annotated camera frame
  | mask camera className frame => OutputName.mask camera className frame

def camera : PictureKey → Camera
  | annotated camera _ | mask camera _ _ => camera

def frame : PictureKey → Nat
  | annotated _ frame | mask _ _ frame => frame

/-- The part of the name that is not chosen here. -/
def className : PictureKey → String
  | annotated .. => ""
  | mask _ className _ => className

/-- What follows the number. -/
def ending : PictureKey → List Char
  | annotated .. => ".png".toList
  | mask _ className _ => '_' :: (className.toList ++ "_mask.png".toList)

theorem toList_fileName (p : PictureKey) : p.fileName.toList =
    p.camera.name.toList ++ '_' :: ((OutputName.number p.frame).toList ++ p.ending) := by
  cases p <;>
    simp [fileName, OutputName.annotated, OutputName.mask, camera, frame, ending]

theorem ending_stops (p : PictureKey) : ∀ c ∈ p.ending.head?, c.isDigit = false := by
  cases p <;> rintro c ⟨⟩ <;> rfl

theorem eq_of_parts (camera_eq : p.camera = q.camera) (frame_eq : p.frame = q.frame)
    (ending_eq : p.ending = q.ending) : p = q := by
  cases p with
  | annotated camera frame =>
    cases q with
    | annotated camera' frame' =>
      obtain rfl : camera = camera' := camera_eq
      obtain rfl : frame = frame' := frame_eq
      rfl
    | mask camera' className' frame' => exact absurd (List.cons.inj ending_eq).1 (by decide)
  | mask camera className frame =>
    cases q with
    | annotated camera' frame' => exact absurd (List.cons.inj ending_eq).1 (by decide)
    | mask camera' className' frame' =>
      obtain rfl : camera = camera' := camera_eq
      obtain rfl : frame = frame' := frame_eq
      have name_eq : className.toList = className'.toList :=
        List.append_cancel_right (List.cons.inj ending_eq).2
      rw [String.toList_inj.1 name_eq]

theorem fileName_injective : Function.Injective fileName := by
  intro p q h
  -- both names are read from the front: the camera, the digits, and what is left
  have chars := congrArg String.toList h
  rw [toList_fileName, toList_fileName] at chars
  obtain ⟨camera_eq, chars⟩ := Camera.name_append_inj chars
  obtain ⟨digits_eq, ending_eq⟩ := digits_append_inj (OutputName.isDigit_number p.frame)
    (OutputName.isDigit_number q.frame) p.ending_stops q.ending_stops (List.cons.inj chars).2
  exact eq_of_parts camera_eq (OutputName.number_inj digits_eq) ending_eq

theorem fileName_ne_detections (p : PictureKey) : p.fileName ≠ OutputName.detections := by
  intro same
  have chars := congrArg String.toList same
  rw [toList_fileName] at chars
  cases hcamera : p.camera <;> simp [hcamera, Camera.name, OutputName.detections] at chars

theorem fileName_not_startsWith (p : PictureKey) : p.fileName.startsWith "/" = false := by
  refine String.startsWith_string_eq_false_iff.2 ?_
  rw [toList_fileName]
  cases p.camera <;> simp [Camera.name]

/-- The paths in a folder are as different as the names. -/
theorem path_injective (dir : String) :
    Function.Injective fun p : PictureKey => Settings.joinPath dir p.fileName := by
  intro p q h
  simp only [Settings.joinPath, fileName_not_startsWith, Bool.false_or] at h
  refine fileName_injective (String.toList_inj.1 ?_)
  have chars := congrArg String.toList h
  split at chars
  · exact chars
  · split at chars <;> simpa using chars

theorem inseparable_ending_iff (p : PictureKey) :
    FileName.Inseparable p.ending ↔ FileName.Inseparable p.className.toList := by
  cases p with
  | annotated camera frame =>
    have png : FileName.Inseparable ".png".toList := by decide
    have nothing : FileName.Inseparable "".toList := by decide
    exact iff_of_true png nothing
  | mask camera className frame =>
    have mark : FileName.Inseparable "_mask.png".toList := by decide
    rw [ending, FileName.inseparable_cons, FileName.inseparable_append, and_iff_right (by decide),
      and_iff_left mark, PictureKey.className]

theorem inseparable_fileName_iff (p : PictureKey) :
    FileName.Inseparable p.fileName.toList ↔ FileName.Inseparable p.className.toList := by
  have camera_whole : FileName.Inseparable p.camera.name.toList := by
    cases p.camera <;> decide
  have number_whole : FileName.Inseparable (OutputName.number p.frame).toList := by
    intro c hc
    have digit := OutputName.isDigit_number p.frame c hc
    constructor <;> rintro rfl <;> exact absurd digit (by decide)
  rw [toList_fileName, FileName.inseparable_append, FileName.inseparable_cons,
    FileName.inseparable_append, and_iff_right camera_whole, and_iff_right (by decide),
    and_iff_right number_whole, inseparable_ending_iff]

/-- Only the name of the class and the length can be in the way of a file. -/
theorem isPlain_fileName_iff (p : PictureKey) : FileName.isPlain p.fileName = true ↔
    FileName.Inseparable p.className.toList ∧ p.fileName.utf8ByteSize ≤ FileName.maxBytes := by
  have long : 2 < p.fileName.toList.length := by
    rw [toList_fileName]
    cases p.camera <;> simp [Camera.name]
  have named : p.fileName ∉ ["", ".", ".."] := by
    have short : ∀ name ∈ ["", ".", ".."], name.toList.length ≤ 2 := by decide
    exact fun same => Nat.not_lt.2 (short _ same) long
  rw [FileName.isPlain_iff, and_iff_right named, inseparable_fileName_iff]

end PictureKey

/-! ### The files of a folder -/

def Item.picture? {α : Type} : Item α → Option PictureKey
  | .mask camera className frame _ => some (.mask camera className frame)
  | .detection _ => none
  | .annotated camera frame _ => some (.annotated camera frame)

namespace OutputFolder
variable {folder : OutputFolder} {published : List PictureKey} {item : Item Float}

theorem publish_of_picture {p : PictureKey} (h : item.picture? = some p) :
    folder.publish item = folder.writePicture p.fileName := by
  cases item <;> cases h <;> rfl

theorem pictures_publish_of_none (folder : OutputFolder) (h : item.picture? = none) :
    (folder.publish item).pictures = folder.pictures := by
  cases item with
  | detection d => rfl
  | mask camera className frame image => cases h
  | annotated camera frame image => cases h

theorem mem_writePicture {name other : String} :
    other ∈ (folder.writePicture name).pictures ↔
      other ∈ folder.pictures ∨ FileName.isPlain name = true ∧ other = name := by
  unfold writePicture
  split
  · rename_i new
    simp only [Bool.and_eq_true] at new
    simp [new.1, or_comm]
  · rename_i old
    constructor
    · exact .inl
    · rintro (held | ⟨plain, rfl⟩)
      · exact held
      · simpa [plain] using old

theorem nodup_writePicture (h : folder.pictures.Nodup) (name : String) :
    (folder.writePicture name).pictures.Nodup := by
  unfold writePicture
  split
  · rename_i new
    simp only [Bool.and_eq_true] at new
    exact List.nodup_cons.2 ⟨by simpa using new.2, h⟩
  · exact h

/-- The folder has one file for each picture that was published and can have one. -/
structure Keeps (folder : OutputFolder) (published : List PictureKey) : Prop where
  nodup : folder.pictures.Nodup
  mem_iff : ∀ name, name ∈ folder.pictures ↔
    FileName.isPlain name = true ∧ name ∈ published.map PictureKey.fileName

namespace Keeps

theorem empty : OutputFolder.empty.Keeps [] := ⟨.nil, by simp [OutputFolder.empty]⟩

theorem publish (h : folder.Keeps published) (item : Item Float) :
    (folder.publish item).Keeps (published ++ item.picture?.toList) := by
  cases hpicture : item.picture? with
  | none =>
    have same := pictures_publish_of_none folder hpicture
    refine ⟨same ▸ h.nodup, fun name => ?_⟩
    rw [same, Option.toList_none, List.append_nil]
    exact h.mem_iff name
  | some p =>
    rw [publish_of_picture hpicture]
    refine ⟨nodup_writePicture h.nodup _, fun name => ?_⟩
    rw [mem_writePicture, h.mem_iff]
    rw [Option.toList_some, List.map_append, List.mem_append, List.map_singleton,
      List.mem_singleton, and_or_left]
    exact or_congr_right (and_congr_left fun same => by rw [same])

theorem publishAll (h : folder.Keeps published) (items : List (Item Float)) :
    (items.foldl OutputFolder.publish folder).Keeps
      (published ++ items.filterMap Item.picture?) := by
  induction items generalizing folder published with
  | nil => exact (List.append_nil published).symm ▸ h
  | cons item rest ih =>
    rw [filterMap_cons_toList, ← List.append_assoc]
    exact ih (h.publish item)

theorem mem_fileName_iff (h : folder.Keeps published) (p : PictureKey) :
    p.fileName ∈ folder.pictures ↔ FileName.isPlain p.fileName = true ∧ p ∈ published := by
  rw [h.mem_iff, List.mem_map_of_injective PictureKey.fileName_injective]

theorem pictures_perm (h : folder.Keeps published) : folder.pictures.Perm
    ((published.dedup.filter fun p => FileName.isPlain p.fileName).map PictureKey.fileName) := by
  have nodup := (published.nodup_dedup.filter fun p => FileName.isPlain p.fileName).map
    PictureKey.fileName_injective
  refine (List.perm_ext_iff_of_nodup h.nodup nodup).2 fun name => ?_
  rw [h.mem_iff]
  simp only [List.mem_map, List.mem_filter, List.mem_dedup]
  constructor
  · rintro ⟨plain, p, hp, rfl⟩
    exact ⟨p, ⟨hp, plain⟩, rfl⟩
  · rintro ⟨p, ⟨hp, plain⟩, rfl⟩
    exact ⟨plain, p, hp, rfl⟩

end Keeps

/-- The name of a picture file tells its kind, its camera, its frame number and, for a mask, the name
of its class, whatever that name and that number are, and so does its path in any folder. A picture
is without a file only if the name of its class has a separator in it or its own name is too long.
So whatever is published, every other picture has a file to itself: there is a file of its name only
if it was published before, and besides the file of detections, which no picture is named like,
there is one for each of the different pictures. -/
theorem one_file_for_each_picture :
    (Function.Injective PictureKey.fileName ∧
      ∀ dir, Function.Injective fun p : PictureKey => Settings.joinPath dir p.fileName) ∧
    (∀ p : PictureKey, FileName.isPlain p.fileName = true ↔
      FileName.Inseparable p.className.toList ∧ p.fileName.utf8ByteSize ≤ FileName.maxBytes) ∧
    ∀ items : List (Item Float),
      let folder := items.foldl publish empty
      let published := items.filterMap Item.picture?
      (∀ p : PictureKey, p.fileName ∈ folder.pictures ↔
        FileName.isPlain p.fileName = true ∧ p ∈ published) ∧
      folder.names.Nodup ∧
      folder.names.Perm (OutputName.detections ::
        (published.dedup.filter fun p => FileName.isPlain p.fileName).map PictureKey.fileName) := by
  refine ⟨⟨PictureKey.fileName_injective, PictureKey.path_injective⟩,
    PictureKey.isPlain_fileName_iff, fun items => ?_⟩
  intro folder published
  have keeps : folder.Keeps published := Keeps.empty.publishAll items
  have listed : folder.names.Perm (OutputName.detections :: folder.pictures) :=
    List.mergeSort_perm ..
  refine ⟨keeps.mem_fileName_iff, listed.nodup_iff.2 (List.nodup_cons.2 ⟨?_, keeps.nodup⟩),
    listed.trans (keeps.pictures_perm.cons _)⟩
  intro held
  obtain ⟨p, -, same⟩ := List.mem_map.1 ((keeps.mem_iff _).1 held).2
  exact p.fileName_ne_detections same

/-- A class may be named like the end of another name. -/
example : (PictureKey.mask .forward "2_mask" 1000000).fileName = "forward_1000000_2_mask_mask.png" ∧
    (PictureKey.mask .forward "" 7).fileName = "forward_000007__mask.png" := by
  decide +kernel

end OutputFolder

end ObjectTracking
