import Mathlib.Data.List.Nodup
import Mathlib.Data.List.TakeWhile
import ObjectTracking.Recording

/-!
# What a folder lists

A folder is told in the order its entries happen to have, each name once. The recording in it does
not depend on that order: its files are the picture files, sorted by their names
(`Recording.pictureFiles_eq_of_perm`). Each file has its frame, or its fault, to itself.
-/

namespace ObjectTracking

namespace Entry
variable {name : String}

/-! ### Extensions -/

theorem extension?_eq_some_iff {extension : String} :
    extension? name = some extension ↔
      ∃ stem, stem ≠ "" ∧ name = stem ++ "." ++ extension ∧ '.' ∉ extension.toList := by
  constructor
  · intro h
    have parts := List.prefix_iff_eq_append.1
      (List.takeWhile_prefix (l := name.toList.reverse) (· ≠ '.'))
    simp only [extension?] at h
    set suffix := name.toList.reverse.takeWhile (· ≠ '.')
    have dotless : '.' ∉ suffix := fun h => by simpa using List.mem_takeWhile_imp h
    split at h
    · rename_i c rest found
      obtain rfl := Option.some.inj h
      refine ⟨String.ofList (c :: rest).reverse, ?_, ?_, by simpa using dotless⟩
      · simp
      · rw [found] at parts
        have chars := congrArg List.reverse parts
        simpa [String.ext_iff] using chars.symm
    · cases h
  · rintro ⟨stem, stem_ne, rfl, dotless⟩
    obtain ⟨c, rest, last⟩ : ∃ c rest, stem.toList.reverse = c :: rest :=
      List.exists_cons_of_ne_nil (by simpa using stem_ne)
    have chars : (stem ++ "." ++ extension).toList.reverse =
        extension.toList.reverse ++ '.' :: c :: rest := by
      simp [last]
    have suffix : (extension.toList.reverse ++ '.' :: c :: rest).takeWhile (· ≠ '.') =
        extension.toList.reverse := by
      rw [List.takeWhile_append_of_pos]
      · simp
      · intro d hd
        simpa using fun same : d = '.' => dotless (same ▸ List.mem_reverse.1 hd)
    simp only [extension?, chars, suffix, List.drop_left, List.reverse_reverse, String.ofList_toList]

/-- A name that is a dot and letters only is no more than a stem. -/
theorem extension?_dot_append {letters : String} (dotless : '.' ∉ letters.toList) :
    extension? ("." ++ letters) = none := by
  by_contra some_extension
  obtain ⟨extension, found⟩ := Option.ne_none_iff_exists'.1 some_extension
  obtain ⟨stem, stem_ne, name_eq, -⟩ := extension?_eq_some_iff.1 found
  obtain ⟨c, rest, chars⟩ : ∃ c rest, stem.toList = c :: rest :=
    List.exists_cons_of_ne_nil (by simpa using stem_ne)
  have same : letters.toList = rest ++ '.' :: extension.toList := by
    simpa [chars] using (congrArg (List.tail ∘ String.toList) name_eq)
  exact dotless (by simp [same])

theorem dotless_of_picture {extension : String}
    (h : toLowerAscii extension ∈ pictureExtensions) : '.' ∉ extension.toList := by
  intro dot
  have dot : '.' ∈ (toLowerAscii extension).toList := by
    rw [toLowerAscii, String.toList_ofList]
    exact List.mem_map.2 ⟨'.', dot, rfl⟩
  have dotless : ∀ e ∈ pictureExtensions, '.' ∉ e.toList := by decide
  exact dotless _ h dot

/-- The name of a picture file is a stem, a dot, and one of the extensions. -/
theorem hasPictureName_iff :
    hasPictureName name = true ↔
      ∃ stem extension, stem ≠ "" ∧ name = stem ++ "." ++ extension ∧
        toLowerAscii extension ∈ pictureExtensions := by
  constructor
  · intro h
    simp only [hasPictureName] at h
    split at h
    · rename_i extension found
      obtain ⟨stem, stem_ne, name_eq, -⟩ := extension?_eq_some_iff.1 found
      exact ⟨stem, extension, stem_ne, name_eq, List.contains_iff_mem.1 h⟩
    · cases h
  · rintro ⟨stem, extension, stem_ne, name_eq, picture⟩
    have found : extension? name = some extension :=
      extension?_eq_some_iff.2 ⟨stem, stem_ne, name_eq, dotless_of_picture picture⟩
    rw [hasPictureName, found]
    exact List.contains_iff_mem.2 picture

/-- The entry as it is with other content. -/
def holding (content : EntryContent) (entry : Entry) : Entry := { entry with content := content }

/-- The entry after the one of that name was given other content. -/
def overwritten (name : String) (content : EntryContent) (entry : Entry) : Entry :=
  if entry.name = name then entry.holding content else entry

@[simp] theorem name_overwritten (content : EntryContent) (entry : Entry) :
    (entry.overwritten name content).name = entry.name := by
  unfold overwritten
  split <;> rfl

theorem isFile_eq_true_iff {entry : Entry} : entry.isFile = true ↔ entry.content ≠ .folder := by
  unfold isFile
  split <;> simp_all

end Entry

namespace Recording
variable {camera : Camera} {path : String} {entries entries' : List Entry} {recording : Recording}

/-! ### The files of a recording -/

/-- The picture files among the entries of a folder, sorted by their names. -/
def pictureFiles (entries : List Entry) : List Entry :=
  (entries.filter Entry.isFrame).mergeSort fun a b => a.name ≤ b.name

theorem ofFolder_some (camera : Camera) (path : String) (entries : List Entry) :
    ofFolder camera path (some entries) = .ok ⟨camera, pictureFiles entries⟩ := rfl

theorem mem_pictureFiles {entry : Entry} :
    entry ∈ pictureFiles entries ↔ entry ∈ entries ∧ entry.isFrame = true := by
  rw [pictureFiles, List.mem_mergeSort, List.mem_filter]

theorem pairwise_pictureFiles (distinct : (entries.map (·.name)).Nodup) :
    (pictureFiles entries).Pairwise (·.name < ·.name) := by
  have trans : ∀ a b c : Entry, decide (a.name ≤ b.name) = true → decide (b.name ≤ c.name) = true →
      decide (a.name ≤ c.name) = true := fun a b c ab bc =>
    decide_eq_true (String.le_trans (of_decide_eq_true ab) (of_decide_eq_true bc))
  have total : ∀ a b : Entry, (decide (a.name ≤ b.name) || decide (b.name ≤ a.name)) = true :=
    fun a b => by simp [String.le_total]
  have sorted := List.pairwise_mergeSort trans total (entries.filter Entry.isFrame)
  have names : ((pictureFiles entries).map (·.name)).Nodup :=
    (((List.mergeSort_perm ..).map _).nodup_iff).2 (distinct.sublist (List.filter_sublist.map _))
  refine (sorted.and (List.pairwise_map.1 names)).imp fun ⟨le, ne⟩ => ?_
  exact String.not_le.1 fun ge => ne (String.le_antisymm (of_decide_eq_true le) ge)

/-- In whichever order the entries are told, the files are the same. -/
theorem pictureFiles_eq_of_perm (distinct : (entries.map (·.name)).Nodup)
    (same : entries'.Perm entries) : pictureFiles entries' = pictureFiles entries := by
  have distinct' : (entries'.map (·.name)).Nodup := (same.map _).nodup_iff.2 distinct
  have perm : (pictureFiles entries').Perm (pictureFiles entries) :=
    ((List.mergeSort_perm ..).trans (same.filter _)).trans (List.mergeSort_perm ..).symm
  refine perm.eq_of_pairwise (fun a b _ _ lt gt => ?_) (pairwise_pictureFiles distinct')
    (pairwise_pictureFiles distinct)
  exact absurd (String.lt_trans lt gt) (String.lt_irrefl _)

/-- What changes neither a name nor whether an entry is a picture file changes the files one by one.
-/
theorem pictureFiles_map {change : Entry → Entry} (names : ∀ e, (change e).name = e.name)
    (frames : ∀ e ∈ entries, (change e).isFrame = e.isFrame) :
    pictureFiles (entries.map change) = (pictureFiles entries).map change := by
  have filtered : (entries.map change).filter Entry.isFrame =
      (entries.filter Entry.isFrame).map change := by
    rw [List.filter_map]
    congr 1
    exact List.filter_congr frames
  rw [pictureFiles, filtered, pictureFiles]
  exact (List.map_mergeSort fun a _ b _ => by rw [names, names]).symm

/-! ### The frames of a recording -/

theorem frames_eq_load (recording : Recording) :
    recording.frames = (List.range recording.size).map recording.load := by
  refine List.ext_getElem (by simp [frames, size]) fun i hi _ => ?_
  have listed : i < recording.files.length := by simpa [frames] using hi
  simp [frames, load, listed]

theorem load_malformed_iff (recording : Recording) (index : Nat) :
    (∃ cause, recording.load index = .error (.malformedFrame cause)) ↔ recording.size ≤ index := by
  rw [load, size, ← List.getElem?_eq_none_iff]
  cases recording.files[index]? with
  | none => exact ⟨fun _ => rfl, fun _ => ⟨_, rfl⟩⟩
  | some entry =>
    refine ⟨?_, nofun⟩
    rintro ⟨cause, h⟩
    simp only [frameOf] at h
    split at h <;> cases h

/-- Whatever a file is changed to hold is seen in its own place. -/
theorem map_overwritten_frames (sorted : recording.files.Pairwise (·.name < ·.name)) {index : Nat}
    {entry : Entry} (listed : recording.files[index]? = some entry) (content : EntryContent) :
    (recording.files.map (Entry.overwritten entry.name content)).map recording.frameOf =
      recording.frames.set index (recording.frameOf (entry.holding content)) := by
  refine List.ext_getElem? fun i => ?_
  rw [List.getElem?_set, List.map_map, List.getElem?_map, frames, List.getElem?_map,
    List.length_map]
  obtain ⟨index_lt, rfl⟩ := List.getElem?_eq_some_iff.1 listed
  by_cases here : index = i
  · subst here
    simp [index_lt, Entry.overwritten]
  · rw [if_neg here]
    cases other : recording.files[i]? with
    | none => rfl
    | some e =>
      obtain ⟨i_lt, rfl⟩ := List.getElem?_eq_some_iff.1 other
      have name_ne : recording.files[i].name ≠ recording.files[index].name := by
        rcases Nat.lt_or_gt_of_ne here with lt | gt
        · exact (String.ne_of_lt (List.pairwise_iff_getElem.1 sorted _ _ _ _ lt)).symm
        · exact String.ne_of_lt (List.pairwise_iff_getElem.1 sorted _ _ _ _ gt)
      simp [Entry.overwritten, name_ne]

theorem pictureFiles_overwritten (distinct : (entries.map (·.name)).Nodup) {entry : Entry}
    (listed : entry ∈ pictureFiles entries) {content : EntryContent} (file : content ≠ .folder) :
    pictureFiles (entries.map (Entry.overwritten entry.name content)) =
      (pictureFiles entries).map (Entry.overwritten entry.name content) := by
  obtain ⟨present, frame⟩ := mem_pictureFiles.1 listed
  refine pictureFiles_map (fun e => e.name_overwritten content) fun e he => ?_
  by_cases named : e.name = entry.name
  · obtain rfl := List.inj_on_of_nodup_map distinct he present named
    rw [Entry.isFrame, Bool.and_eq_true] at frame
    rw [Entry.overwritten, if_pos rfl, Entry.isFrame, Entry.isFrame, frame.1,
      Entry.isFile_eq_true_iff.2 (show (e.holding content).content ≠ .folder from file)]
    rfl
  · rw [Entry.overwritten, if_neg named]

/-- A folder, in whichever order its entries are told, lists exactly its picture files, each once and
sorted by their names. There is one frame for each of them, in that order: the picture that the file
holds, or a fault if it holds none, whatever the other files hold. Frames are missing from the end of
the list on. -/
theorem ofFolder_lists (camera : Camera) (path : String) {entries : List Entry}
    (distinct : (entries.map (·.name)).Nodup) :
    ∃ recording, ofFolder camera path (some entries) = .ok recording ∧
      (∀ entries', entries'.Perm entries → ofFolder camera path (some entries') = .ok recording) ∧
      (∀ entry, entry ∈ recording.files ↔ entry ∈ entries ∧ entry.content ≠ .folder ∧
        ∃ stem extension, stem ≠ "" ∧ entry.name = stem ++ "." ++ extension ∧
          Entry.toLowerAscii extension ∈ ["png", "jpg", "jpeg", "bmp"]) ∧
      (∀ letters, '.' ∉ letters.toList → Entry.extension? ("." ++ letters) = none) ∧
      recording.files.Pairwise (·.name < ·.name) ∧
      recording.frames = (List.range recording.size).map recording.load ∧
      (∀ index entry, recording.files[index]? = some entry →
        (∀ image, entry.content = .picture image →
          recording.load index = .ok ⟨camera, entry.modified, image⟩) ∧
        (entry.content = .junk → recording.load index = .error .image) ∧
        ∀ content, content ≠ .folder → ∃ recording',
          ofFolder camera path (some (entries.map (Entry.overwritten entry.name content))) =
            .ok recording' ∧
          recording'.frames =
            recording.frames.set index (recording.frameOf (entry.holding content))) ∧
      ∀ index, (∃ cause, recording.load index = .error (.malformedFrame cause)) ↔
        recording.size ≤ index := by
  set recording : Recording := ⟨camera, pictureFiles entries⟩
  have sorted : recording.files.Pairwise (·.name < ·.name) := pairwise_pictureFiles distinct
  refine ⟨recording, rfl, fun entries' same => ?order, fun entry => ?exactly,
    fun _ => Entry.extension?_dot_append, sorted, recording.frames_eq_load,
    fun index entry listed => ⟨fun image held => ?picture, fun held => ?junk,
      fun content file => ?changed⟩, recording.load_malformed_iff⟩
  case order => rw [ofFolder_some, pictureFiles_eq_of_perm distinct same]
  case exactly =>
    rw [mem_pictureFiles, Entry.isFrame, Bool.and_eq_true, Entry.isFile_eq_true_iff,
      Entry.hasPictureName_iff]
    rfl
  case picture => simp only [load, listed, frameOf, held, recording]
  case junk => simp only [load, listed, frameOf, held]
  case changed =>
    have files_eq := pictureFiles_overwritten distinct (List.mem_of_getElem? listed) file
    refine ⟨_, ofFolder_some .., ?_⟩
    rw [← map_overwritten_frames sorted listed, frames, files_eq]
    rfl

/-- Two of five entries are listed, told forward or backward. One of them holds no picture. -/
theorem ofFolder_lists_two_of_five :
    let picture : EntryContent := .picture (.filled 1 1 ⟨0, 0, 0⟩)
    let entries : List Entry := [⟨"b.PNG", .epoch, picture⟩, ⟨".png", .epoch, picture⟩,
      ⟨"a.b.jpeg", .epoch, .junk⟩, ⟨"notes.", .epoch, picture⟩, ⟨"c.bmp", .epoch, .folder⟩]
    (entries.map (·.name)).Nodup ∧
      ∃ recording, ofFolder .forward "frames" (some entries) = .ok recording ∧
        ofFolder .forward "frames" (some entries.reverse) = .ok recording ∧
        recording.files.map (·.name) = ["a.b.jpeg", "b.PNG"] ∧
        recording.load 0 = .error .image ∧
        ∃ cause, recording.load 2 = .error (.malformedFrame cause) := by
  intro picture entries
  have distinct : (entries.map (·.name)).Nodup := by decide
  obtain ⟨recording, opened, order, -, -, -, -, each, missing⟩ :=
    ofFolder_lists .forward "frames" distinct
  obtain rfl : (⟨.forward, pictureFiles entries⟩ : Recording) = recording := Except.ok.inj opened
  have files : pictureFiles entries =
      [⟨"a.b.jpeg", .epoch, .junk⟩, ⟨"b.PNG", .epoch, picture⟩] := by
    have frames : entries.filter Entry.isFrame =
        [⟨"b.PNG", .epoch, picture⟩, ⟨"a.b.jpeg", .epoch, .junk⟩] := by
      have named : ["b.PNG", ".png", "a.b.jpeg", "notes.", "c.bmp"].map Entry.hasPictureName =
        [true, false, true, false, true] := by decide
      simp only [List.map_cons, List.cons.injEq] at named
      simp [entries, picture, Entry.isFrame, Entry.isFile, named]
    rw [pictureFiles, frames]
    have lt : ¬ "b.PNG" ≤ "a.b.jpeg" := by decide
    simp [List.mergeSort, lt]
  refine ⟨distinct, _, opened, order _ entries.reverse_perm, by rw [files]; rfl, ?_,
    (missing 2).2 (by simp [size, files])⟩
  exact (each 0 _ (by rw [files]; rfl)).2.1 rfl

end Recording

end ObjectTracking
