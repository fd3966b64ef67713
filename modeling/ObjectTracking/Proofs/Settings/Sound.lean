import Mathlib.Tactic.Common
import ObjectTracking.Proofs.Settings.Checked

/-!
# Sound settings

Settings are sound (`Settings.Sound`) if their numbers lie where they should, each class makes sense
for itself, and no two classes have a name or an id in common. The check goes through the classes
once and stops at the first fault, but what it lets through does not depend on their order: it is
exactly the sound settings (`Settings.check_eq_ok_iff`).
-/

namespace ObjectTracking

/-! ### Numbers -/

namespace Double

open Float.Model (UnpackedFloat)

variable {x : Float}

theorem lt_zero_iff : x < 0 ↔ x.toModel.unpack.compare (.zero .positive) = some .lt := by
  show Float.lt x 0 = true ↔ _
  rw [Float.lt, decide_eq_true_eq]
  exact beq_iff_eq

theorem zero_le_iff :
    0 ≤ x ↔ (UnpackedFloat.compare (.zero .positive) x.toModel.unpack).any (·.isLE) = true := by
  show Float.le 0 x = true ↔ _
  rw [Float.le, decide_eq_true_eq]
  rfl

/-- A number that is not below zero is at least zero, if it is one. -/
theorem not_lt_zero_iff (h : x.isFinite = true) : ¬ x < 0 ↔ 0 ≤ x := by
  rw [lt_zero_iff, zero_le_iff]
  change x.toModel.unpack.isFinite = true at h
  generalize x.toModel.unpack = u at h
  cases u with
  | infinity s => cases h
  | notANumber => cases h
  | zero s => exact iff_of_true nofun rfl
  | finite s m e hm =>
    cases s with
    | positive => exact iff_of_true nofun rfl
    | negative => exact iff_of_false (fun h => h rfl) nofun

theorem isNaN_eq_false_of_zero_le (h : 0 ≤ x) : x.isNaN = false := by
  rw [zero_le_iff] at h
  show x.toModel.unpack.isNaN = false
  generalize x.toModel.unpack = u at h ⊢
  cases u with
  | notANumber => cases h
  | _ => rfl

/-- The number is one, and lies between zero and one. -/
structure IsShare (x : Float) : Prop where
  isNaN_eq : x.isNaN = false
  nonneg : 0 ≤ x
  le_one : x ≤ 1

end Double

theorem checkConfidenceLimit_eq_ok_iff {field : String} {value : Float} :
    checkConfidenceLimit field value = .ok () ↔ Double.IsShare value := by
  unfold checkConfidenceLimit
  split
  · rename_i limits
    exact iff_of_true rfl ⟨Double.isNaN_eq_false_of_zero_le limits.1, limits.1, limits.2⟩
  · rename_i limits
    exact iff_of_false nofun fun share => limits ⟨share.nonneg, share.le_one⟩

namespace Tunables
variable {tunables : Tunables Float}

/-- The numbers lie where they should. -/
structure Sound (tunables : Tunables Float) : Prop where
  stride_pos : 1 ≤ tunables.stride
  streak_pos : 1 ≤ tunables.confirmationStreak
  tolerance_finite : tunables.distanceTolerance.isFinite = true
  tolerance_nonneg : 0 ≤ tunables.distanceTolerance
  confidence : Double.IsShare tunables.minConfidence
  confidenceElongated : Double.IsShare tunables.minConfidenceElongated

theorem check_eq_ok_iff : tunables.check = .ok () ↔ tunables.Sound := by
  simp only [check, throw_if_eq_ok_iff, seq_eq_ok_iff, checkConfidenceLimit_eq_ok_iff,
    Bool.or_eq_true, Bool.not_eq_true', decide_eq_true_eq, not_or, Bool.not_eq_false]
  constructor
  · rintro ⟨stride, streak, ⟨finite, tolerance⟩, confidence, elongated⟩
    exact ⟨by omega, by omega, finite, (Double.not_lt_zero_iff finite).1 tolerance, confidence,
      elongated⟩
  · rintro ⟨stride, streak, finite, tolerance, confidence, elongated⟩
    exact ⟨by omega, by omega, ⟨finite, (Double.not_lt_zero_iff finite).2 tolerance⟩, confidence,
      elongated⟩

end Tunables

/-! ### Classes -/

theorem isBlank_eq_false_iff {text : String} :
    isBlank text = false ↔ ∃ c ∈ text.toList, isBlankChar c = false := by
  simp [isBlank]

namespace ClassSettings

theorem sound_iff {c : ClassSettings} :
    c.Sound ↔ (∃ char ∈ c.name.toList, isBlankChar char = false) ∧ c.id ≠ 0 ∧
      c.shapeModel = .rectangle ∧
      (c.confidenceModel = .rectangle ∨ c.confidenceModel = .circle) ∧ 1 ≤ c.maxBlobs := by
  have shape : (∀ model, c.shapeModel ≠ .unknown model) ↔ c.shapeModel = .rectangle := by
    cases c.shapeModel <;> simp
  have confidence : (∀ model, c.confidenceModel ≠ .unknown model) ↔
      c.confidenceModel = .rectangle ∨ c.confidenceModel = .circle := by
    cases c.confidenceModel <;> simp
  rw [← isBlank_eq_false_iff, ← shape, ← confidence, Nat.one_le_iff_ne_zero]
  exact ⟨fun ⟨named, id, shape, confidence, blobs⟩ => ⟨named, id, shape, confidence, blobs⟩,
    fun ⟨named, id, shape, confidence, blobs⟩ => ⟨named, id, shape, confidence, blobs⟩⟩

theorem pairwise_apart_iff {classes : List ClassSettings} :
    classes.Pairwise Apart ↔ (classes.map (·.name)).Nodup ∧ (classes.map (·.id)).Nodup := by
  rw [List.Nodup, List.pairwise_map, List.Nodup, List.pairwise_map, ← List.pairwise_and_iff]
  exact ⟨fun h => h.imp fun apart => ⟨apart.name_ne, apart.id_ne⟩,
    fun h => h.imp fun ⟨name_ne, id_ne⟩ => ⟨name_ne, id_ne⟩⟩

end ClassSettings

/-- What the first classes take is taken for the others. -/
theorem checkClasses_append (names : List String) (ids : List UInt8)
    (first rest : List ClassSettings) :
    checkClasses names ids (first ++ rest) =
      (checkClasses names ids first).bind fun _ =>
        checkClasses ((first.map (·.name)).reverse ++ names) ((first.map (·.id)).reverse ++ ids)
          rest := by
  induction first generalizing names ids with
  | nil => rfl
  | cons c first ih =>
    simp only [List.cons_append, checkClasses, ih, List.map_cons, List.reverse_cons,
      List.append_assoc]
    cases c.check with
    | error _ => rfl
    | ok _ =>
      by_cases name : c.name ∈ names
      · simp only [if_pos name]
        rfl
      · by_cases id : c.id ∈ ids
        · simp only [if_neg name, if_pos id]
          rfl
        · simp only [if_neg name, if_neg id]
          rfl

namespace Settings

/-- All that is asked of settings, in no order. -/
structure Sound (settings : Settings) : Prop where
  tunables : settings.tunables.Sound
  named : ∀ c ∈ settings.classes, ∃ char ∈ c.name.toList, isBlankChar char = false
  id_ne_zero : ∀ c ∈ settings.classes, c.id ≠ 0
  shape : ∀ c ∈ settings.classes, c.shapeModel = .rectangle
  confidence : ∀ c ∈ settings.classes,
    c.confidenceModel = .rectangle ∨ c.confidenceModel = .circle
  maxBlobs_pos : ∀ c ∈ settings.classes, 1 ≤ c.maxBlobs
  names_nodup : (settings.classes.map (·.name)).Nodup
  ids_nodup : (settings.classes.map (·.id)).Nodup

variable {settings : Settings}

theorem check_eq_ok_iff : settings.check = .ok () ↔ settings.Sound := by
  rw [check, seq_eq_ok_iff, Tunables.check_eq_ok_iff, checkClasses_eq_ok_iff,
    ClassSettings.pairwise_apart_iff]
  simp only [ClassSettings.sound_iff, List.not_mem_nil, not_false_iff, and_self, implies_true,
    true_and]
  constructor
  · rintro ⟨tunables, classes, names, ids⟩
    exact ⟨tunables, fun c hc => (classes c hc).1, fun c hc => (classes c hc).2.1,
      fun c hc => (classes c hc).2.2.1, fun c hc => (classes c hc).2.2.2.1,
      fun c hc => (classes c hc).2.2.2.2, names, ids⟩
  · rintro ⟨tunables, named, id_ne_zero, shape, confidence, maxBlobs_pos, names, ids⟩
    exact ⟨tunables, fun c hc => ⟨named c hc, id_ne_zero c hc, shape c hc, confidence c hc,
      maxBlobs_pos c hc⟩, names, ids⟩

/-- The order of the classes is no matter. -/
theorem Sound.perm (h : settings.Sound) {classes : List ClassSettings}
    (same : classes.Perm settings.classes) : Sound { settings with classes } where
  tunables := h.tunables
  named c hc := h.named c (same.mem_iff.1 hc)
  id_ne_zero c hc := h.id_ne_zero c (same.mem_iff.1 hc)
  shape c hc := h.shape c (same.mem_iff.1 hc)
  confidence c hc := h.confidence c (same.mem_iff.1 hc)
  maxBlobs_pos c hc := h.maxBlobs_pos c (same.mem_iff.1 hc)
  names_nodup := (same.map _).nodup_iff.2 h.names_nodup
  ids_nodup := (same.map _).nodup_iff.2 h.ids_nodup

theorem check_of_tunables (h : settings.tunables.Sound) :
    settings.check = checkClasses [] [] settings.classes := by
  rw [check, Tunables.check_eq_ok_iff.2 h]
  rfl

/-- What was refused is refused for the same reason, whichever classes are appended. -/
theorem check_append {fault : SettingsFault} (h : settings.check = .error fault)
    (more : List ClassSettings) :
    check { settings with classes := settings.classes ++ more } = .error fault := by
  simp only [check, checkClasses_append] at h ⊢
  cases numbers : settings.tunables.check with
  | error _ =>
    rw [numbers] at h
    exact h
  | ok _ =>
    rw [numbers] at h
    replace h : checkClasses [] [] settings.classes = .error fault := h
    rw [h]
    rfl

/-- Exactly the sound settings are let through, whatever they describe. So the order of the classes
is no matter, and settings that are refused are refused for the same reason when classes are
appended. -/
theorem check_exact (settings : Settings) :
    (settings.check = .ok () ↔ settings.Sound) ∧
    (∀ classes, classes.Perm settings.classes →
      (check { settings with classes } = .ok () ↔ settings.check = .ok ())) ∧
    ∀ fault more, settings.check = .error fault →
      check { settings with classes := settings.classes ++ more } = .error fault := by
  refine ⟨check_eq_ok_iff, fun classes same => ?order, fun fault more h => check_append h more⟩
  case order =>
    rw [check_eq_ok_iff, check_eq_ok_iff]
    exact ⟨fun h => h.perm same.symm, fun h => h.perm same⟩

/-- Two classes are let through in either order. With one more that has the id of another, for
another camera, they are refused, and so they are with a fourth behind it. -/
theorem check_exact_shared_id :
    let gate : ClassSettings := .usual "gate" 1 .forward "gate.json"
    let buoy : ClassSettings := .usual "buoy" 2 .downward "buoy.json"
    let slalom : ClassSettings := .usual "slalom" 1 .downward "slalom.json"
    let bin : ClassSettings := .usual "bin" 4 .downward "bin.json"
    let given (classes : List ClassSettings) : Settings := ⟨.usual 20, classes, none, "."⟩
    (given [gate, buoy]).check = .ok () ∧ (given [buoy, gate]).check = .ok () ∧
      (given [gate, buoy, slalom]).check = .error (.duplicateId 1 "slalom") ∧
      (given ([gate, buoy, slalom] ++ [bin])).check = .error (.duplicateId 1 "slalom") := by
  intro gate buoy slalom bin given
  have numbers : (Tunables.usual (20 : Float)).Sound :=
    ⟨by decide, by decide, by decide +kernel, by decide +kernel,
      ⟨by decide +kernel, by decide +kernel, by decide +kernel⟩,
      ⟨by decide +kernel, by decide +kernel, by decide +kernel⟩⟩
  have named : ∀ c ∈ [gate, buoy], isBlank c.name = false := by decide
  have sound : (given [gate, buoy]).Sound :=
    ⟨numbers, fun c hc => isBlank_eq_false_iff.1 (named c hc), by decide, by decide, by decide,
      by decide, by decide, by decide⟩
  obtain ⟨exact_here, reordered, -⟩ := check_exact (given [gate, buoy])
  have accepted := exact_here.2 sound
  have refused : (given [gate, buoy, slalom]).check = .error (.duplicateId 1 "slalom") := by
    rw [check_of_tunables numbers]
    cbv
  exact ⟨accepted, (reordered [buoy, gate] (.swap ..)).2 accepted, refused,
    (check_exact (given [gate, buoy, slalom])).2.2 _ [bin] refused⟩

end Settings

end ObjectTracking
