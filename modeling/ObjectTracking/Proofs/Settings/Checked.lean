import Mathlib.Tactic.Common
import ObjectTracking.Settings.Reader

/-!
# Checked settings

What is known of settings that were read: each class has a shape model and a confidence model that
exist (`ClassSettings.Sound`), and no two of them have a name or an id in common
(`ClassSettings.Apart`). The check lets exactly these through (`checkClasses_eq_ok_iff`).
-/

namespace ObjectTracking

/-! ### Checks one after the other -/

section
variable {ε : Type} {fault : ε} {first next : Except ε Unit}

theorem throw_if_eq_ok_iff {p : Prop} [Decidable p] :
    (do if p then throw fault
        next) = .ok () ↔ ¬ p ∧ next = .ok () := by
  by_cases h : p
  · simp [h, throw, throwThe, MonadExceptOf.throw, bind, Except.bind]
  · simp [h]

theorem seq_eq_ok_iff : (do first; next) = .ok () ↔ first = .ok () ∧ next = .ok () := by
  cases first with
  | error _ => exact iff_of_false nofun fun h => nomatch h.1
  | ok _ => exact ⟨fun h => ⟨rfl, h⟩, fun h => h.2⟩

end

/-! ### Classes -/

namespace ClassSettings
variable {c : ClassSettings}

/-- The class makes sense for itself. -/
structure Sound (c : ClassSettings) : Prop where
  named : isBlank c.name = false
  id_ne_zero : c.id ≠ 0
  shape_known : ∀ model, c.shapeModel ≠ .unknown model
  confidence_known : ∀ model, c.confidenceModel ≠ .unknown model
  maxBlobs_ne_zero : c.maxBlobs ≠ 0

/-- The classes have neither a name nor an id in common. -/
structure Apart (a b : ClassSettings) : Prop where
  name_ne : a.name ≠ b.name
  id_ne : a.id ≠ b.id

theorem Apart.symm {a b : ClassSettings} (h : a.Apart b) : b.Apart a :=
  ⟨h.name_ne.symm, h.id_ne.symm⟩

theorem sound_of_check (h : c.check = .ok ()) : c.Sound := by
  simp only [check, throw_if_eq_ok_iff] at h
  obtain ⟨named, id_ne_zero, h⟩ := h
  -- the models are looked at one after the other, and the number of blobs is looked at last
  split at h
  · cases h
  rename_i shape_known
  split at h
  · cases h
  rename_i confidence_known
  split at h
  · cases h
  rename_i maxBlobs_ne_zero
  exact ⟨eq_false_of_ne_true named, id_ne_zero, fun model same => shape_known model same,
    fun model same => confidence_known model same, maxBlobs_ne_zero⟩

theorem Sound.check (h : c.Sound) : c.check = .ok () := by
  obtain ⟨named, id_ne_zero, shape_known, confidence_known, maxBlobs_ne_zero⟩ := h
  cases shape : c.shapeModel with
  | unknown model => exact absurd shape (shape_known model)
  | rectangle =>
    cases confidence : c.confidenceModel with
    | unknown model => exact absurd confidence (confidence_known model)
    | _ =>
      simp [ClassSettings.check, named, id_ne_zero, shape, confidence, maxBlobs_ne_zero, pure,
        Except.pure]

theorem check_eq_ok_iff : c.check = .ok () ↔ c.Sound := ⟨sound_of_check, Sound.check⟩

end ClassSettings

/-- Classes are let through if each of them makes sense, and none has the name or the id of another
or one of those that are taken. -/
theorem checkClasses_eq_ok_iff {names : List String} {ids : List UInt8}
    {classes : List ClassSettings} :
    checkClasses names ids classes = .ok () ↔
      (∀ c ∈ classes, c.Sound) ∧ (∀ c ∈ classes, c.name ∉ names ∧ c.id ∉ ids) ∧
        classes.Pairwise ClassSettings.Apart := by
  induction classes generalizing names ids with
  | nil => simp [checkClasses]
  | cons c rest ih =>
    rw [List.forall_mem_cons, List.forall_mem_cons, List.pairwise_cons, checkClasses]
    simp only [seq_eq_ok_iff, throw_if_eq_ok_iff, ClassSettings.check_eq_ok_iff, ih,
      List.mem_cons, not_or]
    constructor
    · rintro ⟨sound, name_new, id_new, sounds, news, apart⟩
      refine ⟨⟨sound, sounds⟩, ⟨⟨name_new, id_new⟩, fun c' hc' => ?_⟩, fun c' hc' => ?_, apart⟩
      · exact ⟨(news c' hc').1.2, (news c' hc').2.2⟩
      · exact ⟨Ne.symm (news c' hc').1.1, Ne.symm (news c' hc').2.1⟩
    · rintro ⟨⟨sound, sounds⟩, ⟨⟨name_new, id_new⟩, news⟩, apart_head, apart⟩
      refine ⟨sound, name_new, id_new, sounds, fun c' hc' => ⟨⟨?_, (news c' hc').1⟩, ?_,
        (news c' hc').2⟩, apart⟩
      · exact (apart_head c' hc').name_ne.symm
      · exact (apart_head c' hc').id_ne.symm

namespace Settings
variable {settings : Settings}

/-- The settings have been read from a text or from a file. -/
def Read (settings : Settings) : Prop :=
  (∃ baseDir text, ofText baseDir text = .ok settings) ∨
    ∃ path content, load path content = .ok settings

theorem check_of_ofText {baseDir text : String} (h : ofText baseDir text = .ok settings) :
    settings.check = .ok () := by
  unfold ofText at h
  split at h
  · cases h
  · rename_i given _
    cases checked : given.check with
    | error fault =>
      rw [checked] at h
      cases h
    | ok _ =>
      rw [checked] at h
      exact Except.ok.inj h ▸ checked

theorem Read.check (h : settings.Read) : settings.check = .ok () := by
  rcases h with ⟨baseDir, text, h⟩ | ⟨path, content, h⟩
  · exact check_of_ofText h
  · cases content with
    | none => cases h
    | some text => exact check_of_ofText h

/-- All classes of settings that have been read make sense, and they are different. -/
theorem Read.classes (h : settings.Read) :
    (∀ c ∈ settings.classes, c.Sound) ∧ settings.classes.Pairwise ClassSettings.Apart := by
  obtain ⟨sounds, -, apart⟩ := checkClasses_eq_ok_iff.1 (seq_eq_ok_iff.1 h.check).2
  exact ⟨sounds, apart⟩

end Settings

end ObjectTracking
