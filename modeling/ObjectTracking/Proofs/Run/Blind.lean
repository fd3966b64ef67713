import ObjectTracking.Proofs.Grid.Passes
import ObjectTracking.Proofs.Run.Accounting

/-!
# What a class is besides its model

A class that is disabled does not look at a frame. Its tracks grow older as they would if its model
saw no object there, and the grid that it leaves as it is has no part in what it says later. So
what becomes of a class on a frame depends on what it goes by there (`ClassState.model`) and on what
it is besides its model, its grid and its switch (`ClassState.bare_next`), and so it is for a
pipeline (`Pipeline.bare_after`).
-/

namespace ObjectTracking

/-- The model that sees no object anywhere. -/
def Classifier.blind : Classifier := fun _ => .nothing

theorem SampleSet.get_classifyInto_blind (set : SampleSet) {grid : LabelGrid} (h : grid.Valid)
    (id : UInt8) (p : Point) : (set.classifyInto .blind grid).get p ≠ .sampled (.object id) := by
  unfold classifyInto
  rw [h.reset_eq_empty]
  refine List.foldlRecOn (motive := fun written : LabelGrid =>
    written.get p ≠ .sampled (.object id)) set.samples _ (by rw [LabelGrid.get_empty]; nofun) ?_
  intro written h sample _
  rw [LabelGrid.get_set]
  split
  · exact nofun
  · exact h

/-! ### One class -/

namespace ClassState
variable {α : Type} [Scalar α] (c : ClassState α)

def remodel (classify : Classifier) : ClassState α := { c with classify := classify }

/-- What a class is besides its model, its grid, and whether it is enabled. -/
def bare : ClassState α where
  settings := c.settings
  classify := .blind
  grid := .empty 0 0
  tracker := c.tracker
  flags := ⟨true, c.flags.publishMask⟩

/-- Changes the class if it has that name. -/
def alter (name : String) (change : ClassState α → ClassState α) : ClassState α :=
  if c.settings.name = name then change c else c

section
omit [Scalar α]

@[simp] theorem settings_remodel (classify : Classifier) :
    (c.remodel classify).settings = c.settings := rfl

@[simp] theorem settings_bare : c.bare.settings = c.settings := rfl

variable (name : String)

@[simp] theorem settings_alter_bare : (c.alter name bare).settings = c.settings := by
  unfold alter
  split <;> rfl

@[simp] theorem tracker_alter_bare : (c.alter name bare).tracker = c.tracker := by
  unfold alter
  split <;> rfl

@[simp] theorem settings_alter_remodel (classify : Classifier) :
    (c.alter name (·.remodel classify)).settings = c.settings := by
  unfold alter
  split <;> rfl

/-- The change of a switch is seen in what the class is besides, or not at all. -/
theorem alter_bare_switched (update : ClassUpdate) :
    (c.switched update).alter name bare =
      ((c.alter name bare).switched update).alter name bare := by
  by_cases named : c.settings.name = name
  · cases update <;> simp [alter, named, bare, switched, ClassUpdate.apply]
  · simp [alter, named]

end

/-- What a class goes by on a frame. -/
def model : Classifier := if c.flags.enabled then c.classify else .blind

variable (samples : SampleSet) (tunables : Tunables α) (number : Nat)

@[simp] theorem next_classify : (c.next samples tunables number).classify = c.classify := by
  simp only [next]
  split <;> rfl

/-- Two valid grids are as good as each other. -/
theorem run_of_valid (h : c.grid.Valid) {grid : LabelGrid} (h' : grid.Valid) :
    ({ c with grid := grid } : ClassState α).run samples tunables number =
      c.run samples tunables number := by
  simp only [run, samples.classifyInto_eq c.classify h, samples.classifyInto_eq c.classify h']

theorem run_remodel_bare (valid : c.grid.Valid) (enabled : c.flags.enabled = true) :
    (c.bare.remodel c.model).run samples tunables number = c.run samples tunables number := by
  rw [← c.run_of_valid samples tunables number valid (.empty 0 0), model, if_pos enabled]
  obtain ⟨settings, classify, grid, tracker, flags⟩ := c
  obtain ⟨on, publishMask⟩ := flags
  obtain rfl : on = true := enabled
  rfl

theorem progress_blind (valid : c.grid.Valid) :
    (c.remodel .blind).progress samples tunables number =
      ⟨c.tracker, ⟨c.settings.id, 0, 0, 0, 0⟩, []⟩ := by
  have nothing : ((c.remodel .blind).found samples tunables).2 = [] :=
    congrArg Prod.snd
      (LabelGrid.findBlobs_of_absent fun p _ =>
        samples.get_classifyInto_blind valid c.settings.id p)
  rw [progress, nothing]
  rfl

/-- A frame does to a class what its model does, which is blind while the class is disabled. -/
theorem bare_next (valid : c.grid.Valid) :
    (c.next samples tunables number).bare =
      ((c.bare.remodel c.model).next samples tunables number).bare := by
  have ran : (c.bare.remodel c.model).next samples tunables number =
      let ran := ((c.bare.remodel c.model).run samples tunables number).1
      { ran with tracker := ran.tracker.prune number } := rfl
  by_cases enabled : c.flags.enabled = true
  · rw [ran, c.run_remodel_bare samples tunables number valid enabled, next, if_pos enabled]
  · have blind : c.model = .blind := if_neg enabled
    rw [ran, blind, run_eq, c.bare.progress_blind samples tunables number (.empty 0 0), next,
      if_neg enabled]
    rfl

theorem outcome?_remodel_bare (valid : c.grid.Valid) (enabled : c.flags.enabled = true) :
    (c.bare.remodel c.model).outcome? samples tunables number =
      c.outcome? samples tunables number := by
  simp only [outcome?, c.run_remodel_bare samples tunables number valid enabled, enabled]
  rfl

section
variable {c} {name : String} {classify : Classifier} (valid : c.grid.Valid)
  (model_eq : c.settings.name = name → c.model = classify)

include valid model_eq

theorem alter_bare_next :
    (c.next samples tunables number).alter name bare =
      (((c.alter name bare).alter name (·.remodel classify)).next samples tunables number).alter
        name bare := by
  by_cases named : c.settings.name = name
  · simp only [alter, next_settings, settings_bare, settings_remodel, named, if_true]
    rw [c.bare_next samples tunables number valid, model_eq named]
  · simp only [alter, next_settings, named, if_false]

theorem outcome?_alter_bare (enabled : c.settings.name = name → c.flags.enabled = true) :
    ((c.alter name bare).alter name (·.remodel classify)).outcome? samples tunables number =
      c.outcome? samples tunables number := by
  by_cases named : c.settings.name = name
  · simp only [alter, settings_bare, named, if_true]
    rw [← model_eq named, c.outcome?_remodel_bare samples tunables number valid (enabled named)]
  · simp only [alter, named, if_false]

end

end ClassState

namespace Pipeline
variable {α : Type} [Scalar α] {p q : Pipeline α} {name : String}

/-! ### Changing one class -/

/-- The pipeline with the classes of that name changed. -/
def alter (p : Pipeline α) (name : String) (change : ClassState α → ClassState α) : Pipeline α :=
  { p with classes := p.classes.map (·.alter name change) }

def remodel (p : Pipeline α) (name : String) (classify : Classifier) : Pipeline α :=
  p.alter name (·.remodel classify)

def bare (p : Pipeline α) (name : String) : Pipeline α := p.alter name ClassState.bare

def without (p : Pipeline α) (name : String) : Pipeline α :=
  { p with classes := p.classes.filter (·.settings.name ≠ name) }

section
omit [Scalar α]

theorem settings_bare (p : Pipeline α) (name : String) : (p.bare name).settings = p.settings := by
  simp [settings, bare, alter]

theorem settings_eq_of_bare (same : p.bare name = q.bare name) : p.settings = q.settings := by
  rw [← p.settings_bare name, same, settings_bare]

theorem fixed_of_bare (same : p.bare name = q.bare name) :
    p.camera = q.camera ∧ p.tunables = q.tunables ∧ p.context = q.context := by
  simp only [bare, alter, mk.injEq] at same
  exact ⟨same.1, same.2.1, same.2.2.2⟩

theorem tracks?_bare (p : Pipeline α) (name : String) :
    (p.bare name).tracks? name = p.tracks? name := by
  simp [tracks?, class?, bare, alter, List.find?_map, Function.comp_def]

theorem without_bare (p : Pipeline α) (name : String) :
    (p.bare name).without name = p.without name := by
  simp only [without, bare, alter, List.filter_map, Function.comp_def,
    ClassState.settings_alter_bare]
  congr 1
  refine (List.map_congr_left fun c hc => ?_).trans (List.map_id _)
  exact if_neg (of_decide_eq_true (List.mem_filter.1 hc).2)

theorem bare_remodel (p : Pipeline α) (name : String) (classify : Classifier) :
    (p.remodel name classify).bare name = p.bare name := by
  simp only [remodel, bare, alter, List.map_map]
  congr 1
  refine List.map_congr_left fun c _ => ?_
  by_cases named : c.settings.name = name <;>
    simp [ClassState.alter, ClassState.remodel, ClassState.bare, named]

theorem map_modifyClass {change change' f : ClassState α → ClassState α}
    (names : ∀ c, (f c).settings.name = c.settings.name)
    (agree : ∀ c, c.settings.name = name → f (change c) = change' (f c))
    (classes : List (ClassState α)) :
    (modifyClass name change classes).map f = modifyClass name change' (classes.map f) := by
  induction classes with
  | nil => rfl
  | cons c rest ih =>
    simp only [modifyClass, List.map_cons, names]
    split
    · rename_i here
      rw [List.map_cons, agree c here]
    · rw [List.map_cons, ih]

theorem bare_switch (p : Pipeline α) (name className : String) (update : ClassUpdate) :
    (p.switch className update).bare name =
      { p.bare name with
        classes := modifyClass className (fun c => (c.switched update).alter name .bare)
          (p.bare name).classes } :=
  congrArg (Pipeline.mk p.camera p.tunables · p.context)
    (map_modifyClass (by simp) (fun c _ => c.alter_bare_switched name update) p.classes)

/-- Enabling the class again does not show in what it is besides. -/
theorem bare_switch_enabled (p : Pipeline α) (name : String) :
    (p.switch name (.enabled true)).bare name = p.bare name := by
  refine congrArg (Pipeline.mk p.camera p.tunables · p.context)
    (Eq.trans ?_ (modifyClass_id name (p.bare name).classes))
  refine map_modifyClass (by simp) (fun c named => ?_) p.classes
  simp [ClassState.alter, named, ClassState.switched, ClassState.bare, ClassUpdate.apply]

theorem enabled_switch (apart : p.settings.Pairwise ClassSettings.Apart) :
    ∀ c ∈ (p.switch name (.enabled true)).classes, c.settings.name = name →
      c.flags.enabled = true := by
  obtain ⟨camera, tunables, classes, context⟩ := p
  simp only [switch, settings] at apart ⊢
  induction classes with
  | nil => exact fun c hc => absurd hc List.not_mem_nil
  | cons first rest ih =>
    obtain ⟨new, apart⟩ := List.pairwise_cons.1 apart
    intro c hc named
    rw [modifyClass] at hc
    split at hc
    · rename_i here
      rcases List.mem_cons.1 hc with rfl | hc
      · rfl
      · -- no other class has the name
        exact absurd (here.trans named.symm) (new _ (List.mem_map_of_mem hc)).name_ne
    · rename_i other
      rcases List.mem_cons.1 hc with rfl | hc
      · exact absurd named other
      · exact ih apart c hc named

theorem bare_register (same : p.bare name = q.bare name) (settings : ClassSettings)
    (classify : Classifier) :
    (p.register settings classify).bare name = (q.register settings classify).bare name := by
  simp only [bare, alter, register, mk.injEq, List.map_append] at same ⊢
  obtain ⟨camera_eq, tunables_eq, classes_eq, context_eq⟩ := same
  exact ⟨camera_eq, tunables_eq, by rw [classes_eq, tunables_eq], context_eq⟩

end

/-- A class is registered or not, whatever the others are besides their settings. -/
theorem bare_step_add (same : p.bare name = q.bare name) (settings : ClassSettings)
    (classify : Classifier) :
    (p.step (.add settings classify)).1.bare name =
      (q.step (.add settings classify)).1.bare name := by
  simp only [step, stepWith, addClass_eq, (fixed_of_bare same).1, settings_eq_of_bare same]
  split_ifs
  · exact same
  · exact same
  · exact bare_register same settings classify

/-! ### What a frame does to all but the model, the grid and the switch -/

def Disables (p : Pipeline α) (name : String) : Prop :=
  ∃ c ∈ p.classes, c.settings.name = name ∧ c.flags.enabled = false

instance (p : Pipeline α) (name : String) : Decidable (p.Disables name) :=
  inferInstanceAs (Decidable (∃ c ∈ p.classes, _ ∧ _))

section
variable {classify : Classifier} (valid : p.GridsValid)
  (models : ∀ c ∈ p.classes, c.settings.name = name → c.model = classify)

include valid models

theorem bare_after (frame : Frame) :
    (p.after frame).bare name = (((p.bare name).remodel name classify).after frame).bare name := by
  refine congrArg (Pipeline.mk p.camera p.tunables · (p.after frame).context) ?_
  simp only [Pipeline.after, bare, remodel, alter, List.map_map]
  exact List.map_congr_left fun c hc =>
    ClassState.alter_bare_next (p.samplesOf frame) _ _ (valid c hc) (models c hc)

theorem outcomesOf_bare (on : ¬ p.Disables name) (frame : Frame) :
    ((p.bare name).remodel name classify).outcomesOf frame = p.outcomesOf frame := by
  simp only [outcomesOf, bare, remodel, alter, List.map_map, List.filterMap_map]
  refine List.filterMap_congr fun c hc => ?_
  exact ClassState.outcome?_alter_bare (p.samplesOf frame) _ _ (valid c hc) (models c hc)
    fun named => by simpa using fun disabled => on ⟨c, hc, named, disabled⟩

end

end Pipeline

end ObjectTracking
