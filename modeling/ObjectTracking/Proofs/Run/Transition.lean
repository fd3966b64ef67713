import ObjectTracking.Proofs.Run.Basic

/-!
# What an action does to a pipeline

An action registers a class, changes the switches of one, has all of them see a frame, or is refused
and does nothing (`Pipeline.Transition`). So classes come, but do not go, and keep their settings
(`settings_step`).
-/

namespace ObjectTracking

namespace Pipeline
variable {α : Type} [Scalar α]

omit [Scalar α] in
/-- A class is changed as what it is, whether looked up before or not. -/
theorem modifyClass_switched {classes : List (ClassState α)} {name : String} {c : ClassState α}
    (found : classes.find? (·.settings.name = name) = some c) (update : ClassUpdate) :
    modifyClass name (fun c' => { c' with flags := update.apply c.flags }) classes =
      modifyClass name (·.switched update) classes := by
  induction classes with
  | nil => cases found
  | cons first rest ih =>
    simp only [modifyClass]
    by_cases here : first.settings.name = name
    · obtain rfl : first = c := by simpa [here] using found
      simp [here, ClassState.switched]
    · simp only [here, if_false]
      rw [ih (by simpa [here] using found)]

omit [Scalar α] in
theorem mem_modifyClass {classes : List (ClassState α)} {name : String} {c : ClassState α}
    {change : ClassState α → ClassState α}
    (h : c ∈ modifyClass name change classes) : c ∈ classes ∨ ∃ c' ∈ classes, c = change c' := by
  induction classes with
  | nil => cases h
  | cons first rest ih =>
    simp only [modifyClass] at h
    split at h
    · rcases List.mem_cons.1 h with rfl | h
      · exact .inr ⟨first, by simp, rfl⟩
      · exact .inl (List.mem_cons_of_mem _ h)
    · rcases List.mem_cons.1 h with rfl | h
      · exact .inl (by simp)
      · rcases ih h with h | ⟨c', hc', heq⟩
        · exact .inl (List.mem_cons_of_mem _ h)
        · exact .inr ⟨c', List.mem_cons_of_mem _ hc', heq⟩

omit [Scalar α] in
theorem mem_modifyClass_of_mem {classes : List (ClassState α)} {name : String} {c : ClassState α}
    {change : ClassState α → ClassState α} (h : c ∈ classes) :
    c ∈ modifyClass name change classes ∨ change c ∈ modifyClass name change classes := by
  induction classes with
  | nil => cases h
  | cons first rest ih =>
    simp only [modifyClass]
    split
    · rcases List.mem_cons.1 h with rfl | h
      · exact .inr (by simp)
      · exact .inl (List.mem_cons_of_mem _ h)
    · rcases List.mem_cons.1 h with rfl | h
      · exact .inl (by simp)
      · exact (ih h).imp (List.mem_cons_of_mem _) (List.mem_cons_of_mem _)

omit [Scalar α] in
theorem modifyClass_of_absent {classes : List (ClassState α)} {name : String}
    (absent : ∀ c ∈ classes, c.settings.name ≠ name) (change : ClassState α → ClassState α) :
    modifyClass name change classes = classes := by
  induction classes with
  | nil => rfl
  | cons first rest ih =>
    rw [modifyClass, if_neg (absent first (by simp)), ih fun c hc => absent c (by simp [hc])]

omit [Scalar α] in
theorem modifyClass_id (name : String) (classes : List (ClassState α)) :
    modifyClass name id classes = classes := by
  induction classes with
  | nil => rfl
  | cons first rest ih => rw [modifyClass, ih, id, ite_self]

def settings (p : Pipeline α) : List ClassSettings := p.classes.map (·.settings)

/-- The pipeline with one class more. -/
def register (p : Pipeline α) (settings : ClassSettings) (classify : Classifier) : Pipeline α :=
  { p with classes := p.classes ++ [.start p.tunables settings classify] }

/-- The pipeline with the switches of a class changed, if there is a class of that name. -/
def switch (p : Pipeline α) (name : String) (update : ClassUpdate) : Pipeline α :=
  { p with classes := modifyClass name (·.switched update) p.classes }

section
omit [Scalar α]
variable (p : Pipeline α)

@[simp] theorem settings_register (settings : ClassSettings) (classify : Classifier) :
    (p.register settings classify).settings = p.settings ++ [settings] := by
  simp [register, Pipeline.settings, ClassState.start]

@[simp] theorem settings_switch (name : String) (update : ClassUpdate) :
    (p.switch name update).settings = p.settings := by
  obtain ⟨camera, tunables, classes, context⟩ := p
  simp only [switch, settings]
  induction classes with
  | nil => rfl
  | cons first rest ih => simp only [modifyClass]; split <;> simp [ih]

theorem tracks?_switch (name other : String) (update : ClassUpdate) :
    (p.switch other update).tracks? name = p.tracks? name := by
  obtain ⟨camera, tunables, classes, context⟩ := p
  simp only [tracks?, class?, switch]
  induction classes with
  | nil => rfl
  | cons first rest ih =>
    simp only [modifyClass]
    split <;> by_cases here : first.settings.name = name <;> simp_all [ClassState.switched]

end

@[simp] theorem settings_after (p : Pipeline α) (frame : Frame) :
    (p.after frame).settings = p.settings := by
  simp [after, settings]

omit [Scalar α] in
/-- The pipeline that is left is the switched one, also if the class is not known. -/
theorem updateClass_eq (p : Pipeline α) (name : String) (update : ClassUpdate) :
    p.updateClass name update =
      (p.switch name update,
        match p.class? name with
        | none => .error (.unknownClass name)
        | some c => .ok (update.apply c.flags)) := by
  unfold updateClass
  cases found : p.class? name with
  | some c => simp only [modifyClass_switched found]; rfl
  | none =>
    have absent : ∀ c ∈ p.classes, c.settings.name ≠ name := by simpa [class?] using found
    simp only [switch, modifyClass_of_absent absent]

theorem step_update (p : Pipeline α) (name : String) (update : ClassUpdate) :
    (p.step (.update name update)).1 = p.switch name update := by
  simp only [step, stepWith, updateClass_eq]

/-- All that an action can do. -/
inductive Transition (p : Pipeline α) : Action → Pipeline α × Answer α → Prop
  | added {settings : ClassSettings} {classify : Classifier} (camera_eq : settings.camera = p.camera)
      (new : ∀ s ∈ p.settings, s.name ≠ settings.name ∧ s.id ≠ settings.id) :
      Transition p (.add settings classify)
        (p.register settings classify, .added (.ok ()))
  | switched {name : String} {update : ClassUpdate} {answer : Answer α}
      (items_eq : answer.items = []) :
      Transition p (.update name update)
        (p.switch name update, answer)
  | processed {frame : Frame} (fits : frame.Fits p.camera) :
      Transition p (.frame frame)
        (p.after frame, .processed (p.itemsFor frame) (.ok (p.reportOf frame)))
  | refused {a : Action} {answer : Answer α}
      (unfit : ∀ frame, a = .frame frame → ¬ frame.Fits p.camera) (items_eq : answer.items = []) :
      Transition p a (p, answer)

theorem transition (p : Pipeline α) (a : Action) : p.Transition a (p.step a) := by
  cases a with
  | add settings classify =>
    simp only [step, stepWith, addClass]
    split_ifs with other taken
    · exact .refused (fun _ same => by cases same) rfl
    · exact .refused (fun _ same => by cases same) rfl
    · refine .added (not_not.1 other) fun s hs => ?_
      obtain ⟨c, hc, rfl⟩ := List.mem_map.1 hs
      simpa using fun h => taken (List.any_eq_true.2 ⟨c, hc, h⟩)
  | update name update =>
    rw [← Prod.eta (p.step _), step_update]
    exact .switched rfl
  | frame frame =>
    by_cases fits : frame.Fits p.camera
    · simp only [step, stepWith, process_of_fits fits]
      exact .processed fits
    · obtain ⟨fault, hfault⟩ := process_of_not_fits (α := α) fits
      simp only [step, stepWith, hfault p rfl]
      exact .refused (fun _ same => Action.frame.inj same ▸ fits) rfl

/-! ### Each kind of action, with its answer -/

theorem step_add (p : Pipeline α) (settings : ClassSettings) (classify : Classifier) :
    p.step (.add settings classify) = (p.register settings classify, .added (.ok ())) ∨
      ∃ fault, p.step (.add settings classify) = (p, .added (.error fault)) := by
  simp only [step, stepWith, addClass]
  split_ifs
  · exact .inr ⟨_, rfl⟩
  · exact .inr ⟨_, rfl⟩
  · exact .inl rfl

theorem exists_step_update (p : Pipeline α) (name : String) (update : ClassUpdate) :
    ∃ result, p.step (.update name update) = (p.switch name update, .updated result) := by
  rw [← step_update]
  exact ⟨_, rfl⟩

theorem step_of_fits {p : Pipeline α} {frame : Frame} (h : frame.Fits p.camera) :
    p.step (.frame frame) =
      (p.after frame, .processed (p.itemsFor frame) (.ok (p.reportOf frame))) := by
  simp only [step, stepWith, process_of_fits h]

theorem step_of_not_fits {p : Pipeline α} {frame : Frame} (h : ¬ frame.Fits p.camera) :
    ∃ fault, p.step (.frame frame) = (p, .processed [] (.error fault)) := by
  obtain ⟨fault, hfault⟩ := process_of_not_fits (α := α) h
  exact ⟨fault, by simp only [step, stepWith, hfault p rfl]⟩

/-! ### What every action keeps -/

/-- What holds of every new class, and is kept by switching a class and by letting it see a frame,
is kept by every action. It may speak of the number of the next frame. -/
theorem forall_classes_step_at {P : Nat → ClassState α → Prop} {p : Pipeline α}
    (new : ∀ number settings classify, P number (.start p.tunables settings classify))
    (switched : ∀ number c update, P number c → P number (c.switched update))
    (seen : ∀ number c samples, P number c → P (number + 1) (c.next samples p.tunables number))
    (h : ∀ c ∈ p.classes, P p.context.frameCount c) (a : Action) :
    ∀ c ∈ (p.step a).1.classes, P (p.step a).1.context.frameCount c := by
  intro c hc
  generalize hstep : p.step a = stepped at hc
  have did : p.Transition a stepped := hstep ▸ p.transition a
  cases did with
  | added =>
    rcases List.mem_append.1 hc with hc | hc
    · exact h c hc
    · obtain rfl := List.mem_singleton.1 hc
      exact new ..
  | switched =>
    rcases mem_modifyClass hc with hc | ⟨c', hc', rfl⟩
    · exact h c hc
    · exact switched _ _ _ (h c' hc')
  | processed =>
    obtain ⟨c', hc', rfl⟩ := List.mem_map.1 hc
    exact seen _ _ _ (h c' hc')
  | refused => exact h c hc

theorem forall_classes_step {P : ClassState α → Prop} {p : Pipeline α}
    (new : ∀ settings classify, P (.start p.tunables settings classify))
    (switched : ∀ c update, P c → P (c.switched update))
    (seen : ∀ c samples number, P c → P (c.next samples p.tunables number))
    (h : ∀ c ∈ p.classes, P c) (a : Action) : ∀ c ∈ (p.step a).1.classes, P c :=
  have step := @forall_classes_step_at α _ (fun _ c => P c) p (fun _ => new) (fun _ => switched)
    (fun number c samples => seen c samples number)
  step h a

/-- A class that is there stays. It keeps its tracker, unless a frame is used. -/
theorem class_step {p : Pipeline α} {c : ClassState α} (hc : c ∈ p.classes) (a : Action) :
    (∃ c' ∈ (p.step a).1.classes, c'.settings = c.settings ∧ c'.tracker = c.tracker ∧
        (p.step a).1.context = p.context) ∨
      ∃ frame, a = .frame frame ∧ frame.Fits p.camera ∧ (p.step a).1 = p.after frame := by
  generalize hstep : p.step a = stepped
  have did : p.Transition a stepped := hstep ▸ p.transition a
  cases did with
  | added => exact .inl ⟨c, List.mem_append_left _ hc, rfl, rfl, rfl⟩
  | switched =>
    rcases mem_modifyClass_of_mem hc with hc | hc
    · exact .inl ⟨c, hc, rfl, rfl, rfl⟩
    · exact .inl ⟨_, hc, rfl, rfl, rfl⟩
  | processed fits => exact .inr ⟨_, rfl, fits, rfl⟩
  | refused => exact .inl ⟨c, hc, rfl, rfl, rfl⟩

theorem fixed_step (p : Pipeline α) (a : Action) :
    (p.step a).1.camera = p.camera ∧ (p.step a).1.tunables = p.tunables := by
  generalize hstep : p.step a = stepped
  have did : p.Transition a stepped := hstep ▸ p.transition a
  cases did <;> exact ⟨rfl, rfl⟩

theorem fixed_run (p : Pipeline α) (actions : List Action) :
    (p.run actions).1.camera = p.camera ∧ (p.run actions).1.tunables = p.tunables :=
  run_invariant (P := fun q => q.camera = p.camera ∧ q.tunables = p.tunables)
    (fun q a ⟨camera_eq, tunables_eq⟩ =>
      ⟨(q.fixed_step a).1.trans camera_eq, (q.fixed_step a).2.trans tunables_eq⟩) ⟨rfl, rfl⟩ actions

/-- Classes are neither removed nor given other settings. -/
theorem settings_step (p : Pipeline α) (a : Action) :
    ∃ more, (p.step a).1.settings = p.settings ++ more := by
  generalize hstep : p.step a = stepped
  have did : p.Transition a stepped := hstep ▸ p.transition a
  cases did with
  | added => exact ⟨_, settings_register ..⟩
  | switched => exact ⟨[], by rw [settings_switch, List.append_nil]⟩
  | processed => exact ⟨[], by rw [settings_after, List.append_nil]⟩
  | refused => exact ⟨[], (List.append_nil _).symm⟩

end Pipeline

end ObjectTracking
