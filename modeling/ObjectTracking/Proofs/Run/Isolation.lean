import Mathlib.Data.List.Basic
import ObjectTracking.Proofs.Run.Transition

/-!
# Classes do not interfere

Two pipelines are alike to a class if they differ in other classes only (`Pipeline.Alike`). Frames
and changes to the switches of the class keep them alike, and whatever is done to other classes is
not seen at all (`Alike.views_eq`), so that a class looks the same from frame to frame in both.
-/

namespace ObjectTracking

namespace Action

def isFrame : Action → Bool
  | frame _ => true
  | _ => false

/-- The action is a frame or changes the switches of the class of that name. -/
def concerns (name : String) : Action → Bool
  | frame _ => true
  | update className _ => className = name
  | add .. => false

end Action

/-- What there is to see of a class once a frame is over. -/
structure ClassView (α : Type) where
  context : Context
  summary? : Option ClassSummary
  detections : List (Detection α)
  /-- The mask and the detections handed on. -/
  items : List (Item α)
  tracks? : Option (List (Track α))

namespace ClassSettings

/-- Classes of one pipeline do not share a name, nor an id. -/
def sharesWith (a b : ClassSettings) : Bool := a.name = b.name || a.id = b.id

/-- The item is a mask or a detection of the class. -/
def owns {α : Type} (settings : ClassSettings) : Item α → Bool
  | .mask _ className _ _ => className = settings.name
  | .detection d => d.className = settings.name
  | .annotated .. => false

end ClassSettings

namespace ClassState
variable {α : Type} [Scalar α]

theorem take_classId (settings : ClassSettings) (tunables : Tunables α) (stride frame : Nat)
    (progress : Progress α) (blob : Blob × Nat) :
    (progress.take settings tunables stride frame blob).summary.classId =
      progress.summary.classId := by
  obtain ⟨blob, index⟩ := blob
  simp only [Progress.take]
  split
  · rfl
  · split <;> rfl

theorem run_summary_classId (c : ClassState α) (samples : SampleSet) (tunables : Tunables α)
    (number : Nat) : (c.run samples tunables number).2.summary.classId = c.settings.id := by
  refine List.foldlRecOn (motive := fun progress : Progress α => progress.summary.classId = _)
    _ _ rfl fun progress h blob _ => ?_
  exact (take_classId ..).trans h

theorem outcome?_summary_classId {c : ClassState α} {samples : SampleSet} {tunables : Tunables α}
    {number : Nat} {outcome : ClassOutcome α}
    (h : c.outcome? samples tunables number = some outcome) :
    outcome.summary.classId = outcome.settings.id := by
  rw [outcome?_settings h]
  obtain ⟨-, rfl⟩ := outcome?_eq_some_iff.1 h
  exact run_summary_classId ..

end ClassState

namespace Pipeline
variable {α : Type} [Scalar α] (settings : ClassSettings)

/-- What there is to see of a class after an action. -/
def viewOf (stepped : Pipeline α × Answer α) : ClassView α where
  context := stepped.1.context
  summary? := stepped.2.report?.bind (·.classes.find? (·.classId = settings.id))
  detections := (stepped.2.report?.toList.flatMap (·.detections)).filter
    (·.className = settings.name)
  items := stepped.2.items.filter settings.owns
  tracks? := stepped.1.tracks? settings.name

/-- What there is to see of a class after each frame of a run. -/
def views (p : Pipeline α) : List Action → List (ClassView α)
  | [] => []
  | a :: rest =>
    let stepped := p.step a
    (if a.isFrame then [viewOf settings stepped] else []) ++ views stepped.1 rest

/-- The classes that are in the way of the class, or are it. -/
def own (p : Pipeline α) : List (ClassState α) :=
  p.classes.filter (·.settings.sharesWith settings)

/-- The pipelines differ in other classes only. -/
structure Alike (p q : Pipeline α) : Prop where
  camera_eq : p.camera = q.camera
  tunables_eq : p.tunables = q.tunables
  context_eq : p.context = q.context
  own_eq : p.own settings = q.own settings
  sole : ∀ c ∈ p.own settings, c.settings = settings

variable {settings} {p q : Pipeline α}

/-! ### What is seen of a class depends on its own state only -/

def ownOutcomes (settings : ClassSettings) (p : Pipeline α) (frame : Frame) :
    List (ClassOutcome α) :=
  (p.own settings).filterMap (·.outcome? (p.samplesOf frame) p.tunables p.context.frameCount)

omit [Scalar α] in
/-- Any kind that the class is of, and that none of the other classes can be of, tells it from
them. -/
theorem filter_classes (sole : ∀ c ∈ p.own settings, c.settings = settings)
    (kind : ClassSettings → Bool) (here : kind settings = true)
    (own : ∀ s, kind s = true → s.sharesWith settings = true) :
    p.classes.filter (kind ·.settings) = p.own settings := by
  refine List.filter_congr fun c hc => ?_
  by_cases h : c.settings.sharesWith settings = true
  · rw [h, sole c (List.mem_filter.2 ⟨hc, h⟩), here]
  · have other : kind c.settings ≠ true := fun hk => h (own _ hk)
    simp [h, other]

omit [Scalar α] in
theorem tracks?_eq (sole : ∀ c ∈ p.own settings, c.settings = settings) :
    p.tracks? settings.name = (p.own settings).head?.map (·.tracker.tracks) := by
  have named := filter_classes sole (·.name = settings.name) (by simp) fun s hs => by
    simp_all [ClassSettings.sharesWith]
  rw [tracks?, class?, ← List.head?_filter, named]

theorem filter_outcomes (sole : ∀ c ∈ p.own settings, c.settings = settings) (frame : Frame)
    (kind : ClassSettings → Bool) (here : kind settings = true)
    (own : ∀ s, kind s = true → s.sharesWith settings = true) :
    (p.outcomesOf frame).filter (kind ·.settings) = p.ownOutcomes settings frame := by
  rw [outcomesOf, ownOutcomes, ← filter_classes sole kind here own, List.filter_filterMap,
    List.filterMap_filter]
  refine List.filterMap_congr fun c _ => ?_
  cases h : c.outcome? (p.samplesOf frame) p.tunables p.context.frameCount with
  | none => simp
  | some outcome => simp [Option.filter, ClassState.outcome?_settings h]

theorem outcomes_named (sole : ∀ c ∈ p.own settings, c.settings = settings) (frame : Frame) :
    (p.outcomesOf frame).filter (·.settings.name = settings.name) =
      p.ownOutcomes settings frame :=
  filter_outcomes sole frame (·.name = settings.name) (by simp) fun s hs => by
    simp_all [ClassSettings.sharesWith]

omit [Scalar α] in
theorem filter_flatMap_outcomes {β : Type} {said : ClassOutcome α → List β} {mine : β → Bool}
    (kind : ClassSettings → Bool) (outcomes : List (ClassOutcome α))
    (told : ∀ outcome, ∀ b ∈ said outcome, mine b = kind outcome.settings) :
    (outcomes.flatMap said).filter mine =
      (outcomes.filter (kind ·.settings)).flatMap said := by
  induction outcomes with
  | nil => rfl
  | cons outcome rest ih =>
    rw [List.flatMap_cons, List.filter_append, ih, List.filter_cons]
    split
    · rename_i hkind
      rw [List.filter_eq_self.2 fun b hb => (told outcome b hb).trans hkind, List.flatMap_cons]
    · rename_i hkind
      rw [List.filter_eq_nil_iff.2 fun b hb => told outcome b hb ▸ hkind, List.nil_append]

theorem summaries_of_report (sole : ∀ c ∈ p.own settings, c.settings = settings) (frame : Frame) :
    (p.reportOf frame).classes.filter (·.classId = settings.id) =
      (p.ownOutcomes settings frame).map (·.summary) := by
  have numbered : (p.outcomesOf frame).filter (·.settings.id = settings.id) =
      p.ownOutcomes settings frame :=
    filter_outcomes sole frame (·.id = settings.id) (by simp) fun s hs => by
      simp_all [ClassSettings.sharesWith]
  rw [← numbered, reportOf, List.filter_map]
  congr 1
  refine List.filter_congr fun outcome houtcome => ?_
  obtain ⟨c, -, hc⟩ := List.mem_filterMap.1 houtcome
  simp [ClassState.outcome?_summary_classId hc]

theorem summary_of_report (sole : ∀ c ∈ p.own settings, c.settings = settings) (frame : Frame) :
    (p.reportOf frame).classes.find? (·.classId = settings.id) =
      ((p.ownOutcomes settings frame).map (·.summary)).head? := by
  rw [← summaries_of_report sole, List.head?_filter]

theorem detections_of_report (sole : ∀ c ∈ p.own settings, c.settings = settings) (frame : Frame) :
    (p.reportOf frame).detections.filter (·.className = settings.name) =
      (p.ownOutcomes settings frame).flatMap fun outcome =>
        outcome.hits.map (detectionOf frame.upright p.context.frameCount outcome.settings) := by
  rw [← outcomes_named sole]
  refine filter_flatMap_outcomes (·.name = settings.name) _ fun outcome d hd => ?_
  obtain ⟨hit, -, rfl⟩ := List.mem_map.1 hd
  rfl

theorem items_of_class (sole : ∀ c ∈ p.own settings, c.settings = settings) (frame : Frame) :
    (p.itemsFor frame).filter settings.owns =
      (p.ownOutcomes settings frame).flatMap
        (itemsOf frame.upright p.context.frameCount) := by
  have annotated : ∀ camera number image,
      [Item.annotated camera number image].filter settings.owns = ([] : List (Item α)) :=
    fun _ _ _ => rfl
  rw [← outcomes_named sole, itemsFor, List.filter_append, annotated, List.append_nil]
  refine filter_flatMap_outcomes (·.name = settings.name) _ fun outcome item hitem => ?_
  rcases List.mem_append.1 hitem with hmask | hhit
  · obtain ⟨mask, -, rfl⟩ := by simpa using hmask
    rfl
  · obtain ⟨hit, -, rfl⟩ := List.mem_map.1 hhit
    rfl

/-! ### Alike pipelines stay alike -/

theorem own_after (p : Pipeline α) (frame : Frame) :
    (p.after frame).own settings =
      (p.own settings).map (·.next (p.samplesOf frame) p.tunables p.context.frameCount) := by
  simp only [own, after, List.filter_map, Function.comp_def, ClassState.next_settings]

omit [Scalar α] in
theorem own_register (p : Pipeline α) (classify : Classifier) :
    (p.register settings classify).own settings =
      p.own settings ++ [.start p.tunables settings classify] := by
  simp [register, own, ClassState.start, ClassSettings.sharesWith]

omit [Scalar α] in
/-- Whether a class is registered depends on the camera and the settings of those that are. -/
theorem addClass_eq (p : Pipeline α) (classify : Classifier) :
    p.addClass settings classify =
      if settings.camera ≠ p.camera then
        (p, .error (.settings (.wrongCamera settings.name settings.camera p.camera)))
      else if p.settings.any (·.sharesWith settings) then
        (p, .error (.settings (.alreadyRegistered settings.name settings.id)))
      else (p.register settings classify, .ok ()) := by
  rw [Pipeline.settings, List.any_map]
  rfl

namespace Alike

omit [Scalar α] in
theorem refl (sole : ∀ c ∈ p.own settings, c.settings = settings) : Alike settings p p :=
  ⟨rfl, rfl, rfl, rfl, sole⟩

omit [Scalar α] in
theorem samplesOf_eq (h : Alike settings p q) (frame : Frame) :
    p.samplesOf frame = q.samplesOf frame := by
  rw [samplesOf, h.context_eq, samplesOf]

theorem after (h : Alike settings p q) (frame : Frame) :
    Alike settings (p.after frame) (q.after frame) where
  camera_eq := h.camera_eq
  tunables_eq := h.tunables_eq
  context_eq := by simp only [Pipeline.after, h.context_eq, h.samplesOf_eq]
  own_eq := by rw [own_after, own_after, h.samplesOf_eq, h.tunables_eq, h.context_eq, h.own_eq]
  sole c hc := by
    rw [own_after] at hc
    obtain ⟨c', hc', rfl⟩ := List.mem_map.1 hc
    exact (ClassState.next_settings ..).trans (h.sole c' hc')

omit [Scalar α] in
theorem sole' (h : Alike settings p q) : ∀ c ∈ q.own settings, c.settings = settings :=
  h.own_eq ▸ h.sole

omit [Scalar α] in
theorem symm (h : Alike settings p q) : Alike settings q p :=
  ⟨h.camera_eq.symm, h.tunables_eq.symm, h.context_eq.symm, h.own_eq.symm, h.sole'⟩

omit [Scalar α] in
theorem trans {r : Pipeline α} (h : Alike settings p q) (h' : Alike settings q r) :
    Alike settings p r :=
  ⟨h.camera_eq.trans h'.camera_eq, h.tunables_eq.trans h'.tunables_eq,
    h.context_eq.trans h'.context_eq, h.own_eq.trans h'.own_eq, h.sole⟩

theorem ownOutcomes_eq (h : Alike settings p q) (frame : Frame) :
    p.ownOutcomes settings frame = q.ownOutcomes settings frame := by
  rw [ownOutcomes, h.own_eq, h.samplesOf_eq, h.tunables_eq, h.context_eq, ownOutcomes]

/-- A frame keeps the pipelines alike, and the class looks the same after it. -/
theorem frame (h : Alike settings p q) (frame : Frame) :
    Alike settings (p.step (.frame frame)).1 (q.step (.frame frame)).1 ∧
      viewOf settings (p.step (.frame frame)) = viewOf settings (q.step (.frame frame)) := by
  by_cases fits : frame.Fits p.camera
  · have fits' : frame.Fits q.camera := h.camera_eq ▸ fits
    have h' := h.after frame
    simp only [step, stepWith, process_of_fits fits, process_of_fits fits']
    refine ⟨h', ?_⟩
    simp only [viewOf, h'.context_eq, tracks?_eq h'.sole, tracks?_eq h'.sole', h'.own_eq,
      Answer.report?, Answer.items, Option.bind_some, Option.toList_some, List.flatMap_singleton,
      summary_of_report h.sole, summary_of_report h.sole', detections_of_report h.sole,
      detections_of_report h.sole', items_of_class h.sole, items_of_class h.sole',
      h.ownOutcomes_eq, h.context_eq]
  · obtain ⟨fault, hfault⟩ := process_of_not_fits (α := α) fits
    simp only [step, stepWith, hfault p rfl, hfault q h.camera_eq.symm]
    refine ⟨h, ?_⟩
    simp only [viewOf, h.context_eq, tracks?_eq h.sole, tracks?_eq h.sole', h.own_eq]

end Alike

/-! ### What is done to other classes is not seen -/

omit [Scalar α] in
theorem own_switch (p : Pipeline α) (update : ClassUpdate) :
    (p.switch settings.name update).own settings =
      modifyClass settings.name (·.switched update) (p.own settings) := by
  simp only [own, switch]
  induction p.classes with
  | nil => rfl
  | cons first rest ih =>
    by_cases here : first.settings.name = settings.name
    · have mine : first.settings.sharesWith settings = true := by
        simp [ClassSettings.sharesWith, here]
      simp [modifyClass, here, mine]
    · by_cases mine : first.settings.sharesWith settings = true <;>
        simp [modifyClass, here, mine, ih]

omit [Scalar α] in
theorem own_switch_other {name : String}
    (other : ∀ c ∈ p.classes, c.settings.name = name → c.settings.sharesWith settings ≠ true)
    (update : ClassUpdate) : (p.switch name update).own settings = p.own settings := by
  obtain ⟨camera, tunables, classes, context⟩ := p
  simp only [own, switch] at other ⊢
  induction classes with
  | nil => rfl
  | cons first rest ih =>
    have ih := ih fun c hc => other c (List.mem_cons_of_mem _ hc)
    by_cases here : first.settings.name = name
    · simp [modifyClass, here, other first (by simp) here]
    · by_cases mine : first.settings.sharesWith settings = true <;>
        simp [modifyClass, here, mine, ih]

namespace Alike

theorem update (h : Alike settings p q) (update : ClassUpdate) :
    Alike settings (p.step (.update settings.name update)).1
      (q.step (.update settings.name update)).1 := by
  rw [step_update, step_update]
  refine ⟨h.camera_eq, h.tunables_eq, h.context_eq, ?_, fun c hc => ?_⟩
  · rw [own_switch, own_switch, h.own_eq]
  · rw [own_switch] at hc
    rcases mem_modifyClass hc with hc | ⟨c', hc', rfl⟩
    · exact h.sole c hc
    · exact h.sole c' hc'

/-- Changing the switches of another class is not seen. -/
theorem update_other (h : Alike settings p q) {name : String} (other : name ≠ settings.name)
    (update : ClassUpdate) : Alike settings (p.step (.update name update)).1 q := by
  rw [step_update]
  have own_eq : (p.switch name update).own settings = p.own settings :=
    own_switch_other (fun c hc hname hshares => other (by
      rw [← hname, h.sole c (List.mem_filter.2 ⟨hc, hshares⟩)])) update
  exact ⟨h.camera_eq, h.tunables_eq, h.context_eq, own_eq.trans h.own_eq, own_eq ▸ h.sole⟩

/-- Once the class is registered, no class can be added that is seen. -/
theorem add (h : Alike settings p q) (registered : settings ∈ p.settings)
    (settings' : ClassSettings) (classify : Classifier) :
    Alike settings (p.step (.add settings' classify)).1 q := by
  generalize hstep : p.step (.add settings' classify) = stepped
  have did : p.Transition (.add settings' classify) stepped := hstep ▸ p.transition _
  cases did with
  | refused => exact h
  | added _ new =>
    obtain ⟨name_ne, id_ne⟩ := new settings registered
    have other : settings'.sharesWith settings = false := by
      simp [ClassSettings.sharesWith, name_ne.symm, id_ne.symm]
    have own_eq : (p.register settings' classify).own settings = p.own settings := by
      simp [register, own, ClassState.start, other]
    exact ⟨h.camera_eq, h.tunables_eq, h.context_eq, own_eq.trans h.own_eq, own_eq ▸ h.sole⟩

/-- Until the class is registered, nothing but frames is seen. -/
theorem unregistered (h : Alike settings p q) (a : Action) (idle : a.isFrame = false)
    (absent : p.own settings = []) (absent' : (p.step a).1.own settings = []) :
    Alike settings (p.step a).1 q := by
  have own_eq : (p.step a).1.own settings = q.own settings := by rw [absent', ← absent, h.own_eq]
  have sole : ∀ c ∈ (p.step a).1.own settings, c.settings = settings := by simp [absent']
  generalize hstep : p.step a = stepped at own_eq sole ⊢
  have did : p.Transition a stepped := hstep ▸ p.transition a
  cases did with
  | processed => cases idle
  | _ => exact ⟨h.camera_eq, h.tunables_eq, h.context_eq, own_eq, sole⟩

end Alike

/-! ### Runs -/

theorem views_append (settings : ClassSettings) (p : Pipeline α) (first rest : List Action) :
    p.views settings (first ++ rest) =
      p.views settings first ++ (p.run first).1.views settings rest := by
  induction first generalizing p with
  | nil => rfl
  | cons a first ih => simp only [List.cons_append, views, ih, List.append_assoc]; rfl

omit [Scalar α] in
theorem own_eq_nil_iff :
    p.own settings = [] ↔ ∀ s ∈ p.settings, s.sharesWith settings ≠ true := by
  simp [own, Pipeline.settings]

theorem own_eq_nil_of_step {a : Action} (later : (p.step a).1.own settings = []) :
    p.own settings = [] := by
  obtain ⟨more, hmore⟩ := p.settings_step a
  exact own_eq_nil_iff.2 fun s hs => own_eq_nil_iff.1 later s (hmore ▸ List.mem_append_left _ hs)

theorem own_eq_nil_of_run {actions : List Action} (absent : (p.run actions).1.own settings = []) :
    p.own settings = [] := by
  induction actions generalizing p with
  | nil => exact absent
  | cons a rest ih => exact own_eq_nil_of_step (ih absent)

namespace Alike

/-- A registered class sees frames and changes to its own switches only. -/
theorem views_eq (h : Alike settings p q) (registered : settings ∈ p.settings)
    (actions : List Action) :
    p.views settings actions = q.views settings (actions.filter (·.concerns settings.name)) := by
  induction actions generalizing p q with
  | nil => rfl
  | cons a rest ih =>
    have registered' : settings ∈ (p.step a).1.settings := by
      obtain ⟨more, hmore⟩ := p.settings_step a
      exact hmore ▸ List.mem_append_left _ registered
    cases a with
    | frame frame =>
      obtain ⟨h', same⟩ := h.frame frame
      rw [List.filter_cons_of_pos rfl, views, views, ih h' registered', same]
    | update name update =>
      by_cases this : name = settings.name
      · subst this
        rw [List.filter_cons_of_pos (by simp [Action.concerns]), views, views]
        exact congrArg ([] ++ ·) (ih (h.update update) registered')
      · rw [List.filter_cons_of_neg (by simp [Action.concerns, this]), views]
        exact ih (h.update_other this update) registered'
    | add settings' classify => exact ih (h.add registered settings' classify) registered'

/-- As long as the class is not registered, there are only frames to see. -/
theorem views_eq_of_absent (h : Alike settings p q) {actions : List Action}
    (absent : (p.run actions).1.own settings = []) :
    p.views settings actions = q.views settings (actions.filter Action.isFrame) ∧
      Alike settings (p.run actions).1 (q.run (actions.filter Action.isFrame)).1 := by
  induction actions generalizing p q with
  | nil => exact ⟨rfl, h⟩
  | cons a rest ih =>
    cases ha : a.isFrame with
    | true =>
      cases a with
      | frame frame =>
        obtain ⟨h', same⟩ := h.frame frame
        obtain ⟨hviews, hrun⟩ := ih h' absent
        rw [List.filter_cons_of_pos rfl, views, views, hviews, same]
        exact ⟨rfl, hrun⟩
      | _ => cases ha
    | false =>
      have later : (p.step a).1.own settings = [] := own_eq_nil_of_run absent
      have now : p.own settings = [] := own_eq_nil_of_step later
      have idle : Alike settings (p.step a).1 q := h.unregistered a ha now later
      rw [List.filter_cons_of_neg (by simp [ha]), views, ha]
      exact ih idle absent

end Alike

omit [Scalar α] in
theorem register_of_addClass {classify : Classifier}
    (h : (p.addClass settings classify).2 = .ok ()) :
    p.own settings = [] ∧ p.addClass settings classify = (p.register settings classify, .ok ()) := by
  rw [addClass_eq] at h ⊢
  split_ifs at h ⊢ with other taken
  refine ⟨List.filter_eq_nil_iff.2 fun c hc hshares => taken ?_, rfl⟩
  exact List.any_eq_true.2 ⟨c.settings, List.mem_map_of_mem hc, hshares⟩

omit [Scalar α] in
theorem Alike.register (h : Alike settings p q) (absent : p.own settings = [])
    (classify : Classifier) :
    Alike settings (p.register settings classify) (q.register settings classify) where
  camera_eq := h.camera_eq
  tunables_eq := h.tunables_eq
  context_eq := h.context_eq
  own_eq := by rw [own_register, own_register, h.own_eq, h.tunables_eq]
  sole c hc := by
    rw [own_register, absent] at hc
    obtain rfl := List.mem_singleton.1 hc
    rfl

theorem views_of_addClass {classify : Classifier} {p' : Pipeline α} {before : List Action}
    (h : (p.run before).1.addClass settings classify = (p', .ok ())) (after : List Action) :
    p.views settings (before ++ .add settings classify :: after) =
      p.views settings before ++ p'.views settings after := by
  rw [views_append, views]
  simp only [step, stepWith, h]
  rfl

/-- The class is registered in two pipelines of one camera, after the same frames; and from then on
both get the same frames and the same changes to its switches. Whatever else they get, the class
looks the same in both after each frame. -/
theorem views_of_same_class (camera : Camera) (tunables : Tunables α) (settings : ClassSettings)
    (classify : Classifier) {before₁ before₂ after₁ after₂ : List Action}
    (frames : before₁.filter Action.isFrame = before₂.filter Action.isFrame)
    (added₁ : (((start camera tunables).run before₁).1.addClass settings classify).2 = .ok ())
    (added₂ : (((start camera tunables).run before₂).1.addClass settings classify).2 = .ok ())
    (same : after₁.filter (·.concerns settings.name) = after₂.filter (·.concerns settings.name)) :
    (start camera tunables).views settings (before₁ ++ .add settings classify :: after₁) =
      (start camera tunables).views settings (before₂ ++ .add settings classify :: after₂) := by
  obtain ⟨absent₁, registered₁⟩ := register_of_addClass added₁
  obtain ⟨absent₂, registered₂⟩ := register_of_addClass added₂
  have sole : ∀ c ∈ (start camera tunables).own settings, c.settings = settings :=
    fun _ hc => absurd hc List.not_mem_nil
  obtain ⟨hviews₁, h₁⟩ := (Alike.refl sole).views_eq_of_absent absent₁
  obtain ⟨hviews₂, h₂⟩ := (Alike.refl sole).views_eq_of_absent absent₂
  rw [← frames] at hviews₂ h₂
  -- before it is registered both runs are alike to one of frames only, so they are to each other
  have alike := (h₁.trans h₂.symm).register absent₁ classify
  have registered : ∀ p : Pipeline α,
      settings ∈ (p.register settings classify).settings := fun p => by simp
  rw [views_of_addClass registered₁, views_of_addClass registered₂, hviews₁, hviews₂,
    alike.views_eq (registered _), same, ← (Alike.refl alike.sole').views_eq (registered _)]

/-- A gate beside a buoy that comes first and is then disabled, and a gate before a buoy. -/
theorem views_beside_another_class :
    let tunables : Tunables Float := .usual 20
    let gate : ClassSettings := .usual "gate" 1 .forward "gate.txt"
    let buoy : ClassSettings := .usual "buoy" 2 .forward "buoy.txt"
    let classify : Classifier := fun _ => .object 1
    let dark : Frame := ⟨.forward, .epoch, .filled 2 2 ⟨0, 0, 0⟩⟩
    let before₁ : List Action := [.add buoy classify, .frame dark]
    let before₂ : List Action := [.frame dark]
    let after₁ : List Action :=
      [.update "buoy" (.enabled false), .frame dark, .update "gate" (.publishMask true), .frame dark]
    let after₂ : List Action :=
      [.frame dark, .add buoy classify, .update "gate" (.publishMask true), .frame dark]
    before₁.filter Action.isFrame = before₂.filter Action.isFrame ∧
      (((start .forward tunables).run before₁).1.addClass gate classify).2 = .ok () ∧
      (((start .forward tunables).run before₂).1.addClass gate classify).2 = .ok () ∧
      after₁.filter (·.concerns gate.name) = after₂.filter (·.concerns gate.name) ∧
      (start .forward tunables).views gate (before₁ ++ .add gate classify :: after₁) =
        (start .forward tunables).views gate (before₂ ++ .add gate classify :: after₂) :=
  ⟨rfl, rfl, rfl, rfl, views_of_same_class .forward _ _ _ rfl rfl rfl rfl⟩

end Pipeline

end ObjectTracking
