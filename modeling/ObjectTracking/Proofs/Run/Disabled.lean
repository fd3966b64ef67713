import ObjectTracking.Proofs.Run.Blind

/-!
# Disabling a class is the same as its seeing nothing

A run in which a class is switched on and off is followed step by step by a run in which it is
always enabled, but blind while the first has it disabled (`Pipeline.Mirrors`).
-/

namespace ObjectTracking

namespace Pipeline
variable {α : Type} [Scalar α] {p q : Pipeline α} {name : String}

/-! ### Frames on which a class is disabled -/

/-- The numbers of the frames of a run on which the class is disabled. -/
def disabledFrames (name : String) (p : Pipeline α) : List Action → List Nat
  | [] => []
  | a :: rest =>
    (if (a.used? p.camera).isSome ∧ p.Disables name then [p.context.frameCount] else []) ++
      disabledFrames name (p.step a).1 rest

theorem frameCount_step_used (p : Pipeline α) (a : Action) :
    (p.step a).1.context.frameCount =
      p.context.frameCount + if (a.used? p.camera).isSome then 1 else 0 := by
  rw [frameCount_step, (p.context_step a).2]

theorem of_mem_disabledFrames {number : Nat} {actions : List Action}
    (h : number ∈ p.disabledFrames name actions) :
    p.context.frameCount ≤ number ∧ number < (p.run actions).1.context.frameCount := by
  induction actions generalizing p with
  | nil => cases h
  | cons a rest ih =>
    have one := p.frameCount_step_used a
    have later := (p.step a).1.frameCount_run rest
    simp only [run_cons]
    rcases List.mem_append.1 h with h | h
    · split at h
      · rename_i on
        obtain rfl := List.mem_singleton.1 h
        rw [if_pos on.1] at one
        exact ⟨Nat.le_refl _, by omega⟩
      · cases h
    · obtain ⟨from_, upto⟩ := ih h
      exact ⟨by omega, upto⟩

theorem disabledFrames_append (first rest : List Action) :
    p.disabledFrames name (first ++ rest) =
      p.disabledFrames name first ++ (p.run first).1.disabledFrames name rest := by
  induction first generalizing p with
  | nil => rfl
  | cons a first ih =>
    rw [List.cons_append, disabledFrames, ih, disabledFrames, List.append_assoc, run_cons]

theorem mem_disabledFrames_iff {before after : List Action} {frame : Frame}
    (fits : frame.Fits (p.run before).1.camera) :
    (p.run before).1.context.frameCount ∈
        p.disabledFrames name (before ++ .frame frame :: after) ↔
      (p.run before).1.Disables name := by
  have used : ((Action.frame frame).used? (p.run before).1.camera).isSome = true := by
    rw [Action.used?, if_pos fits]
    rfl
  rw [disabledFrames_append, disabledFrames]
  constructor
  · intro h
    rcases List.mem_append.1 h with h | h
    · exact absurd (of_mem_disabledFrames h).2 (Nat.lt_irrefl _)
    · rcases List.mem_append.1 h with h | h
      · split at h
        · rename_i on
          exact on.2
        · cases h
      · -- the frames after this one have greater numbers
        have later := (of_mem_disabledFrames h).1
        rw [frameCount_step_used, if_pos used] at later
        omega
  · intro off
    rw [if_pos ⟨used, off⟩]
    simp

/-! ### The run in which the class is always enabled -/

/-- Frames are used with a model of the class for each frame number. -/
def useModels (name : String) (models : Nat → Classifier) : Use α := fun p frame =>
  (p.remodel name (models p.context.frameCount)).process frame

/-- The actions, with the class enabled again after each of them. -/
def keepEnabled (name : String) (actions : List Action) : List Action :=
  actions.flatMap fun a => [a, .update name (.enabled true)]

/-- The second pipeline has the class enabled, and is like the first otherwise. -/
structure Mirrors (name : String) (p q : Pipeline α) : Prop where
  bare_eq : p.bare name = q.bare name
  valid : p.GridsValid
  valid' : q.GridsValid
  enabled : ∀ c ∈ q.classes, c.settings.name = name → c.flags.enabled = true

omit [Scalar α] in
theorem GridsValid.remodel (h : p.GridsValid) (name : String) (classify : Classifier) :
    (p.remodel name classify).GridsValid := by
  intro c hc
  obtain ⟨c', hc', rfl⟩ := List.mem_map.1 hc
  unfold ClassState.alter
  split <;> exact h c' hc'

namespace Mirrors
variable {models : Nat → Classifier}

/-- Where the second pipeline has the model of the number, it comes to the same from a frame. -/
theorem frame (h : Mirrors name p q) {frame : Frame} (fits : frame.Fits p.camera)
    (models_eq : ∀ c ∈ p.classes, c.settings.name = name →
      c.model = models p.context.frameCount) :
    ∃ q' report items, useModels name models q frame = (q', items, .ok report) ∧
      (p.after frame).bare name = q'.bare name ∧ q'.GridsValid ∧
      (¬ p.Disables name → report = p.reportOf frame ∧ items = p.itemsFor frame) := by
  obtain ⟨camera_eq, -, context_eq⟩ := fixed_of_bare h.bare_eq
  rw [useModels, ← context_eq]
  set q' := q.remodel name (models p.context.frameCount)
  have bare_eq : q'.bare name = p.bare name := (q.bare_remodel name _).trans h.bare_eq.symm
  have valid' : q'.GridsValid := h.valid'.remodel name _
  have named' : ∀ c ∈ q'.classes, c.settings.name = name →
      c.flags.enabled = true ∧ c.model = models p.context.frameCount := by
    intro c hc named
    obtain ⟨c', hc', rfl⟩ := List.mem_map.1 hc
    rw [ClassState.settings_alter_remodel] at named
    have enabled := h.enabled c' hc' named
    rw [ClassState.alter, if_pos named]
    exact ⟨enabled, if_pos enabled⟩
  have models_eq' := fun c hc named => (named' c hc named).2
  have fits' : frame.Fits q'.camera := camera_eq ▸ fits
  refine ⟨_, _, _, process_of_fits fits', ?bare, ?valid, fun on => ?said⟩
  case bare => rw [bare_after h.valid models_eq, bare_after valid' models_eq', bare_eq]
  case valid =>
    have stepped := valid'.step (.frame frame)
    rwa [step_of_fits fits'] at stepped
  case said =>
    have on' : ¬ q'.Disables name := by
      rintro ⟨c, hc, named, disabled⟩
      exact absurd (named' c hc named).1 (by simp [disabled])
    have outcomes : q'.outcomesOf frame = p.outcomesOf frame := by
      rw [← outcomesOf_bare h.valid models_eq on, ← outcomesOf_bare valid' models_eq' on', bare_eq]
    have camera_eq' : q'.camera = p.camera := camera_eq.symm
    have context_eq' : q'.context = p.context := context_eq.symm
    simp only [reportOf, itemsFor, outcomes, camera_eq', context_eq', and_self]

/-- One action of the first run is followed by the same action of the second. -/
theorem act (h : Mirrors name p q) (a : Action)
    (models_eq : ∀ frame, a = .frame frame → frame.Fits p.camera →
      ∀ c ∈ p.classes, c.settings.name = name → c.model = models p.context.frameCount) :
    (p.step a).1.bare name = (q.stepWith (useModels name models) a).1.bare name ∧
      (q.stepWith (useModels name models) a).1.GridsValid := by
  cases a with
  | add settings classify =>
    exact ⟨bare_step_add h.bare_eq settings classify, h.valid'.step (.add settings classify)⟩
  | update className update =>
    refine ⟨?_, h.valid'.step (.update className update)⟩
    show _ = (q.step (.update className update)).1.bare name
    rw [step_update, step_update, bare_switch, bare_switch, h.bare_eq]
  | frame frame =>
    by_cases fits : frame.Fits p.camera
    · obtain ⟨q', report, items, used, bare_eq, valid', -⟩ :=
        h.frame fits (models_eq frame rfl fits)
      rw [step_of_fits fits]
      simp only [stepWith, used]
      exact ⟨bare_eq, valid'⟩
    · obtain ⟨fault, refused⟩ := process_of_not_fits (α := α) fits
      have camera_eq : q.camera = p.camera := (fixed_of_bare h.bare_eq).1.symm
      -- a refused frame leaves the second pipeline with another model, which is not looked at
      have refused' : useModels name models q frame =
          (q.remodel name (models q.context.frameCount), [], .error fault) := refused _ camera_eq
      simp only [step, stepWith, refused p rfl, refused']
      exact ⟨h.bare_eq.trans (q.bare_remodel name _).symm, h.valid'.remodel name _⟩

theorem step (h : Mirrors name p q) (apart : p.settings.Pairwise ClassSettings.Apart) (a : Action)
    (models_eq : ∀ frame, a = .frame frame → frame.Fits p.camera →
      ∀ c ∈ p.classes, c.settings.name = name → c.model = models p.context.frameCount) :
    Mirrors name (p.step a).1 (q.runWith (useModels name models) (keepEnabled name [a])).1 := by
  obtain ⟨bare_eq, valid'⟩ := h.act a models_eq
  have apart' : (q.stepWith (useModels name models) a).1.settings.Pairwise ClassSettings.Apart := by
    rw [← settings_eq_of_bare bare_eq]
    exact apart_step p a apart
  have again : (q.runWith (useModels name models) (keepEnabled name [a])).1 =
      (q.stepWith (useModels name models) a).1.switch name (.enabled true) := step_update ..
  rw [again]
  refine ⟨?_, h.valid.step a, ?_, enabled_switch apart'⟩
  · rw [bare_switch_enabled, bare_eq]
  · rw [← step_update]
    exact valid'.step _

/-- The second run follows the first, if it has the models that the first goes by. -/
theorem run {camera : Camera} {tunables : Tunables α} {actions : List Action}
    (models_eq : ∀ before frame after, actions = before ++ .frame frame :: after →
      frame.Fits camera → ∀ c ∈ ((start camera tunables).run before).1.classes,
        c.settings.name = name →
          c.model = models ((start camera tunables).run before).1.context.frameCount)
    {before after : List Action} (split : actions = before ++ after) :
    Mirrors name ((start camera tunables).run before).1
      ((start camera tunables).runWith (useModels name models) (keepEnabled name before)).1 := by
  induction before using List.reverseRecOn generalizing after with
  | nil =>
    have valid := GridsValid.start camera tunables
    exact ⟨rfl, valid, valid, fun c hc => absurd hc List.not_mem_nil⟩
  | append_singleton before a ih =>
    rw [List.append_assoc] at split
    have camera_eq : ((start camera tunables).run before).1.camera = camera :=
      ((start camera tunables).fixed_run before).1
    rw [run_append, keepEnabled, List.flatMap_append, runWith_append]
    refine (ih split).step (apart_run camera tunables before) a fun frame here fits => ?_
    exact models_eq before frame after (here ▸ split) (camera_eq ▸ fits)

end Mirrors

/-! ### A frame on which the class is disabled -/

omit [Scalar α] in
theorem eq_of_name (apart : p.settings.Pairwise ClassSettings.Apart) {c c' : ClassState α}
    (hc : c ∈ p.classes) (hc' : c' ∈ p.classes) (same : c'.settings.name = c.settings.name) :
    c' = c := by
  have mine : c' ∈ p.own c.settings :=
    List.mem_filter.2 ⟨hc', by simp [ClassSettings.sharesWith, same]⟩
  rw [own_eq apart hc] at mine
  exact List.mem_singleton.1 mine

omit [Scalar α] in
theorem disables_iff (apart : p.settings.Pairwise ClassSettings.Apart) {c : ClassState α}
    (hc : c ∈ p.classes) : p.Disables c.settings.name ↔ c.flags.enabled = false := by
  constructor
  · rintro ⟨c', hc', same, disabled⟩
    rwa [eq_of_name apart hc hc' same] at disabled
  · exact fun disabled => ⟨c, hc, rfl, disabled⟩

/-- A class that is there stays, with its settings and its model. -/
theorem class_run (actions : List Action) {c : ClassState α} (hc : c ∈ p.classes) :
    ∃ c' ∈ (p.run actions).1.classes, c'.settings = c.settings ∧ c'.classify = c.classify := by
  refine run_invariant (P := fun p => ∃ c' ∈ p.classes, c'.settings = c.settings ∧
    c'.classify = c.classify) (fun p a ⟨c', hc', settings_eq, classify_eq⟩ => ?_)
    ⟨c, hc, rfl, rfl⟩ actions
  generalize hstep : p.step a = stepped
  have did : p.Transition a stepped := hstep ▸ p.transition a
  cases did with
  | added => exact ⟨c', List.mem_append_left _ hc', settings_eq, classify_eq⟩
  | switched =>
    rcases mem_modifyClass_of_mem hc' with hc' | hc'
    · exact ⟨c', hc', settings_eq, classify_eq⟩
    · exact ⟨_, hc', settings_eq, classify_eq⟩
  | processed =>
    refine ⟨_, List.mem_map_of_mem hc', ?_, ?_⟩
    · rw [ClassState.next_settings, settings_eq]
    · rw [ClassState.next_classify, classify_eq]
  | refused => exact ⟨c', hc', settings_eq, classify_eq⟩

theorem after_without (p : Pipeline α) (name : String) (frame : Frame) :
    (p.without name).after frame = (p.after frame).without name := by
  refine congrArg (Pipeline.mk p.camera p.tunables · (p.after frame).context) ?_
  simp only [Pipeline.after, without, List.filter_map, Function.comp_def, ClassState.next_settings]
  rfl

section
variable (off : ∀ c ∈ p.classes, c.settings.name = name → c.flags.enabled = false)

include off

theorem outcomesOf_without (frame : Frame) :
    (p.without name).outcomesOf frame = p.outcomesOf frame := by
  simp only [outcomesOf, without, List.filterMap_filter]
  refine List.filterMap_congr fun c hc => ?_
  by_cases named : c.settings.name = name
  · simp [ClassState.outcome?, named, off c hc named]
  · simp [named]
    rfl

theorem process_without {frame : Frame} (fits : frame.Fits p.camera) :
    (p.without name).process frame =
      ((p.after frame).without name, p.itemsFor frame, .ok (p.reportOf frame)) := by
  have fits' : frame.Fits (p.without name).camera := fits
  rw [process_of_fits fits', after_without]
  simp only [reportOf, itemsFor, outcomesOf_without off]
  rfl

theorem tracks?_after (frame : Frame) (rules : TrackingRules α)
    (rules_eq : ∀ c ∈ p.classes, c.tracker.rules = rules) :
    (p.after frame).tracks? name = (p.tracks? name).map
      (·.filter (p.context.frameCount ≤ ·.keptUntil rules.stalenessWindow)) := by
  simp only [tracks?, class?, Pipeline.after, List.find?_map, Function.comp_def,
    ClassState.next_settings, Option.map_map]
  refine Option.map_congr fun c hc => ?_
  have mem := List.mem_of_find?_eq_some hc
  have named : c.settings.name = name := by simpa using List.find?_some hc
  simp [ClassState.next, off c mem named, Tracker.prune, rules_eq c mem]

end

/-- The class of that name is the same all the time. -/
theorem class_of_run {camera : Camera} {tunables : Tunables α} {before after : List Action}
    {c c' : ClassState α} (hc : c ∈ ((start camera tunables).run (before ++ after)).1.classes)
    (hc' : c' ∈ ((start camera tunables).run before).1.classes)
    (same : c'.settings.name = c.settings.name) :
    c'.settings = c.settings ∧ c'.classify = c.classify := by
  obtain ⟨c'', hc'', settings_eq, classify_eq⟩ := class_run after hc'
  have later : c'' ∈ ((start camera tunables).run (before ++ after)).1.classes := by
    rw [run_append]
    exact hc''
  have class_eq : c'' = c := eq_of_name (apart_run ..) hc later (settings_eq ▸ same)
  rw [← settings_eq, ← classify_eq, class_eq]
  exact ⟨rfl, rfl⟩

/-- The class goes by its model, but is blind on the frames on which it is disabled. -/
theorem model_of_run {camera : Camera} {tunables : Tunables α} {before after : List Action}
    {frame : Frame} {c : ClassState α}
    (hc : c ∈ ((start camera tunables).run (before ++ .frame frame :: after)).1.classes)
    (fits : frame.Fits camera) {c' : ClassState α}
    (hc' : c' ∈ ((start camera tunables).run before).1.classes)
    (same : c'.settings.name = c.settings.name) :
    c'.model = if ((start camera tunables).run before).1.context.frameCount ∈
      (start camera tunables).disabledFrames c.settings.name (before ++ .frame frame :: after)
        then .blind else c.classify := by
  have camera_eq : ((start camera tunables).run before).1.camera = camera :=
    ((start camera tunables).fixed_run before).1
  have off_iff : ((start camera tunables).run before).1.context.frameCount ∈
      (start camera tunables).disabledFrames c'.settings.name (before ++ .frame frame :: after) ↔
        c'.flags.enabled = false :=
    (mem_disabledFrames_iff (camera_eq.symm ▸ fits)).trans (disables_iff (apart_run ..) hc')
  rw [ClassState.model, ← same, (class_of_run hc hc' same).2]
  by_cases enabled : c'.flags.enabled = true
  · rw [if_pos enabled, if_neg fun h => by simp [off_iff.1 h] at enabled]
  · rw [if_neg enabled, if_pos (off_iff.2 (by simpa using enabled))]

/-- Nothing that is said of a frame is of the class. -/
structure Unmentioned (settings : ClassSettings) (report : Report α) (items : List (Item α)) :
    Prop where
  summaries : ∀ summary ∈ report.classes, summary.classId ≠ settings.id
  detections : ∀ d ∈ report.detections, d.className ≠ settings.name
  items : ∀ item ∈ items, settings.owns item = false

theorem unmentioned_of_disabled (apart : p.settings.Pairwise ClassSettings.Apart)
    {c : ClassState α} (hc : c ∈ p.classes) (disabled : c.flags.enabled = false) (frame : Frame) :
    Unmentioned c.settings (p.reportOf frame) (p.itemsFor frame) := by
  have own_eq := own_eq apart hc
  have sole : ∀ c' ∈ p.own c.settings, c'.settings = c.settings := by
    intro c' hc'
    rw [own_eq] at hc'
    rw [List.mem_singleton.1 hc']
  have silent : p.ownOutcomes c.settings frame = [] := by
    rw [ownOutcomes, own_eq]
    simp [ClassState.outcome?, disabled]
  refine ⟨fun summary hsummary => ?_, fun d hd => ?_, fun item hitem => ?_⟩
  · have none_own := summaries_of_report sole frame
    rw [silent, List.map_nil] at none_own
    simpa using List.filter_eq_nil_iff.1 none_own summary hsummary
  · have none_own := detections_of_report sole frame
    rw [silent, List.flatMap_nil] at none_own
    simpa using List.filter_eq_nil_iff.1 none_own d hd
  · have none_own := items_of_class sole frame
    rw [silent, List.flatMap_nil] at none_own
    simpa using List.filter_eq_nil_iff.1 none_own item hitem

/-- Disabling a class is the same as its seeing nothing. In every run, let `off` be the frames on
which a class of the run is disabled, and take the run in which it is enabled all the time, but has
a blind model on these frames. After each action, the class has the same tracks in both runs, and
everything but the class is the same. A frame that the first run uses is used by the second, and
unless the class is disabled on it, the same is reported and handed on. If it is, all is as if the
class were not there: nothing is said of it, and its tracks only grow older. -/
theorem disabled_as_seeing_nothing (camera : Camera) (tunables : Tunables α)
    (actions : List Action) :
    ∀ c ∈ ((start camera tunables).run actions).1.classes,
      let name := c.settings.name
      let off := (start camera tunables).disabledFrames name actions
      let models : Nat → Classifier := fun number => if number ∈ off then .blind else c.classify
      ∀ before after, actions = before ++ after →
        let p := ((start camera tunables).run before).1
        let q := ((start camera tunables).runWith (useModels name models)
          (keepEnabled name before)).1
        (∀ c' ∈ q.classes, c'.settings.name = name → c'.flags.enabled = true) ∧
        p.tracks? name = q.tracks? name ∧ p.without name = q.without name ∧
        ∀ frame rest p' report items, after = .frame frame :: rest →
          p.process frame = (p', items, .ok report) →
            (p.context.frameCount ∈ off ↔ p.Disables name) ∧
            (∃ q' report' items', useModels name models q frame = (q', items', .ok report') ∧
              (p.context.frameCount ∉ off → report' = report ∧ items' = items)) ∧
            (p.context.frameCount ∈ off →
              (p.without name).process frame = (p'.without name, items, .ok report) ∧
              Unmentioned c.settings report items ∧
              p'.tracks? name = (p.tracks? name).map (·.filter
                (p.context.frameCount ≤ ·.keptUntil tunables.stalenessWindow))) := by
  intro c hc name off models before after split p q
  have apart : p.settings.Pairwise ClassSettings.Apart := apart_run camera tunables before
  have recorded := (Recorded.start camera tunables).run before
  have rules_eq : ∀ c' ∈ p.classes, c'.tracker.rules = tunables.trackingRules := by
    intro c' hc'
    rw [recorded.rules_eq c' hc', ((start camera tunables).fixed_run before).2]
    rfl
  have mirrors : Mirrors name p q := by
    refine Mirrors.run (fun before frame after split fits c' hc' same => ?_) split
    subst split
    exact model_of_run hc fits hc' same
  refine ⟨mirrors.enabled, ?tracks, ?others, ?frame⟩
  case tracks => rw [← tracks?_bare, mirrors.bare_eq, tracks?_bare]
  case others => rw [← without_bare, mirrors.bare_eq, without_bare]
  case frame =>
    rintro frame rest p' report items rfl used
    subst split
    obtain ⟨fits, rfl, rfl, rfl⟩ := of_process_eq_ok used
    have camera_eq : p.camera = camera := ((start camera tunables).fixed_run before).1
    have off_iff : p.context.frameCount ∈ off ↔ p.Disables name := mem_disabledFrames_iff fits
    have models_eq : ∀ c' ∈ p.classes, c'.settings.name = name →
        c'.model = models p.context.frameCount :=
      fun c' hc' same => model_of_run hc (camera_eq ▸ fits) hc' same
    obtain ⟨q', report', items', used', -, -, said⟩ := mirrors.frame fits models_eq
    refine ⟨off_iff, ⟨q', report', items', used', fun on => said (mt off_iff.2 on)⟩, fun hoff => ?_⟩
    obtain ⟨c', hc', same, disabled⟩ := off_iff.1 hoff
    have all_off : ∀ c' ∈ p.classes, c'.settings.name = name → c'.flags.enabled = false := by
      intro c'' hc'' same'
      exact (disables_iff apart hc'').1 (same' ▸ off_iff.1 hoff)
    have unmentioned := unmentioned_of_disabled apart hc' disabled frame
    rw [(class_of_run hc hc' same).1] at unmentioned
    exact ⟨process_without all_off fits, unmentioned, tracks?_after all_off frame _ rules_eq⟩

/-- A gate that is seen on a first frame and disabled on a second one. Its track is kept. -/
theorem gate_disabled_on_second_frame :
    let tunables : Tunables Float := ⟨1, 2, 3, 0, 1, 1, 0, 0⟩
    let gate : ClassSettings := .usual "gate" 1 .forward "gate.txt"
    let classify : Classifier := fun _ => .object 1
    let dark : Frame := ⟨.forward, .epoch, .filled 2 2 ⟨0, 0, 0⟩⟩
    let before : List Action := [.add gate classify, .frame dark, .update "gate" (.enabled false)]
    let off := (start .forward tunables).disabledFrames "gate" (before ++ [.frame dark])
    let models : Nat → Classifier := fun number => if number ∈ off then .blind else classify
    let p := ((start .forward tunables).run before).1
    let q := ((start .forward tunables).runWith (useModels "gate" models)
      (keepEnabled "gate" before)).1
    off = [1] ∧ ∃ t, p.tracks? "gate" = some [t] ∧ q.tracks? "gate" = some [t] ∧
      ∃ p' report items, p.process dark = (p', items, .ok report) ∧
        Unmentioned gate report items ∧ p'.tracks? "gate" = some [t] := by
  intro tunables gate classify dark before off models p q
  have added : ClassState.start tunables gate classify ∈
      ((start .forward tunables).run [.add gate classify]).1.classes := List.mem_singleton_self _
  obtain ⟨c, hc, settings_eq, classify_eq⟩ :
      ∃ c ∈ ((start .forward tunables).run (before ++ [.frame dark])).1.classes,
        c.settings = gate ∧ c.classify = classify := by
    rw [show before ++ [.frame dark] = [.add gate classify] ++
      [.frame dark, .update "gate" (.enabled false), .frame dark] from rfl, run_append]
    exact class_run _ added
  have seen := disabled_as_seeing_nothing .forward tunables _ c hc before [.frame dark] rfl
  rw [settings_eq, classify_eq] at seen
  obtain ⟨-, t, -, -, -, -, tracks_eq, stamp, fits, -⟩ := gate_seen_twice
  obtain ⟨-, same_tracks, -, frames⟩ := seen
  obtain ⟨-, -, disabled⟩ := frames dark [] _ _ _ rfl (process_of_fits fits)
  have off_eq : off = [1] := rfl
  obtain ⟨-, unmentioned, aged⟩ := disabled (by decide)
  have tracks_now : p.tracks? "gate" = some [t] := by
    have p_eq : p = (((start .forward tunables).run [.add gate classify, .frame dark]).1.step
      (.update "gate" (.enabled false))).1 := rfl
    rw [p_eq, step_update, tracks?_switch]
    exact tracks_eq
  have kept : 1 ≤ t.keptUntil tunables.stalenessWindow := by
    rw [Track.keptUntil, stamp]
    decide
  refine ⟨off_eq, t, tracks_now, same_tracks.symm.trans tracks_now, _, _, _, process_of_fits fits,
    unmentioned, aged.trans ?_⟩
  rw [show ((start .forward tunables).run before).1.tracks? gate.name = _ from tracks_now,
    Option.map_some]
  exact congrArg some (List.filter_cons_of_pos (decide_eq_true kept))

end Pipeline

end ObjectTracking
