import ObjectTracking.Pipeline.FromSettings
import ObjectTracking.Proofs.Run.Published
import ObjectTracking.Proofs.Settings.Checked

/-!
# Pipelines that come from settings

Registering the classes of checked settings one after the other is never refused, whichever of their
models load (`foldlM_addLoaded`). As classes keep their settings, each blob that one of them looks at
later is fitted and scored by a model that exists (`works_of_read`).
-/

namespace ObjectTracking

/-! ### Known models -/

section
variable {α : Type} [Scalar α]

theorem Shape.exists_of_known {model : ShapeModel} (known : ∀ name, model ≠ .unknown name)
    (blob : Blob) : ∃ shape : Shape α, Shape.ofBlob? model blob = some shape := by
  cases model with
  | rectangle => exact ⟨_, rfl⟩
  | unknown name => exact absurd rfl (known name)

namespace Confidence

theorem ofCounts_ne_unknownModel (observed : Nat) (expected : Int) :
    (ofCounts observed expected : Confidence α) ≠ .unknownModel := by
  unfold ofCounts
  split <;> nofun

theorem ofShape_ne_unknownModel {model : ConfidenceModel} (known : ∀ name, model ≠ .unknown name)
    (shape : Shape α) (stride : Nat) : ofShape model shape stride ≠ .unknownModel := by
  unfold ofShape
  cases model with
  | rectangle => exact ofCounts_ne_unknownModel _ _
  | circle => exact ofCounts_ne_unknownModel _ _
  | unknown name => exact absurd rfl (known name)

end Confidence

/-- A class that makes sense fits and scores each blob, and turns it down for nothing but that. -/
theorem ClassSettings.Sound.scored {settings : ClassSettings} (sound : settings.Sound)
    (tunables : Tunables α) (stride : Nat) (blob : Blob) :
    ∃ shape, Shape.ofBlob? settings.shapeModel blob = some shape ∧
      let confidence := Confidence.ofShape settings.confidenceModel shape stride
      confidence ≠ .unknownModel ∧
      (ClassState.accepted? settings tunables stride blob = none →
        confidence = .degenerate ∨ ∃ score, confidence = .score score ∧
          Scalar.lt (tunables.minConfidenceFor settings.elongated) score = false) := by
  obtain ⟨shape, fitted⟩ := Shape.exists_of_known (α := α) sound.shape_known blob
  have known := Confidence.ofShape_ne_unknownModel sound.confidence_known shape stride
  refine ⟨shape, fitted, known, fun rejected => ?_⟩
  cases confidence : Confidence.ofShape settings.confidenceModel shape stride with
  | degenerate => exact .inl rfl
  | unknownModel => exact absurd confidence known
  | score score =>
    refine .inr ⟨score, rfl, ?_⟩
    by_contra above
    simp [ClassState.accepted?, fitted, confidence, Confidence.accepts, Confidence.value?, above]
      at rejected

end

/-! ### Registering what loads -/

/-- What is told of a class whose switches are as given. -/
def ClassSettings.info (c : ClassSettings) : ClassInfo :=
  ⟨c.name, c.id, c.camera, ⟨c.enabled, c.publishMask⟩⟩

namespace Settings

/-- The model of a class, if it loads. -/
def model? (settings : Settings) (content : String → Option String) (c : ClassSettings) :
    Option DecisionTree :=
  let path := settings.resolve c.model
  (DecisionTree.load c.name path (content path)).toOption

/-- The class with its model, if that loads. -/
def loaded? (settings : Settings) (content : String → Option String) (tunables : Tunables Float)
    (c : ClassSettings) : Option (ClassState Float) :=
  (settings.model? content c).map fun tree => .start tunables c tree.classify

end Settings

namespace Pipeline
variable {settings : Settings} {content : String → Option String} {p : Pipeline Float}

theorem settings_of_loaded? {tunables : Tunables Float} {c : ClassSettings}
    {state : ClassState Float} (h : settings.loaded? content tunables c = some state) :
    state.settings = c := by
  obtain ⟨tree, -, rfl⟩ := Option.map_eq_some_iff.1 h
  rfl

/-- A class that is unlike those that are there is added if its model loads. -/
theorem addLoaded_of_apart (settings : Settings) (content : String → Option String)
    {c : ClassSettings} (camera_eq : c.camera = p.camera) (apart : ∀ s ∈ p.settings, s.Apart c) :
    addLoaded settings content p c =
      .ok { p with classes := p.classes ++ (settings.loaded? content p.tunables c).toList } := by
  have new : ¬ (p.classes.any fun c' =>
      c'.settings.name = c.name || c'.settings.id = c.id) = true := by
    intro taken
    obtain ⟨c', hc', same⟩ := List.any_eq_true.1 taken
    have other := apart c'.settings (List.mem_map_of_mem hc')
    simp [other.name_ne, other.id_ne] at same
  simp only [addLoaded, Settings.loaded?, Settings.model?]
  cases DecisionTree.load c.name (settings.resolve c.model)
      (content (settings.resolve c.model)) with
  | error fault => simp [Except.toOption]
  | ok tree =>
    simp only [addClass, camera_eq, ne_eq, not_true_eq_false, if_false, if_neg new]
    rfl

/-- So are all classes of a list, if each of them is unlike the others too. -/
theorem foldlM_addLoaded {classes : List ClassSettings}
    (cameras : ∀ c ∈ classes, c.camera = p.camera) (new : ∀ s ∈ p.settings, ∀ c ∈ classes, s.Apart c)
    (apart : classes.Pairwise ClassSettings.Apart) :
    classes.foldlM (addLoaded settings content) p =
      .ok { p with
        classes := p.classes ++ classes.filterMap (settings.loaded? content p.tunables) } := by
  induction classes generalizing p with
  | nil => simp [pure, Except.pure]
  | cons c rest ih =>
    obtain ⟨camera_eq, cameras⟩ := List.forall_mem_cons.1 cameras
    obtain ⟨apart_c, apart⟩ := List.pairwise_cons.1 apart
    have added := addLoaded_of_apart settings content camera_eq fun s hs => new s hs c (by simp)
    -- whether the class was added or left out, those to come are unlike all that are there
    set next : Pipeline Float :=
      { p with classes := p.classes ++ (settings.loaded? content p.tunables c).toList }
    have later : ∀ s ∈ next.settings, ∀ c' ∈ rest, s.Apart c' := by
      intro s hs c' hc'
      obtain ⟨state, hstate, rfl⟩ := List.mem_map.1 hs
      rcases List.mem_append.1 hstate with hstate | hstate
      · exact new _ (List.mem_map_of_mem hstate) c' (List.mem_cons_of_mem _ hc')
      · rw [settings_of_loaded? (Option.mem_toList.1 hstate)]
        exact apart_c c' hc'
    rw [List.foldlM_cons, added]
    refine (ih (p := next) cameras later apart).trans ?_
    rw [filterMap_cons_toList, ← List.append_assoc]

/-- Whatever is read off a new class alike for all models is that of the classes whose models load.
-/
theorem map_loaded {β : Type} (classes : List ClassSettings) {tunables : Tunables Float}
    {told : ClassState Float → β} {given : ClassSettings → β}
    (alike : ∀ c classify, told (.start tunables c classify) = given c) :
    (classes.filterMap (settings.loaded? content tunables)).map told =
      (classes.filter fun c => (settings.model? content c).isSome).map given := by
  induction classes with
  | nil => rfl
  | cons c rest ih =>
    rw [filterMap_cons_toList, List.map_append, ih, List.filter_cons]
    simp only [Settings.loaded?]
    cases settings.model? content c with
    | none => rfl
    | some tree =>
      rw [if_pos (Option.isSome_some), List.map_cons, ← alike c tree.classify]
      rfl

/-! ### Runs -/

theorem settings_run_of_no_add {α : Type} [Scalar α] (p : Pipeline α) {actions : List Action}
    (no_add : ∀ settings classify, .add settings classify ∉ actions) :
    (p.run actions).1.settings = p.settings := by
  rw [settings_run, List.filterMap_eq_nil_iff.2, List.append_nil]
  rintro ⟨a, answer⟩ done
  have done := (List.of_mem_zip done).1
  cases a with
  | add settings classify => exact absurd done (no_add settings classify)
  | _ => rfl

/-- Settings that have been read make a pipeline for each camera. It looks for exactly the classes of
that camera whose models load, in their order, switched as given, and no two of them have a name or
an id in common. On later frames, however the classes are switched, every blob is fitted and scored
by a model that exists: it is turned down only if it is too small to be scored, or for its score. -/
theorem works_of_read {settings : Settings} (read : settings.Read) (camera : Camera)
    (content : String → Option String) :
    ∃ p, ofSettings camera settings content = .ok p ∧
      p.camera = camera ∧ p.tunables = settings.tunables ∧
      p.context = .start settings.tunables.stride ∧
      (∀ c ∈ p.classes, settings.loaded? content settings.tunables c.settings = some c) ∧
      p.classInfos = ((settings.classes.filter (·.camera = camera)).filter
        fun c => (settings.model? content c).isSome).map ClassSettings.info ∧
      (p.classInfos.map (·.name)).Nodup ∧ (p.classInfos.map (·.id)).Nodup ∧
      ∀ actions, (∀ added classify, .add added classify ∉ actions) →
        let q := (p.run actions).1
        ∀ frame, ∀ c ∈ q.enabled, ∀ blob ∈ (c.found (q.samplesOf frame) q.tunables).2,
          ∃ shape, Shape.ofBlob? c.settings.shapeModel blob = some shape ∧
            let confidence :=
              Confidence.ofShape c.settings.confidenceModel shape (q.samplesOf frame).stride
            confidence ≠ .unknownModel ∧
            (ClassState.accepted? c.settings q.tunables (q.samplesOf frame).stride blob = none →
              confidence = .degenerate ∨ ∃ score, confidence = .score score ∧
                Scalar.lt (q.tunables.minConfidenceFor c.settings.elongated) score = false) := by
  obtain ⟨sounds, apart⟩ := read.classes
  have apart : (settings.classesFor camera).Pairwise ClassSettings.Apart := apart.filter _
  have cameras : ∀ c ∈ settings.classesFor camera, c.camera = camera :=
    fun c hc => of_decide_eq_true (List.mem_filter.1 hc).2
  set loads := (settings.classesFor camera).filter fun c => (settings.model? content c).isSome
  have loads_apart : loads.Pairwise ClassSettings.Apart := apart.filter _
  set p : Pipeline Float := ⟨camera, settings.tunables,
    (settings.classesFor camera).filterMap (settings.loaded? content settings.tunables),
    .start settings.tunables.stride⟩
  have built : ofSettings camera settings content = .ok p :=
    foldlM_addLoaded cameras (fun _ hs => absurd hs List.not_mem_nil) apart
  have settings_eq : p.settings = loads :=
    (map_loaded _ fun _ _ => rfl).trans (List.map_id' _)
  have infos_eq : p.classInfos = loads.map ClassSettings.info := map_loaded _ fun _ _ => rfl
  refine ⟨p, built, rfl, rfl, rfl, fun c hc => ?loaded, infos_eq, ?names, ?ids,
    fun actions no_add frame c hc blob _ => ?blobs⟩
  case loaded =>
    obtain ⟨given, -, hgiven⟩ := List.mem_filterMap.1 hc
    rw [settings_of_loaded? hgiven]
    exact hgiven
  case names =>
    rw [infos_eq, List.map_map]
    exact List.pairwise_map.2 (loads_apart.imp (·.name_ne))
  case ids =>
    rw [infos_eq, List.map_map]
    exact List.pairwise_map.2 (loads_apart.imp (·.id_ne))
  case blobs =>
    have sound : c.settings.Sound := by
      have given : c.settings ∈ (p.run actions).1.settings :=
        List.mem_map_of_mem (List.mem_filter.1 hc).1
      rw [p.settings_run_of_no_add no_add, settings_eq] at given
      exact sounds _ (List.mem_filter.1 (List.mem_filter.1 given).1).1
    exact sound.scored (p.run actions).1.tunables ((p.run actions).1.samplesOf frame).stride blob

/-- Of two classes the second has no model. -/
theorem works_without_one_model :
    let text := "[tunables]\ndistance_tolerance = 20.0\n" ++
      "[[classes]]\nname = \"gate\"\nid = 1\ncamera = \"forward\"\nmodel = \"gate.json\"\n" ++
      "[[classes]]\nname = \"buoy\"\nid = 2\ncamera = \"forward\"\nmodel = \"buoy.json\"\n"
    let tree := "\x7b\"nodes\":[\x7b\"leaf\":\x7b\"label\":1\x7d\x7d]\x7d"
    let content (path : String) : Option String := if path = "./gate.json" then some tree else none
    ∃ settings p, Settings.ofText "." text = .ok settings ∧
      ofSettings .forward settings content = .ok p ∧
      p.classInfos = [⟨"gate", 1, .forward, ⟨true, false⟩⟩] := by
  intro text tree content
  have read : (Settings.ofText "." text).toOption.map (fun settings =>
      ((settings.classesFor .forward).filter fun c => (settings.model? content c).isSome).map
        ClassSettings.info) = some [⟨"gate", 1, .forward, ⟨true, false⟩⟩] := by decide +kernel
  obtain ⟨settings, given, infos⟩ := Option.map_eq_some_iff.1 read
  have given : Settings.ofText "." text = .ok settings := by
    cases found : Settings.ofText "." text with
    | error fault =>
      rw [found] at given
      cases given
    | ok _ =>
      rw [found] at given
      exact congrArg Except.ok (Option.some.inj given)
  obtain ⟨p, built, -, -, -, -, infos_eq, -⟩ := works_of_read (.inl ⟨_, _, given⟩) .forward content
  exact ⟨settings, p, given, built, infos_eq.trans infos⟩

end Pipeline

end ObjectTracking
