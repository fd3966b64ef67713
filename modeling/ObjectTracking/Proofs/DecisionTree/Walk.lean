import Mathlib.Data.List.Basic
import Mathlib.Data.List.Perm.Subperm
import ObjectTracking.DecisionTree.Reader

/-!
# Walks through decision trees

A list of nodes makes a tree exactly if it is not empty and each split is in order (`IsTree`,
`ofNodes_eq_ok_iff`). A walk that looks for its nodes and features without any check (`walk?`) then
finds all of them, moves forward only and so is over before it has seen more nodes than there are.
Trees may share nodes: a leaf can be reached on many paths, but only one path from the root agrees
with the features (`Leads.unique`), and its leaf is what a pixel is labelled by
(`classify_agreeing_leaf`).
-/

namespace ObjectTracking

/-- The feature with this number, if there is one. -/
def Features.value? (features : Features) (feature : Nat) : Option UInt8 :=
  if known : feature < Features.count then some (features.get ⟨feature, known⟩) else none

theorem TreeNode.fault?_split_eq_none_iff {index size feature below above : Nat} {threshold : Float} :
    (split feature threshold below above).fault? index size = none ↔
      feature < 5 ∧ threshold.isFinite = true ∧ (index < below ∧ below < size) ∧
        index < above ∧ above < size := by
  constructor
  · intro h
    obtain ⟨known, children⟩ := children_of_fault?_eq_none h
    refine ⟨known, ?_, children⟩
    rw [fault?, if_neg (Nat.not_le.2 known)] at h
    cases finite : threshold.isFinite with
    | true => rfl
    | false => simp [finite] at h
  · rintro ⟨known, finite, forward, forward'⟩
    have below_ok : ¬ (below ≤ index ∨ size ≤ below) := by omega
    have above_ok : ¬ (above ≤ index ∨ size ≤ above) := by omega
    simp [fault?, Nat.not_le.2 known, finite, below_ok, above_ok]

namespace DecisionTree
variable {nodes : Array TreeNode} {features : Features} {i leaf : Nat}

/-! ### Which nodes make a tree -/

/-- There are nodes, and each split tests a known feature against a finite threshold and leads to
later nodes. -/
structure IsTree (nodes : Array TreeNode) : Prop where
  size_pos : 0 < nodes.size
  split : ∀ {i feature threshold below above},
    nodes[i]? = some (.split feature threshold below above) →
      feature < 5 ∧ threshold.isFinite = true ∧ (i < below ∧ below < nodes.size) ∧
        i < above ∧ above < nodes.size

theorem isTree (tree : DecisionTree) : IsTree tree.nodes where
  size_pos := tree.size_pos
  split := by
    intro i feature threshold below above found
    obtain ⟨hi, node⟩ := Array.getElem?_eq_some_iff.1 found
    have sound := tree.sound i hi
    rw [node] at sound
    exact TreeNode.fault?_split_eq_none_iff.1 sound

theorem IsTree.sound (h : IsTree nodes) (i : Nat) (hi : i < nodes.size) :
    nodes[i].fault? i nodes.size = none := by
  cases node : nodes[i] with
  | leaf code => rfl
  | split feature threshold below above =>
    exact TreeNode.fault?_split_eq_none_iff.2 (h.split (by rw [Array.getElem?_eq_getElem hi, node]))

/-- A list of nodes passes the checks if it makes a tree, and the tree consists of these nodes. -/
theorem ofNodes_eq_ok_iff {tree : DecisionTree} : ofNodes nodes = .ok tree ↔ tree.nodes = nodes := by
  unfold ofNodes
  constructor
  · intro h
    split at h
    · split at h
      · cases h
      · rw [← Except.ok.inj h]
    · cases h
  · rintro rfl
    rw [dif_pos tree.size_pos]
    split
    · rename_i fault found
      obtain ⟨⟨node, i⟩, hmem, faulty⟩ := List.exists_of_findSome?_eq_some found
      have at_i := List.mem_zipIdx_iff_getElem?.1 hmem
      rw [Array.getElem?_toList] at at_i
      obtain ⟨hi, here⟩ := Array.getElem?_eq_some_iff.1 at_i
      have sound := tree.sound i hi
      rw [here] at sound
      cases sound.symm.trans faulty
    · rfl

theorem exists_ofNodes_iff : (∃ tree, ofNodes nodes = .ok tree) ↔ IsTree nodes := by
  constructor
  · rintro ⟨tree, h⟩
    rw [← ofNodes_eq_ok_iff.1 h]
    exact tree.isTree
  · intro h
    exact ⟨⟨nodes, h.size_pos, h.sound⟩, ofNodes_eq_ok_iff.2 rfl⟩

/-- A text describes a tree if its nodes are those that stand in the text, and nothing follows. -/
theorem ofText_eq_ok_iff {text : String} {tree : DecisionTree} :
    ofText text = .ok tree ↔ ∃ value rest, Json.readPrefix text.toList = some (value, rest) ∧
      nodesOfJson? value = some tree.nodes.toList ∧ Json.isEnd rest = true := by
  unfold ofText
  constructor
  · intro h
    split at h
    · cases h
    rename_i value rest read
    split at h
    · cases h
    rename_i listed described
    split at h
    · cases h
    rename_i made checked
    split at h
    · rename_i ended
      obtain rfl := Except.ok.inj h
      refine ⟨value, rest, read, ?_, ended⟩
      rw [ofNodes_eq_ok_iff.1 checked, described]
    · cases h
  · rintro ⟨value, rest, read, described, ended⟩
    have made : ofNodes tree.nodes.toList.toArray = .ok tree := ofNodes_eq_ok_iff.2 rfl
    simp only [read, described, made, ended, if_true]

theorem load_eq_ok_iff {className path : String} {content : Option String} {tree : DecisionTree} :
    load className path content = .ok tree ↔ ∃ text, content = some text ∧ ofText text = .ok tree := by
  cases content with
  | none => simp [load]
  | some text => cases h : ofText text <;> simp [load, h, Except.mapError]

/-! ### Walks -/

/-- A walk through nodes that may not make a tree, with the nodes it visits. It comes to nothing if
it looks for a node or a feature that does not exist, or is not over after so many nodes. -/
def walk? (nodes : Array TreeNode) (features : Features) :
    (steps : Nat) → Nat → Option (List Nat × UInt8)
  | 0, _ => none
  | steps + 1, i =>
    match nodes[i]? with
    | none => none
    | some (.leaf code) => some ([i], code)
    | some (.split feature threshold below above) => do
      let value ← features.value? feature
      let (visited, code) ←
        walk? nodes features steps (if value.toFloat ≤ threshold then below else above)
      return (i :: visited, code)

/-- A split on a path, and what the path says about it. -/
structure Comparison where
  node : Nat
  feature : Nat
  threshold : Float
  /-- The feature is at most the threshold. -/
  holds : Bool

def Comparison.Agrees (c : Comparison) (features : Features) : Prop :=
  ∃ value, features.value? c.feature = some value ∧ (c.holds = true ↔ value.toFloat ≤ c.threshold)

/-- A path from a node to a leaf, whatever the features. -/
inductive Leads (nodes : Array TreeNode) : Nat → List Comparison → Nat → Prop where
  | leaf {i : Nat} {code : UInt8} (here : nodes[i]? = some (.leaf code)) : Leads nodes i [] i
  | split {i feature below above leaf : Nat} {threshold : Float} {path : List Comparison}
      (here : nodes[i]? = some (.split feature threshold below above)) (holds : Bool)
      (rest : Leads nodes (if holds then below else above) path leaf) :
      Leads nodes i (⟨i, feature, threshold, holds⟩ :: path) leaf

def visited (path : List Comparison) (leaf : Nat) : List Nat := path.map (·.node) ++ [leaf]

/-- Places in a list of that size, each behind the one before, and none before `i`. -/
structure Onward (size i : Nat) (places : List Nat) : Prop where
  order : places.Pairwise (· < ·)
  within : ∀ j ∈ places, i ≤ j ∧ j < size

namespace Onward
variable {size child : Nat} {places : List Nat}

theorem single (hi : i < size) : Onward size i [i] where
  order := List.pairwise_singleton ..
  within := by
    intro j hj
    obtain rfl := List.mem_singleton.1 hj
    exact ⟨Nat.le_refl _, hi⟩

theorem cons (h : Onward size child places) (later : i < child) (hi : i < size) :
    Onward size i (i :: places) where
  order := List.pairwise_cons.2 ⟨fun j hj => Nat.lt_of_lt_of_le later (h.within j hj).1, h.order⟩
  within := by
    intro j hj
    rcases List.mem_cons.1 hj with rfl | hj
    · exact ⟨Nat.le_refl _, hi⟩
    · have := h.within j hj
      omega

theorem length_le (h : Onward size i places) : places.length ≤ size := by
  have once : places.Nodup := h.order.imp Nat.ne_of_lt
  have inside : places ⊆ List.range size := fun j hj => List.mem_range.2 (h.within j hj).2
  have le := (List.subperm_of_subset once inside).length_le
  rwa [List.length_range] at le

end Onward

namespace Leads
variable {path path' : List Comparison} {leaf' : Nat}

theorem size_of_found {node : TreeNode} (here : nodes[i]? = some node) : i < nodes.size :=
  (Array.getElem?_eq_some_iff.1 here).1

/-- A path moves forward and stays inside of the list. -/
theorem onward (h : Leads nodes i path leaf) (tree : IsTree nodes) :
    Onward nodes.size i (visited path leaf) := by
  induction h with
  | leaf here => exact .single (size_of_found here)
  | @split i feature below above _ _ _ here holds _ ih =>
    obtain ⟨-, -, below_later, above_later⟩ := tree.split here
    refine ih.cons ?_ (size_of_found here)
    split
    · exact below_later.1
    · exact above_later.1

/-- Two paths from a node that agree with the same features are one. -/
theorem unique (h : Leads nodes i path leaf) (agrees : ∀ c ∈ path, c.Agrees features)
    (h' : Leads nodes i path' leaf') (agrees' : ∀ c ∈ path', c.Agrees features) :
    path' = path ∧ leaf' = leaf := by
  induction h generalizing path' with
  | leaf here =>
    cases h' with
    | leaf _ => exact ⟨rfl, rfl⟩
    | split here' _ _ => cases here.symm.trans here'
  | split here holds _ ih =>
    cases h' with
    | leaf here' => cases here.symm.trans here'
    | split here' holds' rest' =>
      cases here.symm.trans here'
      obtain ⟨⟨value, found, iff⟩, others⟩ := List.forall_mem_cons.1 agrees
      obtain ⟨⟨value', found', iff'⟩, others'⟩ := List.forall_mem_cons.1 agrees'
      cases found.symm.trans found'
      -- both say the truth about the same comparison
      obtain rfl : holds = holds' := Bool.eq_iff_iff.2 (iff.trans iff'.symm)
      obtain ⟨rfl, rfl⟩ := ih others rest' others'
      exact ⟨rfl, rfl⟩

/-- A walk follows the path that agrees with the features. -/
theorem walk?_eq (h : Leads nodes i path leaf) (agrees : ∀ c ∈ path, c.Agrees features)
    {code : UInt8} (label : nodes[leaf]? = some (.leaf code)) {steps : Nat}
    (enough : (visited path leaf).length ≤ steps) :
    walk? nodes features steps i = some (visited path leaf, code) := by
  induction h generalizing steps with
  | leaf here =>
    cases steps with
    | zero => cases enough
    | succ steps => simp [walk?, label, visited]
  | @split i feature below above _ threshold _ here holds _ ih =>
    obtain ⟨⟨value, found, iff⟩, agrees⟩ := List.forall_mem_cons.1 agrees
    have next : (if value.toFloat ≤ threshold then below else above) =
        if holds then below else above := by
      simp only [iff]
    cases steps with
    | zero => cases enough
    | succ steps =>
      have rest := ih agrees label (Nat.le_of_succ_le_succ enough)
      simp only [walk?, here, found, Option.bind_eq_bind, Option.bind_some, next, rest]
      rfl

end Leads

/-- From every node of a tree there is a path that agrees with the features, and its leaf has the
label that the walk from that node ends with. -/
theorem exists_agreeing_path (tree : DecisionTree) (features : Features) (i : Nat)
    (hi : i < tree.nodes.size) :
    ∃ path leaf code, Leads tree.nodes i path leaf ∧ (∀ c ∈ path, c.Agrees features) ∧
      tree.nodes[leaf]? = some (.leaf code) ∧ tree.labelFrom features i hi = Label.ofCode code := by
  fun_induction labelFrom tree features i hi with
  | case1 i hi code node =>
    have here : tree.nodes[i]? = some (.leaf code) := by rw [Array.getElem?_eq_getElem hi, node]
    exact ⟨[], i, code, .leaf here, fun _ => nofun, here, rfl⟩
  | case2 i hi feature threshold below above node children le ih =>
    have here : tree.nodes[i]? = some (.split feature threshold below above) := by
      rw [Array.getElem?_eq_getElem hi, node]
    obtain ⟨path, leaf, code, leads, agrees, label, result⟩ := ih
    refine ⟨_, leaf, code, .split here true leads, List.forall_mem_cons.2 ⟨?_, agrees⟩, label, result⟩
    exact ⟨_, dif_pos children.1, iff_of_true rfl le⟩
  | case3 i hi feature threshold below above node children gt ih =>
    have here : tree.nodes[i]? = some (.split feature threshold below above) := by
      rw [Array.getElem?_eq_getElem hi, node]
    obtain ⟨path, leaf, code, leads, agrees, label, result⟩ := ih
    refine ⟨_, leaf, code, .split here false leads, List.forall_mem_cons.2 ⟨?_, agrees⟩, label, result⟩
    exact ⟨_, dif_pos children.1, iff_of_false nofun gt⟩

theorem ofCode_eq_nothing_iff {code : UInt8} : Label.ofCode code = .nothing ↔ code = 0 := by
  unfold Label.ofCode
  split <;> simp [*]

/-- Exactly the lists that are trees pass the checks, and whatever is read from a file was checked.
In a tree, a walk from the root that checks nothing finds all that it looks for, moves forward only,
and is over before it has seen more nodes than there are; a pixel gets the label of the leaf on the
one path from the root that agrees with its features. -/
theorem classify_agreeing_leaf :
    (∀ nodes, (∃ tree, ofNodes nodes = .ok tree) ↔ IsTree nodes) ∧
    (∀ nodes tree, ofNodes nodes = .ok tree ↔ tree.nodes = nodes) ∧
    (∀ text tree, ofText text = .ok tree ↔
      ∃ value rest, Json.readPrefix text.toList = some (value, rest) ∧
        nodesOfJson? value = some tree.nodes.toList ∧ Json.isEnd rest = true) ∧
    (∀ className path content tree, load className path content = .ok tree ↔
      ∃ text, content = some text ∧ ofText text = .ok tree) ∧
    ∀ tree : DecisionTree, IsTree tree.nodes ∧ ∀ features, ∃ path leaf code,
      (∀ path' leaf', Leads tree.nodes 0 path' leaf' ∧ (∀ c ∈ path', c.Agrees features) ↔
        path' = path ∧ leaf' = leaf) ∧
      walk? tree.nodes features tree.nodes.size 0 = some (visited path leaf, code) ∧
      (visited path leaf).Pairwise (· < ·) ∧ (∀ i ∈ visited path leaf, i < tree.nodes.size) ∧
      (visited path leaf).length ≤ tree.nodes.size ∧
      tree.nodes[leaf]? = some (.leaf code) ∧
      tree.classify features = Label.ofCode code ∧
      (tree.classify features = .nothing ↔ code = 0) := by
  refine ⟨fun _ => exists_ofNodes_iff, fun _ _ => ofNodes_eq_ok_iff, fun _ _ => ofText_eq_ok_iff,
    fun _ _ _ _ => load_eq_ok_iff, fun tree => ⟨tree.isTree, fun features => ?_⟩⟩
  obtain ⟨path, leaf, code, leads, agrees, label, result⟩ :=
    tree.exists_agreeing_path features 0 tree.size_pos
  have onward := leads.onward tree.isTree
  have classified : tree.classify features = Label.ofCode code := result
  refine ⟨path, leaf, code, fun path' leaf' => ⟨?_, ?_⟩, leads.walk?_eq agrees label onward.length_le,
    onward.order, fun i hi => (onward.within i hi).2, onward.length_le, label, classified, ?_⟩
  · rintro ⟨leads', agrees'⟩
    exact leads.unique agrees leads' agrees'
  · rintro ⟨rfl, rfl⟩
    exact ⟨leads, agrees⟩
  · rw [classified]
    exact ofCode_eq_nothing_iff

end DecisionTree

end ObjectTracking
