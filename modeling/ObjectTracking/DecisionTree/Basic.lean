import ObjectTracking.Label

/-! # Decision trees

A tree is a flat list of nodes, root first. A list makes a tree when it is not empty and every
split tests a known feature against a finite threshold and leads to two later nodes of the list,
so that a walk from the root moves forward and ends at a leaf. -/

namespace ObjectTracking

/-- A node of a decision tree; children are positions in the list of nodes. -/
inductive TreeNode where
  /-- On to `below` where the feature is at most the threshold, else to `above`. -/
  | split (feature : Nat) (threshold : Float) (below above : Nat)
  | leaf (label : UInt8)
  deriving Inhabited

/-- Why a list of nodes makes no tree. -/
inductive TreeFault where
  | noNodes
  | unknownFeature (node feature : Nat)
  | nonFiniteThreshold (node : Nat)
  | invalidChild (node child : Nat)
  deriving DecidableEq, Repr

namespace TreeFault

def reason : TreeFault → String
  | noNodes => "tree has no nodes"
  | unknownFeature node feature => s!"node {node} splits on unknown feature {feature}"
  | nonFiniteThreshold node => s!"node {node} has a non-finite threshold"
  | invalidChild node child => s!"node {node} has invalid child {child}"

end TreeFault

/-- What is wrong with a node at position `index` of a list of `size` nodes: the feature is looked
at first, then the threshold, then the lower and the upper child. -/
def TreeNode.fault? (index size : Nat) : TreeNode → Option TreeFault
  | leaf _ => none
  | split feature threshold below above =>
    if Features.count ≤ feature then some (.unknownFeature index feature)
    else if !threshold.isFinite then some (.nonFiniteThreshold index)
    else if below ≤ index ∨ size ≤ below then some (.invalidChild index below)
    else if above ≤ index ∨ size ≤ above then some (.invalidChild index above)
    else none

theorem TreeNode.children_of_fault?_eq_none {index size feature below above : Nat}
    {threshold : Float} (h : (split feature threshold below above).fault? index size = none) :
    feature < Features.count ∧ (index < below ∧ below < size) ∧ index < above ∧ above < size := by
  by_cases unknown : Features.count ≤ feature
  · simp [fault?, unknown] at h
  by_cases finite : threshold.isFinite
  · by_cases below_bad : below ≤ index ∨ size ≤ below
    · simp [fault?, unknown, finite, below_bad] at h
    by_cases above_bad : above ≤ index ∨ size ≤ above
    · simp [fault?, unknown, finite, below_bad, above_bad] at h
    omega
  · simp [fault?, unknown, finite] at h

/-- A checked list of nodes. -/
structure DecisionTree where
  nodes : Array TreeNode
  size_pos : 0 < nodes.size
  sound : ∀ (i : Nat) (h : i < nodes.size), nodes[i].fault? i nodes.size = none

namespace DecisionTree

/-- The tree of a list of nodes, or the first fault found going through the list. -/
def ofNodes (nodes : Array TreeNode) : Except TreeFault DecisionTree :=
  if size_pos : 0 < nodes.size then
    match h : nodes.toList.zipIdx.findSome? fun (node, i) => node.fault? i nodes.size with
    | some fault => .error fault
    | none => .ok
      { nodes, size_pos
        sound := fun i hi =>
          List.findSome?_eq_none_iff.1 h (nodes[i], i)
            (List.mem_zipIdx_iff_getElem?.2 (by simp [hi])) }
  else .error .noNodes

/-- The label a walk from node `i` ends with. -/
def labelFrom (tree : DecisionTree) (features : Features) (i : Nat) (h : i < tree.nodes.size) :
    Label :=
  match node : tree.nodes[i] with
  | .leaf label => Label.ofCode label
  | .split feature threshold below above =>
    have children := TreeNode.children_of_fault?_eq_none (node ▸ tree.sound i h)
    if (features.get ⟨feature, children.1⟩).toFloat ≤ threshold then
      tree.labelFrom features below children.2.1.2
    else
      tree.labelFrom features above children.2.2.2
termination_by tree.nodes.size - i

/-- The label of a pixel: a walk from the root. -/
def classify (tree : DecisionTree) : Classifier :=
  fun features => tree.labelFrom features 0 tree.size_pos

end DecisionTree

end ObjectTracking
