import ObjectTracking.Fault
import ObjectTracking.Json.Reader

/-! # Reading decision trees

A model file is a JSON record with the list of nodes. A node is a choice: `split` with its feature,
threshold and children, or `leaf` with its label. -/

namespace ObjectTracking

def TreeNode.ofJson? (j : Json) : Option TreeNode := do
  match ← j.variant? with
  | ("split", body) =>
    match ← body.fields? ["feature", "threshold", "below", "above"] with
    | [feature, threshold, below, above] =>
      return .split (← feature.toWord?) (← threshold.toDouble?) (← below.toWord?)
        (← above.toWord?)
    | _ => none
  | ("leaf", body) =>
    match ← body.fields? ["label"] with
    | [label] => return .leaf (← label.toByte?)
    | _ => none
  | _ => none

namespace DecisionTree

def nodesOfJson? (j : Json) : Option (List TreeNode) := do
  match ← j.fields? ["nodes"] with
  | [.array nodes] => nodes.mapM TreeNode.ofJson?
  | _ => none

/-- The tree that a text describes. The list of nodes is checked as soon as it is complete, before
anything that follows it in the text is looked at. -/
def ofText (text : String) : Except ModelFault DecisionTree :=
  match Json.readPrefix text.toList with
  | none => .error .unreadable
  | some (value, rest) =>
    match nodesOfJson? value with
    | none => .error .unreadable
    | some nodes =>
      match ofNodes nodes.toArray with
      | .error fault => .error (.invalid fault)
      | .ok tree => if Json.isEnd rest then .ok tree else .error .unreadable

/-- The model of a class, from what its file holds, if there is one. Whatever is wrong with it
concerns this class only. -/
def load (className path : String) (content : Option String) : Except Fault DecisionTree :=
  match content with
  | none => .error (.model className path .missing)
  | some text => (ofText text).mapError (.model className path)

end DecisionTree

end ObjectTracking
