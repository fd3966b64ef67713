import Mathlib.Data.Set.Card
import ObjectTracking.Proofs.Grid.Components

/-!
# Counting regions

Where all labelled cells are lattice points, as they are on a grid that was just labelled, each
connected component of them is found, and found once. So there are as many blobs with enough points
as there are components with enough cells (`ncard_largeRegions`).
-/

namespace ObjectTracking

/-- The points with a property, joined when they are one stride apart. -/
def pointRegions (holds : Point → Prop) (stride : Nat) : SimpleGraph {p // holds p} where
  Adj p q := p ≠ q ∧ OneStrideApart stride p q
  symm := ⟨fun _ _ h => ⟨h.1.symm, h.2.symm⟩⟩
  loopless := ⟨fun _ h => h.1 rfl⟩

/-- The connected components of these that have enough points. -/
def largeRegions (holds : Point → Prop) (stride least : Nat) :
    Set (pointRegions holds stride).ConnectedComponent :=
  {region | least ≤ region.supp.ncard}

namespace LabelGrid
variable {grid : LabelGrid} {classId : UInt8} {stride phase : Nat} {blob : Blob}
  {region : (grid.regions classId stride).ConnectedComponent}

theorem Covers.mem_area_iff (h : Covers blob region) {p : {p // grid.Carries classId p}} :
    p.1 ∈ blob.area ↔ p ∈ region.supp := by
  rw [show blob.area = _ from h]
  exact Subtype.val_injective.mem_set_image

/-- As no point is listed twice, the size of a blob is that of the component. -/
theorem Covers.ncard_supp (h : Covers blob region) (nodup : blob.points.toList.Nodup) :
    region.supp.ncard = blob.size := by
  have listed : blob.area = {p | p ∈ blob.points.toList} := by
    ext p
    exact Array.mem_toList_iff.symm
  calc region.supp.ncard = (Subtype.val '' region.supp).ncard :=
        (Set.ncard_image_of_injective _ Subtype.val_injective).symm
    _ = blob.area.ncard := by rw [show blob.area = _ from h]
    _ = blob.size := by
        rw [listed, ← List.coe_toFinset, Set.ncard_coe_finset, List.toFinset_card_of_nodup nodup,
          Array.length_toList]

theorem Covers.not_disjoint {other : Blob} (h : Covers blob region) (h' : Covers other region) :
    ∃ p ∈ blob.area, p ∈ other.area := by
  obtain ⟨p, hp⟩ := region.nonempty_supp
  exact ⟨p, h.mem_area_iff.2 hp, h'.mem_area_iff.2 hp⟩

/-- If all labelled cells are lattice points, there is a blob for each component. -/
theorem ncard_largeRegions (stride_pos : 0 < stride)
    (onLattice : ∀ p, grid.Carries classId p → OnLattice phase stride p) (least : Nat) :
    (largeRegions (grid.Carries classId) stride least).ncard =
      ((grid.extract classId phase stride).2.filter (least ≤ ·.size)).length := by
  have scanned := scanned_extract grid classId phase stride_pos
  set formed := (grid.extract classId phase stride).2
  have component : ∀ blob ∈ formed, blob.points.toList.Nodup ∧
      ∃ region : (grid.regions classId stride).ConnectedComponent, Covers blob region := by
    intro blob hblob
    obtain ⟨seed, -, held, hc⟩ := scanned.component blob (List.mem_reverse.2 hblob)
    exact ⟨hc.nodup, _, hc.covers (carries_iff.2 held)⟩
  choose nodup region covers using component
  set kept := formed.filter (least ≤ ·.size)
  have formed_of : ∀ i (hi : i < kept.length), kept[i] ∈ formed :=
    fun i hi => List.mem_of_mem_filter (List.getElem_mem hi)
  have apart : kept.Pairwise fun a b => ∀ p ∈ b.area, p ∉ a.area :=
    ((List.pairwise_reverse.1 scanned.order).imp (·.1)).filter _
  -- two blobs of one component would have a point in common
  have ne_of_lt : ∀ i j (hi : i < kept.length) (hj : j < kept.length), i < j →
      region kept[i] (formed_of i hi) ≠ region kept[j] (formed_of j hj) := by
    intro i j hi hj lt same
    have covers_i := covers kept[i] (formed_of i hi)
    rw [same] at covers_i
    obtain ⟨p, hp, hp'⟩ := (covers kept[j] (formed_of j hj)).not_disjoint covers_i
    exact List.pairwise_iff_getElem.1 apart i j hi hj lt p hp hp'
  refine Set.ncard_eq_of_bijective (fun i hi => region kept[i] (formed_of i hi)) ?onto ?into ?once
  case onto =>
    intro large hlarge
    obtain ⟨p, hp⟩ := large.nonempty_supp
    have held : grid.get p = labelled classId := carries_iff.1 p.2
    have inside : grid.cells.Contains p := contains_of_get_ne (held ▸ nofun)
    obtain ⟨blob, hblob, hpb⟩ := scanned.cover p
      ((mem_latticePoints stride_pos).2 ⟨onLattice p p.2, inside⟩) held
    have hblob := List.mem_reverse.1 hblob
    -- any point of the component will do, as the scan came by all of them
    have same : region blob hblob = large :=
      SimpleGraph.ConnectedComponent.eq_of_common_vertex
        ((covers blob hblob).mem_area_iff.1 hpb) hp
    have enough : least ≤ blob.size := by
      rw [← (covers blob hblob).ncard_supp (nodup blob hblob), same]
      exact hlarge
    obtain ⟨i, hi, rfl⟩ := List.getElem_of_mem
      (List.mem_filter.2 ⟨hblob, decide_eq_true enough⟩ : blob ∈ kept)
    exact ⟨i, hi, same⟩
  case into =>
    intro i hi
    have enough := of_decide_eq_true (List.mem_filter.1 (List.getElem_mem hi)).2
    rw [← (covers kept[i] (formed_of i hi)).ncard_supp (nodup _ (formed_of i hi))] at enough
    exact enough
  case once =>
    intro i j hi hj same
    rcases Nat.lt_trichotomy i j with lt | eq | lt
    · exact absurd same (ne_of_lt i j hi hj lt)
    · exact eq
    · exact absurd same.symm (ne_of_lt j i hj hi lt)

end LabelGrid

end ObjectTracking
