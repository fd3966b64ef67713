import ObjectTracking.Proofs.Grid.Components

/-!
# Passes over one grid

A pass for a class reads a grid only for where the label of that class is
(`SameLabelled.findBlobs`), and claims cells that carry this label and no others
(`claims_findBlobs`). So the passes of two classes can change places. After a pass no lattice point carries the label any more, and the same
pass again finds nothing (`findBlobs_findBlobs`).
-/

namespace ObjectTracking.LabelGrid

/-! ### Two grids that carry one label alike -/

/-- The grids are of the same size, and the same cells of both carry the label of the class. -/
structure SameLabelled (classId : UInt8) (grid other : LabelGrid) : Prop where
  width_eq : grid.width = other.width
  height_eq : grid.height = other.height
  held_iff : ∀ p, grid.get p = labelled classId ↔ other.get p = labelled classId

/-- As `SameLabelled`, for grids from which the same was taken. -/
def SameTaken {α : Type} (classId : UInt8) (state other : LabelGrid × α) : Prop :=
  SameLabelled classId state.1 other.1 ∧ state.2 = other.2

namespace SameLabelled
variable {grid other : LabelGrid} {classId : UInt8} {p : Point}

theorem set_claimed (h : SameLabelled classId grid other) (held : grid.get p = labelled classId) :
    SameLabelled classId (grid.set p .claimed) (other.set p .claimed) where
  width_eq := by simpa using h.width_eq
  height_eq := by simpa using h.height_eq
  held_iff q := by
    rw [(Claims.set held).held_iff, (Claims.set ((h.held_iff p).1 held)).held_iff, h.held_iff]

theorem claim (h : SameLabelled classId grid other) (points : Array Point) (p : Point) :
    SameTaken classId (LabelGrid.claim classId (grid, points) p)
      (LabelGrid.claim classId (other, points) p) := by
  simp only [LabelGrid.claim, ← h.held_iff p]
  split
  · exact ⟨h.set_claimed ‹_›, rfl⟩
  · exact ⟨h, rfl⟩

theorem claimAll (h : SameLabelled classId grid other) (points : Array Point) (ps : List Point) :
    SameTaken classId (LabelGrid.claimAll classId (grid, points) ps)
      (LabelGrid.claimAll classId (other, points) ps) := by
  refine List.foldl_rel (r := SameTaken classId) ⟨h, rfl⟩ ?_
  rintro p - ⟨a, points⟩ ⟨b, _⟩ ⟨hab, rfl⟩
  exact hab.claim points p

theorem grow (h : SameLabelled classId grid other) (stride : Nat) (points : Array Point)
    (next : Nat) :
    SameTaken classId (LabelGrid.grow classId stride grid points next)
      (LabelGrid.grow classId stride other points next) := by
  fun_induction LabelGrid.grow classId stride grid points next generalizing other with
  | case1 grid points next hnext grown =>
    rename_i ih
    obtain ⟨hgrid, hpoints⟩ := h.claimAll points (neighbors stride points[next])
    have onward : LabelGrid.grow classId stride other points next =
        LabelGrid.grow classId stride
          (LabelGrid.claimAll classId (other, points) (neighbors stride points[next])).1 grown.2
          (next + 1) := by
      rw [LabelGrid.grow, dif_pos hnext, hpoints]
    rw [onward]
    exact ih hgrid
  | case2 grid points next hnext =>
    rw [LabelGrid.grow, dif_neg hnext]
    exact ⟨h, rfl⟩

theorem fill (h : SameLabelled classId grid other) (stride : Nat)
    (held : grid.get p = labelled classId) :
    SameTaken classId (LabelGrid.fill classId stride grid p)
      (LabelGrid.fill classId stride other p) := by
  obtain ⟨hgrid, hpoints⟩ := (h.set_claimed held).grow stride #[p] 0
  exact ⟨hgrid, congrArg (Blob.mk classId) hpoints⟩

theorem visit (h : SameLabelled classId grid other) (stride : Nat) (found : List Blob) (p : Point) :
    SameTaken classId (LabelGrid.visit classId stride (grid, found) p)
      (LabelGrid.visit classId stride (other, found) p) := by
  simp only [LabelGrid.visit, ← h.held_iff p]
  split
  · obtain ⟨hgrid, hblob⟩ := h.fill stride ‹_›
    exact ⟨hgrid, congrArg (· :: found) hblob⟩
  · exact ⟨h, rfl⟩

theorem extract (h : SameLabelled classId grid other) (phase stride : Nat) :
    SameTaken classId (grid.extract classId phase stride) (other.extract classId phase stride) := by
  have visited : SameTaken classId
      ((latticePoints phase stride grid.width grid.height).foldl
        (LabelGrid.visit classId stride) (grid, []))
      ((latticePoints phase stride grid.width grid.height).foldl
        (LabelGrid.visit classId stride) (other, [])) := by
    refine List.foldl_rel (r := SameTaken classId) ⟨h, rfl⟩ ?_
    rintro p - ⟨a, found⟩ ⟨b, _⟩ ⟨hab, rfl⟩
    exact hab.visit stride found p
  rw [LabelGrid.extract, LabelGrid.extract, ← h.width_eq, ← h.height_eq]
  exact ⟨visited.1, congrArg List.reverse visited.2⟩

/-- A pass finds the same blobs in grids that carry its label alike. -/
theorem findBlobs {criteria : BlobCriteria} (h : SameLabelled criteria.classId grid other)
    (phase stride : Nat) :
    (grid.findBlobs phase stride criteria).2 = (other.findBlobs phase stride criteria).2 := by
  simp only [LabelGrid.findBlobs, (h.extract phase (max stride 1)).2]

end SameLabelled

/-! ### What a pass claims -/

variable {grid after final : LabelGrid} {area more : Set Point} {classId : UInt8}

namespace Claims

/-- Cells that do not carry a label do not matter to the passes that look for it. -/
theorem sameLabelled (h : Claims grid area after)
    (unheld : ∀ p ∈ area, grid.get p ≠ labelled classId) : SameLabelled classId after grid where
  width_eq := h.width_eq
  height_eq := h.height_eq
  held_iff p := h.held_iff.trans ⟨And.right, fun held => ⟨fun hp => unheld p hp held, held⟩⟩

theorem get?_eq (h : Claims grid area after) (h' : Claims grid area final) (p : Point) :
    after.cells.get? p = final.cells.get? p := by
  have same : after.get p = final.get p := by
    by_cases hp : p ∈ area
    · rw [h.claimed p hp, h'.claimed p hp]
    · rw [h.kept p hp, h'.kept p hp]
  have contains : after.cells.Contains p ↔ final.cells.Contains p := by
    simp only [Image.Contains, show after.cells.width = final.cells.width from
      h.width_eq.trans h'.width_eq.symm, show after.cells.height = final.cells.height from
      h.height_eq.trans h'.height_eq.symm]
  by_cases inside : after.cells.Contains p
  · simpa [get, Image.get?, inside, contains.1 inside] using same
  · rw [Image.get?_eq_none.2 inside, Image.get?_eq_none.2 fun h => inside (contains.2 h)]

/-- What is claimed determines the grid, down to its representation. -/
theorem unique (h : Claims grid area after) (h' : Claims grid area final) : after = final := by
  have cells : after.cells = final.cells := Image.ext_get? (h.width_eq.trans h'.width_eq.symm)
    (h.height_eq.trans h'.height_eq.symm) (h.get?_eq h')
  have touched : after.touched = final.touched := h.touched_eq.trans h'.touched_eq.symm
  cases after; cases final; simp_all

end Claims

/-- The cells that a pass claims: all of the blobs formed, also of those not kept. -/
def taken (grid : LabelGrid) (phase stride : Nat) (criteria : BlobCriteria) : Set Point :=
  {p | ∃ blob ∈ (grid.extract criteria.classId phase (max stride 1)).2, p ∈ blob.area}

section
variable (grid) (phase stride : Nat) (criteria : BlobCriteria)

theorem scanned_findBlobs :
    Scanned grid criteria.classId phase (max stride 1)
      (latticePoints phase (max stride 1) grid.width grid.height)
      ((grid.findBlobs phase stride criteria).1,
        (grid.extract criteria.classId phase (max stride 1)).2.reverse) :=
  scanned_extract grid criteria.classId phase (Nat.lt_of_lt_of_le Nat.one_pos (Nat.le_max_right ..))

theorem claims_findBlobs :
    Claims grid (grid.taken phase stride criteria) (grid.findBlobs phase stride criteria).1 :=
  (scanned_findBlobs grid phase stride criteria).claims.congr fun p => by simp [taken]

variable {grid phase stride criteria}

/-- A pass claims cells that carry its label. -/
theorem held_of_mem_taken {p : Point} (hp : p ∈ grid.taken phase stride criteria) :
    grid.get p = labelled criteria.classId := by
  obtain ⟨blob, hblob, hpb⟩ := hp
  obtain ⟨seed, -, held, hc⟩ :=
    (scanned_findBlobs grid phase stride criteria).component blob (List.mem_reverse.2 hblob)
  exact Linked.held ((hc.mem_area p).1 hpb) held

theorem SameLabelled.taken_eq {other : LabelGrid} (h : SameLabelled criteria.classId grid other) :
    grid.taken phase stride criteria = other.taken phase stride criteria := by
  simp only [taken, (h.extract phase (max stride 1)).2]

/-- The pass of another class leaves every cell with this label as it is. -/
theorem sameLabelled_findBlobs (different : criteria.classId ≠ classId) :
    SameLabelled classId (grid.findBlobs phase stride criteria).1 grid :=
  (claims_findBlobs grid phase stride criteria).sameLabelled fun p hp held => by
    have := (held_of_mem_taken hp).symm.trans held
    simp_all

/-- No lattice point that the pass goes through carries its label any more. -/
theorem get_findBlobs_of_onLattice {p : Point} (on : OnLattice phase (max stride 1) p) :
    (grid.findBlobs phase stride criteria).1.get p ≠ labelled criteria.classId := by
  intro held
  have h := scanned_findBlobs grid phase stride criteria
  obtain ⟨free, held'⟩ := h.claims.held_iff.1 held
  have inside : grid.cells.Contains p := contains_of_get_ne (held' ▸ nofun)
  exact free (h.cover p ((mem_latticePoints (by omega)).2 ⟨on, inside⟩) held')

end

/-! ### Passes one after the other -/

/-- A pass finds nothing where no lattice point carries its label. -/
theorem findBlobs_of_absent {phase stride : Nat} {criteria : BlobCriteria}
    (absent : ∀ p, OnLattice phase (max stride 1) p → grid.get p ≠ labelled criteria.classId) :
    grid.findBlobs phase stride criteria = (grid, []) := by
  have still : (latticePoints phase (max stride 1) grid.width grid.height).foldl
      (visit criteria.classId (max stride 1)) (grid, []) = (grid, []) := by
    refine List.foldlRecOn (motive := (· = (grid, []))) _ _ rfl ?_
    rintro _ rfl p hp
    exact if_neg (absent p ((mem_latticePoints (by omega)).1 hp).1)
  have none_large : Blob.largest criteria.maxBlobs [] = [] :=
    List.length_eq_zero_iff.1 (by rw [Blob.length_largest]; exact Nat.min_zero _)
  rw [findBlobs, extract, still]
  exact congrArg (Prod.mk grid) none_large

/-- Going over a grid once more with the lattice and the class of a pass finds no blob and changes
nothing, whatever blobs are wanted, and also after passes of other classes. -/
theorem findBlobs_findBlobs {phase stride : Nat} {criteria again : BlobCriteria}
    (same : again.classId = criteria.classId)
    (h : SameLabelled criteria.classId after (grid.findBlobs phase stride criteria).1) :
    after.findBlobs phase stride again = (after, []) :=
  findBlobs_of_absent fun _ on held =>
    get_findBlobs_of_onLattice on ((h.held_iff _).1 (same ▸ held))

/-- The passes of two classes, whatever their lattices and whatever blobs they want, find the same
blobs and leave the same grid in either order; and a pass that is repeated, at once or after both,
finds nothing and leaves the grid as it is. -/
theorem passes_commute (grid : LabelGrid) (first second : BlobCriteria)
    (different : first.classId ≠ second.classId) (phase stride phase' stride' : Nat) :
    let a := grid.findBlobs phase stride first
    let ab := a.1.findBlobs phase' stride' second
    let b := grid.findBlobs phase' stride' second
    let ba := b.1.findBlobs phase stride first
    (ba.2 = a.2 ∧ ab.2 = b.2 ∧ ab.1 = ba.1) ∧
      ∀ again : BlobCriteria, again.classId = first.classId →
        a.1.findBlobs phase stride again = (a.1, []) ∧
        ab.1.findBlobs phase stride again = (ab.1, []) := by
  intro a ab b ba
  have ha : SameLabelled second.classId a.1 grid := sameLabelled_findBlobs different
  have hb : SameLabelled first.classId b.1 grid := sameLabelled_findBlobs different.symm
  have hab : Claims grid (grid.taken phase stride first ∪ grid.taken phase' stride' second) ab.1 :=
    ha.taken_eq ▸ (claims_findBlobs grid ..).trans (claims_findBlobs a.1 ..)
  have hba : Claims grid (grid.taken phase' stride' second ∪ grid.taken phase stride first) ba.1 :=
    hb.taken_eq ▸ (claims_findBlobs grid ..).trans (claims_findBlobs b.1 ..)
  refine ⟨⟨hb.findBlobs .., ha.findBlobs .., hab.unique (hba.congr fun p => or_comm)⟩,
    fun again same => ⟨?once, ?both⟩⟩
  case once => exact findBlobs_findBlobs same ⟨rfl, rfl, fun _ => .rfl⟩
  case both => exact findBlobs_findBlobs same (sameLabelled_findBlobs different.symm)

/-- Three cells in a row, the middle one of another class. -/
def threeInARow : LabelGrid :=
  (((empty 3 1).set ⟨0, 0⟩ (labelled 1)).set ⟨1, 0⟩ (labelled 2)).set ⟨2, 0⟩ (labelled 1)

theorem passes_commute_three_in_a_row :
    let outer : BlobCriteria := ⟨1, 1, 4⟩
    let middle : BlobCriteria := ⟨2, 1, 4⟩
    let passed := threeInARow.findBlobs 0 1 outer
    outer.classId ≠ middle.classId ∧
      (threeInARow.extract 1 0 1).2 = [⟨1, #[⟨0, 0⟩]⟩, ⟨1, #[⟨2, 0⟩]⟩] ∧
      (passed.1.findBlobs 1 2 middle).1 =
        ((threeInARow.findBlobs 1 2 middle).1.findBlobs 0 1 outer).1 ∧
      passed.1.findBlobs 0 1 outer = (passed.1, []) := by
  have formed : (threeInARow.extract 1 0 1).2 = [⟨1, #[⟨0, 0⟩]⟩, ⟨1, #[⟨2, 0⟩]⟩] := by
    decide +kernel
  have different : (1 : UInt8) ≠ 2 := by decide
  have h := passes_commute threeInARow ⟨1, 1, 4⟩ ⟨2, 1, 4⟩ different 0 1 1 2
  exact ⟨different, formed, h.1.2.2, (h.2 ⟨1, 1, 4⟩ rfl).1⟩

end ObjectTracking.LabelGrid
