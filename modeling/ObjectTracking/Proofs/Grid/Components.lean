import ObjectTracking.Proofs.Blob.Largest
import ObjectTracking.Proofs.Grid.Lattice
import ObjectTracking.Proofs.Grid.Regions

/-!
# Blobs are connected components

Growing a blob from a labelled cell takes exactly what is linked to it (`componentOf_fill`). Going
through the lattice points, each of the blobs found is a component of the grid as it was at the
start (`Scanned`), so that the blobs found are the components that a lattice point belongs to, in
the order of the first such point.
-/

namespace ObjectTracking

/-- The points of a blob, as a set. -/
def Blob.area (blob : Blob) : Set Point := {p | p ∈ blob.points}

namespace LabelGrid
variable {grid : LabelGrid} {classId : UInt8} {stride : Nat} {seed : Point}

/-! ### Growing one blob -/

theorem mem_claim {state : LabelGrid × Array Point} {p q : Point} :
    q ∈ (claim classId state p).2 ↔ q ∈ state.2 ∨ q = p ∧ state.1.get p = labelled classId := by
  obtain ⟨current, points⟩ := state
  simp only [claim]
  split <;> simp [*]

theorem claimAll_append (classId : UInt8) (state : LabelGrid × Array Point) (ps : List Point) :
    ∃ more, (claimAll classId state ps).2 = state.2 ++ more := by
  induction ps generalizing state with
  | nil => exact ⟨#[], by simp [claimAll]⟩
  | cons p rest ih =>
    obtain ⟨more, hmore⟩ := ih (claim classId state p)
    have : ∃ new, (claim classId state p).2 = state.2 ++ new := by
      obtain ⟨current, points⟩ := state
      simp only [claim]
      split
      · exact ⟨#[p], by simp⟩
      · exact ⟨#[], by simp⟩
    obtain ⟨new, hnew⟩ := this
    exact ⟨new ++ more, by rw [← Array.append_assoc, ← hnew]; exact hmore⟩

/-- A blob while it grows from `seed`, which is one of its points: the points, each listed once,
are labelled cells linked to the seed, and they are what is claimed. -/
structure Growing (grid : LabelGrid) (classId : UInt8) (stride : Nat) (seed : Point)
    (state : LabelGrid × Array Point) : Prop where
  claims : Claims grid {p | p ∈ state.2} state.1
  seed_mem : seed ∈ state.2
  nodup : state.2.toList.Nodup
  linked : ∀ p ∈ state.2, grid.Linked classId stride seed p

namespace Growing
variable {state : LabelGrid × Array Point} {r : Point}

theorem start (held : grid.get seed = labelled classId) :
    Growing grid classId stride seed (grid.set seed .claimed, #[seed]) where
  claims := (Claims.set held).congr (by simp)
  seed_mem := by simp
  nodup := by simp
  linked p hp := by simp at hp; subst hp; exact .refl

theorem claim (h : Growing grid classId stride seed state) (hr : r ∈ state.2) {p : Point}
    (hp : p ∈ neighbors stride r) :
    Growing grid classId stride seed (LabelGrid.claim classId state p) := by
  obtain ⟨current, points⟩ := state
  simp only [LabelGrid.claim]
  split
  · rename_i held
    obtain ⟨new, held'⟩ := h.claims.held_iff.1 held
    refine ⟨(h.claims.trans (Claims.set held)).congr (by simp [or_comm]),
      Array.mem_push_of_mem _ h.seed_mem, ?_, fun q hq => ?_⟩
    · rw [Array.toList_push]
      refine List.nodup_append.2 ⟨h.nodup, by simp, fun a ha b hb => ?_⟩
      obtain rfl := List.mem_singleton.1 hb
      rintro rfl
      exact new (Array.mem_toList_iff.1 ha)
    · rcases Array.mem_push.1 hq with hq | rfl
      · exact h.linked q hq
      · exact (h.linked r hr).tail ⟨hp, held'⟩
  · exact h

theorem mem_claim_self (h : Growing grid classId stride seed state) {p : Point}
    (held : grid.get p = labelled classId) : p ∈ (LabelGrid.claim classId state p).2 := by
  by_cases hp : p ∈ state.2
  · exact mem_claim.2 (.inl hp)
  · exact mem_claim.2 (.inr ⟨rfl, h.claims.held_iff.2 ⟨hp, held⟩⟩)

theorem claimAll (h : Growing grid classId stride seed state) (hr : r ∈ state.2) {ps : List Point}
    (hps : ∀ p ∈ ps, p ∈ neighbors stride r) :
    Growing grid classId stride seed (LabelGrid.claimAll classId state ps) ∧
      ∀ p ∈ ps, grid.get p = labelled classId → p ∈ (LabelGrid.claimAll classId state ps).2 := by
  induction ps generalizing state with
  | nil => exact ⟨h, nofun⟩
  | cons p rest ih =>
    have h' := h.claim hr (hps p (by simp))
    obtain ⟨h'', hrest⟩ := ih h' (mem_claim.2 (.inl hr)) fun q hq => hps q (by simp [hq])
    refine ⟨h'', fun q hq held => ?_⟩
    rcases List.mem_cons.1 hq with rfl | hq
    · obtain ⟨more, hmore⟩ := claimAll_append classId (LabelGrid.claim classId state q) rest
      show q ∈ (LabelGrid.claimAll classId (LabelGrid.claim classId state q) rest).2
      rw [hmore]
      exact Array.mem_append_left _ (h.mem_claim_self held)
    · exact hrest q hq held

/-- Growing goes on until nothing next to the blob is labelled: the points before `next` have been
looked around from, and in the end these are all points. -/
theorem grow {current : LabelGrid} {points : Array Point} {next : Nat}
    (h : Growing grid classId stride seed (current, points))
    (looked : ∀ i < next, ∀ p, points[i]? = some p →
      ∀ q, grid.Link classId stride p q → q ∈ points) :
    Growing grid classId stride seed (LabelGrid.grow classId stride current points next) ∧
      ∀ p ∈ (LabelGrid.grow classId stride current points next).2,
        ∀ q, grid.Link classId stride p q →
          q ∈ (LabelGrid.grow classId stride current points next).2 := by
  fun_induction LabelGrid.grow classId stride current points next with
  | case1 current points next hnext grown ih =>
    obtain ⟨hgrown, hall⟩ := h.claimAll (Array.getElem_mem hnext) fun p hp => hp
    obtain ⟨more, hmore⟩ := claimAll_append classId (current, points) (neighbors stride points[next])
    refine ih hgrown fun i hi p hp q hlink => ?_
    rw [show grown.2 = points ++ more from hmore] at hp ⊢
    rcases Nat.lt_succ_iff_lt_or_eq.1 hi with hi | rfl
    · rw [Array.getElem?_append_left (by omega)] at hp
      exact Array.mem_append_left _ (looked i hi p hp q hlink)
    · rw [Array.getElem?_append_left hnext, Array.getElem?_eq_getElem hnext] at hp
      obtain rfl := Option.some.inj hp
      rw [← hmore]
      exact hall q hlink.1 hlink.2
  | case2 current points next hnext =>
    refine ⟨h, fun p hp q hlink => ?_⟩
    obtain ⟨i, hi, rfl⟩ := Array.mem_iff_getElem.1 hp
    exact looked i (Nat.lt_of_lt_of_le hi (Nat.le_of_not_lt hnext)) _
      (Array.getElem?_eq_getElem hi) q hlink

end Growing

/-- The blob is the component of a cell: it lists what is linked to that cell, each point once. -/
structure ComponentOf (grid : LabelGrid) (classId : UInt8) (stride : Nat) (seed : Point)
    (blob : Blob) : Prop where
  classId_eq : blob.classId = classId
  nodup : blob.points.toList.Nodup
  mem_area : ∀ p, p ∈ blob.area ↔ grid.Linked classId stride seed p

theorem componentOf_fill (held : grid.get seed = labelled classId) :
    ComponentOf grid classId stride seed (grid.fill classId stride seed).2 ∧
      Claims grid (grid.fill classId stride seed).2.area (grid.fill classId stride seed).1 := by
  have start : Growing grid classId stride seed (grid.set seed .claimed, #[seed]) := .start held
  obtain ⟨h, closed⟩ := start.grow fun i hi => absurd hi (Nat.not_lt_zero i)
  refine ⟨⟨rfl, h.nodup, fun p => ⟨h.linked p, fun hp => ?_⟩⟩, h.claims⟩
  induction hp with
  | refl => exact h.seed_mem
  | tail _ hlink ih => exact closed _ ih _ hlink

/-! ### Going through the lattice points -/

/-- The blobs found once the lattice points `seen` have been visited, the latest first. Each is a
component of the grid as it was; every labelled point that was seen is in one of them; and of two
blobs the earlier has a lattice point before every one of the later. -/
structure Scanned (grid : LabelGrid) (classId : UInt8) (phase stride : Nat) (seen : List Point)
    (state : LabelGrid × List Blob) : Prop where
  claims : Claims grid {p | ∃ blob ∈ state.2, p ∈ blob.area} state.1
  component : ∀ blob ∈ state.2, ∃ seed ∈ seen,
    grid.get seed = labelled classId ∧ ComponentOf grid classId stride seed blob
  cover : ∀ p ∈ seen, grid.get p = labelled classId → ∃ blob ∈ state.2, p ∈ blob.area
  order : state.2.Pairwise fun later earlier => (∀ p ∈ later.area, p ∉ earlier.area) ∧
    ∃ p ∈ earlier.area, OnLattice phase stride p ∧
      ∀ q ∈ later.area, OnLattice phase stride q → p.Precedes q

namespace Scanned
variable {phase : Nat} {seen rest : List Point} {state : LabelGrid × List Blob} {p : Point}

theorem closed (h : Scanned grid classId phase stride seen state) :
    ∀ p ∈ {p | ∃ blob ∈ state.2, p ∈ blob.area}, ∀ q, grid.Link classId stride p q →
      q ∈ {p | ∃ blob ∈ state.2, p ∈ blob.area} := by
  rintro p ⟨blob, hblob, hp⟩ q hlink
  obtain ⟨seed, -, -, hc⟩ := h.component blob hblob
  exact ⟨blob, hblob, (hc.mem_area q).2 (((hc.mem_area p).1 hp).tail hlink)⟩

/-- A new blob starts at a point of a component of which nothing was taken yet. -/
theorem start_blob (h : Scanned grid classId phase stride seen state) (stride_pos : 0 < stride)
    (all : latticePoints phase stride grid.width grid.height = seen ++ p :: rest)
    (held : state.1.get p = labelled classId) :
    Scanned grid classId phase stride (seen ++ [p])
      ((state.1.fill classId stride p).1, (state.1.fill classId stride p).2 :: state.2) := by
  set blob := (state.1.fill classId stride p).2
  obtain ⟨hfill, hclaims⟩ : ComponentOf state.1 classId stride p blob ∧ Claims state.1 blob.area _ :=
    componentOf_fill held
  have held' : grid.get p = labelled classId := (h.claims.held_iff.1 held).2
  have hc : ComponentOf grid classId stride p blob :=
    ⟨hfill.classId_eq, hfill.nodup, fun q =>
      (hfill.mem_area q).trans (h.claims.linked_iff h.closed held)⟩
  have fresh : ∀ q ∈ blob.area, ∀ old ∈ state.2, q ∉ old.area := fun q hq old hold hq' =>
    (h.claims.held_iff.1 (Linked.held ((hfill.mem_area q).1 hq) held)).1 ⟨old, hold, hq'⟩
  refine ⟨(h.claims.trans hclaims).congr fun q => ?_, fun b hb => ?_, fun q hq hheld => ?_,
    List.pairwise_cons.2 ⟨fun old hold => ⟨?_, ?_⟩, h.order⟩⟩
  · simp only [Set.mem_ofPred_eq, List.mem_cons, Set.mem_union, exists_eq_or_imp]
    exact or_comm
  · rcases List.mem_cons.1 hb with rfl | hb
    · exact ⟨p, by simp, held', hc⟩
    · obtain ⟨seed, hseed, hs⟩ := h.component b hb
      exact ⟨seed, List.mem_append_left _ hseed, hs⟩
  · rcases List.mem_append.1 hq with hq | hq
    · obtain ⟨b, hb, hqb⟩ := h.cover q hq hheld
      exact ⟨b, List.mem_cons_of_mem _ hb, hqb⟩
    · obtain rfl := List.mem_singleton.1 hq
      exact ⟨blob, by simp, (hc.mem_area q).2 .refl⟩
  · exact fun q hq => fresh q hq old hold
  · obtain ⟨seed, hseed, -, hs⟩ := h.component old hold
    have on : ∀ q ∈ seen ++ p :: rest, OnLattice phase stride q := fun q hq =>
      ((mem_latticePoints stride_pos).1 (all ▸ hq)).1
    refine ⟨seed, (hs.mem_area seed).2 .refl, on seed (by simp [hseed]), fun q hq hon => ?_⟩
    -- a lattice point of the new blob was not seen before, so it comes after the old seed
    have hheld : grid.get q = labelled classId := Linked.held ((hc.mem_area q).1 hq) held'
    have inside : grid.cells.Contains q := contains_of_get_ne (hheld ▸ nofun)
    have hmem : q ∈ seen ++ p :: rest := all ▸ (mem_latticePoints stride_pos).2 ⟨hon, inside⟩
    have sorted : (seen ++ p :: rest).Pairwise Point.Precedes :=
      all ▸ pairwise_latticePoints stride_pos ..
    rcases List.mem_append.1 hmem with hseen | hnew
    · obtain ⟨b, hb, hqb⟩ := h.cover q hseen hheld
      exact absurd hqb (fresh q hq b hb)
    · exact (List.pairwise_append.1 sorted).2.2 seed hseed q hnew

theorem visit (h : Scanned grid classId phase stride seen state) (stride_pos : 0 < stride)
    (all : latticePoints phase stride grid.width grid.height = seen ++ p :: rest) :
    Scanned grid classId phase stride (seen ++ [p]) (LabelGrid.visit classId stride state p) := by
  by_cases held : state.1.get p = labelled classId
  · rw [show LabelGrid.visit classId stride state p = _ from if_pos held]
    exact h.start_blob stride_pos all held
  · rw [show LabelGrid.visit classId stride state p = _ from if_neg held]
    refine ⟨h.claims, fun b hb => ?_, fun q hq hheld => ?_, h.order⟩
    · obtain ⟨seed, hseed, hs⟩ := h.component b hb
      exact ⟨seed, List.mem_append_left _ hseed, hs⟩
    · rcases List.mem_append.1 hq with hq | hq
      · exact h.cover q hq hheld
      · obtain rfl := List.mem_singleton.1 hq
        by_contra hfree
        exact held (h.claims.held_iff.2 ⟨hfree, hheld⟩)

theorem visitAll (h : Scanned grid classId phase stride seen state) (stride_pos : 0 < stride)
    (all : latticePoints phase stride grid.width grid.height = seen ++ rest) :
    Scanned grid classId phase stride (seen ++ rest)
      (rest.foldl (LabelGrid.visit classId stride) state) := by
  induction rest generalizing seen state with
  | nil => simpa using h
  | cons p rest ih =>
    rw [List.append_cons] at all ⊢
    exact ih (h.visit stride_pos (by rw [all, List.append_assoc]; rfl)) all

end Scanned

theorem scanned_extract (grid : LabelGrid) (classId : UInt8) (phase : Nat) (stride_pos : 0 < stride) :
    Scanned grid classId phase stride (latticePoints phase stride grid.width grid.height)
      ((grid.extract classId phase stride).1, (grid.extract classId phase stride).2.reverse) := by
  have start : Scanned grid classId phase stride [] (grid, []) :=
    ⟨(Claims.nothing grid).congr (by simp), nofun, nofun, .nil⟩
  have h := start.visitAll stride_pos (List.nil_append _).symm
  rw [show (grid.extract classId phase stride).2.reverse = _ from List.reverse_reverse _]
  exact h

/-! ### The blobs that are kept -/

theorem mem_of_mem_largest {k : Nat} {b : Blob} {blobs : List Blob} (h : b ∈ Blob.largest k blobs) :
    b ∈ blobs := by
  rw [Blob.largest_eq_take] at h
  exact (Blob.perm_bySize blobs).mem_iff.1 (List.mem_of_mem_take h)

/-! ### Components -/

/-- The blob consists of the points of a connected component. -/
def Covers {grid : LabelGrid} (blob : Blob)
    (region : (grid.regions classId stride).ConnectedComponent) : Prop :=
  blob.area = Subtype.val '' region.supp

theorem ComponentOf.covers {blob : Blob} (h : ComponentOf grid classId stride seed blob)
    (held : grid.Carries classId seed) :
    Covers blob ((grid.regions classId stride).connectedComponentMk ⟨seed, held⟩) := by
  ext p
  rw [h.mem_area]
  constructor
  · intro hp
    have carried : grid.Carries classId p := carries_iff.2 (Linked.held hp (carries_iff.1 held))
    have reach : (grid.regions classId stride).Reachable ⟨seed, held⟩ ⟨p, carried⟩ :=
      reachable_iff_linked.2 hp
    exact ⟨⟨p, carried⟩, SimpleGraph.ConnectedComponent.sound reach.symm, rfl⟩
  · rintro ⟨q, hq, rfl⟩
    exact reachable_iff_linked.1 (SimpleGraph.ConnectedComponent.exact hq).symm

/-- The blobs that are formed are exactly the connected components of the labelled cells that a
lattice point belongs to, each point listed once and in one blob only, in the row by row order of
their first lattice points. Only such blobs with enough points are kept, and the cells of all of
them are claimed; nothing else changes. -/
theorem findBlobs_components (grid : LabelGrid) (phase stride : Nat) (criteria : BlobCriteria) :
    let step := max stride 1
    let formed := (grid.extract criteria.classId phase step).2
    let after := (grid.findBlobs phase stride criteria).1
    let kept := (grid.findBlobs phase stride criteria).2
    (∀ blob ∈ formed, blob.classId = criteria.classId ∧ blob.points.toList.Nodup ∧
      ∃ region : (grid.regions criteria.classId step).ConnectedComponent, Covers blob region) ∧
    (∀ region : (grid.regions criteria.classId step).ConnectedComponent,
      (∃ blob ∈ formed, Covers blob region) ↔ ∃ p ∈ region.supp, OnLattice phase step p) ∧
    (formed.Pairwise fun earlier later => (∀ p ∈ later.area, p ∉ earlier.area) ∧
      ∃ p ∈ earlier.area, OnLattice phase step p ∧
        ∀ q ∈ later.area, OnLattice phase step q → p.Precedes q) ∧
    (∀ blob ∈ kept, blob ∈ formed ∧ criteria.minPoints ≤ blob.size) ∧
    Claims grid {p | ∃ blob ∈ formed, p ∈ blob.area} after := by
  intro step formed after kept
  have stride_pos : 0 < step := Nat.lt_of_lt_of_le Nat.one_pos (Nat.le_max_right ..)
  have h := scanned_extract grid criteria.classId phase stride_pos
  have mem_formed : ∀ blob, blob ∈ formed.reverse ↔ blob ∈ formed := fun _ => List.mem_reverse
  refine ⟨fun blob hblob => ?_, fun region => ⟨?_, ?_⟩, List.pairwise_reverse.1 h.order,
    fun blob hblob => ?_, h.claims.congr fun p => ?_⟩
  · obtain ⟨seed, -, held, hc⟩ := h.component blob ((mem_formed blob).2 hblob)
    exact ⟨hc.classId_eq, hc.nodup, _, hc.covers (carries_iff.2 held)⟩
  · rintro ⟨blob, hblob, hcov⟩
    obtain ⟨seed, hseed, -, hc⟩ := h.component blob ((mem_formed blob).2 hblob)
    have hmem : seed ∈ blob.area := (hc.mem_area seed).2 .refl
    rw [show blob.area = _ from hcov] at hmem
    obtain ⟨p, hp, rfl⟩ := hmem
    exact ⟨p, hp, ((mem_latticePoints stride_pos).1 hseed).1⟩
  · rintro ⟨p, hp, hon⟩
    have held : grid.get p = labelled criteria.classId := carries_iff.1 p.2
    have inside : grid.cells.Contains p := contains_of_get_ne (held ▸ nofun)
    obtain ⟨blob, hblob, hpb⟩ := h.cover p ((mem_latticePoints stride_pos).2 ⟨hon, inside⟩) held
    obtain ⟨seed, -, hs, hc⟩ := h.component blob hblob
    refine ⟨blob, (mem_formed blob).1 hblob, ?_⟩
    have hcov := hc.covers (carries_iff.2 hs)
    rw [show blob.area = _ from hcov] at hpb
    obtain ⟨q, hq, hqp⟩ := hpb
    obtain rfl := Subtype.ext hqp
    rwa [SimpleGraph.ConnectedComponent.eq_of_common_vertex hp hq]
  · obtain ⟨hf, hsize⟩ := List.mem_filter.1 (mem_of_mem_largest hblob)
    exact ⟨hf, of_decide_eq_true hsize⟩
  · simp [formed, step]

end LabelGrid

end ObjectTracking
