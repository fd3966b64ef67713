import Mathlib.Data.List.Induction
import Mathlib.Data.List.Triplewise
import Mathlib.Tactic.LinearCombination
import Mathlib.Tactic.Linarith
import Mathlib.Tactic.Ring
import ObjectTracking.Shape.Hull

/-!
# Hulls are convex and hold all points

Seen from the lowest point, all others lie in one half plane, where "earlier" is an order
(`NotAfter.trans`), and of those in one direction the farthest is enough. A corner that is taken
back lies in a triangle of what is left of the path and the next point (`level_nonneg_of_triangle`).
So at each point the path bends one way only and has all points so far within it (`Around`).
-/

namespace ObjectTracking.Vertex

attribute [ext] Vertex

/-! ### Half planes -/

/-- The points at which an affine function is not negative. -/
structure HalfPlane where
  a : Int
  b : Int
  c : Int

def HalfPlane.level (side : HalfPlane) (p : Vertex) : Int := side.a * p.x + side.b * p.y + side.c

/-- In every half plane that has all the corners in it. -/
def Within (corners : List Vertex) (p : Vertex) : Prop :=
  ∀ side : HalfPlane, (∀ v ∈ corners, 0 ≤ side.level v) → 0 ≤ side.level p

variable {o p q r s : Vertex}

@[simp] theorem turn_self_left (p q : Vertex) : turn p p q = 0 := by simp [turn]

@[simp] theorem turn_self_right (p q : Vertex) : turn p q q = 0 := by simp [turn]

@[simp] theorem turn_back (p q : Vertex) : turn p q p = 0 := by simp only [turn]; ring

theorem turn_swap (p q r : Vertex) : turn p r q = -turn p q r := by simp only [turn]; ring

theorem turn_rotate (p q r : Vertex) : turn q r p = turn p q r := by simp only [turn]; ring

theorem turn_rotate_back (p q r : Vertex) : turn r p q = turn p q r := (turn_rotate r p q).symm

/-- The relation of the six triangles that two of four points span with a fifth. -/
theorem turn_mul_turn (o p q r s : Vertex) :
    turn o p r * turn o q s = turn o p q * turn o r s + turn o p s * turn o q r := by
  simp only [turn]; ring

/-- An affine function at one of four points, by its values at the others. -/
theorem level_mul_turn (side : HalfPlane) (o p q r : Vertex) :
    side.level r * turn o p q =
      side.level o * turn r p q + side.level p * turn o r q + side.level q * turn o p r := by
  simp only [turn, HalfPlane.level]; ring

theorem level_nonneg_of_triangle {side : HalfPlane} (ho : 0 ≤ side.level o)
    (hp : 0 ≤ side.level p) (hq : 0 ≤ side.level q) (opr : 0 < turn o p r) (orq : 0 < turn o r q)
    (prq : turn p r q ≤ 0) : 0 ≤ side.level r := by
  have rpq : 0 ≤ turn r p q := by linarith [turn_rotate p r q, turn_swap r p q]
  have whole : turn o p q = turn r p q + turn o r q + turn o p r := by simp only [turn]; ring
  refine nonneg_of_mul_nonneg_left ?_ (show 0 < turn o p q by linarith)
  rw [level_mul_turn]
  exact add_nonneg (add_nonneg (mul_nonneg ho rpq) (mul_nonneg hp orq.le)) (mul_nonneg hq opr.le)

/-! ### The order of directions -/

/-- Not lower than `o`, and at the same height not to the left of it. -/
def Above (o p : Vertex) : Prop := o.y < p.y ∨ o.y = p.y ∧ o.x ≤ p.x

/-- In the direction of `q` seen from `o`, and no farther. -/
def OnTheWay (o p q : Vertex) : Prop := turn o p q = 0 ∧ distanceSq o p ≤ distanceSq o q

/-- Seen from `o`, `p` has a smaller angle than `q`, or lies on the way to it. -/
def NotAfter (o p q : Vertex) : Prop :=
  0 ≤ turn o p q ∧ (turn o p q = 0 → distanceSq o p ≤ distanceSq o q)

theorem not_earlier_iff : (!earlier o q p) = true ↔ NotAfter o p q := by
  simp only [earlier, NotAfter, turn_swap o p q, Bool.not_eq_true', Bool.or_eq_false_iff,
    Bool.and_eq_false_iff, decide_eq_false_iff_not, beq_eq_false_iff_ne]
  constructor
  · rintro ⟨le, far⟩
    exact ⟨by omega, fun straight => by omega⟩
  · rintro ⟨le, far⟩
    exact ⟨by omega, by omega⟩

@[simp] theorem distanceSq_self (o : Vertex) : distanceSq o o = 0 := by simp [distanceSq]

theorem distanceSq_nonneg (p q : Vertex) : 0 ≤ distanceSq p q :=
  add_nonneg (mul_self_nonneg _) (mul_self_nonneg _)

theorem eq_of_distanceSq_le (h : distanceSq o p ≤ 0) : p = o := by
  have x_sq := mul_self_nonneg (p.x - o.x)
  have y_sq := mul_self_nonneg (p.y - o.y)
  unfold distanceSq at h
  have x_eq : p.x - o.x = 0 := mul_self_eq_zero.1 (by linarith)
  have y_eq : p.y - o.y = 0 := mul_self_eq_zero.1 (by linarith)
  exact Vertex.ext (sub_eq_zero.1 x_eq) (sub_eq_zero.1 y_eq)

theorem turn_mul_x (o p q r : Vertex) : turn o p r * (q.x - o.x) =
    turn o p q * (r.x - o.x) + turn o q r * (p.x - o.x) := by
  simp only [turn]; ring

theorem turn_mul_y (o p q r : Vertex) : turn o p r * (q.y - o.y) =
    turn o p q * (r.y - o.y) + turn o q r * (p.y - o.y) := by
  simp only [turn]; ring

theorem turn_of_level (h : o.y = p.y) : turn o p q = (p.x - o.x) * (q.y - o.y) := by
  simp only [turn, h]; ring

/-- Two directions that are parallel to a third are parallel. -/
theorem straight_trans (ne : q ≠ o) (pq : turn o p q = 0) (qr : turn o q r = 0) :
    turn o p r = 0 := by
  by_contra bent
  have x_eq := turn_mul_x o p q r
  have y_eq := turn_mul_y o p q r
  rw [pq, qr, zero_mul, zero_mul, add_zero, mul_eq_zero] at x_eq y_eq
  exact ne (Vertex.ext (sub_eq_zero.1 (x_eq.resolve_left bent))
    (sub_eq_zero.1 (y_eq.resolve_left bent)))

namespace Above

theorem y_le (h : Above o p) : o.y ≤ p.y := by
  rcases h with h | h
  · exact h.le
  · exact h.1.le

/-- What is no later than a point straight to the right lies to the right as well. -/
theorem level_of_turn_nonneg (hp : Above o p) (level : o.y = q.y) (right : o.x < q.x)
    (pq : 0 ≤ turn o p q) : o.y = p.y ∧ o.x ≤ p.x := by
  rcases hp with higher | level'
  · have turned : turn o p q = -((q.x - o.x) * (p.y - o.y)) := by
      rw [turn_swap, turn_of_level level]
    have : 0 < (q.x - o.x) * (p.y - o.y) := mul_pos (by omega) (by omega)
    omega
  · exact level'

theorem higher_or_right (h : Above o p) (ne : p ≠ o) : o.y < p.y ∨ o.y = p.y ∧ o.x < p.x := by
  rcases h with higher | ⟨level, right⟩
  · exact .inl higher
  · refine .inr ⟨level, lt_of_le_of_ne right fun same => ne ?_⟩
    exact Vertex.ext same.symm level.symm

theorem turn_nonneg_trans (hp : Above o p) (hq : Above o q) (hr : Above o r) (ne : q ≠ o)
    (pq : 0 ≤ turn o p q) (qr : 0 ≤ turn o q r) : 0 ≤ turn o p r := by
  rcases hq.higher_or_right ne with higher | ⟨level, right⟩
  · refine nonneg_of_mul_nonneg_left ?_ (sub_pos.2 higher)
    rw [turn_mul_y]
    exact add_nonneg (mul_nonneg pq (sub_nonneg.2 hr.y_le)) (mul_nonneg qr (sub_nonneg.2 hp.y_le))
  · obtain ⟨level', right'⟩ := hp.level_of_turn_nonneg level right pq
    rw [turn_of_level level']
    exact mul_nonneg (sub_nonneg.2 right') (sub_nonneg.2 hr.y_le)

/-- If `r` is no earlier than `q`, it is not on the level of `o` unless `q` is. -/
theorem turn_pos_trans (hp : Above o p) (hq : Above o q) (hr : Above o r) (ne : r ≠ o)
    (pq : 0 < turn o p q) (qr : 0 ≤ turn o q r) : 0 < turn o p r := by
  have q_ne : q ≠ o := by
    rintro rfl
    simp at pq
  have higher : o.y < q.y := by
    refine (hq.higher_or_right q_ne).resolve_right ?_
    rintro ⟨level, right⟩
    obtain ⟨level', -⟩ := hp.level_of_turn_nonneg level right pq.le
    rw [turn_of_level level', level, sub_self, mul_zero] at pq
    exact pq.false
  have higher' : o.y < r.y := by
    refine (hr.higher_or_right ne).resolve_right ?_
    rintro ⟨level, right⟩
    exact absurd (hq.level_of_turn_nonneg level right qr).1 higher.ne
  refine pos_of_mul_pos_left ?_ (sub_nonneg.2 higher.le)
  rw [turn_mul_y]
  exact add_pos_of_pos_of_nonneg (mul_pos pq (sub_pos.2 higher'))
    (mul_nonneg qr (sub_nonneg.2 hp.y_le))

end Above

namespace OnTheWay

theorem refl (o p : Vertex) : OnTheWay o p p := ⟨turn_self_right o p, le_rfl⟩

theorem trans (h : OnTheWay o p q) (h' : OnTheWay o q r) : OnTheWay o p r := by
  refine ⟨?_, h.2.trans h'.2⟩
  by_cases same : q = o
  · have close := h.2
    rw [same, distanceSq_self] at close
    rw [eq_of_distanceSq_le close, turn_self_left]
  · exact straight_trans same h.1 h'.1

end OnTheWay

namespace NotAfter

theorem onTheWay (h : NotAfter o p q) (straight : turn o p q = 0) : OnTheWay o p q :=
  ⟨straight, h.2 straight⟩

theorem eq_of_right_eq (h : NotAfter o p o) : p = o := by
  have close := h.2 (turn_back o p)
  rw [distanceSq_self] at close
  exact eq_of_distanceSq_le close

theorem of_left_eq (o q : Vertex) : NotAfter o o q := by
  refine ⟨(turn_self_left o q).ge, fun _ => ?_⟩
  rw [distanceSq_self]
  exact distanceSq_nonneg o q

theorem total (o p q : Vertex) : NotAfter o p q ∨ NotAfter o q p := by
  simp only [NotAfter, turn_swap o p q]
  omega

theorem trans (h : NotAfter o p q) (h' : NotAfter o q r) (hp : Above o p) (hq : Above o q)
    (hr : Above o r) : NotAfter o p r := by
  by_cases same : q = o
  · subst same
    rw [h.eq_of_right_eq]
    exact of_left_eq q r
  by_cases first : p = o
  · subst first
    exact of_left_eq p r
  have last : r ≠ o := by
    rintro rfl
    exact same h'.eq_of_right_eq
  refine ⟨hp.turn_nonneg_trans hq hr same h.1 h'.1, fun straight => ?_⟩
  have pq : turn o p q = 0 := by
    by_contra bent
    exact (hp.turn_pos_trans hq hr last (lt_of_le_of_ne h.1 (Ne.symm bent)) h'.1).ne' straight
  have qp : turn o q p = 0 := by rw [turn_swap, pq, neg_zero]
  have qr : turn o q r = 0 := straight_trans first qp straight
  exact ((h.onTheWay pq).trans (h'.onTheWay qr)).2

end NotAfter

/-! ### The points in order -/

theorem Above.trans (h : Above o p) (h' : Above p q) : Above o q := by
  unfold Above at *
  omega

theorem lowest_spec (first : Vertex) (rest : List Vertex) :
    lowest first rest ∈ first :: rest ∧ ∀ p ∈ first :: rest, Above (lowest first rest) p := by
  induction rest using List.reverseRecOn with
  | nil => simp [lowest, Above]
  | append_singleton rest q ih =>
    obtain ⟨mem, above⟩ := ih
    have known : ∀ p ∈ first :: (rest ++ [q]), p ∈ first :: rest ∨ p = q := fun p hp => by
      rwa [← List.cons_append, List.mem_append, List.mem_singleton] at hp
    have next : lowest first (rest ++ [q]) =
        if q.lower (lowest first rest) then q else lowest first rest := by
      rw [lowest, List.foldl_append]
      rfl
    rw [next]
    simp only [lower, Bool.or_eq_true, Bool.and_eq_true, decide_eq_true_eq, beq_iff_eq]
    split
    · have below : Above q (lowest first rest) := by
        unfold Above
        omega
      refine ⟨by simp, fun p hp => ?_⟩
      rcases known p hp with hp | rfl
      · exact below.trans (above p hp)
      · exact .inr ⟨rfl, le_rfl⟩
    · refine ⟨List.mem_append_left [q] mem, fun p hp => ?_⟩
      rcases known p hp with hp | rfl
      · exact above p hp
      · unfold Above
        omega

/-- The order is one on the points above `o` only. -/
theorem pairwise_mergeSort_notAfter {points : List Vertex} (above : ∀ p ∈ points, Above o p) :
    (points.mergeSort fun p q => !earlier o q p).Pairwise (NotAfter o) := by
  let seen := points.attachWith (Above o) above
  have sorted_eq : (seen.mergeSort fun p q => !earlier o q.1 p.1).map Subtype.val =
      (seen.map Subtype.val).mergeSort fun p q => !earlier o q p :=
    List.map_mergeSort fun _ _ _ _ => rfl
  rw [List.attachWith_map_subtype_val] at sorted_eq
  rw [← sorted_eq, List.pairwise_map]
  refine (List.pairwise_mergeSort (fun p q r pq qr => ?_) (fun p q => ?_) seen).imp
    fun ordered => not_earlier_iff.1 ordered
  · exact not_earlier_iff.2
      ((not_earlier_iff.1 pq).trans (not_earlier_iff.1 qr) p.2 q.2 r.2)
  · rw [Bool.or_eq_true, not_earlier_iff, not_earlier_iff]
    exact NotAfter.total o p.1 q.1

/-- What is left has growing directions, and the rest lies on the way to it. -/
theorem farthestOnly_spec {points : List Vertex} (sorted : points.Pairwise (NotAfter o))
    (above : ∀ p ∈ points, Above o p) :
    farthestOnly o points ⊆ points ∧
      (farthestOnly o points).Pairwise (fun p q => 0 < turn o p q) ∧
      ∀ p ∈ points, ∃ q ∈ farthestOnly o points, OnTheWay o p q := by
  fun_induction farthestOnly o points with
  | case1 p q rest straight ih =>
    obtain ⟨before, sorted⟩ := List.pairwise_cons.1 sorted
    obtain ⟨sub, growing, reached⟩ := ih sorted (List.forall_mem_cons.1 above).2
    refine ⟨List.Subset.trans sub (List.subset_cons_self ..), growing,
      List.forall_mem_cons.2 ⟨?_, reached⟩⟩
    obtain ⟨far, hfar, onTheWay⟩ := reached q (by simp)
    exact ⟨far, hfar, ((before q (by simp)).onTheWay straight).trans onTheWay⟩
  | case2 p q rest bent ih =>
    obtain ⟨before, sorted⟩ := List.pairwise_cons.1 sorted
    obtain ⟨hp, above⟩ := List.forall_mem_cons.1 above
    obtain ⟨sub, growing, reached⟩ := ih sorted above
    have pq : 0 < turn o p q := lt_of_le_of_ne (before q (by simp)).1 (Ne.symm bent)
    refine ⟨List.cons_subset_cons p sub, List.pairwise_cons.2 ⟨fun r hr => ?_, growing⟩, ?_⟩
    · rcases List.mem_cons.1 (sub hr) with rfl | later
      · exact pq
      have qr : NotAfter o q r := (List.pairwise_cons.1 sorted).1 r later
      refine hp.turn_pos_trans (above q (by simp)) (above r (sub hr)) ?_ pq qr.1
      rintro rfl
      rw [qr.eq_of_right_eq, turn_back] at pq
      exact pq.false
    · refine List.forall_mem_cons.2 ⟨⟨p, by simp, .refl o p⟩, fun r hr => ?_⟩
      obtain ⟨far, hfar, onTheWay⟩ := reached r hr
      exact ⟨far, List.mem_cons_of_mem p hfar, onTheWay⟩
  | case3 points short =>
    refine ⟨List.Subset.refl _, ?_, fun p hp => ⟨p, hp, .refl o p⟩⟩
    match points with
    | [] => exact .nil
    | [_] => exact List.pairwise_singleton ..
    | p :: q :: rest => exact absurd rfl (short p q rest)

/-! ### Going around -/

/-- The last corner first: every three of the corners bend toward growing angles. -/
abbrev Turning (path : List Vertex) : Prop := path.Triplewise fun r q p => 0 < turn p q r

theorem turn_pos_of_turn_pos (pq : 0 < turn o p q) (rs : 0 < turn o r s) (ps : 0 < turn o p s)
    (qr : 0 < turn o q r) (qs : 0 < turn o q s) : 0 < turn o p r := by
  refine pos_of_mul_pos_left ?_ qs.le
  rw [turn_mul_turn]
  exact add_pos (mul_pos pq rs) (mul_pos ps qr)

/-- With the next point the whole path bends, if it does at its last corner. -/
theorem Turning.push {last previous : Vertex} {tops : List Vertex}
    (turning : Turning (last :: previous :: tops ++ [o]))
    (fan : ∀ q ∈ last :: previous :: tops, 0 < turn o q p) (bends : 0 < turn previous last p) :
    Turning (p :: last :: previous :: tops ++ [o]) := by
  obtain ⟨toLast, earlier⟩ := List.triplewise_cons.1 turning
  obtain ⟨toLast, -, fromStart⟩ := List.pairwise_append.1 toLast
  replace fromStart := fun q hq => fromStart q hq o (by simp)
  have among : (previous :: tops).Pairwise fun q r => 0 < turn o r q :=
    (List.triplewise_append.1 earlier).2.2.2 o (by simp)
  have atLast : ∀ q ∈ previous :: tops, 0 < turn q last p := by
    refine List.forall_mem_cons.2 ⟨bends, fun q hq => ?_⟩
    have toPrevious : 0 < turn q previous last := (List.pairwise_cons.1 toLast).1 q hq
    -- seen from the last corner the others come in the order `p`, `o`, `q`, `previous`
    rw [← turn_rotate q last p]
    refine turn_pos_of_turn_pos (turn_rotate o last p ▸ fan last (by simp))
      (turn_rotate_back q previous last ▸ toPrevious) (turn_rotate previous last p ▸ bends)
      (turn_rotate_back o q last ▸ fromStart q (by simp [hq]))
      (turn_rotate_back o previous last ▸ fromStart previous (by simp))
  have fromEarlier : (previous :: tops).Pairwise fun q r => 0 < turn r q p := by
    refine (toLast.and among).imp_of_mem fun {q r} hq hr ⟨rq_last, orq⟩ => ?_
    -- and from an earlier one in the order `q`, `last`, `p`, `o`
    exact turn_pos_of_turn_pos rq_last
      (turn_rotate o r p ▸ fan r (List.mem_cons_of_mem last hr)) (turn_rotate o r q ▸ orq)
      (atLast r hr) (turn_rotate o r last ▸ fromStart r hr)
  refine List.triplewise_cons.2 ⟨List.pairwise_append.2 ⟨?_, by simp, fun q hq r hr => ?_⟩, turning⟩
  · exact List.pairwise_cons.2 ⟨atLast, fromEarlier⟩
  · obtain rfl := List.mem_singleton.1 hr
    exact fan q hq

/-- Taking corners back until the path bends keeps it turning and loses no point: with the start of
the path and the next point, what is left still has those taken back within it. -/
theorem exists_extend {tops : List Vertex} (turning : Turning (tops ++ [o]))
    (fan : ∀ q ∈ tops, 0 < turn o q p) :
    ∃ kept, extend (tops ++ [o]) p = p :: kept ++ [o] ∧ kept ⊆ tops ∧
      Turning (p :: kept ++ [o]) ∧ ∀ v ∈ tops, Within (p :: kept ++ [o]) v := by
  induction tops with
  | nil => exact ⟨[], rfl, List.Subset.refl _, List.triplewise_pair .., nofun⟩
  | cons last tops ih =>
    have stay : ∀ v ∈ last :: tops, Within (p :: (last :: tops) ++ [o]) v := fun v hv side holds =>
      holds v (List.mem_cons_of_mem p (List.mem_append_left _ hv))
    obtain ⟨toLast, turning'⟩ := List.triplewise_cons.1 turning
    cases tops with
    | nil =>
      have opens : 0 < turn o last p := fan last (by simp)
      exact ⟨[last], if_neg opens.not_ge, List.Subset.refl _,
        (List.triplewise_triple ..).2 opens, stay⟩
    | cons previous tops =>
      by_cases bends : 0 < turn previous last p
      · exact ⟨last :: previous :: tops, if_neg bends.not_ge, List.Subset.refl _,
          turning.push fan bends, stay⟩
      · obtain ⟨kept, path_eq, sub, bent, within⟩ := ih turning' fun q hq =>
          fan q (List.mem_cons_of_mem last hq)
        refine ⟨kept, (if_pos (not_lt.1 bends)).trans path_eq,
          List.Subset.trans sub (List.subset_cons_self ..), bent,
          List.forall_mem_cons.2 ⟨fun side holds => ?_, within⟩⟩
        have opens : 0 < turn o previous last :=
          (List.pairwise_append.1 toLast).2.2 previous (by simp) o (by simp)
        exact level_nonneg_of_triangle (holds o (by simp)) (within previous (by simp) side holds)
          (holds p (by simp)) opens (fan last (by simp)) (not_lt.1 bends)

/-- A path from `o` over points seen so far that has all of them within it. -/
structure Around (o : Vertex) (seen path : List Vertex) : Prop where
  turning : Turning (path ++ [o])
  known : path ⊆ seen
  within : ∀ v ∈ seen, Within (path ++ [o]) v

namespace Around
variable {seen path rest : List Vertex}

theorem start (o : Vertex) : Around o [] [] :=
  ⟨List.triplewise_singleton .., List.Subset.refl _, nofun⟩

theorem extend (h : Around o seen path) (fan : ∀ q ∈ seen, 0 < turn o q p) :
    ∃ longer, Vertex.extend (path ++ [o]) p = longer ++ [o] ∧ Around o (seen ++ [p]) longer := by
  obtain ⟨kept, path_eq, sub, turning, within⟩ :=
    exists_extend h.turning fun q hq => fan q (h.known hq)
  refine ⟨p :: kept, path_eq, turning, ?known, fun v hv => ?within⟩
  case known =>
    refine List.cons_subset.2 ⟨by simp, fun q hq => List.mem_append_left _ (h.known (sub hq))⟩
  case within =>
    rcases List.mem_append.1 hv with hv | hv
    · intro side holds
      refine h.within v hv side fun w hw => ?_
      rcases List.mem_append.1 hw with hw | hw
      · exact within w hw side holds
      · exact holds w (List.mem_append_right _ hw)
    · obtain rfl := List.mem_singleton.1 hv
      exact fun side holds => holds v (by simp)

theorem extendAll (h : Around o seen path)
    (growing : (seen ++ rest).Pairwise fun p q => 0 < turn o p q) :
    ∃ all, rest.foldl Vertex.extend (path ++ [o]) = all ++ [o] ∧ Around o (seen ++ rest) all := by
  induction rest generalizing seen path with
  | nil => exact ⟨path, rfl, (List.append_nil seen).symm ▸ h⟩
  | cons p rest ih =>
    have fan : ∀ q ∈ seen, 0 < turn o q p := fun q hq =>
      (List.pairwise_append.1 growing).2.2 q hq p (by simp)
    obtain ⟨longer, path_eq, h'⟩ := h.extend fan
    rw [List.append_cons] at growing
    obtain ⟨all, all_eq, h''⟩ := ih h' growing
    refine ⟨all, ?_, (List.append_cons ..).symm ▸ h''⟩
    rw [List.foldl_cons, path_eq, all_eq]

end Around

theorem level_nonneg_of_onTheWay {side : HalfPlane} (hp : Above o p) (hq : Above o q)
    (way : OnTheWay o p q) (at_start : 0 ≤ side.level o) (at_end : 0 ≤ side.level q) :
    0 ≤ side.level p := by
  obtain ⟨straight, close⟩ := way
  by_cases same : q = o
  · rw [same, distanceSq_self] at close
    rwa [eq_of_distanceSq_le close]
  let progress := (p.x - o.x) * (q.x - o.x) + (p.y - o.y) * (q.y - o.y)
  have far : 0 < distanceSq o q := by
    by_contra near
    exact same (eq_of_distanceSq_le (not_lt.1 near))
  have forward : 0 ≤ progress := by
    rcases hq.higher_or_right same with higher | ⟨level, right⟩
    · refine nonneg_of_mul_nonneg_left ?_ (sub_pos.2 higher)
      have progress_eq : progress * (q.y - o.y) = (p.y - o.y) * distanceSq o q := by
        simp only [progress, distanceSq, turn] at straight ⊢
        linear_combination (q.x - o.x) * straight
      rw [progress_eq]
      exact mul_nonneg (sub_nonneg.2 hp.y_le) far.le
    · obtain ⟨level', right'⟩ := hp.level_of_turn_nonneg level right straight.ge
      exact add_nonneg (mul_nonneg (sub_nonneg.2 right') (sub_nonneg.2 right.le))
        (mul_nonneg (sub_nonneg.2 level'.le) (sub_nonneg.2 level.le))
  have part : progress ≤ distanceSq o q := by
    have x_sq := mul_self_nonneg (p.x - q.x)
    have y_sq := mul_self_nonneg (p.y - q.y)
    simp only [progress, distanceSq] at close ⊢
    linarith
  have level_eq : side.level p * distanceSq o q =
      side.level o * (distanceSq o q - progress) + side.level q * progress := by
    simp only [progress, distanceSq, turn, HalfPlane.level] at straight ⊢
    linear_combination (side.a * (q.y - o.y) - side.b * (q.x - o.x)) * straight
  refine nonneg_of_mul_nonneg_left ?_ far
  rw [level_eq]
  exact add_nonneg (mul_nonneg at_start (sub_nonneg.2 part)) (mul_nonneg at_end forward)

/-! ### Hulls -/

/-- The corners are points, three of them always bend toward growing angles, and all points are
within them. -/
structure IsHull (corners points : List Vertex) : Prop where
  known : corners ⊆ points
  convex : corners.Triplewise fun p q r => 0 < turn p q r
  within : ∀ p ∈ points, Within corners p

theorem isHull_hull (first : Vertex) (rest : List Vertex) :
    IsHull (hull (first :: rest)) (first :: rest) := by
  let points := first :: rest
  let o := lowest first rest
  obtain ⟨start_mem, above⟩ := lowest_spec first rest
  let sorted := (points.erase o).mergeSort fun p q => !earlier o q p
  have mem_sorted : ∀ p ∈ sorted, p ∈ points := fun p hp =>
    List.mem_of_mem_erase ((List.mergeSort_perm ..).mem_iff.1 hp)
  have others : ∀ p ∈ points, p = o ∨ p ∈ sorted := fun p hp => by
    by_cases start : p = o
    · exact .inl start
    · exact .inr ((List.mergeSort_perm ..).mem_iff.2 ((List.mem_erase_of_ne start).2 hp))
  obtain ⟨sub, growing, reached⟩ := farthestOnly_spec
    (pairwise_mergeSort_notAfter fun p hp => above p (List.mem_of_mem_erase hp))
    fun p hp => above p (mem_sorted p hp)
  obtain ⟨path, path_eq, around⟩ := (Around.start o).extendAll growing
  have corners_eq : hull points = (path ++ [o]).reverse := congrArg List.reverse path_eq
  have mem_corners : ∀ v, v ∈ hull points ↔ v ∈ path ++ [o] := fun v => by
    rw [corners_eq, List.mem_reverse]
  refine ⟨fun v hv => ?known, ?convex, fun p hp side holds => ?within⟩
  case known =>
    rcases List.mem_append.1 ((mem_corners v).1 hv) with hv | hv
    · exact mem_sorted v (sub (around.known hv))
    · exact List.mem_singleton.1 hv ▸ start_mem
  case convex =>
    rw [show hull (first :: rest) = _ from corners_eq, List.triplewise_reverse]
    exact around.turning
  case within =>
    replace holds : ∀ v ∈ path ++ [o], 0 ≤ side.level v := fun v hv =>
      holds v ((mem_corners v).2 hv)
    have at_start : 0 ≤ side.level o := holds o (by simp)
    rcases others p hp with rfl | hp'
    · exact at_start
    · obtain ⟨far, hfar, way⟩ := reached p hp'
      exact level_nonneg_of_onTheWay (above p hp) (above far (mem_sorted far (sub hfar))) way
        at_start (around.within far hfar side holds)

end ObjectTracking.Vertex

