import Mathlib.Data.List.Basic
import ObjectTracking.Blob.Largest

/-!
# The largest blobs are the first of the sorted list

While the best ranks are picked, none that was dropped is better than one that is held
(`Rank.Splits`), so that the ranks held in the end are the first of all ranks in order
(`mergeSort_best`). The place in the list decides between blobs of one size, which is how a stable
sort decides (`map_mergeSort_zipIdx`). So it makes no difference whether a list is sorted or only its
best blobs are picked (`largest_best_first`).
-/

namespace ObjectTracking.Blob

/-- None is larger than one before it. -/
abbrev Descending (blobs : List Blob) : Prop := blobs.Pairwise fun a b => b.size ≤ a.size

variable {k : Nat} {blobs : List Blob}

/-! ### Ranks -/

namespace Rank
variable {a b c : Rank} {all held discarded : List Rank}

theorem atLeast_iff : a.atLeast b = true ↔ b.size < a.size ∨ a.size = b.size ∧ a.index ≤ b.index := by
  simp [atLeast]

theorem atLeast_self (a : Rank) : a.atLeast a = true := atLeast_iff.2 (.inr ⟨rfl, Nat.le_refl _⟩)

theorem atLeast_total (a b : Rank) : (a.atLeast b || b.atLeast a) = true := by
  rw [Bool.or_eq_true, atLeast_iff, atLeast_iff]
  omega

theorem atLeast_trans (a b c : Rank) (hab : a.atLeast b = true) (hbc : b.atLeast c = true) :
    a.atLeast c = true := by
  rw [atLeast_iff] at *
  omega

theorem eq_of_atLeast (hab : a.atLeast b = true) (hba : b.atLeast a = true) : a = b := by
  rw [atLeast_iff] at hab hba
  cases a
  cases b
  simp only [mk.injEq] at *
  omega

theorem weaker_rules (a b : Rank) :
    (weaker a b = a ∨ weaker a b = b) ∧ a.atLeast (weaker a b) = true ∧
      b.atLeast (weaker a b) = true := by
  unfold weaker
  by_cases h : a.atLeast b = true
  · rw [if_pos h]
    exact ⟨.inr rfl, h, atLeast_self b⟩
  · rw [if_neg h]
    have total := atLeast_total a b
    rw [Bool.or_eq_true] at total
    exact ⟨.inl rfl, atLeast_self a, total.resolve_left h⟩

/-- The weakest is one of them, and no other is weaker. -/
theorem weakest_rules (first : Rank) (rest : List Rank) :
    weakest first rest ∈ first :: rest ∧
      ∀ a ∈ first :: rest, a.atLeast (weakest first rest) = true := by
  induction rest generalizing first with
  | nil => simp [weakest, atLeast_self]
  | cons next rest ih =>
    obtain ⟨choice, first_le, next_le⟩ := weaker_rules first next
    obtain ⟨mem, least⟩ := ih (weaker first next)
    have lowest := least _ (List.mem_cons_self ..)
    change weakest first (next :: rest) ∈ _ at mem
    refine ⟨?_, fun a ha => ?_⟩
    · rcases List.mem_cons.1 mem with same | mem
      · rw [same]
        rcases choice with h | h <;> rw [h] <;> simp
      · simp [mem]
    · rcases List.mem_cons.1 ha with rfl | ha
      · exact atLeast_trans _ _ _ first_le lowest
      · rcases List.mem_cons.1 ha with rfl | ha
        · exact atLeast_trans _ _ _ next_le lowest
        · exact least a (List.mem_cons_of_mem _ ha)

/-- The ranks that are held and those that were dropped, once all of these were seen. -/
structure Splits (k : Nat) (all held discarded : List Rank) : Prop where
  perm : (held ++ discarded).Perm all
  length_eq : held.length = min k all.length
  above : ∀ a ∈ held, ∀ b ∈ discarded, a.atLeast b = true

theorem Splits.hold (h : Splits k all held discarded) (rank : Rank) :
    ∃ discarded', Splits k (all ++ [rank]) (hold k held rank) discarded' := by
  have seen : (rank :: held ++ discarded).Perm (all ++ [rank]) :=
    (h.perm.cons rank).trans (List.perm_append_singleton rank all).symm
  have len := h.length_eq
  by_cases full : k < (rank :: held).length
  · -- the weakest of those at hand joins those that were dropped
    obtain ⟨mem, least⟩ := weakest_rules rank held
    have removed := List.perm_cons_erase mem
    have hold_eq : Rank.hold k held rank = (rank :: held).erase (weakest rank held) := if_pos full
    rw [hold_eq]
    refine ⟨weakest rank held :: discarded, ?_, ?_, ?_⟩
    · exact (List.perm_middle.trans (removed.symm.append_right discarded)).trans seen
    · rw [List.length_erase_of_mem mem, List.length_append]
      simp only [List.length_cons, List.length_nil] at *
      omega
    · intro a ha b hb
      rcases List.mem_cons.1 hb with rfl | hb
      · exact least a (List.mem_of_mem_erase ha)
      rcases List.mem_cons.1 mem with same | weakest_held
      · rw [same, List.erase_cons_head] at ha
        exact h.above a ha b hb
      · exact atLeast_trans _ _ _ (least a (List.mem_of_mem_erase ha)) (h.above _ weakest_held b hb)
  · -- while there is room, nothing has been dropped yet
    have none_dropped : discarded = [] := by
      have all_len := h.perm.length_eq
      rw [List.length_append] at all_len
      rw [List.length_cons] at full
      exact List.eq_nil_of_length_eq_zero (by omega)
    have hold_eq : Rank.hold k held rank = rank :: held := if_neg full
    subst none_dropped
    rw [hold_eq]
    refine ⟨[], seen, ?_, fun _ _ _ => nofun⟩
    rw [List.length_append]
    simp only [List.length_cons, List.length_nil] at *
    omega

theorem Splits.holdAll (h : Splits k all held discarded) (more : List Rank) :
    ∃ discarded', Splits k (all ++ more) (more.foldl (Rank.hold k) held) discarded' := by
  induction more generalizing all held discarded with
  | nil =>
    rw [List.append_nil]
    exact ⟨discarded, h⟩
  | cons rank more ih =>
    obtain ⟨discarded', next⟩ := h.hold rank
    rw [List.append_cons]
    exact ih next

/-- What is held comes first when all are put in order. -/
theorem Splits.mergeSort_eq (h : Splits k all held discarded) :
    held.mergeSort atLeast = (all.mergeSort atLeast).take k := by
  have in_order : ∀ ranks : List Rank, (ranks.mergeSort atLeast).Pairwise (atLeast · · = true) :=
    List.pairwise_mergeSort atLeast_trans atLeast_total
  have joined : (held.mergeSort atLeast ++ discarded.mergeSort atLeast).Pairwise
      (atLeast · · = true) := by
    refine List.pairwise_append.2 ⟨in_order held, in_order discarded, fun a ha b hb => ?_⟩
    exact h.above a (List.mem_mergeSort.1 ha) b (List.mem_mergeSort.1 hb)
  have perm : (held.mergeSort atLeast ++ discarded.mergeSort atLeast).Perm
      (all.mergeSort atLeast) := by
    refine ((List.mergeSort_perm held _).append (List.mergeSort_perm discarded _)).trans ?_
    exact h.perm.trans (List.mergeSort_perm all _).symm
  have same := perm.eq_of_pairwise (fun _ _ _ _ => eq_of_atLeast) joined (in_order all)
  have len : (held.mergeSort atLeast).length = min k all.length := by
    rw [List.length_mergeSort, h.length_eq]
  rw [← same]
  rcases Nat.le_total k all.length with few | many
  · rw [List.take_append_of_le_length (by omega), List.take_of_length_le (by omega)]
  · have nothing : discarded.mergeSort atLeast = [] := by
      have all_len := h.perm.length_eq
      rw [List.length_append] at all_len
      refine List.eq_nil_of_length_eq_zero ?_
      rw [List.length_mergeSort] at *
      omega
    rw [nothing, List.append_nil, List.take_of_length_le (by omega)]

end Rank

/-! ### From ranks to blobs -/

/-- In order of rank, the blobs are sorted by size, those of one size by their place. -/
theorem map_mergeSort_zipIdx (blobs : List Blob) :
    ∃ placed : List (Blob × Nat), placed.Perm blobs.zipIdx ∧ placed.map Prod.fst = bySize blobs ∧
      placed.map Rank.of = (blobs.zipIdx.map Rank.of).mergeSort Rank.atLeast := by
  refine ⟨blobs.zipIdx.mergeSort (List.zipIdxLE fun a b => b.size ≤ a.size),
    List.mergeSort_perm .., List.mergeSort_zipIdx, List.map_mergeSort ?_⟩
  rintro ⟨a, i⟩ - ⟨b, j⟩ -
  rw [Bool.eq_iff_iff, Rank.atLeast_iff]
  simp only [List.zipIdxLE, Rank.of, decide_eq_true_eq, Bool.if_false_right, Bool.and_eq_true]
  split
  · rw [decide_eq_true_eq]
    omega
  · simp only [and_true]
    omega

theorem takeOut_placed (slots : List (Option Blob)) (placed : List (Blob × Nat))
    (once : (placed.map Prod.snd).Nodup)
    (filled : ∀ blob index, (blob, index) ∈ placed → slots[index]? = some (some blob)) :
    takeOut slots (placed.map Rank.of) = placed.map Prod.fst := by
  induction placed generalizing slots with
  | nil => rfl
  | cons first rest ih =>
    obtain ⟨blob, index⟩ := first
    obtain ⟨elsewhere, once⟩ := List.nodup_cons.1 once
    have here : slots[index]? = some (some blob) := filled blob index (List.mem_cons_self ..)
    have still : ∀ b i, (b, i) ∈ rest → (slots.set index none)[i]? = some (some b) := by
      intro b i hb
      have other : index ≠ i := by
        rintro rfl
        exact elsewhere (List.mem_map.2 ⟨_, hb, rfl⟩)
      rw [List.getElem?_set_ne other]
      exact filled b i (List.mem_cons_of_mem _ hb)
    simp only [List.map_cons, takeOut, Rank.of, here, Option.join_some, ih _ once still]

theorem mergeSort_best (k : Nat) (blobs : List Blob) :
    (best k blobs).mergeSort Rank.atLeast =
      ((blobs.zipIdx.map Rank.of).mergeSort Rank.atLeast).take k := by
  have start : Rank.Splits k [] [] [] := ⟨.nil, by simp, nofun⟩
  obtain ⟨_, h⟩ := start.holdAll (blobs.zipIdx.map Rank.of)
  exact h.mergeSort_eq

theorem strongest_eq_take (k : Nat) (blobs : List Blob) :
    strongest k blobs = (bySize blobs).take k := by
  obtain ⟨placed, perm, fst_eq, ranks_eq⟩ := map_mergeSort_zipIdx blobs
  have places : ((placed.take k).map Prod.snd).Nodup := by
    have all : (placed.map Prod.snd).Nodup := by
      rw [(perm.map Prod.snd).nodup_iff, List.zipIdx_map_snd]
      exact List.nodup_range'
    rw [List.map_take]
    exact all.sublist (List.take_sublist ..)
  have filled : ∀ blob index, (blob, index) ∈ placed.take k →
      (blobs.map some)[index]? = some (some blob) := by
    intro blob index h
    have at_place := List.mem_zipIdx_iff_getElem?.1 (perm.mem_iff.1 (List.mem_of_mem_take h))
    rw [List.getElem?_map, at_place]
    rfl
  rw [strongest, mergeSort_best, ← ranks_eq, ← List.map_take, takeOut_placed _ _ places filled,
    List.map_take, fst_eq]

theorem largest_eq_take (k : Nat) (blobs : List Blob) :
    largest k blobs = (bySize blobs).take k := by
  unfold largest
  split
  · rename_i few
    rw [List.take_of_length_le (by rwa [bySize, List.length_mergeSort])]
  · exact strongest_eq_take k blobs

/-! ### Sorted blobs -/

theorem perm_bySize (blobs : List Blob) : (bySize blobs).Perm blobs := List.mergeSort_perm ..

theorem size_trans (a b c : Blob) (hab : decide (b.size ≤ a.size) = true)
    (hbc : decide (c.size ≤ b.size) = true) : decide (c.size ≤ a.size) = true := by
  simp only [decide_eq_true_eq] at *
  omega

theorem size_total (a b : Blob) : (decide (b.size ≤ a.size) || decide (a.size ≤ b.size)) = true := by
  simp only [Bool.or_eq_true, decide_eq_true_eq]
  omega

theorem pairwise_bySize (blobs : List Blob) : Descending (bySize blobs) :=
  (List.pairwise_mergeSort size_trans size_total blobs).imp of_decide_eq_true

/-- Blobs of one size stay in order. -/
theorem filter_bySize (blobs : List Blob) (n : Nat) :
    (bySize blobs).filter (·.size = n) = blobs.filter (·.size = n) := by
  have equal : (blobs.filter (·.size = n)).Pairwise fun a b => decide (b.size ≤ a.size) = true := by
    refine List.pairwise_of_forall_mem_list fun a ha b hb => ?_
    simp only [List.mem_filter, decide_eq_true_eq] at *
    omega
  have kept : (blobs.filter (·.size = n)).Sublist (bySize blobs) :=
    List.sublist_mergeSort size_trans size_total equal List.filter_sublist
  have sub := kept.filter (·.size = n)
  rw [List.filter_filter] at sub
  simp only [Bool.and_self] at sub
  exact (sub.eq_of_length ((perm_bySize blobs).filter _).length_eq.symm).symm

theorem length_largest (k : Nat) (blobs : List Blob) :
    (largest k blobs).length = min k blobs.length := by
  rw [largest_eq_take, List.length_take, (perm_bySize blobs).length_eq]

theorem pairwise_largest (k : Nat) (blobs : List Blob) : Descending (largest k blobs) := by
  rw [largest_eq_take]
  exact (pairwise_bySize blobs).sublist (List.take_sublist ..)

/-- Whether a list is sorted by size or only its best blobs are picked, the answer is the beginning
of the sorted list, in which blobs of one size stay in order. All others are left over: none of them
is larger than one that is kept, and those of one size come later. -/
theorem largest_best_first (k : Nat) (blobs : List Blob) :
    (bySize blobs).Perm blobs ∧ Descending (bySize blobs) ∧
    (∀ n, (bySize blobs).filter (·.size = n) = blobs.filter (·.size = n)) ∧
    strongest k blobs = (bySize blobs).take k ∧
    largest k blobs = (bySize blobs).take k ∧
    (largest k blobs).length = min k blobs.length ∧
    ∃ others, (largest k blobs ++ others).Perm blobs ∧
      (∀ a ∈ largest k blobs, ∀ b ∈ others, b.size ≤ a.size) ∧
      ∀ n, blobs.filter (·.size = n) =
        (largest k blobs).filter (·.size = n) ++ others.filter (·.size = n) := by
  have split := List.take_append_drop k (bySize blobs)
  refine ⟨perm_bySize blobs, pairwise_bySize blobs, filter_bySize blobs, strongest_eq_take k blobs,
    largest_eq_take k blobs, length_largest k blobs, (bySize blobs).drop k, ?_⟩
  rw [largest_eq_take]
  refine ⟨?_, ?_, fun n => ?_⟩
  · rw [split]
    exact perm_bySize blobs
  · have sorted := pairwise_bySize blobs
    rw [← split, Descending, List.pairwise_append] at sorted
    exact sorted.2.2
  · rw [← List.filter_append, split, filter_bySize]

end ObjectTracking.Blob
