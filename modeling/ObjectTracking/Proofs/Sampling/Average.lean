import Mathlib.Algebra.Order.BigOperators.Group.Finset
import Mathlib.Algebra.Order.Ring.Nat
import ObjectTracking.Sampling

/-!
# Average colors

Summing up colors and dividing by their number gives the mean of each channel, rounded down
(`average?_sums`). It lies between the least and the greatest of what was summed up, so that it fits
a byte; as hues stay below 180, so does their mean.
-/

namespace ObjectTracking

/-- The value is the mean of the bytes, rounded down, and lies among them. -/
structure IsMean (value : UInt8) (bytes : List UInt8) : Prop where
  eq_floor : value.toNat = (bytes.map UInt8.toNat).sum / bytes.length
  exists_le : ∃ byte ∈ bytes, byte ≤ value
  exists_ge : ∃ byte ∈ bytes, value ≤ byte

section
variable {bytes : List UInt8}

theorem sum_le_of_forall_le {bound : Nat} (h : ∀ byte ∈ bytes, byte.toNat ≤ bound) :
    (bytes.map UInt8.toNat).sum ≤ bytes.length * bound := by
  have each : ∀ n ∈ bytes.map UInt8.toNat, n ≤ bound := List.forall_mem_map.2 h
  have := List.sum_le_card_nsmul _ _ each
  rwa [List.length_map, Nat.nsmul_eq_mul] at this

theorem le_sum_of_forall_le {bound : Nat} (h : ∀ byte ∈ bytes, bound ≤ byte.toNat) :
    bytes.length * bound ≤ (bytes.map UInt8.toNat).sum := by
  have each : ∀ n ∈ bytes.map UInt8.toNat, bound ≤ n := List.forall_mem_map.2 h
  have := List.card_nsmul_le_sum _ _ each
  rwa [List.length_map, Nat.nsmul_eq_mul] at this

theorem isMean_ofNat (some_byte : bytes ≠ []) :
    IsMean (UInt8.ofNat ((bytes.map UInt8.toNat).sum / bytes.length)) bytes := by
  set mean := (bytes.map UInt8.toNat).sum / bytes.length with hmean
  have length_pos : 0 < bytes.length := List.length_pos_iff.2 some_byte
  have small : mean < UInt8.size := by
    have each : ∀ byte ∈ bytes, byte.toNat ≤ 255 := fun byte _ => Nat.le_of_lt_succ byte.toNat_lt
    have : mean ≤ 255 := Nat.div_le_of_le_mul (sum_le_of_forall_le each)
    exact Nat.lt_succ_of_le this
  have eq_floor : (UInt8.ofNat mean).toNat = mean := UInt8.toNat_ofNat_of_lt small
  refine ⟨eq_floor, ?_, ?_⟩
  · -- if all bytes were above the mean, it would be one more
    by_contra none
    have above : ∀ byte ∈ bytes, mean + 1 ≤ byte.toNat := by
      intro byte hbyte
      have : ¬ byte ≤ UInt8.ofNat mean := fun le => none ⟨byte, hbyte, le⟩
      rw [UInt8.le_iff_toNat_le, eq_floor] at this
      omega
    have : mean + 1 ≤ mean :=
      (Nat.le_div_iff_mul_le length_pos).2 (by
        rw [Nat.mul_comm]
        exact le_sum_of_forall_le above)
    omega
  · by_contra none
    have below : ∀ byte ∈ bytes, byte.toNat < mean := by
      intro byte hbyte
      have : ¬ UInt8.ofNat mean ≤ byte := fun le => none ⟨byte, hbyte, le⟩
      rw [UInt8.le_iff_toNat_le, eq_floor] at this
      omega
    have bound := sum_le_of_forall_le fun byte hbyte => Nat.le_sub_one_of_lt (below byte hbyte)
    have : mean ≤ mean - 1 := Nat.div_le_of_le_mul bound
    obtain ⟨byte, hbyte⟩ := List.exists_mem_of_ne_nil _ some_byte
    have := below byte hbyte
    omega

end

/-- Each channel is the mean of that channel. -/
structure ColorStats.IsMean (stats : ColorStats) (colors : List Hsv) : Prop where
  hue : ObjectTracking.IsMean stats.hue (colors.map (·.hue))
  saturation : ObjectTracking.IsMean stats.saturation (colors.map (·.saturation))
  brightness : ObjectTracking.IsMean stats.brightness (colors.map (·.value))

namespace ColorSums

theorem foldl_add (colors : List Hsv) (sums : ColorSums) :
    colors.foldl add sums =
      ⟨sums.hue + (colors.map (·.hue.toNat)).sum,
        sums.saturation + (colors.map (·.saturation.toNat)).sum,
        sums.brightness + (colors.map (·.value.toNat)).sum, sums.count + colors.length⟩ := by
  induction colors generalizing sums with
  | nil => rfl
  | cons color rest ih =>
    simp only [List.foldl_cons, ih, add, List.map_cons, List.sum_cons, List.length_cons,
      ColorSums.mk.injEq]
    omega

/-- There is an average exactly if there is a color, and it is the mean. -/
theorem average?_sums (colors : List Hsv) :
    (colors.foldl add zero).average? = none ∧ colors = [] ∨
      ∃ stats, (colors.foldl add zero).average? = some stats ∧ colors ≠ [] ∧
        stats.IsMean colors := by
  cases colors with
  | nil => exact .inl ⟨rfl, rfl⟩
  | cons color rest =>
    set colors := color :: rest with hcolors
    have some_color : colors ≠ [] := List.cons_ne_nil color rest
    have mean : ∀ channel : Hsv → UInt8, IsMean
        (UInt8.ofNat ((colors.map fun color => (channel color).toNat).sum / colors.length))
        (colors.map channel) := by
      intro channel
      have := isMean_ofNat (List.map_eq_nil_iff.not.2 some_color : colors.map channel ≠ [])
      rwa [List.map_map, List.length_map] at this
    have counted : colors.length ≠ 0 := List.length_eq_zero_iff.not.2 some_color
    have averaged : (colors.foldl add zero).average? = some
        ⟨UInt8.ofNat ((colors.map (·.hue.toNat)).sum / colors.length),
          UInt8.ofNat ((colors.map (·.saturation.toNat)).sum / colors.length),
          UInt8.ofNat ((colors.map (·.value.toNat)).sum / colors.length)⟩ := by
      simp only [foldl_add, zero, Nat.zero_add, average?, if_neg counted]
    exact .inr ⟨_, averaged, some_color, mean (·.hue), mean (·.saturation), mean (·.value)⟩

end ColorSums

/-! ### Hues -/

theorem Rgb.hue_toHsv_lt (color : Rgb) : color.toHsv.hue < 180 := by
  unfold Rgb.toHsv
  split
  · show (0 : UInt8) < 180
    decide
  · simp only [Rgb.hue]
    split
    · rename_i half _
      have below : half.round.toNat % 180 < 180 := Nat.mod_lt _ (by omega)
      have fits : half.round.toNat % 180 < 2 ^ 8 := Nat.lt_trans below (by omega)
      rw [UInt8.lt_iff_toNat_lt, UInt8.toNat_ofNat', Nat.mod_eq_of_lt fits]
      exact below
    · show (0 : UInt8) < 180
      decide

theorem ColorStats.IsMean.hue_lt {stats : ColorStats} {colors : List Hsv} (h : stats.IsMean colors)
    (hues : ∀ color ∈ colors, color.hue < 180) : stats.hue < 180 := by
  obtain ⟨byte, hbyte, le⟩ := h.hue.exists_ge
  obtain ⟨color, hcolor, rfl⟩ := List.mem_map.1 hbyte
  exact UInt8.lt_of_le_of_lt le (hues color hcolor)

/-! ### The latest average -/

namespace ColorStats
variable {stats : ColorStats} {seen : List (List Hsv)}

/-- The mean of the latest of the lists that has a color; black if none of them has. -/
def LatestMean (stats : ColorStats) (seen : List (List Hsv)) : Prop :=
  match (seen.filter (!·.isEmpty)).getLast? with
  | none => stats = .initial
  | some colors => stats.IsMean colors

theorem LatestMean.next (h : stats.LatestMean seen) (colors : List Hsv) :
    ((colors.foldl .add ColorSums.zero).average?.getD stats).LatestMean (seen ++ [colors]) := by
  unfold LatestMean at h ⊢
  rw [List.filter_append]
  rcases ColorSums.average?_sums colors with ⟨averaged, rfl⟩ | ⟨mean, averaged, some_color, isMean⟩
  · rw [averaged]
    simpa using h
  · have kept : [colors].filter (!·.isEmpty) = [colors] := by simpa using some_color
    rw [averaged, kept, List.getLast?_concat]
    exact isMean

theorem LatestMean.hue_lt (h : stats.LatestMean seen)
    (hues : ∀ colors ∈ seen, ∀ color ∈ colors, color.hue < 180) : stats.hue < 180 := by
  unfold LatestMean at h
  split at h
  · rw [h]
    decide
  · rename_i colors latest
    exact h.hue_lt (hues colors (List.mem_filter.1 (List.mem_of_getLast? latest)).1)

end ColorStats

end ObjectTracking
