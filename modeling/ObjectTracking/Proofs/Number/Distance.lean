import Mathlib.Algebra.Group.Basic
import Mathlib.Algebra.Group.Nat.Defs
import Mathlib.Algebra.Order.Group.Int
import Mathlib.Order.Compare
import Mathlib.Tactic.Common
import ObjectTracking.Number.Scalar

/-!
# Distances between machine numbers

What little of geometry survives rounding: a finite place is at distance zero from itself
(`hypot_sub_self`), a distance is the same in both directions (`hypot_sub_comm`), and nothing is
nearer than distance zero (`rank_hypot_nonneg`), nor is anything else as near
(`hypot_eq_zero_of_rank`).
-/

namespace ObjectTracking.Double

open Float.Model (Format UnpackedFloat)
open Float.Model.UnpackedFloat hiding normalize round

variable {spec : Format} {u v : UnpackedFloat} {x y : Float}

/-! ### Magnitudes -/

theorem abs_round (spec : Format) (s : Sign) (m : Nat) (e : Int) :
    (UnpackedFloat.round spec s m e).abs = UnpackedFloat.round spec .positive m e :=
  apply_dite UnpackedFloat.abs _ _ _

theorem abs_normalize (spec : Format) (m : Int) (e : Int) (s : Sign) :
    (UnpackedFloat.normalize spec m e s).abs =
      if m = 0 then .zero .positive else UnpackedFloat.round spec .positive m.natAbs e := by
  unfold UnpackedFloat.normalize
  rcases lt_trichotomy m 0 with neg | rfl | pos
  · rw [compare_lt_iff_lt.2 neg, if_neg neg.ne]
    simp only [abs_round, show (-m).toNat = m.natAbs by omega]
  · rfl
  · rw [compare_gt_iff_gt.2 pos, if_neg pos.ne']
    simp only [abs_round, show m.toNat = m.natAbs by omega]

theorem abs_sub_comm (u v : UnpackedFloat) : (sub spec u v).abs = (sub spec v u).abs := by
  cases u with
  | notANumber => cases v <;> rfl
  | infinity s =>
    cases v with
    | infinity s' => cases s <;> cases s' <;> rfl
    | _ => rfl
  | zero s =>
    cases v with
    | zero s' => cases s <;> cases s' <;> rfl
    | _ => rfl
  | finite s m e hm =>
    cases v with
    | finite s' m' e' hm' =>
      unfold sub
      simp only [abs_normalize, min_comm e' e, sub_eq_zero]
      generalize s.apply _ = a
      generalize s'.apply _ = b
      rw [show (a - b).natAbs = (b - a).natAbs by omega]
      simp only [eq_comm]
    | _ => rfl

theorem abs_finite {s s' : Sign} {m m' : Nat} {e e' : Int} {hm : 0 < m} {hm' : 0 < m'}
    (mantissa : m = m') (exponent : e = e') : (finite s m e hm).abs = (finite s' m' e' hm').abs := by
  subst mantissa exponent
  rfl

theorem abs_dite {c c' : Prop} [Decidable c] [Decidable c'] {t : c → UnpackedFloat}
    {t' : c' → UnpackedFloat} {f : ¬c → UnpackedFloat} {f' : ¬c' → UnpackedFloat} (iff : c ↔ c')
    (pos : ∀ h h', (t h).abs = (t' h').abs) (neg : ∀ h h', (f h).abs = (f' h').abs) :
    (dite c t f).abs = (dite c' t' f').abs := by
  by_cases h : c
  · rw [dif_pos h, dif_pos (iff.1 h)]
    exact pos ..
  · rw [dif_neg h, dif_neg (mt iff.2 h)]
    exact neg ..

theorem abs_unpack_packComponents (s s' : Sign) (e : BitVec spec.exponentBits)
    (m : BitVec spec.mantissaBitsWithoutImplicit) :
    (unpack spec (packComponents spec s e m)).abs =
      (unpack spec (packComponents spec s' e m)).abs := by
  have mantissa : unpackMantissa (packComponents spec s e m) =
      unpackMantissa (packComponents spec s' e m) := by
    rw [unpackMantissa_packComponents, unpackMantissa_packComponents]
  have exponent : unpackExponent (packComponents spec s e m) =
      unpackExponent (packComponents spec s' e m) := by
    rw [unpackExponent_packComponents, unpackExponent_packComponents]
  unfold unpack
  refine abs_dite (by rw [exponent]) (fun _ _ => ?noNumber) fun _ _ =>
    abs_dite (by rw [exponent]) (fun _ _ => ?tiny) fun _ _ =>
      abs_finite (by rw [mantissa]) (by rw [exponent])
  case noNumber => exact abs_dite (by rw [mantissa]) (fun _ _ => rfl) fun _ _ => rfl
  case tiny =>
    exact abs_dite (by rw [mantissa]) (fun _ _ => rfl) fun _ _ =>
      abs_finite (by rw [mantissa]) (by rw [exponent])

theorem abs_unpack_pack (h : u.abs = v.abs) :
    (unpack spec (pack spec u)).abs = (unpack spec (pack spec v)).abs := by
  cases u with
  | notANumber => cases v <;> first | rfl | cases h
  | infinity s =>
    cases v with
    | infinity s' => exact abs_unpack_packComponents ..
    | _ => cases h
  | zero s =>
    cases v with
    | zero s' => exact abs_unpack_packComponents ..
    | _ => cases h
  | finite s m e hm =>
    cases v with
    | finite s' m' e' hm' =>
      obtain ⟨-, rfl, rfl⟩ := UnpackedFloat.finite.inj h
      unfold pack
      dsimp only
      split_ifs <;> exact abs_unpack_packComponents ..
    | _ => cases h

theorem abs_float_sub_comm (x y : Float) : (x - y).abs = (y - x).abs := by
  have comm : (unpack Format.binary64 (pack Format.binary64
      (sub Format.binary64 x.toModel.unpack y.toModel.unpack))).abs =
      (unpack Format.binary64 (pack Format.binary64
        (sub Format.binary64 y.toModel.unpack x.toModel.unpack))).abs :=
    abs_unpack_pack (abs_sub_comm ..)
  exact congrArg (fun u => (⟨.pack u⟩ : Float)) comm

/-- The way there is as long as the way back. -/
theorem hypot_sub_comm (x y x' y' : Float) :
    hypot (x - x') (y - y') = hypot (x' - x) (y' - y) := by
  simp only [hypot, abs_float_sub_comm]

theorem sub_self_of_isFinite (h : x.isFinite = true) : x - x = 0 := by
  have zero : sub Format.binary64 x.toModel.unpack x.toModel.unpack = .zero .positive := by
    simp only [Float.isFinite, Float.Model.isFinite] at h
    generalize x.toModel.unpack = u at h ⊢
    cases u with
    | infinity s => cases h
    | notANumber => cases h
    | zero s => cases s <;> rfl
    | finite s m e hm =>
      unfold sub
      simp only [Int.sub_self]
      rfl
  exact congrArg (fun u => (⟨.pack u⟩ : Float)) zero

theorem hypot_sub_self (hx : x.isFinite = true) (hy : y.isFinite = true) :
    hypot (x - x) (y - y) = 0 := by
  rw [sub_self_of_isFinite hx, sub_self_of_isFinite hy]
  decide +kernel

/-! ### Signs -/

/-- The sign bit is not set. -/
def NonNeg (x : Float) : Prop := x.toBits.toNat < 2 ^ 63

/-- No negative number, zero or infinity. -/
def Unsigned : UnpackedFloat → Prop
  | .infinity s | .zero s | .finite s .. => s = .positive
  | .notANumber => True

theorem unsigned_dite {c : Prop} [Decidable c] {t : c → UnpackedFloat} {f : ¬c → UnpackedFloat}
    (pos : ∀ h, Unsigned (t h)) (neg : ∀ h, Unsigned (f h)) : Unsigned (dite c t f) := by
  split
  · exact pos _
  · exact neg _

theorem nonNeg_pack (h : Unsigned u) : NonNeg ⟨.pack u⟩ := by
  have low : ∀ (e : BitVec 11) (m : BitVec 52),
      (packComponents Format.binary64 .positive e m).toNat < 2 ^ 63 := fun e m => by
    have exponent_lt : e.toNat <<< 52 < 2 ^ 63 := by rw [Nat.shiftLeft_eq]; omega
    have mantissa_lt : m.toNat < 2 ^ 63 := by omega
    have bits : (packComponents Format.binary64 .positive e m).toNat =
        e.toNat <<< 52 ||| m.toNat := by
      show (0#1 ++ e ++ m).toNat = _
      rw [BitVec.toNat_append, BitVec.toNat_append]
      simp
    exact bits ▸ Nat.or_lt_two_pow exponent_lt mantissa_lt
  show (pack Format.binary64 u).toNat < 2 ^ 63
  cases u with
  | notANumber => exact low ..
  | infinity s => obtain rfl := h; exact low ..
  | zero s => obtain rfl := h; exact low ..
  | finite s m e hm =>
    obtain rfl := h
    unfold pack
    dsimp only
    split_ifs <;> exact low ..

theorem unsigned_unpack (h : NonNeg x) : Unsigned x.toModel.unpack := by
  have sign_bit : @unpackSign Format.binary64 x.toBits.toBitVec = 0#1 := by
    refine BitVec.eq_of_toNat_eq ?_
    show (x.toBits.toNat >>> 63) % 2 = 0
    rw [Nat.shiftRight_eq_div_pow, Nat.div_eq_of_lt h]
  have sign : Sign.ofBitVec (@unpackSign Format.binary64 x.toBits.toBitVec) = .positive := by
    rw [sign_bit]
    rfl
  show Unsigned (unpack Format.binary64 x.toBits.toBitVec)
  unfold unpack
  exact unsigned_dite (fun _ => unsigned_dite (fun _ => sign) fun _ => trivial)
    fun _ => unsigned_dite (fun _ => unsigned_dite (fun _ => sign) fun _ => sign) fun _ => sign

theorem unsigned_roundWithAccuracy (spec : Format) (m : Nat) (e : Int) (acc : Accuracy) :
    Unsigned (roundWithAccuracy spec .positive m e acc) :=
  unsigned_dite (fun _ => rfl) fun _ => rfl

theorem unsigned_normalize {m : Int} (h : 0 ≤ m) (e : Int) :
    Unsigned (UnpackedFloat.normalize spec m e .positive) := by
  unfold UnpackedFloat.normalize
  split
  · rename_i neg
    exact absurd (compare_lt_iff_lt.1 neg) (not_lt.2 h)
  · rfl
  · exact unsigned_roundWithAccuracy ..

theorem unsigned_mul (hu : Unsigned u) (hv : Unsigned v) : Unsigned (mul spec u v) := by
  cases u <;> cases v <;> try trivial
  all_goals obtain rfl := hu; obtain rfl := hv
  case finite.finite => exact unsigned_roundWithAccuracy ..
  all_goals rfl

theorem unsigned_add (hu : Unsigned u) (hv : Unsigned v) : Unsigned (add spec u v) := by
  cases u <;> cases v <;> try trivial
  all_goals obtain rfl := hu; obtain rfl := hv
  case finite.finite =>
    exact unsigned_normalize (Int.add_nonneg (Int.natCast_nonneg _) (Int.natCast_nonneg _)) _
  all_goals rfl

theorem unsigned_sqrt (hu : Unsigned u) : Unsigned (UnpackedFloat.sqrt spec u) := by
  cases u with
  | notANumber => trivial
  | infinity s => obtain rfl := hu; rfl
  | zero s => exact hu
  | finite s m e hm =>
    obtain rfl := hu
    exact unsigned_roundWithAccuracy ..

namespace NonNeg

theorem mul (hx : NonNeg x) (hy : NonNeg y) : NonNeg (x * y) :=
  nonNeg_pack (unsigned_mul (unsigned_unpack hx) (unsigned_unpack hy))

theorem add (hx : NonNeg x) (hy : NonNeg y) : NonNeg (x + y) :=
  nonNeg_pack (unsigned_add (unsigned_unpack hx) (unsigned_unpack hy))

theorem sqrt (hx : NonNeg x) : NonNeg x.sqrt :=
  nonNeg_pack (unsigned_sqrt (unsigned_unpack hx))

theorem abs (x : Float) : NonNeg x.abs := by
  refine nonNeg_pack ?_
  cases x.toModel.unpack with
  | notANumber => trivial
  | _ => rfl

theorem hypot (x y : Float) : NonNeg (hypot x y) := by
  have length : ∀ scale, NonNeg scale →
      NonNeg ((x.abs * scale) * (x.abs * scale) + (y.abs * scale) * (y.abs * scale)).sqrt := by
    intro scale h
    have hx := (abs x).mul h
    have hy := (abs y).mul h
    exact ((hx.mul hx).add (hy.mul hy)).sqrt
  have scales : NonNeg (powerOfTwo 600) ∧ NonNeg (powerOfTwo (-600)) ∧ NonNeg 1 := by
    unfold NonNeg
    decide +kernel
  obtain ⟨up, down, one⟩ := scales
  dsimp only [Double.hypot]
  generalize (if x.abs < y.abs then y.abs else x.abs) = big
  split_ifs
  · unfold NonNeg
    decide +kernel
  · exact (length _ up).mul down
  · exact (length _ down).mul up
  · exact length _ one

theorem rank_eq (h : NonNeg x) : rank x = x.toBits.toNat := by
  have below : (x.toBits.toNat : Int) < ((1 <<< 63 : Nat) : Int) := by
    rw [Int.ofNat_lt, Nat.one_shiftLeft]
    exact h
  dsimp only [rank]
  rw [if_pos below]

theorem eq_zero (nonNeg : NonNeg x) (h : rank x ≤ 0) : x = 0 := by
  rw [nonNeg.rank_eq] at h
  have zero_bits : (0 : Float).toBits.toNat = 0 := by decide +kernel
  have same_bits : x.toBits = (0 : Float).toBits := UInt64.toNat_inj.1 (by omega)
  -- a double is nothing but its bits
  have same : ∀ a b : Float.Model, a.toBits = b.toBits → a = b := by
    rintro ⟨_, _⟩ ⟨_, _⟩ rfl
    rfl
  exact congrArg Float.ofModel (same x.toModel (0 : Float).toModel same_bits)

end NonNeg

theorem rank_hypot_nonneg (x y : Float) : 0 ≤ rank (hypot x y) := by
  rw [(NonNeg.hypot x y).rank_eq]
  exact Int.natCast_nonneg _

/-- No length but zero is as low as zero. -/
theorem hypot_eq_zero_of_rank (h : rank (hypot x y) ≤ 0) : hypot x y = 0 :=
  (NonNeg.hypot x y).eq_zero h

end ObjectTracking.Double
