import Mathlib.Data.List.Basic
import Mathlib.Data.List.TakeWhile
import Mathlib.Data.Nat.Digits.Defs
import Mathlib.Tactic.Common
import ObjectTracking.Detection.Record

/-!
# Numbers are written as they are read

A number is written as its sign, its digits and perhaps a power of ten (`Json.NumberText`), which
is how it is read (`Json.readNumber_text`). So are whole numbers, and so are all doubles, whatever
their shortest digits (`Json.doubleText_sound`).
-/

namespace ObjectTracking

namespace Json

/-! ### Reading a number -/

/-- A value ends here: a record goes on or is closed. -/
def Ends (rest : List Char) : Prop := ∀ c ∈ rest.head?, c = ',' ∨ c = '\x7d'

/-- A number as it is written. -/
structure NumberText where
  negative : Bool
  whole : List Char
  fraction : List Char
  /-- Whether the power is negative, and its digits. -/
  power : Option (Bool × List Char)

namespace NumberText

/-- There are digits where there have to be some, and no zero in front of others. -/
structure Sound (n : NumberText) : Prop where
  whole_ne_nil : n.whole ≠ []
  whole_digits : ∀ c ∈ n.whole, c.isDigit = true
  leading : n.whole.head? = some '0' → n.whole.length = 1
  fraction_digits : ∀ c ∈ n.fraction, c.isDigit = true
  power_digits : ∀ power ∈ n.power, power.2 ≠ [] ∧ ∀ c ∈ power.2, c.isDigit = true

def signText (n : NumberText) : List Char := if n.negative then ['-'] else []

def fractionText (n : NumberText) : List Char :=
  if n.fraction = [] then [] else '.' :: n.fraction

def powerText (n : NumberText) : List Char :=
  match n.power with
  | none => []
  | some (negative, digits) => 'e' :: (if negative then '-' else '+') :: digits

def text (n : NumberText) : List Char :=
  n.signText ++ (n.whole ++ (n.fractionText ++ n.powerText))

theorem text_unpowered (negative : Bool) (whole fraction : List Char) :
    text ⟨negative, whole, fraction, none⟩ =
      (if negative then ['-'] else []) ++
        (whole ++ if fraction = [] then [] else '.' :: fraction) := by
  simp [text, signText, fractionText, powerText]

def values (digits : List Char) : List Nat := digits.map fun c => c.toNat - '0'.toNat

def value (n : NumberText) : JsonNumber :=
  ⟨n.negative, values n.whole, values n.fraction,
    n.power.map fun (negative, digits) => (negative, values digits)⟩

theorem Sound.first_digit {n : NumberText} (h : n.Sound) :
    ∃ c cs, n.whole = c :: cs ∧ c.isDigit = true := by
  obtain ⟨c, cs, whole_eq⟩ := List.exists_cons_of_ne_nil h.whole_ne_nil
  exact ⟨c, cs, whole_eq, h.whole_digits c (whole_eq ▸ List.mem_cons_self ..)⟩

end NumberText

theorem takeDigits_append {digits rest : List Char} (all : ∀ c ∈ digits, c.isDigit = true)
    (stop : ∀ c ∈ rest.head?, c.isDigit = false) :
    takeDigits (digits ++ rest) = (NumberText.values digits, rest) := by
  cases rest with
  | nil => simp [takeDigits, List.takeWhile_eq_self_iff.2 all, List.dropWhile_eq_nil_iff.2 all,
      NumberText.values]
  | cons c rest =>
    simp [takeDigits, List.takeWhile_append_of_pos all, List.dropWhile_append_of_pos all,
      stop c rfl, NumberText.values]

theorem Ends.stop {rest : List Char} (ends : Ends rest) : ∀ c ∈ rest.head?, c.isDigit = false := by
  intro c hc
  rcases ends c hc with rfl | rfl <;> decide

section
variable {n : NumberText} (h : n.Sound) {rest : List Char} (ends : Ends rest)

include h ends

theorem readExponent_power :
    readExponent (n.powerText ++ rest) = some (n.value.exponent, rest) := by
  obtain ⟨negative, whole, fraction, power⟩ := n
  cases power with
  | none =>
    cases rest with
    | nil => rfl
    | cons c rest => rcases ends c rfl with rfl | rfl <;> rfl
  | some power =>
    obtain ⟨below, digits⟩ := power
    obtain ⟨ne_nil, all⟩ := h.power_digits _ rfl
    have taken := takeDigits_append all ends.stop
    have some_digit : (NumberText.values digits).isEmpty = false := by
      simpa [NumberText.values] using ne_nil
    cases below <;>
      simp [NumberText.powerText, readExponent, taken, some_digit, NumberText.value]

omit h in
theorem power_head : ∀ c ∈ (n.powerText ++ rest).head?, c.isDigit = false ∧ c ≠ '.' := by
  obtain ⟨negative, whole, fraction, power⟩ := n
  cases power with
  | none =>
    intro c hc
    rcases ends c hc with rfl | rfl <;> decide
  | some power =>
    intro c hc
    obtain rfl : 'e' = c := by simpa [NumberText.powerText] using hc
    decide

theorem readFraction_fraction :
    readFraction (n.fractionText ++ (n.powerText ++ rest)) =
      some (NumberText.values n.fraction, n.powerText ++ rest) := by
  have head := power_head (n := n) ends
  by_cases none : n.fraction = []
  · generalize n.powerText ++ rest = tail at head
    have unpointed : readFraction tail = some ([], tail) := by
      cases tail with
      | nil => rfl
      | cons c tail =>
        rw [readFraction]
        exact fun _ point => (head c rfl).2 (List.cons.inj point).1
    simp [NumberText.fractionText, none, unpointed, NumberText.values]
  · have taken := takeDigits_append h.fraction_digits fun c hc => (head c hc).1
    have some_digit : (NumberText.values n.fraction).isEmpty = false := by
      simpa [NumberText.values] using none
    simp [NumberText.fractionText, none, readFraction, taken, some_digit]

omit h in
theorem fraction_head :
    ∀ c ∈ (n.fractionText ++ (n.powerText ++ rest)).head?, c.isDigit = false := by
  unfold NumberText.fractionText
  split
  · exact fun c hc => (power_head ends c hc).1
  · intro c hc
    obtain rfl : '.' = c := by simpa using hc
    decide

omit ends in
theorem leading_value : ((NumberText.values n.whole).isEmpty ||
    ((NumberText.values n.whole).head? = some 0 && 1 < (NumberText.values n.whole).length)) =
      false := by
  obtain ⟨c, cs, whole_eq, digit⟩ := h.first_digit
  have leading := h.leading
  rw [whole_eq] at leading ⊢
  have zero : c.toNat - '0'.toNat = 0 → cs = [] := by
    intro low
    have same : c = '0' := Char.toNat_inj.1 (by
      have := (Char.isDigit_iff_toNat.1 digit).1
      simp only [Char.reduceToNat] at *
      omega)
    simpa [same] using leading
  simpa [NumberText.values] using zero

omit ends in
theorem whole_unsigned (tail cs : List Char) : n.whole ++ tail ≠ '-' :: cs := by
  obtain ⟨c, whole, whole_eq, digit⟩ := h.first_digit
  intro same
  rw [whole_eq, List.cons_append] at same
  rw [(List.cons.inj same).1] at digit
  exact absurd digit (by decide)

theorem readNumber_text : readNumber (n.text ++ rest) = some (n.value, rest) := by
  have taken := takeDigits_append h.whole_digits (fraction_head (n := n) ends)
  have fraction := readFraction_fraction h ends
  have power := readExponent_power h ends
  have sound := leading_value h
  cases negative : n.negative with
  | true =>
    simp [readNumber, NumberText.text, NumberText.signText, NumberText.value, negative, taken,
      sound, fraction, power]
  | false =>
    simp [readNumber, NumberText.text, NumberText.signText, NumberText.value, negative,
      whole_unsigned h, taken, sound, fraction, power]

end

end Json

/-! ### Digits -/

/-- The digits of a number do not start with a zero. -/
theorem head?_toDigits {n : Nat} (h : n ≠ 0) : (Nat.toDigits 10 n).head? ≠ some '0' := by
  induction n using Nat.strongRecOn with
  | ind n ih =>
    by_cases small : n < 10
    · have digit : ∀ n < 10, n ≠ 0 → [Nat.digitChar n].head? ≠ some '0' := by decide
      rw [Nat.toDigits_of_lt_base small]
      exact digit n small h
    · obtain ⟨c, cs, front⟩ := List.exists_cons_of_ne_nil
        (Nat.toDigits_ne_nil : Nat.toDigits 10 (n / 10) ≠ [])
      have ih := ih (n / 10) (by omega) (by omega)
      rw [Nat.toDigits_of_base_le (by decide) (by omega), front]
      rwa [front] at ih

theorem isDigit_toDigits (n : Nat) : ∀ c ∈ Nat.toDigits 10 n, c.isDigit = true :=
  fun _ hc => Nat.isDigit_of_mem_toDigits (by decide) (by decide) hc

namespace Decimal

theorem lowest_pos {b : Binary} (h : b.significand ≠ 0) : 0 < (readsBack b).1 := by
  have below : (if b.significand = 1 <<< 52 ∧ -1074 < b.exponent then 1 else 2) ≤ 2 := by
    split <;> decide
  have unit : 0 < 1 <<< b.exponent.toNat := by simp [Nat.shiftLeft_eq]
  exact Nat.mul_pos (by omega) unit

/-- Zero reads back as no other number. -/
theorem onGrid?_ne_zero {tie : Tie} {b : Binary} {e : Int} {digits : Nat}
    (h : b.significand ≠ 0) (found : onGrid? tie b e = some digits) : digits ≠ 0 := by
  have low := lowest_pos h
  unfold onGrid? at found
  split at found
  rename_i lowest value highest den reads
  extract_lets floor inside distance at found
  rw [reads] at low
  have outside : inside 0 = false := by
    simp only [inside, scaledPair, Nat.zero_mul]
    split <;> simp [Nat.pos_iff_ne_zero.1 low]
  split at found
  · rename_i floor_inside
    split at found
    · exact Option.some.inj found ▸ Nat.succ_ne_zero floor
    · rintro rfl
      rw [Option.some.inj found, outside] at floor_inside
      cases floor_inside
  · split at found
    · exact Option.some.inj found ▸ Nat.succ_ne_zero floor
    · cases found

theorem digits_trimmed_ne_zero {digits : Nat} (h : digits ≠ 0) (negative : Bool) (exponent : Int)
    (fuel : Nat) : (trimmed negative digits exponent fuel).digits ≠ 0 := by
  induction fuel generalizing digits exponent with
  | zero => exact h
  | succ fuel ih =>
    rw [trimmed]
    split
    · exact ih (by omega) _
    · exact h

/-- Only a zero has no other digit. -/
theorem digits_shortest {tie : Tie} {b : Binary} (h : b.significand ≠ 0) :
    (shortest tie b).digits ≠ 0 := by
  have value : (readsBack b).2.1 ≠ 0 := by
    have unit : 0 < 1 <<< b.exponent.toNat := by simp [Nat.shiftLeft_eq]
    exact Nat.mul_ne_zero (by omega) (by omega)
  rw [shortest, if_neg h]
  split
  rename_i lowest value' highest den reads
  rw [reads] at value
  extract_lets place found
  cases hfound : found with
  | none => exact value
  | some d =>
    obtain ⟨i, -, hgrid⟩ := List.exists_of_findSome?_eq_some hfound
    obtain ⟨digits, hdigits, rfl⟩ := Option.map_eq_some_iff.1 hgrid
    exact digits_trimmed_ne_zero (onGrid?_ne_zero h hdigits) _ _ _

theorem exponent_shortest {tie : Tie} {b : Binary} (h : (shortest tie b).digits = 0) :
    (shortest tie b).exponent = 0 := by
  by_cases zero : b.significand = 0
  · rw [shortest, if_pos zero]
  · exact absurd h (digits_shortest zero)

variable {d : Decimal}

theorem digitText_digits : ∀ c ∈ d.digitText, c.isDigit = true := isDigit_toDigits _

theorem digitText_ne_nil : d.digitText ≠ [] := Nat.toDigits_ne_nil

theorem zeros_digits (n : Nat) : ∀ c ∈ (zeros n).toList, c.isDigit = true := by
  intro c hc
  simp [zeros] at hc
  rw [hc.2]
  decide

theorem sign_text : d.sign.toList = if d.negative then ['-'] else [] := by
  unfold sign
  split <;> rfl

theorem leading_digit (h : d.digits ≠ 0) : d.digitText.head? ≠ some '0' := head?_toDigits h

/-- The digits in their places are a number, unless there are zeros behind a zero. -/
theorem positional_sound (h : d.digits = 0 → d.exponent = 0) :
    ∃ n : Json.NumberText, n.Sound ∧ (d.positional ".0").toList = n.text := by
  have digits := d.digitText_digits
  have place_eq : d.pointPlace = (d.digitText.length : Int) + d.exponent := rfl
  have zero_digit : ∀ c ∈ ['0'], c.isDigit = true := by simp
  unfold positional
  extract_lets text place
  split
  · refine ⟨⟨d.negative, text ++ (zeros d.exponent.toNat).toList, ['0'], none⟩,
      ⟨by simp [text, digitText_ne_nil], ?_, ?_, zero_digit, nofun⟩, ?_⟩
    · exact List.forall_mem_append.2 ⟨digits, zeros_digits _⟩
    · by_cases zero : d.digits = 0
      · intro _
        simp [text, digitText, zero, h zero, zeros]
      · rw [List.head?_append_of_ne_nil _ digitText_ne_nil]
        exact fun leading => absurd leading (leading_digit zero)
    · simp [Json.NumberText.text_unpowered, sign_text]
  · have nonzero : d.digits ≠ 0 := fun zero => by simp [h zero] at *
    split
    · refine ⟨⟨d.negative, text.take place.toNat, text.drop place.toNat, none⟩,
        ⟨?_, ?_, ?_, ?_, nofun⟩, ?_⟩
      · simp [text, digitText_ne_nil]
        omega
      · exact fun c hc => digits c (List.mem_of_mem_take hc)
      · rw [List.head?_take, if_neg (by omega)]
        exact fun leading => absurd leading (leading_digit nonzero)
      · exact fun c hc => digits c (List.mem_of_mem_drop hc)
      · have some_digit : text.drop place.toNat ≠ [] := by
          simp [text]
          omega
        simp [Json.NumberText.text_unpowered, sign_text, some_digit]
    · refine ⟨⟨d.negative, ['0'], (zeros (-place).toNat).toList ++ text, none⟩,
        ⟨by simp, zero_digit, fun _ => rfl, ?_, nofun⟩, ?_⟩
      · exact List.forall_mem_append.2 ⟨zeros_digits _, digits⟩
      · simp [Json.NumberText.text_unpowered, sign_text, text, digitText_ne_nil]

theorem scientific_sound (h : d.digits ≠ 0) :
    ∃ n : Json.NumberText, n.Sound ∧ d.scientific.toList = n.text := by
  unfold scientific
  extract_lets text fraction power
  refine ⟨⟨d.negative, text.take 1, text.drop 1, some (power < 0, Nat.toDigits 10 power.natAbs)⟩,
    ⟨?_, ?_, ?_, ?_, ?_⟩, ?_⟩
  · simp [text, digitText_ne_nil]
  · exact fun c hc => d.digitText_digits c (List.mem_of_mem_take hc)
  · rw [List.head?_take, if_neg (by decide)]
    exact fun leading => absurd leading (leading_digit h)
  · exact fun c hc => d.digitText_digits c (List.mem_of_mem_drop hc)
  · intro _ written
    obtain rfl := Option.some.inj written
    exact ⟨Nat.toDigits_ne_nil, isDigit_toDigits _⟩
  · have fraction_eq : fraction.toList = if text.drop 1 = [] then [] else '.' :: text.drop 1 := by
      simp only [fraction, List.drop_eq_nil_iff]
      split <;> simp
    have power_eq : (if power < 0 then "e-" else "e+").toList =
        ['e', if power < 0 then '-' else '+'] := by
      split <;> rfl
    simp [Json.NumberText.text, Json.NumberText.signText, Json.NumberText.fractionText,
      Json.NumberText.powerText, sign_text, fraction_eq, power_eq]

end Decimal

namespace Json

/-- A double is written as a number, or else as `null`. -/
theorem doubleText_sound (x : Float) :
    doubleText x = "null" ∨ ∃ n : NumberText, n.Sound ∧ (doubleText x).toList = n.text := by
  unfold doubleText
  split
  · exact .inl rfl
  · rename_i b _
    extract_lets d
    right
    split
    · exact Decimal.positional_sound Decimal.exponent_shortest
    · rename_i nonzero
      split
      · exact Decimal.positional_sound Decimal.exponent_shortest
      · exact Decimal.scientific_sound nonzero

/-- A whole number by its digits. -/
def NumberText.ofNat (n : Nat) : NumberText := ⟨false, Nat.toDigits 10 n, [], none⟩

theorem NumberText.ofNat_sound (n : Nat) : (ofNat n).Sound where
  whole_ne_nil := Nat.toDigits_ne_nil
  whole_digits := isDigit_toDigits n
  leading zero := by
    by_cases h : n = 0
    · subst h
      rfl
    · exact absurd zero (head?_toDigits h)
  fraction_digits := nofun
  power_digits := nofun

theorem toList_toString (n : Nat) : (toString n).toList = (NumberText.ofNat n).text := by
  simp [NumberText.ofNat, NumberText.text_unpowered]

/-- The text of a number goes on in one line. -/
theorem NumberText.newline_not_mem {n : NumberText} (h : n.Sound) : '\n' ∉ n.text := by
  have digits : ∀ cs : List Char, (∀ c ∈ cs, c.isDigit = true) → '\n' ∉ cs :=
    fun cs all hc => absurd (all _ hc) (by decide)
  have powers := h.power_digits
  simp only [text, signText, fractionText, powerText, List.mem_append, not_or]
  refine ⟨?sign, digits _ h.whole_digits, ?fraction, ?power⟩
  case sign => split <;> decide
  case fraction =>
    split
    · exact List.not_mem_nil
    · simpa using digits _ h.fraction_digits
  case power =>
    split
    · exact List.not_mem_nil
    · rename_i negative power power_eq
      have rest := digits _ (powers _ power_eq).2
      cases negative <;> simpa using rest

end Json

end ObjectTracking
