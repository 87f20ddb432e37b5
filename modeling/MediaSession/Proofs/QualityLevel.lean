import MediaSession.Wire.QualityLevel
import Mathlib.Data.Rat.Cast.Order
import Mathlib.Tactic.Linarith
import Mathlib.Tactic.NormNum

namespace MediaSession

/-- The magnitude of a finite number as the fraction that it is. -/
def Binary64.magnitude (x : Binary64) : ℚ := x.numerator / x.denominator

/-- The whole tenths of a number that is rounded to six places. -/
def Binary64.tenths (x : Binary64) : Nat := x.inUnits 6 / 100000

/-- An `x`, decimal digits, a point and exactly one decimal digit. -/
def IsLevel (level : String) : Prop :=
  ∃ whole tenth, level.toList = 'x' :: (whole ++ ['.', tenth]) ∧ whole ≠ [] ∧
    (∀ digit ∈ whole, digit.isDigit = true) ∧ tenth.isDigit = true

/-- The level that asks for so many tenths. -/
def levelOf (tenths : Nat) : String :=
  String.ofList ('x' :: (Nat.toDigits 10 (tenths / 10) ++ ['.', Nat.digitChar (tenths % 10)]))

theorem levelOf_isLevel (tenths : Nat) : IsLevel (levelOf tenths) := by
  refine ⟨Nat.toDigits 10 (tenths / 10), Nat.digitChar (tenths % 10), String.toList_ofList,
    Nat.toDigits_ne_nil, fun digit hd => ?_, ?_⟩
  · exact Nat.isDigit_of_mem_toDigits (by decide) (by decide) hd
  · rw [Nat.isDigit_digitChar]
    exact decide_eq_true (Nat.mod_lt tenths (by decide))

/-- Of three characters behind the `x`, the second one is the point. -/
theorem IsLevel.getElem?_one {text : List Char}
    (h : IsLevel (String.ofList ('x' :: text.take 3))) : text[1]? = some '.' := by
  obtain ⟨whole, tenth, he, hw, _, _⟩ := h
  rw [String.toList_ofList] at he
  have ht : text.take 3 = whole ++ ['.', tenth] := (List.cons.inj he).2
  have hl : whole.length ≤ 1 := by
    have := congrArg List.length ht
    simp only [List.length_take, List.length_append, List.length_cons, List.length_nil] at this
    omega
  obtain ⟨first, rfl⟩ : ∃ first, whole = [first] := by
    have := List.length_pos_iff.mpr hw
    exact List.length_eq_one_iff.mp (by omega)
  have hg : (text.take 3)[1]? = some '.' := by rw [ht]; rfl
  simpa using hg

/-- Below an even number there is what lies more than half a unit below it. -/
theorem roundHalfEven_lt_iff {num den n : Nat} (hd : 0 < den) (hn : n % 2 = 0) :
    roundHalfEven num den < n ↔ 2 * num + den < 2 * (n * den) := by
  have hsplit : den * (num / den) + num % den = num := Nat.div_add_mod num den
  have hrest : num % den < den := Nat.mod_lt num hd
  unfold roundHalfEven
  simp only
  generalize num / den = q at *
  generalize num % den = rest at *
  rcases Nat.lt_trichotomy (q + 1) n with hlt | rfl | hgt
  · have hm : (q + 2) * den ≤ n * den := Nat.mul_le_mul_right den hlt
    rw [Nat.add_mul, Nat.mul_comm q] at hm
    split <;> omega
  · have hm : (q + 1) * den = den * q + den := by rw [Nat.add_mul, Nat.mul_comm q, Nat.one_mul]
    split <;> omega
  · have hm : n * den ≤ q * den := Nat.mul_le_mul_right den (by omega)
    rw [Nat.mul_comm q] at hm
    split <;> omega

namespace Binary64

variable {x : Binary64}

theorem inUnits_six_lt_iff : x.inUnits 6 < 10000000 ↔ x.magnitude < 9.9999995 := by
  have hd : (0 : ℚ) < x.denominator := by exact_mod_cast x.denominator_pos
  have ht : tenTo 6 = 1000000 := rfl
  rw [inUnits, ht, roundHalfEven_lt_iff x.denominator_pos rfl, magnitude, div_lt_iff₀ hd,
    ← Nat.cast_lt (α := ℚ)]
  push_cast
  constructor <;> intro h <;> linarith

theorem lastDigits_eq_cons (width n : Nat) : lastDigits (width + 1) n =
    Nat.digitChar (n / tenTo width % 10) :: lastDigits width n := by
  induction width generalizing n with
  | zero => simp [lastDigits, tenTo]
  | succ width ih =>
    have ht : n / tenTo (width + 1) = n / 10 / tenTo width := by
      rw [Nat.div_div_eq_div_mul, Nat.mul_comm]
      rfl
    rw [lastDigits, ih, ht]
    rfl

theorem fixedPoint_of_isPositive (places : Nat) (hf : x.isFinite = true)
    (hp : x.isPositive = true) : x.fixedPoint places =
      digitsOf (x.inUnits places / tenTo places) ++ '.' :: lastDigits places (x.inUnits places) := by
  obtain ⟨⟨hn, hs⟩, _⟩ : (x.isNaN = false ∧ x.isNegative = false) ∧ x.isZero = false := by
    simpa [isPositive] using hp
  simp only [fixedPoint, hn, hs, hf, Bool.false_eq_true, ↓reduceIte, List.nil_append]

theorem fixedPoint_six (hf : x.isFinite = true) (hp : x.isPositive = true) :
    x.fixedPoint 6 = Nat.toDigits 10 (x.inUnits 6 / 1000000) ++
      '.' :: Nat.digitChar (x.tenths % 10) :: lastDigits 5 (x.inUnits 6) := by
  have hsix : tenTo 6 = 1000000 := rfl
  have hfive : tenTo 5 = 100000 := rfl
  rw [fixedPoint_of_isPositive 6 hf hp, lastDigits_eq_cons, hsix, hfive, digitsOf, tenths]

end Binary64

variable {x : Binary64}

theorem levelText_of_lt (hf : x.isFinite = true) (hp : x.isPositive = true)
    (h : x.inUnits 6 < 10000000) : levelText x = levelOf x.tenths := by
  have hw : x.inUnits 6 / 1000000 < 10 := by omega
  have ht : x.tenths / 10 = x.inUnits 6 / 1000000 := by
    rw [Binary64.tenths, Nat.div_div_eq_div_mul]
  rw [levelText, levelOf, Binary64.fixedPoint_six hf hp, ht,
    Nat.toDigits_of_lt_base hw]
  simp only [List.singleton_append, List.take_succ_cons, List.take_zero]

/-- From ten on the second of the three characters is a digit. -/
theorem not_isLevel_levelText (hf : x.isFinite = true) (hp : x.isPositive = true)
    (h : 10000000 ≤ x.inUnits 6) : ¬ IsLevel (levelText x) := by
  intro hl
  have hw : 10 ≤ x.inUnits 6 / 1000000 := by omega
  have hd : (Nat.toDigits 10 (x.inUnits 6 / 1000000))[1]? = some '.' := by
    have hg := hl.getElem?_one
    rw [Binary64.fixedPoint_six hf hp, List.getElem?_append_left] at hg
    · exact hg
    · rw [Nat.toDigits_of_base_le (by decide) hw, List.length_append]
      exact Nat.add_lt_add_right Nat.length_toDigits_pos 1
  have hdigit := Nat.isDigit_of_mem_toDigits (by decide) (by decide) (List.mem_of_getElem? hd)
  exact absurd hdigit (by decide)

theorem levelOf_eq_standardLevel_iff {tenths : Nat} (h : tenths < 100) :
    levelOf tenths = standardLevel ↔ tenths = 10 := by
  constructor
  · intro he
    have hl := congrArg String.toList he
    rw [levelOf, String.toList_ofList, Nat.toDigits_of_lt_base (by omega)] at hl
    have hc : Nat.digitChar (tenths / 10) = '1' ∧ Nat.digitChar (tenths % 10) = '0' := by
      simpa [standardLevel] using hl
    rw [Nat.digitChar_eq_one, Nat.digitChar_eq_zero] at hc
    omega
  · rintro rfl
    decide

/--
A positive multiplier is turned into a level of the documented form, or into none, if and only if
it lies below the least number that is rounded to ten. It then asks for the whole tenths, and for
none if these are the standard.
-/
theorem qualityLevel_isLevel_iff (hf : x.isFinite = true) (hp : x.isPositive = true) :
    ((∀ level, qualityLevel x = some level → IsLevel level) ↔ x.magnitude < 9.9999995) ∧
      (x.magnitude < 9.9999995 →
        qualityLevel x = if x.tenths = 10 then none else some (levelOf x.tenths)) := by
  have hz : x.isZero = false := by
    simpa using (Bool.and_eq_true_iff.mp hp).2
  have hsome (hn : levelText x ≠ standardLevel) : qualityLevel x = some (levelText x) := by
    simp [qualityLevel, hz, hn]
  have hlevel (h : x.magnitude < 9.9999995) :
      qualityLevel x = if x.tenths = 10 then none else some (levelOf x.tenths) := by
    have hu := Binary64.inUnits_six_lt_iff.mpr h
    have ht : x.tenths < 100 := by
      unfold Binary64.tenths
      omega
    simp only [qualityLevel, hz, levelText_of_lt hf hp hu, levelOf_eq_standardLevel_iff ht,
      Bool.false_eq_true, ↓reduceIte]
  refine ⟨⟨fun hall => ?_, fun h level hl => ?_⟩, hlevel⟩
  · by_contra hn
    have hm := not_isLevel_levelText hf hp (by rwa [← not_lt, Binary64.inUnits_six_lt_iff])
    refine hm (hall _ (hsome fun he => hm ?_))
    rw [he]
    exact levelOf_isLevel 10
  · rw [hlevel h] at hl
    split at hl
    · cases hl
    · exact Option.some.inj hl ▸ levelOf_isLevel _

/-- The greatest number that is not yet rounded to ten. -/
def almostTen : Binary64 := ⟨0x4023FFFFEF39085F⟩

theorem almostTen_isLevel : qualityLevel almostTen = some "x9.9" ∧ IsLevel "x9.9" := by
  have hm : almostTen.magnitude < 9.9999995 := by
    have hn : almostTen.numerator = 5629499252738143 := by decide
    have hd : almostTen.denominator = 562949953421312 := by decide
    rw [Binary64.magnitude, hn, hd]
    norm_num
  obtain ⟨hiff, hlevel⟩ := qualityLevel_isLevel_iff (x := almostTen) (by decide) (by decide)
  have hq : qualityLevel almostTen = some "x9.9" := (hlevel hm).trans (by decide)
  exact ⟨hq, hiff.mpr hm _ hq⟩

/-- Of ten the three characters are two digits and the point, and no decimal digit is left. -/
theorem ten_not_isLevel :
    ¬ ∀ x : Binary64, x.isFinite = true → x.isPositive = true →
      ∀ level, qualityLevel x = some level → IsLevel level := by
  intro h
  have hl : IsLevel "x10." := h ⟨0x4024000000000000⟩ (by decide) (by decide) _ (by decide)
  have hg : some '0' = some '.' := @IsLevel.getElem?_one ['1', '0', '.'] hl
  exact absurd hg (by decide)

end MediaSession
