import Metering.Number
import Mathlib.Algebra.Order.Ring.Int
import Mathlib.Data.Nat.Basic

/-!
# Sums and conversions of doubles

Rounding a magnitude leaves nothing in its low bits, so rounding it once more changes nothing
(`significand_significand`).  Two facts about doubles rest on that.  A running total that starts
from zero takes up zero without change (`zero_add_add`), which fails only for a negative zero; and
an integer keeps its sign when it is converted (`Number.isNegative_of_toBinary64?`).
-/

namespace Metering

namespace Binary64

/-! ### Rounding what is rounded -/

/-- A multiple of its divisor is the nearest number to itself. -/
theorem nearest_mul {s : Nat} (hs : 0 < s) (k : Nat) : nearest (k * s) s = k := by
  unfold nearest
  dsimp only
  rw [Nat.mul_mod_left, Nat.mul_div_cancel _ hs, if_pos (by omega)]

/-- A magnitude whose low bits beyond the precision are zero needs no rounding. -/
theorem significand_of_dvd {m : Nat} (h : Nat.pow 2 (excess m) ∣ m) : significand m 1 = m := by
  obtain ⟨k, hk⟩ := h
  have hpos : 0 < Nat.pow 2 (excess m) := Nat.two_pow_pos _
  unfold significand
  dsimp only
  rw [Nat.div_one, Nat.one_mul]
  conv_lhs => arg 1; arg 1; rw [hk, Nat.mul_comm]
  rw [nearest_mul hpos, Nat.mul_comm]
  exact hk.symm

theorem excess_of_bounds {m e : Nat} (hl : Nat.pow 2 (52 + e) ≤ m) (hu : m < Nat.pow 2 (53 + e)) :
    excess m = e := by
  have hm : m ≠ 0 := by
    have : 0 < Nat.pow 2 (52 + e) := Nat.two_pow_pos _
    omega
  have hlog : m.log2 = 52 + e := by
    have h1 := (Nat.le_log2 hm).mpr hl
    have h2 := (Nat.log2_lt hm).mpr hu
    omega
  unfold excess precision
  omega

/-- The leading bits of a magnitude are a number of 53 bits, and rounding may make the least number
of 54 bits of it. -/
theorem exists_significand_eq {n : Nat} (hn : ¬ n < Nat.pow 2 precision) :
    ∃ k e, significand n 1 = k * Nat.pow 2 e ∧ Nat.pow 2 52 ≤ k ∧ k ≤ Nat.pow 2 53 := by
  have hne : n ≠ 0 := by
    rintro rfl
    exact hn (Nat.two_pow_pos _)
  obtain ⟨e, he⟩ : ∃ e, n.log2 = 52 + e := by
    have hlog := (Nat.le_log2 (k := precision) hne).mpr (Nat.le_of_not_lt hn)
    exact ⟨n.log2 - 52, by unfold precision at hlog; omega⟩
  have hl : Nat.pow 2 (52 + e) ≤ n := he ▸ Nat.log2_self_le hne
  have hu : n < Nat.pow 2 (53 + e) := (Nat.log2_lt hne).mp (by omega)
  have hstep : 0 < Nat.pow 2 e := Nat.two_pow_pos _
  have hql : Nat.pow 2 52 ≤ n / Nat.pow 2 e :=
    (Nat.le_div_iff_mul_le hstep).mpr ((Nat.pow_add 2 52 e).symm.trans_le hl)
  have hqu : n / Nat.pow 2 e < Nat.pow 2 53 :=
    (Nat.div_lt_iff_lt_mul hstep).mpr (hu.trans_eq (Nat.pow_add 2 53 e))
  have hk := nearest_eq_or n (Nat.pow 2 e)
  refine ⟨nearest n (Nat.pow 2 e), e, ?_, by omega, by omega⟩
  unfold significand
  dsimp only
  rw [Nat.div_one, excess_of_bounds hl hu, Nat.one_mul]

/-- Rounding leaves nothing in the low bits beyond the precision. -/
theorem excess_significand_dvd (n : Nat) :
    Nat.pow 2 (excess (significand n 1)) ∣ significand n 1 := by
  by_cases hn : n < Nat.pow 2 precision
  · rw [significand_of_lt hn]
    have hexcess : excess n = 0 := by
      unfold excess
      rcases Nat.eq_zero_or_pos n with rfl | hpos
      · decide
      · have hlog := (Nat.log2_lt (Nat.pos_iff_ne_zero.mp hpos)).mpr hn
        omega
    rw [hexcess]
    exact one_dvd n
  obtain ⟨k, e, hsig, hl, hu⟩ := exists_significand_eq hn
  have hpow : ∀ d, Nat.pow 2 (d + e) = Nat.pow 2 d * Nat.pow 2 e := fun d => Nat.pow_add 2 d e
  rw [hsig]
  rcases Nat.lt_or_ge k (Nat.pow 2 53) with hlt | hge
  · have hexcess : excess (k * Nat.pow 2 e) = e := by
      refine excess_of_bounds ?_ ?_
      · rw [hpow]
        exact Nat.mul_le_mul_right _ hl
      · rw [hpow]
        exact Nat.mul_lt_mul_of_pos_right hlt (Nat.two_pow_pos _)
    rw [hexcess]
    exact Dvd.intro_left k rfl
  · obtain rfl : k = Nat.pow 2 53 := Nat.le_antisymm hu hge
    have hexcess : excess (Nat.pow 2 (53 + e)) = e + 1 := by
      refine excess_of_bounds (Nat.le_of_eq ?_) ?_
      · congr 1
        omega
      · exact Nat.pow_lt_pow_right (by omega) (by omega)
    rw [← hpow, hexcess]
    exact Nat.pow_dvd_pow 2 (by omega)

/-- **Rounding** a rounded magnitude changes nothing. -/
theorem significand_significand (n : Nat) : significand (significand n 1) 1 = significand n 1 :=
  significand_of_dvd (excess_significand_dvd n)

theorem significand_pos {n : Nat} (hn : 0 < n) : 0 < significand n 1 := by
  by_cases hlt : n < Nat.pow 2 precision
  · rwa [significand_of_lt hlt]
  · obtain ⟨k, e, hsig, hl, -⟩ := exists_significand_eq hlt
    rw [hsig]
    exact Nat.mul_pos (Nat.lt_of_lt_of_le (Nat.two_pow_pos 52) hl) (Nat.two_pow_pos e)

/-! ### Adding to zero -/

/-- Adding zero to a sum of units changes nothing, since it is rounded already. -/
theorem zero_add_ofUnits {u : Int} (hu : u ≠ 0) : add zero (ofUnits u) = ofUnits u := by
  have hpos := significand_pos (Int.natAbs_pos.mpr hu)
  unfold ofUnits ofRatio
  dsimp only
  split
  swap
  · rfl
  next hlt =>
  -- a finite sum keeps its sign, for rounding does not make zero of it
  generalize hm : significand u.natAbs 1 = m at hpos hlt
  have hround : significand m 1 = m := by
    rw [← hm]
    exact significand_significand _
  have hsum : ∀ negative, add zero (.finite negative m) = .finite negative m := by
    intro negative
    have hne : (0 : Int) + signedUnits negative m ≠ 0 := by
      unfold signedUnits
      split <;> omega
    have habs : ((0 : Int) + signedUnits negative m).natAbs = m := by
      unfold signedUnits
      split <;> omega
    have hsign : decide ((0 : Int) + signedUnits negative m < 0) = negative := by
      unfold signedUnits
      cases negative
      · exact decide_eq_false (by simp)
      · exact decide_eq_true (by simpa using hpos)
    show (if signedUnits false 0 + signedUnits negative m = 0 then _
      else ofUnits (signedUnits false 0 + signedUnits negative m)) = _
    rw [show signedUnits false 0 = 0 from rfl, if_neg hne]
    unfold ofUnits ofRatio
    dsimp only
    rw [habs, hsign, hround, if_pos hlt]
  exact hsum _

theorem add_finite (s t : Bool) (m n : Nat) : add (.finite s m) (.finite t n)
    = if signedUnits s m + signedUnits t n = 0 then .finite (s && t) 0
      else ofUnits (signedUnits s m + signedUnits t n) := rfl

/-- Whatever is added to a number that zero can be added to, zero can be added to the sum too. -/
theorem zero_add_add {x : Binary64} (hx : add zero x = x) (y : Binary64) :
    add zero (add x y) = add x y := by
  cases x with
  | nan => rfl
  | infinity s =>
    cases y with
    | infinity t => cases s <;> cases t <;> rfl
    | _ => rfl
  | finite s m =>
    cases y with
    | nan => rfl
    | infinity t => rfl
    | finite t n =>
      rw [add_finite]
      by_cases hzero : signedUnits s m + signedUnits t n = 0
      swap
      · rw [if_neg hzero]
        exact zero_add_ofUnits hzero
      -- only two negative zeros have a negative zero as their sum, and the first one is none
      have hsign : (s && t) = false := by
        cases s with
        | false => rfl
        | true =>
          cases t with
          | false => rfl
          | true =>
            obtain rfl : m = 0 := by
              simp only [signedUnits, if_true] at hzero
              omega
            cases hx
      rw [if_pos hzero, hsign]
      rfl

end Binary64

/-! ### Converting -/

namespace Number

theorem isNegative_double_finite (s : Bool) (m : Nat) :
    (double (.finite s m)).isNegative = decide (Binary64.signedUnits s m < 0) := by
  show decide (Binary64.signedUnits s m < 0 * (Binary64.unitsPerOne : Int)) = _
  rw [Int.zero_mul]

theorem isNegative_integer (n : Int) : (integer n).isNegative = decide (n < 0) :=
  lt_integer n 0

/-- An integer that is not too large has a double of its sign. -/
theorem ofInt_eq (k : Int) : (∃ m, Binary64.ofInt k = .finite (decide (k < 0)) m ∧
    (0 < m ∨ k = 0)) ∨ ∃ s, Binary64.ofInt k = .infinity s := by
  have hunits : (0 : Int) < Binary64.unitsPerOne := Int.natCast_pos.mpr Binary64.unitsPerOne_pos
  have hsign : k * (Binary64.unitsPerOne : Int) < 0 ↔ k < 0 :=
    ⟨fun h => neg_of_mul_neg_left h hunits.le, fun h => mul_neg_of_neg_of_pos h hunits⟩
  have hzero : k * (Binary64.unitsPerOne : Int) = 0 → k = 0 :=
    fun h => (mul_eq_zero.mp h).resolve_right hunits.ne'
  unfold Binary64.ofInt Binary64.ofUnits Binary64.ofRatio
  rw [decide_eq_decide.mpr hsign]
  dsimp only
  split
  · refine Or.inl ⟨_, rfl, ?_⟩
    by_cases hk : k = 0
    · exact Or.inr hk
    · exact Or.inl (Binary64.significand_pos (Int.natAbs_pos.mpr (mt hzero hk)))
  · exact Or.inr ⟨_, rfl⟩

/-- **Converting** keeps the sign. -/
theorem isNegative_of_toBinary64? {n : Number} {x : Binary64} (h : n.toBinary64? = some x) :
    (double x).isNegative = n.isNegative := by
  cases n with
  | double y =>
    obtain rfl := Option.some.inj h
    rfl
  | integer k =>
    unfold toBinary64? at h
    rcases ofInt_eq k with ⟨m, hm, hpos⟩ | ⟨s, hs⟩
    · simp only [hm, Option.some.injEq] at h
      subst h
      rw [isNegative_double_finite, isNegative_integer]
      refine decide_eq_decide.mpr ?_
      unfold Binary64.signedUnits
      by_cases hk : k < 0
      · simp only [hk, decide_true, if_true, iff_true]
        omega
      · simp [hk]
    · simp only [hs] at h
      cases h

end Number

end Metering
