import Hive.Binary64.Decimal
import Mathlib.Data.Nat.Log
import Mathlib.Tactic.Ring

/-!
Rounding decimals to doubles. The nearest rank depends on the value of a fraction and not on how it
is written, and it is the rank itself where the fraction is the magnitude of one. So a decimal may
be written with more zeros, and the decimal that is chosen for a double reads back as that double.
-/

namespace Hive.Binary64

lemma unitsPerOne_pos : 0 < unitsPerOne := by
  unfold unitsPerOne
  exact Nat.two_pow_pos 1074

/-! ### Fractions -/

lemma roundHalfEven_mul (num den : Nat) {c : Nat} (hc : 0 < c) :
    roundHalfEven (num * c) (den * c) = roundHalfEven num den := by
  have hbelow : 2 * (num % den * c) < den * c ↔ 2 * (num % den) < den := by
    rw [← Nat.mul_assoc]
    exact Nat.mul_lt_mul_right hc
  have habove : den * c < 2 * (num % den * c) ↔ den < 2 * (num % den) := by
    rw [← Nat.mul_assoc]
    exact Nat.mul_lt_mul_right hc
  unfold roundHalfEven
  rw [Nat.mul_div_mul_right _ _ hc, Nat.mul_mod_mul_right]
  simp only [hbelow, habove]

lemma roundHalfEven_exact (q : Nat) {den : Nat} (hden : 0 < den) :
    roundHalfEven (q * den) den = q := by
  simp [roundHalfEven, hden]

lemma div_le_roundHalfEven (num den : Nat) : num / den ≤ roundHalfEven num den := by
  unfold roundHalfEven
  dsimp only
  split
  · exact Nat.le_refl _
  split
  · exact Nat.le_succ _
  · exact Nat.le_add_right _ _

lemma nearestRank_mul (num den : Nat) {c : Nat} (hc : 0 < c) :
    nearestRank (num * c) (den * c) = nearestRank num den := by
  unfold nearestRank
  rw [Nat.mul_right_comm num c, Nat.mul_div_mul_right _ _ hc]
  dsimp only
  rw [Nat.mul_right_comm den c, roundHalfEven_mul _ _ hc]

lemma nearestRank_congr {a b c d : Nat} (hb : 0 < b) (hd : 0 < d) (h : a * d = c * b) :
    nearestRank a b = nearestRank c d := by
  rw [← nearestRank_mul a b hd, h, Nat.mul_comm b d, nearestRank_mul c d hb]

/-! ### Ranks -/

/-- The step of the block that holds the magnitude of a rank. -/
lemma log2_units (rank : Nat) : (units rank).log2 - 52 = rank / 2 ^ 52 - 1 := by
  unfold units
  split
  · rename_i h
    by_cases hzero : rank = 0
    · simp [hzero]
    · have hlog : rank.log2 < 52 := (Nat.log2_lt hzero).2 h
      omega
  · have hpos := Nat.two_pow_pos (rank / 2 ^ 52 - 1)
    have hlog : ((2 ^ 52 + rank % 2 ^ 52) * 2 ^ (rank / 2 ^ 52 - 1)).log2 =
        52 + (rank / 2 ^ 52 - 1) := by
      refine (Nat.log2_eq_iff (Nat.mul_pos (by omega) hpos).ne').2 ⟨?_, ?_⟩
      · rw [Nat.pow_add]
        exact Nat.mul_le_mul_right _ (by omega)
      · rw [show 52 + (rank / 2 ^ 52 - 1) + 1 = 53 + (rank / 2 ^ 52 - 1) by omega, Nat.pow_add]
        exact Nat.mul_lt_mul_of_pos_right (by omega) hpos
    omega

/-- **The rank of a magnitude is found again.** -/
lemma nearestRank_units (rank : Nat) : nearestRank (units rank) unitsPerOne = rank := by
  have hpos := unitsPerOne_pos
  have hstep := Nat.two_pow_pos (rank / 2 ^ 52 - 1)
  unfold nearestRank
  rw [Nat.mul_div_cancel _ hpos]
  dsimp only
  rw [log2_units, Nat.mul_comm unitsPerOne, roundHalfEven_mul _ _ hpos]
  unfold units
  split
  · have hblock : rank / 2 ^ 52 = 0 := Nat.div_eq_of_lt (by assumption)
    rw [hblock]
    simpa using roundHalfEven_exact rank Nat.one_pos
  · rw [roundHalfEven_exact _ hstep]
    have hdiv := Nat.div_add_mod rank (2 ^ 52)
    omega

/-- A fraction beyond all doubles has a rank beyond all of theirs. -/
lemma nearestRank_large {num den : Nat} (hden : 0 < den) (h : 2 ^ 1024 * den ≤ num) :
    infinityRank ≤ nearestRank num den := by
  have hq : 2 ^ (1024 + 1074) ≤ num * unitsPerOne / den := by
    rw [Nat.le_div_iff_mul_le hden]
    calc 2 ^ (1024 + 1074) * den = 2 ^ 1024 * den * unitsPerOne := by
          rw [unitsPerOne, Nat.mul_right_comm, ← Nat.pow_add]
      _ ≤ num * unitsPerOne := Nat.mul_le_mul_right _ h
  have hne : num * unitsPerOne / den ≠ 0 := (Nat.lt_of_lt_of_le (Nat.two_pow_pos _) hq).ne'
  have hlog : 1024 + 1074 ≤ (num * unitsPerOne / den).log2 := (Nat.le_log2 hne).2 hq
  unfold nearestRank
  dsimp only
  generalize hk : (num * unitsPerOne / den).log2 - 52 = k
  have hmantissa : 2 ^ 52 ≤ roundHalfEven (num * unitsPerOne) (den * 2 ^ k) := by
    refine Nat.le_trans ?_ (div_le_roundHalfEven _ _)
    rw [← Nat.div_div_eq_div_mul, Nat.le_div_iff_mul_le (Nat.two_pow_pos k), ← Nat.pow_add]
    rw [show 52 + k = (num * unitsPerOne / den).log2 by omega]
    exact Nat.log2_self_le hne
  have hblocks : 2046 * 2 ^ 52 ≤ k * 2 ^ 52 := Nat.mul_le_mul_right _ (by omega)
  unfold infinityRank
  omega

/-- A fraction below half a unit rounds to zero. -/
lemma nearestRank_small {num den : Nat} (h : 2 * (num * unitsPerOne) < den) :
    nearestRank num den = 0 := by
  have hlt : num * unitsPerOne < den := by omega
  unfold nearestRank
  rw [Nat.div_eq_of_lt hlt]
  simp [roundHalfEven, Nat.div_eq_of_lt hlt, Nat.mod_eq_of_lt hlt, h]

/-! ### Decimals -/

/-- **The rank of `m · 10 ^ e`** without any bound on the exponent. -/
def exactRank (m : Nat) (e : Int) : Nat := nearestRank (m * 10 ^ e.toNat) (10 ^ (-e).toNat)

/-- More zeros and a smaller exponent make the same decimal. -/
lemma exactRank_shift (m : Nat) (e : Int) (k : Nat) :
    exactRank (m * 10 ^ k) (e - k) = exactRank m e := by
  refine nearestRank_congr (Nat.pow_pos (by decide)) (Nat.pow_pos (by decide)) ?_
  have hexponents : k + (e - k).toNat + (-e).toNat = e.toNat + (-(e - k)).toNat := by omega
  calc m * 10 ^ k * 10 ^ (e - k).toNat * 10 ^ (-e).toNat
      = m * 10 ^ (k + (e - k).toNat + (-e).toNat) := by ring
    _ = m * 10 ^ e.toNat * 10 ^ (-(e - k)).toNat := by rw [hexponents]; ring

lemma two_pow_le_ten_pow (n : Nat) : 2 ^ (3 * n) ≤ 10 ^ n := by
  rw [Nat.pow_mul]
  exact Nat.pow_le_pow_left (by decide) n

/-- What needs no computation has the rank that it is given. -/
lemma min_decimalRank (m : Nat) (e : Int) :
    min (decimalRank m e) infinityRank = min (exactRank m e) infinityRank := by
  -- large exponents are cut off before a power is taken: there the exact rank is off the scale,
  -- or it is zero
  unfold decimalRank
  split
  · rename_i hm
    have hzero : exactRank m e = 0 := by
      rw [eq_of_beq hm, exactRank, Nat.zero_mul]
      exact nearestRank_small (by simp)
    rw [hzero]
  · rename_i hm
    have hm : 0 < m := Nat.pos_of_ne_zero (by simpa using hm)
    split
    · rename_i he
      have hden : (-e).toNat = 0 := by omega
      split
      · have hlarge : infinityRank ≤ exactRank m e := by
          unfold exactRank
          rw [hden, Nat.pow_zero]
          refine nearestRank_large Nat.one_pos ?_
          calc 2 ^ 1024 * 1 ≤ 2 ^ (3 * e.toNat) := by
                rw [Nat.mul_one]
                exact Nat.pow_le_pow_right (by decide) (by omega)
            _ ≤ 10 ^ e.toNat := two_pow_le_ten_pow _
            _ ≤ m * 10 ^ e.toNat := Nat.le_mul_of_pos_left _ hm
        rw [Nat.min_self, Nat.min_eq_right hlarge]
      · rw [exactRank, hden, Nat.pow_zero]
    · rename_i he
      have hnum : e.toNat = 0 := by omega
      have hden : (-e).toNat = e.natAbs := by omega
      split
      · rename_i hsmall
        have hzero : exactRank m e = 0 := by
          unfold exactRank
          rw [hnum, hden, Nat.pow_zero, Nat.mul_one]
          refine nearestRank_small ?_
          calc 2 * (m * unitsPerOne) < 2 * (2 ^ (m.log2 + 1) * unitsPerOne) := by
                have hlt : m < 2 ^ (m.log2 + 1) := Nat.lt_log2_self
                have hunits := Nat.mul_lt_mul_of_pos_right hlt unitsPerOne_pos
                exact Nat.mul_lt_mul_of_pos_left hunits (by decide)
            _ = 2 ^ (m.log2 + 1076) := by rw [unitsPerOne, ← Nat.pow_add, ← Nat.pow_succ']
            _ ≤ 2 ^ (3 * e.natAbs) := Nat.pow_le_pow_right (by decide) (by omega)
            _ ≤ 10 ^ e.natAbs := two_pow_le_ten_pow _
        rw [hzero]
      · rw [exactRank, hnum, hden, Nat.pow_zero, Nat.mul_one]

lemma ofRank_congr {negative : Bool} {a b : Nat}
    (h : min a infinityRank = min b infinityRank) : ofRank negative a = ofRank negative b := by
  unfold ofRank
  congr 2

lemma ofDecimal_shift (negative : Bool) (m : Nat) (e : Int) (k : Nat) :
    ofDecimal negative (m * 10 ^ k) (e - k) = ofDecimal negative m e := by
  refine ofRank_congr ?_
  rw [min_decimalRank, min_decimalRank, exactRank_shift]

/-! ### The fewest digits -/

/-- Of two decimals, the one that is chosen reads back. -/
lemma decimalRank_of_tried {rank near far m : Nat} {d e : Int}
    (h : (if decimalRank near d == rank then some (near, d)
      else if decimalRank far d == rank then some (far, d) else none) = some (m, e)) :
    decimalRank m e = rank := by
  split at h
  · rename_i hnear
    cases h
    exact eq_of_beq hnear
  split at h
  · rename_i hfar
    cases h
    exact eq_of_beq hfar
  · cases h

lemma decimalRank_of_decimalOf? {rank n m : Nat} {e : Int} (h : decimalOf? rank n = some (m, e)) :
    decimalRank m e = rank :=
  decimalRank_of_tried h

/-- A binary fraction written as a decimal one. -/
lemma exactRank_expand (u n : Nat) : exactRank (u * 5 ^ n) (-(n : Int)) = nearestRank u (2 ^ n) := by
  unfold exactRank
  rw [Int.toNat_neg_natCast, neg_neg, Int.toNat_natCast, Nat.pow_zero, Nat.mul_one]
  refine nearestRank_congr (Nat.pow_pos (by decide)) (Nat.two_pow_pos n) ?_
  rw [Nat.mul_assoc, ← Nat.mul_pow]

/-- **The decimal of a double reads back as that double.** -/
theorem ofDecimal_shortest (negative : Bool) (rank : Nat) :
    ofDecimal negative (shortest rank).1 (shortest rank).2 = ofRank negative rank := by
  refine ofRank_congr ?_
  unfold shortest
  cases h : (List.range 17).findSome? fun n => decimalOf? rank (n + 1) with
  | some found =>
    obtain ⟨n, -, hn⟩ := List.exists_of_findSome?_eq_some h
    rw [Option.getD_some, decimalRank_of_decimalOf? hn]
  | none =>
    have hexact := exactRank_expand (units rank) 1074
    rw [← unitsPerOne, nearestRank_units] at hexact
    rw [Nat.cast_ofNat] at hexact
    rw [Option.getD_none, min_decimalRank, hexact]

end Hive.Binary64
