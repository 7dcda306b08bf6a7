import Hive.Proofs.Entries
import Mathlib.Algebra.Group.Nat.Defs
import Mathlib.Data.Nat.Log

/-!
The faults of arithmetic on numbers and of printing them. They are all limits on the size of a
number; a quotient by zero is none of them, since no integer but zero rounds to the double zero.
-/

namespace Hive

/-- Whether a fault is a limit on numbers: digits that are too many, or a number that is too large
or has no whole part. -/
def Fault.isNumeric : Fault → Bool
  | .numeralTooLong _ | .integerTooLong | .nanToInteger | .infinityToInteger | .integerTooLarge
  | .quotientTooLarge => true
  | _ => false

/-! ### Rounding to doubles -/

lemma Binary64.nearestRank_pos {n : Nat} (hn : 0 < n) : 0 < nearestRank n 1 := by
  have hunits : 2 ^ 1074 ≤ n * unitsPerOne / 1 := by
    rw [Nat.div_one, unitsPerOne]
    exact Nat.le_mul_of_pos_left _ hn
  have hlog : ∀ k, 2 ^ k ≤ n * unitsPerOne / 1 → k ≤ (n * unitsPerOne / 1).log2 := by
    intro k h
    rw [Nat.log2_eq_log_two]
    exact Nat.le_log_of_pow_le (by decide) h
  have hk : 0 < (n * unitsPerOne / 1).log2 - 52 :=
    Nat.sub_pos_of_lt (Nat.lt_of_lt_of_le (by decide) (hlog 1074 hunits))
  exact Nat.lt_of_lt_of_le (Nat.mul_pos hk (Nat.two_pow_pos 52)) (Nat.le_add_right _ _)

lemma Binary64.isZero_ofInt? {n : Int} {x : Binary64} (hn : n ≠ 0) (h : ofInt? n = some x) :
    x.isZero = false := by
  have hpos := nearestRank_pos (Int.natAbs_pos.2 hn)
  unfold ofInt? at h
  dsimp only at h
  split at h
  · rename_i hlt
    cases h
    simp only [ofRank, isZero, Nat.min_eq_left (Nat.le_of_lt hlt)]
    exact beq_false_of_ne (Nat.ne_of_gt hpos)
  · cases h

/-! ### Whole parts of doubles -/

namespace Binary64

/-- The magnitude of a rank is bounded by the block of ranks that it is in. -/
lemma units_lt_of_block {rank k : Nat} (h : rank / 2 ^ 52 ≤ k + 1) :
    units rank < 2 ^ 53 * 2 ^ k := by
  unfold units
  split
  · rename_i hlow
    have hone : 1 ≤ 2 ^ k := Nat.two_pow_pos k
    omega
  · have hstep : 2 ^ 52 + rank % 2 ^ 52 < 2 ^ 53 := by omega
    calc (2 ^ 52 + rank % 2 ^ 52) * 2 ^ (rank / 2 ^ 52 - 1)
        < 2 ^ 53 * 2 ^ (rank / 2 ^ 52 - 1) := Nat.mul_lt_mul_of_pos_right hstep (Nat.two_pow_pos _)
      _ ≤ 2 ^ 53 * 2 ^ k := Nat.mul_le_mul_left _ (Nat.pow_le_pow_right (by decide) (by omega))

/-- A finite magnitude is less than `2 ^ 1024`. -/
lemma units_lt {rank : Nat} (h : rank < infinityRank) : units rank < unitsPerOne * 2 ^ 1024 := by
  have hblock : rank / 2 ^ 52 ≤ 2045 + 1 :=
    Nat.le_of_lt_succ (Nat.div_lt_of_lt_mul (Nat.mul_comm 2047 _ ▸ h))
  have hone : unitsPerOne * 2 ^ 1024 = 2 ^ 53 * 2 ^ 2045 := by
    rw [unitsPerOne, ← Nat.pow_add, ← Nat.pow_add]
  rw [hone]
  exact units_lt_of_block hblock

lemma natAbs_signed (negative : Bool) (n : Nat) : (signed negative n).natAbs = n := by
  cases negative <;> simp [signed]

/-- The whole part of a double keeps to the digit limit. -/
lemma natAbs_lt_of_truncate {x : Binary64} {n : Int} (h : x.truncate = .ok n) :
    n.natAbs < printableBound := by
  unfold truncate at h
  split at h
  · cases h
  · rename_i negative rank
    split at h
    · cases h
    · rename_i htop
      obtain rfl := Except.ok.inj h
      have hrank : rank.val < infinityRank :=
        Nat.lt_of_le_of_ne (Nat.le_of_lt_succ rank.isLt) fun h => htop (by simp [isTop, h])
      rw [natAbs_signed]
      -- the largest double has 309 digits, far from the limit
      calc units rank / unitsPerOne < 2 ^ 1024 := Nat.div_lt_of_lt_mul (units_lt hrank)
        _ ≤ 10 ^ 1024 := Nat.pow_le_pow_left (by decide) 1024
        _ ≤ 10 ^ digitLimit := Nat.pow_le_pow_right (by decide) (by decide)

end Binary64

/-! ### Operations on numbers -/

lemma orFault_eq_ok {α : Type} {f : Fault} {o : Option α} {a : α} (h : orFault f o = .ok a) :
    o = some a := by
  cases o with
  | some b => exact congrArg some (Except.ok.inj h)
  | none => cases h

lemma orFault_eq_error {α : Type} {f g : Fault} {o : Option α} (h : orFault f o = .error g) :
    g = f := by
  cases o with
  | some b => cases h
  | none => exact (Except.error.inj h).symm

lemma isNumeric_doubleOfInteger {n : Int} {f : Fault} (h : doubleOfInteger n = .error f) :
    f.isNumeric = true := by
  rw [orFault_eq_error h]
  rfl

lemma isNumeric_integerOfDouble {x : Binary64} {f : Fault} (h : integerOfDouble x = .error f) :
    f.isNumeric = true := by
  unfold integerOfDouble at h
  split at h <;> cases h <;> rfl

lemma isNumeric_integerText {n : Int} {f : Fault} (h : integerText n = .error f) :
    f.isNumeric = true := by
  unfold integerText at h
  split at h <;> cases h
  rfl

namespace Number

variable {a b : Number} {f : Fault}

lemma isNumeric_toDouble (h : a.toDouble = .error f) : f.isNumeric = true := by
  cases a with
  | int n => exact isNumeric_doubleOfInteger h
  | flt x => cases h

lemma isNumeric_text (h : a.text = .error f) : f.isNumeric = true := by
  cases a with
  | int n => exact isNumeric_integerText h
  | flt x => cases h

/-- The double of a number is zero only if the number is. -/
lemma isZero_toDouble {x : Binary64} (hb : b.isZero = false) (h : b.toDouble = .ok x) :
    x.isZero = false := by
  cases b with
  | int n =>
    have hn : n ≠ 0 := by simpa [isZero] using hb
    exact Binary64.isZero_ofInt? hn (orFault_eq_ok h)
  | flt y =>
    cases h
    exact hb

lemma isNumeric_combine {exact : Int → Int → Int} {rounded : Binary64 → Binary64 → Binary64}
    (h : combine exact rounded a b = .error f) : f.isNumeric = true := by
  unfold combine at h
  split at h
  · cases h
  · rcases error_of_bind h with h | ⟨x, -, h⟩
    · exact isNumeric_toDouble h
    rcases error_of_bind h with h | ⟨y, -, h⟩
    · exact isNumeric_toDouble h
    · cases h

lemma isNumeric_div (hb : b.isZero = false) (h : a.div b = .error f) : f.isNumeric = true := by
  unfold div at h
  split at h
  · rename_i m n
    have hn : n ≠ 0 := by simpa [isZero] using hb
    -- division by zero has been ruled out, so the quotient is too large
    rw [if_neg hn] at h
    rw [orFault_eq_error h]
    rfl
  · rcases error_of_bind h with h | ⟨x, -, h⟩
    · exact isNumeric_toDouble h
    rcases error_of_bind h with h | ⟨y, hy, h⟩
    · exact isNumeric_toDouble h
    · rw [isZero_toDouble hb hy] at h
      cases h

end Number

/-! ### Literals -/

namespace Literal

variable {l : Literal} {f : Fault}

lemma isNumeric_text (h : l.text = .error f) : f.isNumeric = true := by
  have hplain : ∀ x : Json, x.plainText = .error f → f.isNumeric = true := by
    intro x hx
    unfold Json.plainText at hx
    split at hx <;> cases hx
    rfl
  have hshown : ∀ x : Json, x.shownText = .error f → f.isNumeric = true := by
    intro x hx
    unfold Json.shownText at hx
    split at hx <;> cases hx
    rfl
  obtain ⟨type, datum⟩ := l
  cases type with
  | int => exact hplain datum h
  | flt => exact hshown datum h
  | str => exact hplain datum h
  | bool => cases h

end Literal

end Hive
