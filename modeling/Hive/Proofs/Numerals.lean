import Hive.Json.Reader
import Hive.Json.Writer
import Hive.Proofs.Rounding
import Hive.Proofs.Scans

/-!
Written numbers read back. The digits of an integer are read as that integer, and the layouts of a
double, positional or with an exponent, as the decimal that its digits stand for.
-/

namespace Hive

/-! ### Runs of digits -/

namespace Text

lemma decimalValue_toDigits (n : Nat) : decimalValue (Nat.toDigits 10 n) = n :=
  Nat.ofDigitChars_ten_toDigits

lemma decimalValue_zeros (k : Nat) : decimalValue (List.replicate k '0') = 0 := by
  rw [decimalValue_eq, Nat.ofDigitChars_replicate_zero, Nat.mul_zero]

lemma decimalValue_zeros_append (k : Nat) (cs : List Char) :
    decimalValue (List.replicate k '0' ++ cs) = decimalValue cs := by
  rw [decimalValue_append, decimalValue_zeros, Nat.mul_zero, Nat.zero_add]

lemma decimalValue_append_zeros (cs : List Char) (k : Nat) :
    decimalValue (cs ++ List.replicate k '0') = decimalValue cs * 10 ^ k := by
  rw [decimalValue_append, decimalValue_zeros, List.length_replicate, Nat.add_zero, Nat.mul_comm]

lemma isDigit_toDigits (n : Nat) : ∀ c ∈ Nat.toDigits 10 n, c.isDigit = true :=
  fun _ hc => Nat.isDigit_of_mem_toDigits (by decide) (by decide) hc

lemma isDigit_zeros (k : Nat) : ∀ c ∈ List.replicate k '0', c.isDigit = true := by
  intro c hc
  rw [List.eq_of_mem_replicate hc]
  rfl

lemma isDigit_append {cs ds : List Char} (hcs : ∀ c ∈ cs, c.isDigit = true)
    (hds : ∀ c ∈ ds, c.isDigit = true) : ∀ c ∈ cs ++ ds, c.isDigit = true :=
  fun c hc => (List.mem_append.1 hc).elim (hcs c) (hds c)

/-- **Digits of which the first is not a zero.** -/
structure Leading (digits : List Char) : Prop where
  digit : ∀ c ∈ digits, c.isDigit = true
  head : ∃ d ds, digits = d :: ds ∧ d ≠ '0'

lemma Leading.ne_nil {digits : List Char} (h : Leading digits) : digits ≠ [] := by
  obtain ⟨d, ds, rfl, -⟩ := h.head
  exact List.cons_ne_nil d ds

lemma Leading.append {digits more : List Char} (h : Leading digits)
    (hmore : ∀ c ∈ more, c.isDigit = true) : Leading (digits ++ more) := by
  refine ⟨isDigit_append h.digit hmore, ?_⟩
  obtain ⟨d, ds, rfl, hd⟩ := h.head
  exact ⟨d, _, rfl, hd⟩

lemma Leading.take {digits : List Char} (h : Leading digits) {n : Nat} (hn : 0 < n) :
    Leading (digits.take n) := by
  refine ⟨fun c hc => h.digit c (List.mem_of_mem_take hc), ?_⟩
  obtain ⟨d, ds, rfl, hd⟩ := h.head
  obtain ⟨n, rfl⟩ := Nat.exists_eq_succ_of_ne_zero hn.ne'
  exact ⟨d, _, rfl, hd⟩

lemma leading_toDigits {n : Nat} (hn : n ≠ 0) : Leading (Nat.toDigits 10 n) := by
  refine ⟨isDigit_toDigits n, ?_⟩
  cases h : Nat.toDigits 10 n with
  | nil => exact absurd h Nat.toDigits_ne_nil
  | cons d ds =>
    refine ⟨d, ds, rfl, ?_⟩
    rintro rfl
    -- the digits after a zero would be too few for the number
    have hds : ∀ c ∈ ds, c.isDigit = true := fun c hc => isDigit_toDigits n c (by simp [h, hc])
    have hvalue : decimalValue ('0' :: ds) = decimalValue ds := rfl
    have hlt := decimalValue_lt hds
    rw [← hvalue, ← h, decimalValue_toDigits] at hlt
    cases ds with
    | nil => exact hn (Nat.lt_one_iff.1 hlt)
    | cons e ds =>
      have hlength := (Nat.length_toDigits_le_iff (by decide) (by simp)).2 hlt
      simp [h] at hlength

/-- The significant digits of a number, and the zeros that were dropped. -/
lemma leading_significant {m : Nat} (hm : m ≠ 0) :
    Leading (Binary64.significant m) ∧ ∃ k,
      Nat.toDigits 10 m = Binary64.significant m ++ List.replicate k '0' := by
  have hzeros : ∃ k, Nat.toDigits 10 m = Binary64.significant m ++ List.replicate k '0' := by
    refine ⟨((Nat.toDigits 10 m).reverse.takeWhile (· == '0')).length, ?_⟩
    have hrun : (Nat.toDigits 10 m).reverse.takeWhile (· == '0') =
        List.replicate ((Nat.toDigits 10 m).reverse.takeWhile (· == '0')).length '0' :=
      List.eq_replicate_iff.2 ⟨rfl, fun c hc => by simpa using List.mem_takeWhile_imp hc⟩
    have hall := congrArg List.reverse
      (List.takeWhile_append_dropWhile (p := (· == '0')) (l := (Nat.toDigits 10 m).reverse))
    rw [hrun, List.reverse_append, List.reverse_replicate, List.reverse_reverse] at hall
    exact hall.symm
  refine ⟨?_, hzeros⟩
  obtain ⟨k, hk⟩ := hzeros
  obtain ⟨d, ds, hd, hne⟩ := (leading_toDigits hm).head
  refine ⟨fun c hc => isDigit_toDigits m c (by simp [hk, hc]), ?_⟩
  cases hs : Binary64.significant m with
  | nil =>
    -- all digits would be zeros, and so would the number
    have hvalue := congrArg decimalValue hk
    rw [hs, decimalValue_toDigits, List.nil_append, decimalValue_zeros] at hvalue
    exact absurd hvalue hm
  | cons c cs =>
    rw [hk, hs] at hd
    obtain rfl : c = d := (List.cons.inj hd).1
    exact ⟨c, cs, rfl, hne⟩

end Text

/-! ### Parts of a number -/

namespace Json.Reader

open Binary64 (signed)
open Text (decimalValue Leading)

/-- What comes next does not go on with a number. -/
def Parted (rest : List Char) : Prop :=
  ∀ c ∈ rest.head?, c.isDigit = false ∧ c ≠ '.' ∧ c ≠ 'e' ∧ c ≠ 'E'

lemma digitsAfter?_run {digits rest : List Char} (hne : digits ≠ [])
    (hdigits : ∀ c ∈ digits, c.isDigit = true) (hrest : ∀ c ∈ rest.head?, c.isDigit = false) :
    digitsAfter? (digits ++ rest) = some (digits, rest) := by
  unfold digitsAfter?
  rw [Lexer.takeWhile_run hdigits hrest, Lexer.dropWhile_run hdigits hrest]
  simp [hne]

/-- A zero alone, or digits that start with none. -/
def IsWhole (digits : List Char) : Prop := digits = ['0'] ∨ Leading digits

lemma IsWhole.head {digits : List Char} (h : IsWhole digits) :
    ∃ d ds, digits = d :: ds ∧ d.isDigit = true := by
  rcases h with rfl | h
  · exact ⟨'0', [], rfl, rfl⟩
  · obtain ⟨d, ds, rfl, -⟩ := h.head
    exact ⟨d, ds, rfl, h.digit d (by simp)⟩

lemma IsWhole.digit {digits : List Char} (h : IsWhole digits) :
    ∀ c ∈ digits, c.isDigit = true := by
  rcases h with rfl | h
  · simp
  · exact h.digit

lemma whole?_append {digits rest : List Char} (h : IsWhole digits)
    (hrest : ∀ c ∈ rest.head?, c.isDigit = false) :
    whole? (digits ++ rest) = some (digits, rest) := by
  rcases h with rfl | h
  · rfl
  have hrun := digitsAfter?_run h.ne_nil h.digit hrest
  obtain ⟨d, ds, rfl, hd⟩ := h.head
  unfold whole?
  split
  · rename_i hzero
    exact absurd (List.cons.inj hzero).1 hd
  · exact hrun

lemma fraction_run {digits rest : List Char} (hne : digits ≠ [])
    (hdigits : ∀ c ∈ digits, c.isDigit = true) (hrest : ∀ c ∈ rest.head?, c.isDigit = false) :
    fraction ('.' :: (digits ++ rest)) = (digits, rest) := by
  show (digitsAfter? (digits ++ rest)).getD _ = _
  rw [digitsAfter?_run hne hdigits hrest, Option.getD_some]

lemma fraction_none {rest : List Char} (hrest : ∀ c ∈ rest.head?, c ≠ '.') :
    fraction rest = ([], rest) := by
  unfold fraction
  split
  · exact absurd rfl (hrest '.' rfl)
  · rfl

lemma exponent?_none {rest : List Char} (hrest : Parted rest) : exponent? rest = none := by
  cases rest with
  | nil => rfl
  | cons c rest =>
    obtain ⟨-, -, hlower, hupper⟩ := hrest c rfl
    simp [exponent?, hlower, hupper]

lemma exponent?_run (negative : Bool) {digits rest : List Char} (hne : digits ≠ [])
    (hdigits : ∀ c ∈ digits, c.isDigit = true) (hrest : ∀ c ∈ rest.head?, c.isDigit = false) :
    exponent? ('e' :: (if negative then '-' else '+') :: (digits ++ rest)) =
      some (signed negative (decimalValue digits), rest) := by
  cases negative with
  | false => simp [exponent?, Numeral.sign, digitsAfter?_run hne hdigits hrest]
  | true => simp [exponent?, Numeral.sign, digitsAfter?_run hne hdigits hrest]

lemma head?_of_isDigit {d : Char} {text : List Char} (hd : d.isDigit = true) :
    ((d :: text).head? == some '-') = false := by
  rw [List.head?_cons, beq_eq_false_iff_ne]
  intro h
  cases h
  cases hd

/-- The sign of a number and what comes after it. -/
lemma sign_of_body (negative : Bool) {body : List Char} (hbody : (body.head? == some '-') = false) :
    ((if negative then '-' :: body else body).head? == some '-') = negative ∧
      (if negative then (if negative then '-' :: body else body).tail
        else if negative then '-' :: body else body) = body := by
  cases negative with
  | false => exact ⟨hbody, rfl⟩
  | true => exact ⟨rfl, rfl⟩

lemma number_double (negative : Bool) {body whole tail decimals more rest : List Char} {e : Int}
    (hbody : (body.head? == some '-') = false) (hwhole : whole? body = some (whole, tail))
    (hfraction : fraction tail = (decimals, more))
    (hexponent : exponent? more = some (e, rest) ∨
      exponent? more = none ∧ decimals ≠ [] ∧ e = 0 ∧ rest = more) :
    number (if negative then '-' :: body else body) =
      .ok (.flt (.ofDecimal negative (decimalValue (whole ++ decimals)) (e - decimals.length)),
        rest) := by
  obtain ⟨hhead, htail⟩ := sign_of_body negative hbody
  unfold number
  rw [hhead]
  dsimp only
  rw [htail, hwhole]
  dsimp only
  rw [hfraction]
  dsimp only
  rcases hexponent with hsome | ⟨hnone, hne, rfl, rfl⟩
  · rw [hsome]
    rfl
  · rw [hnone]
    cases decimals with
    | nil => exact absurd rfl hne
    | cons d ds => rfl

lemma number_integer (negative : Bool) {body whole rest : List Char}
    (hbody : (body.head? == some '-') = false) (hwhole : whole? body = some (whole, rest))
    (hlength : whole.length ≤ digitLimit) (hrest : Parted rest) :
    number (if negative then '-' :: body else body) =
      .ok (.int (signed negative (decimalValue whole)), rest) := by
  obtain ⟨hhead, htail⟩ := sign_of_body negative hbody
  have hfraction := fraction_none fun c hc => (hrest c hc).2.1
  have hdigits : Numeral.ofDigits whole = .ok (decimalValue whole) := if_pos hlength
  unfold number
  rw [hhead]
  dsimp only
  rw [htail, hwhole]
  dsimp only
  rw [hfraction]
  dsimp only
  rw [exponent?_none hrest, hdigits]

/-! ### Layouts -/

/-- **The text is read as the decimal**, with a minus sign or without. -/
structure Denotes (text : List Char) (m : Nat) (e : Int) : Prop where
  head : ∃ d ds, text = d :: ds ∧ d.isDigit = true
  /-- There is no line end in it. -/
  unbroken : '\r' ∉ text
  number_eq : ∀ (negative : Bool) (rest : List Char), Parted rest →
    number (if negative then '-' :: (text ++ rest) else text ++ rest) =
      .ok (.flt (.ofDecimal negative m e), rest)

/-- Zeros behind the digits do not matter if the exponent counts them. -/
lemma Denotes.shift {text : List Char} {m k : Nat} {e d : Int} (h : Denotes text (m * 10 ^ k) d)
    (hd : d = e - k) : Denotes text m e where
  head := h.head
  unbroken := h.unbroken
  number_eq negative rest hrest := by
    rw [h.number_eq negative rest hrest, hd, Binary64.ofDecimal_shift]

/-- The written forms of an exponent. -/
inductive Marks : List Char → Int → Prop where
  | none : Marks [] 0
  | power (negative : Bool) {digits : List Char} (hne : digits ≠ [])
      (hdigits : ∀ c ∈ digits, c.isDigit = true) :
      Marks ('e' :: (if negative then '-' else '+') :: digits)
        (signed negative (decimalValue digits))

lemma Marks.head? {mark rest : List Char} {e : Int} (h : Marks mark e) (hrest : Parted rest) :
    ∀ c ∈ (mark ++ rest).head?, c.isDigit = false ∧ c ≠ '.' := by
  intro c hc
  cases h with
  | none => exact ⟨(hrest c hc).1, (hrest c hc).2.1⟩
  | power =>
    cases hc
    exact ⟨rfl, by decide⟩

lemma unbroken_digits {digits : List Char} (h : ∀ c ∈ digits, c.isDigit = true) :
    '\r' ∉ digits :=
  fun hmem => absurd (h _ hmem) (by decide)

lemma Marks.unbroken {mark : List Char} {e : Int} (h : Marks mark e) : '\r' ∉ mark := by
  cases h with
  | none => exact List.not_mem_nil
  | power negative hne hdigits => cases negative <;> simpa using unbroken_digits hdigits

/-- A point and the digits after it, if there are any. -/
def pointed (decimals : List Char) : List Char := if decimals.isEmpty then [] else '.' :: decimals

lemma fraction_pointed {decimals more : List Char} (hdecimals : ∀ c ∈ decimals, c.isDigit = true)
    (hmore : ∀ c ∈ more.head?, c.isDigit = false ∧ c ≠ '.') :
    fraction (pointed decimals ++ more) = (decimals, more) := by
  cases decimals with
  | nil => exact fraction_none fun c hc => (hmore c hc).2
  | cons d ds => exact fraction_run (List.cons_ne_nil d ds) hdecimals fun c hc => (hmore c hc).1

lemma isDigit_head?_pointed {decimals more : List Char}
    (hmore : ∀ c ∈ more.head?, c.isDigit = false ∧ c ≠ '.') :
    ∀ c ∈ (pointed decimals ++ more).head?, c.isDigit = false := by
  intro c hc
  cases decimals with
  | nil => exact (hmore c hc).1
  | cons d ds =>
    cases hc
    rfl

/-- **A whole part, decimals and an exponent** are read as one decimal. -/
lemma denotes_of_parts {whole decimals mark : List Char} {e : Int} (hwhole : IsWhole whole)
    (hdecimals : ∀ c ∈ decimals, c.isDigit = true) (hmark : Marks mark e)
    (hne : decimals ≠ [] ∨ mark ≠ []) :
    Denotes (whole ++ pointed decimals ++ mark) (decimalValue (whole ++ decimals))
      (e - decimals.length) where
  head := by
    obtain ⟨d, ds, rfl, hd⟩ := hwhole.head
    exact ⟨d, _, rfl, hd⟩
  unbroken := by
    have hpointed : '\r' ∉ pointed decimals := by
      unfold pointed
      split
      · simp
      · simpa using unbroken_digits hdecimals
    simp [unbroken_digits hwhole.digit, hpointed, hmark.unbroken]
  number_eq negative rest hrest := by
    have hmore := hmark.head? hrest
    have hbody : ((whole ++ (pointed decimals ++ (mark ++ rest))).head? == some '-') = false := by
      obtain ⟨d, ds, rfl, hd⟩ := hwhole.head
      exact head?_of_isDigit hd
    rw [List.append_assoc, List.append_assoc]
    refine number_double negative hbody (whole?_append hwhole (isDigit_head?_pointed hmore))
      (fraction_pointed hdecimals hmore) ?_
    -- without an exponent the decimals make the number a double, so there must be some
    cases hmark with
    | none => exact .inr ⟨exponent?_none hrest, hne.resolve_right (absurd rfl), rfl, rfl⟩
    | power negative hpower hdigits =>
      exact .inl (exponent?_run negative hpower hdigits fun c hc => (hrest c hc).1)

end Json.Reader

namespace Binary64

open Json.Reader Text

lemma signed_natAbs (n : Int) : signed (n < 0) n.natAbs = n := by
  unfold signed
  by_cases hn : n < 0
  · simp only [hn, decide_true, if_true]
    omega
  · simp only [hn, decide_false, Bool.false_eq_true, if_false]
    omega

/-- A number below one: zeros stand between the point and its digits. -/
lemma denotes_below {digits : List Char} (h : Leading digits) (k : Nat) :
    Denotes ('0' :: '.' :: List.replicate k '0' ++ digits) (decimalValue digits)
      (-(k + digits.length : Nat)) := by
  have hne : List.replicate k '0' ++ digits ≠ [] := by simp [h.ne_nil]
  have hread := denotes_of_parts (.inl rfl) (isDigit_append (isDigit_zeros k) h.digit) .none
    (.inl hne)
  have htext : ['0'] ++ pointed (List.replicate k '0' ++ digits) ++ [] =
      '0' :: '.' :: List.replicate k '0' ++ digits := by
    simp [pointed, h.ne_nil]
  have hvalue : decimalValue (['0'] ++ (List.replicate k '0' ++ digits)) = decimalValue digits :=
    decimalValue_zeros_append (k + 1) digits
  rw [htext, hvalue, Int.zero_sub, List.length_append, List.length_replicate] at hread
  exact hread

/-- A whole number: all its digits stand before the point, so that a zero stands after it. -/
lemma denotes_whole {digits : List Char} (h : Leading digits) (k : Nat) :
    Denotes (digits ++ List.replicate k '0' ++ ['.', '0']) (decimalValue digits) k := by
  have hwhole : Leading (digits ++ List.replicate k '0') := h.append (isDigit_zeros k)
  have hread := denotes_of_parts (.inr hwhole) (isDigit_zeros 1) .none (.inl (by simp))
  have htext : digits ++ List.replicate k '0' ++ pointed (List.replicate 1 '0') ++ [] =
      digits ++ List.replicate k '0' ++ ['.', '0'] := List.append_nil _
  have hvalue : decimalValue (digits ++ List.replicate k '0' ++ List.replicate 1 '0') =
      decimalValue digits * 10 ^ (k + 1) := by
    rw [List.append_assoc, List.replicate_append_replicate, decimalValue_append_zeros]
  rw [htext, hvalue, List.length_replicate] at hread
  exact hread.shift (by omega)

/-- A number with a point among its digits. -/
lemma denotes_between {whole decimals : List Char} (h : Leading whole)
    (hdecimals : ∀ c ∈ decimals, c.isDigit = true) (hne : decimals ≠ []) :
    Denotes (whole ++ '.' :: decimals) (decimalValue (whole ++ decimals)) (-decimals.length) := by
  have hread := denotes_of_parts (.inr h) hdecimals .none (.inl hne)
  have htext : whole ++ pointed decimals ++ [] = whole ++ '.' :: decimals := by simp [pointed, hne]
  rw [htext, Int.zero_sub] at hread
  exact hread

/-- **Positional notation is read as its digits**, of which the first stands for `10 ^ top`. -/
lemma denotes_positional {digits : List Char} (h : Leading digits) (top : Int) :
    Denotes (positional digits top) (decimalValue digits) (top + 1 - digits.length) := by
  unfold positional
  split
  · rename_i htop
    have hread := denotes_below h (top.natAbs - 1)
    rwa [show -((top.natAbs - 1 + digits.length : Nat) : Int) = top + 1 - digits.length by omega]
      at hread
  · rename_i htop
    dsimp only
    generalize hn : top.toNat + 1 = n
    by_cases hlong : digits.length ≤ n
    · have hread := denotes_whole h (n - digits.length)
      rw [List.drop_of_length_le hlong, List.take_of_length_le hlong]
      rwa [show ((n - digits.length : Nat) : Int) = top + 1 - digits.length by omega] at hread
    · have hne : digits.drop n ≠ [] := by simpa using hlong
      have hread := denotes_between (h.take (by omega : 0 < n))
        (fun c hc => h.digit c (List.mem_of_mem_drop hc)) hne
      rw [List.take_append_drop, List.length_drop] at hread
      rw [Nat.sub_eq_zero_of_le (by omega), List.replicate_zero, List.append_nil,
        if_neg (by simpa using hlong)]
      rwa [show -((digits.length - n : Nat) : Int) = top + 1 - digits.length by omega] at hread

/-- **A number with an exponent mark is read as its digits**, of which the first stands for
`10 ^ top`. -/
lemma denotes_scientific {digits : List Char} (h : Leading digits) (top : Int) :
    Denotes (scientific digits top) (decimalValue digits) (top + 1 - digits.length) := by
  have hfraction : ∀ c ∈ digits.drop 1, c.isDigit = true :=
    fun c hc => h.digit c (List.mem_of_mem_drop hc)
  have hpower : List.replicate (layout.exponentWidth - (Nat.toDigits 10 top.natAbs).length) '0' ++
      Nat.toDigits 10 top.natAbs ≠ [] := by simp
  have hmark := Marks.power (top < 0) hpower (isDigit_append (isDigit_zeros _) (isDigit_toDigits _))
  have hread := denotes_of_parts (.inr (h.take Nat.one_pos)) hfraction hmark
    (.inr (List.cons_ne_nil _ _))
  have htext : scientific digits top = digits.take 1 ++ pointed (digits.drop 1) ++
      'e' :: (if decide (top < 0) then '-' else '+') ::
        (List.replicate (layout.exponentWidth - (Nat.toDigits 10 top.natAbs).length) '0' ++
          Nat.toDigits 10 top.natAbs) := by
    have hpointed : pointed (digits.drop 1) =
        if digits.length > 1 then '.' :: digits.drop 1 else [] := by
      have hempty : (digits.drop 1).isEmpty = true ↔ ¬digits.length > 1 := by
        rw [List.isEmpty_iff, List.drop_eq_nil_iff, Nat.not_lt]
      unfold pointed
      by_cases hlong : digits.length > 1
      · rw [if_pos hlong, if_neg fun h => hempty.1 h hlong]
      · rw [if_neg hlong, if_pos (hempty.2 hlong)]
    simp only [scientific, hpointed, decide_eq_true_eq, List.append_assoc, List.cons_append]
  have hlength := List.length_pos_iff.2 h.ne_nil
  rw [List.take_append_drop, decimalValue_zeros_append, decimalValue_toDigits, signed_natAbs, ← htext,
    List.length_drop] at hread
  rwa [show top - ((digits.length - 1 : Nat) : Int) = top + 1 - digits.length by omega] at hread

/-- The text of a magnitude is read as that magnitude. -/
lemma denotes_magnitudeText {rank : Nat} (h : rank < infinityRank) :
    ∃ m e, Denotes (magnitudeText rank) m e ∧
      ∀ negative, ofDecimal negative m e = ofRank negative rank := by
  unfold magnitudeText
  by_cases hzero : rank = 0
  · rw [if_pos (beq_iff_eq.2 hzero), hzero]
    have hread := denotes_of_parts (.inl rfl) (isDigit_zeros 1) .none (.inl (by simp))
    exact ⟨_, _, hread, fun _ => rfl⟩
  rw [if_neg (by simpa using hzero), if_neg (by simpa using h.ne)]
  have hshortest := fun negative => ofDecimal_shortest negative rank
  generalize shortest rank = found at hshortest ⊢
  obtain ⟨m, e⟩ := found
  have hm : m ≠ 0 := by
    rintro rfl
    have hrank : ofRank false 0 = ofRank false rank := hshortest false
    simp only [ofRank, ranked.injEq, Fin.mk.injEq, true_and] at hrank
    omega
  -- the zeros at the end of the shortest digits go over to the exponent
  obtain ⟨hleading, k, hk⟩ := leading_significant hm
  have hvalue : decimalValue (significant m) * 10 ^ k = m := by
    rw [← decimalValue_append_zeros, ← hk, decimalValue_toDigits]
  have htop : e + (Nat.toDigits 10 m).length - 1 + 1 - (significant m).length = e + k := by
    rw [hk, List.length_append, List.length_replicate]
    omega
  refine ⟨decimalValue (significant m), e + k, ?_, fun negative => ?_⟩
  · rw [← htop]
    dsimp only
    split
    · exact denotes_positional hleading _
    · exact denotes_scientific hleading _
  · rw [← ofDecimal_shift negative _ _ k, hvalue, Int.add_sub_cancel]
    exact hshortest negative

end Binary64

/-! ### Data -/

namespace Json.Reader

open Binary64 (signed)

lemma value_number (budget : Nat) (negative : Bool) {d : Char} {text : List Char}
    (hd : d.isDigit = true) :
    value (budget + 1) (if negative then '-' :: d :: text else d :: text) =
      number (if negative then '-' :: d :: text else d :: text) := by
  have hne : ∀ c : Char, c.isDigit = false → c ≠ d := by
    rintro c hc rfl
    cases hc.symm.trans hd
  have hquote : d ≠ '\x22' := (hne _ rfl).symm
  have hbracket : d ≠ '[' := (hne _ rfl).symm
  have hbrace : d ≠ '\x7b' := (hne _ rfl).symm
  have hnamed : named? (if negative then '-' :: d :: text else d :: text) = none := by
    cases negative with
    | false =>
      simp [named?, names, after?, hne 'n' rfl, hne 't' rfl, hne 'f' rfl, hne 'N' rfl, hne 'I' rfl,
        hne '-' rfl]
    | true => simp [named?, names, after?, hne 'I' rfl]
  cases negative with
  | false =>
    simp only [Bool.false_eq_true, if_false] at hnamed ⊢
    simp [value, hquote, hbracket, hbrace, hnamed]
  | true =>
    simp only [if_true] at hnamed ⊢
    simp [value, hnamed]

lemma isWhole_toDigits (n : Nat) : IsWhole (Nat.toDigits 10 n) := by
  by_cases hn : n = 0
  · exact .inl (congrArg (Nat.toDigits 10) hn)
  · exact .inr (Text.leading_toDigits hn)

/-- **A written integer is read back.** -/
lemma value_integerText {n : Int} {s : String} (h : integerText n = .ok s) (budget : Nat)
    {rest : List Char} (hrest : Parted rest) :
    value (budget + 1) (s.toList ++ rest) = .ok (.int n, rest) := by
  unfold integerText at h
  split at h
  · rename_i hprintable
    obtain rfl := Except.ok.inj h
    -- what could be printed is within the limit for reading it back
    have hlength : (Nat.toDigits 10 n.natAbs).length ≤ digitLimit :=
      (Nat.length_toDigits_le_iff (by decide) (by decide)).2 (of_decide_eq_true hprintable)
    have htext : (decimalText n).toList ++ rest =
        if decide (n < 0) then '-' :: (Nat.toDigits 10 n.natAbs ++ rest)
        else Nat.toDigits 10 n.natAbs ++ rest := by
      by_cases hn : n < 0 <;> simp [decimalText, hn]
    have hwhole := isWhole_toDigits n.natAbs
    have hread := whole?_append hwhole fun c hc => (hrest c hc).1
    obtain ⟨d, ds, hdigits, hd⟩ := hwhole.head
    have hbody : ((Nat.toDigits 10 n.natAbs ++ rest).head? == some '-') = false := by
      rw [hdigits]
      exact head?_of_isDigit hd
    have hnumber := number_integer (decide (n < 0)) hbody hread hlength hrest
    rw [Text.decimalValue_toDigits, Binary64.signed_natAbs] at hnumber
    rw [htext, ← hnumber, hdigits]
    exact value_number budget _ hd
  · cases h

/-- The written forms of a double: a name, or a sign and a magnitude. -/
lemma writeDouble_cases (x : Binary64) :
    x = .nan ∧ writeDouble x = "NaN" ∨ x = .infinity false ∧ writeDouble x = "Infinity" ∨
      x = .infinity true ∧ writeDouble x = "-Infinity" ∨
      ∃ negative rank, x = .ofRank negative rank ∧ rank < infinityRank ∧
        (writeDouble x).toList = (if negative then ['-'] else []) ++ Binary64.magnitudeText rank := by
  unfold writeDouble
  by_cases hnan : x = .nan
  · exact .inl ⟨hnan, if_pos hnan⟩
  by_cases hinfinity : x = .infinity false
  · exact .inr (.inl ⟨hinfinity, by rw [if_neg hnan, if_pos hinfinity]⟩)
  by_cases hminus : x = .infinity true
  · exact .inr (.inr (.inl ⟨hminus, by rw [if_neg hnan, if_neg hinfinity, if_pos hminus]⟩))
  refine .inr (.inr (.inr ?_))
  rw [if_neg hnan, if_neg hinfinity, if_neg hminus]
  -- the two infinities share a rank, so a rank that is left is finite
  cases x with
  | nan => exact absurd rfl hnan
  | ranked negative rank =>
    have hrank : Binary64.ranked negative rank = .ofRank negative rank := by
      simp [Binary64.ofRank, Nat.min_eq_left (Nat.lt_succ_iff.1 rank.isLt)]
    have hfinite : rank.val ≠ infinityRank := by
      intro h
      rw [hrank, h] at hinfinity hminus
      cases negative with
      | false => exact hinfinity rfl
      | true => exact hminus rfl
    refine ⟨negative, rank, hrank, Nat.lt_of_le_of_ne (Nat.lt_succ_iff.1 rank.isLt) hfinite, ?_⟩
    cases negative <;> simp [Binary64.text]

lemma value_name (budget : Nat) (rest : List Char) :
    value (budget + 1) ("NaN".toList ++ rest) = .ok (.flt .nan, rest) ∧
      value (budget + 1) ("Infinity".toList ++ rest) = .ok (.flt (.infinity false), rest) ∧
      value (budget + 1) ("-Infinity".toList ++ rest) = .ok (.flt (.infinity true), rest) := by
  refine ⟨?_, ?_, ?_⟩ <;> simp [value, named?, names, after?]

/-- **A written double is read back.** -/
lemma value_writeDouble (x : Binary64) (budget : Nat) {rest : List Char} (hrest : Parted rest) :
    value (budget + 1) ((writeDouble x).toList ++ rest) = .ok (.flt x, rest) := by
  obtain ⟨hnan, hinfinity, hminus⟩ := value_name budget rest
  rcases writeDouble_cases x with ⟨rfl, h⟩ | ⟨rfl, h⟩ | ⟨rfl, h⟩ | ⟨negative, rank, rfl, hrank, h⟩
  · rwa [h]
  · rwa [h]
  · rwa [h]
  · obtain ⟨m, e, hread, hdecimal⟩ := Binary64.denotes_magnitudeText hrank
    have hnumber := hread.number_eq negative rest hrest
    obtain ⟨d, ds, htext, hd⟩ := hread.head
    rw [hdecimal, htext] at hnumber
    have hwritten : (writeDouble (.ofRank negative rank)).toList ++ rest =
        if negative then '-' :: d :: (ds ++ rest) else d :: (ds ++ rest) := by
      rw [h, htext]
      cases negative <;> simp
    rw [hwritten, value_number budget negative hd]
    exact hnumber

end Json.Reader

end Hive
