import DirectionField.Expr.Canonical
import DirectionField.Proofs.DecimalCorrect
import DirectionField.Proofs.FloatBits
import DirectionField.Proofs.NumeralText
import Mathlib.Data.Nat.Cast.Field

/-!
# The text of a number stands for it

Every layout of a decimal is a proper numeral whose value is that of the decimal, so that the fewest
digits of a number, in any layout, are read back as the number.
-/

namespace DirectionField

namespace NumberText

/-- A text is a proper numeral for a number. -/
def Stands (cs : List Char) (q : ℚ) : Prop :=
  ∃ n : Numeral, n.IsProper ∧ n.text = cs ∧ n.decimal.value = q

/-! ## Layouts -/

/-- Every number has a digit. -/
theorem digits_ne_nil (n : Nat) : digits n ≠ [] := Nat.toDigits_ne_nil

/-- Numbers are written in ASCII digits. -/
theorem allDigits_digits (n : Nat) : Text.AllDigits (digits n) := Text.allDigits_toDigits n

/-- A number is read as it was written. -/
theorem digitsValue_digits (n : Nat) : Text.digitsValue (digits n) = n := Text.digitsValue_toDigits n

/-- Digits by themselves stand for a natural number. -/
theorem stands_digits (n : Nat) : Stands (digits n) n := by
  refine ⟨⟨digits n, none, none⟩, ⟨digits_ne_nil n, allDigits_digits n, ?_, ?_⟩, ?_, ?_⟩
  · intro ds hds
    cases hds
  · intro e he
    cases he
  · show digits n ++ [] ++ [] = digits n
    rw [List.append_nil, List.append_nil]
  · show Decimal.value ⟨Text.digitsValue (digits n ++ []), 0 - (0 : ℕ)⟩ = n
    rw [List.append_nil, digitsValue_digits]
    simp [Decimal.value]

/-- Digits with a point between them stand for a number with as many decimal places as there are
    digits behind the point. -/
theorem stands_point {whole fraction : List Char} (hne : whole ≠ []) (hw : Text.AllDigits whole)
    (hf : Text.AllDigits fraction) :
    Stands (whole ++ '.' :: fraction)
      (Decimal.value ⟨Text.digitsValue (whole ++ fraction), -fraction.length⟩) := by
  refine ⟨⟨whole, some fraction, none⟩, ⟨hne, hw, ?_, ?_⟩, ?_, ?_⟩
  · intro ds hds
    rwa [← Option.some.inj hds]
  · intro e he
    cases he
  · show whole ++ '.' :: fraction ++ [] = _
    rw [List.append_nil]
  · show Decimal.value ⟨Text.digitsValue (whole ++ fraction), 0 - fraction.length⟩ = _
    rw [zero_sub]

/-- All digits behind the point, after some zeros. -/
theorem stands_leading_zeros (c k : Nat) :
    Stands (['0'] ++ '.' :: (List.replicate k '0' ++ digits c))
      (Decimal.value ⟨c, -(k + (digits c).length : ℕ)⟩) := by
  have hzeros : Text.AllDigits (List.replicate k '0' ++ digits c) :=
    (Text.allDigits_replicate k).append (allDigits_digits c)
  have hvalue : Text.digitsValue (['0'] ++ (List.replicate k '0' ++ digits c)) = c := by
    show Text.digitsValue (List.replicate (k + 1) '0' ++ digits c) = c
    rw [Text.digitsValue_zeros_append _ (allDigits_digits c), digitsValue_digits]
  have hstands := stands_point (List.cons_ne_nil '0' []) (Text.allDigits_replicate 1) hzeros
  rw [hvalue, List.length_append, List.length_replicate] at hstands
  exact hstands

/-- The point between the digits. -/
theorem stands_point_between {c n : Nat} (hpos : 0 < n) :
    Stands ((digits c).take n ++ '.' :: (digits c).drop n)
      (Decimal.value ⟨c, -((digits c).length - n : ℕ)⟩) := by
  have htake : (digits c).take n ≠ [] := by
    rw [Ne, List.take_eq_nil_iff]
    rintro (h | h)
    · omega
    · exact digits_ne_nil c h
  have hfirst : Text.AllDigits ((digits c).take n) :=
    fun d hd => allDigits_digits c d (List.mem_of_mem_take hd)
  have hlast : Text.AllDigits ((digits c).drop n) :=
    fun d hd => allDigits_digits c d (List.mem_of_mem_drop hd)
  have hstands := stands_point htake hfirst hlast
  rw [List.take_append_drop, digitsValue_digits, List.length_drop] at hstands
  exact hstands

/-- The point behind all digits and some zeros, with a zero behind it. -/
theorem stands_trailing_zeros (c k : Nat) :
    Stands (digits c ++ List.replicate k '0' ++ '.' :: ['0']) (Decimal.value ⟨c, k⟩) := by
  have hzeros : Text.AllDigits (digits c ++ List.replicate k '0') :=
    (allDigits_digits c).append (Text.allDigits_replicate k)
  have hvalue : Text.digitsValue (digits c ++ List.replicate k '0' ++ ['0']) =
      c * 10 ^ (k + 1) := by
    rw [List.append_assoc]
    show Text.digitsValue (digits c ++ (List.replicate k '0' ++ List.replicate 1 '0')) = _
    rw [List.replicate_append_replicate, Text.digitsValue_append_zeros _ (allDigits_digits c),
      digitsValue_digits]
  have hexp : -((['0'] : List Char).length : ℤ) + (k + 1 : ℕ) = k := by
    show -((1 : ℕ) : ℤ) + _ = k
    omega
  have hstands := stands_point (List.append_ne_nil_of_left_ne_nil (digits_ne_nil c) _) hzeros
    (Text.allDigits_replicate 1)
  rw [List.replicate_one, hvalue, Decimal.value_shift, hexp] at hstands
  exact hstands

/-- A decimal in positional notation stands for its value. -/
theorem stands_positional (c : Nat) (e : ℤ) {parts : List Char × List Char}
    (h : positional (digits c) ((digits c).length + e) = parts) :
    Stands (parts.1 ++ '.' :: (if parts.2.isEmpty then ['0'] else parts.2))
      (Decimal.value ⟨c, e⟩) := by
  obtain ⟨whole, fraction⟩ := parts
  dsimp only
  unfold positional at h
  by_cases hpoint : ((digits c).length : ℤ) + e ≤ 0
  · -- the point is in front of the digits
    obtain ⟨k, hk⟩ := Int.eq_ofNat_of_zero_le (by omega : 0 ≤ -(((digits c).length : ℤ) + e))
    have hexp : -((k + (digits c).length : ℕ) : ℤ) = e := by omega
    rw [if_pos hpoint, hk, Int.toNat_natCast] at h
    obtain ⟨rfl, rfl⟩ := Prod.mk.inj h
    have hempty : (List.replicate k '0' ++ digits c).isEmpty = false := by
      rw [List.isEmpty_eq_false_iff]
      exact List.append_ne_nil_of_right_ne_nil _ (digits_ne_nil c)
    rw [hempty, if_neg (by decide), ← hexp]
    exact stands_leading_zeros c k
  · obtain ⟨n, hn⟩ := Int.eq_ofNat_of_zero_le (by omega : 0 ≤ ((digits c).length : ℤ) + e)
    rw [if_neg hpoint, hn, Int.toNat_natCast] at h
    obtain ⟨rfl, rfl⟩ := Prod.mk.inj h
    by_cases hlt : n < (digits c).length
    · -- the point is between them
      have hexp : -(((digits c).length - n : ℕ) : ℤ) = e := by omega
      have hdrop : ((digits c).drop n).isEmpty = false := by
        rw [List.isEmpty_eq_false_iff, Ne, List.drop_eq_nil_iff]
        omega
      have hpad : n - (digits c).length = 0 := by omega
      rw [hdrop, if_neg (by decide), hpad, List.replicate_zero, List.append_nil, ← hexp]
      exact stands_point_between (by omega)
    · -- the point is behind them
      have hexp : ((n - (digits c).length : ℕ) : ℤ) = e := by omega
      have hdrop : ((digits c).drop n).isEmpty = true := by
        rw [List.isEmpty_iff, List.drop_eq_nil_iff]
        omega
      rw [if_pos hdrop, List.take_of_length_le (by omega), ← hexp]
      exact stands_trailing_zeros c _

/-- An exponent is written as an exponent of a numeral, with its value. -/
theorem exists_exponent (e : ℤ) :
    ∃ x : Numeral.Exponent, x.IsProper ∧ x.text = exponentText e ∧ x.value = e := by
  -- an exponent has at least two digits
  have hzeros := Text.digitsValue_zeros_append (2 - (digits e.natAbs).length)
    (allDigits_digits e.natAbs)
  rw [digitsValue_digits] at hzeros
  refine ⟨⟨'e', some (if e < 0 then '-' else '+'),
    List.replicate (2 - (digits e.natAbs).length) '0' ++ digits e.natAbs⟩, ⟨.inl rfl, ?_, ?_, ?_⟩,
    rfl, ?_⟩
  · intro c hc
    rw [← Option.some.inj hc]
    by_cases h : e < 0
    · rw [if_pos h]; exact .inr rfl
    · rw [if_neg h]; exact .inl rfl
  · exact List.append_ne_nil_of_right_ne_nil _ (digits_ne_nil _)
  · exact (Text.allDigits_replicate _).append (allDigits_digits _)
  · unfold Numeral.Exponent.value
    dsimp only
    rw [hzeros]
    by_cases h : e < 0
    · rw [if_pos h, if_pos rfl]; omega
    · rw [if_neg h, if_neg (by decide)]; omega

/-- A decimal in scientific notation stands for its value. -/
theorem stands_withExponent (c : Nat) (e : ℤ) :
    Stands (withExponent (digits c) ((digits c).length + e - 1)) (Decimal.value ⟨c, e⟩) := by
  have hdigits := allDigits_digits c
  have hc := digitsValue_digits c
  obtain ⟨x, hx, htext, hvalue⟩ := exists_exponent ((digits c).length + e - 1)
  unfold withExponent
  split
  · next d d' rest hds =>
    -- the point is behind the first of several digits
    rw [hds] at hdigits hc hvalue
    refine ⟨⟨[d], some (d' :: rest), some x⟩, ⟨List.cons_ne_nil _ _, ?_, ?_, ?_⟩, ?_, ?_⟩
    · intro a ha
      exact hdigits a (by rw [List.mem_singleton.1 ha]; exact List.mem_cons_self)
    · intro ds h a ha
      rw [← Option.some.inj h] at ha
      exact hdigits a (List.mem_cons_of_mem _ ha)
    · intro y hy
      rwa [← Option.some.inj hy]
    · show [d] ++ '.' :: (d' :: rest) ++ x.text = _
      rw [htext]
      rfl
    · show Decimal.value ⟨Text.digitsValue ([d] ++ (d' :: rest)), x.value - (d' :: rest).length⟩ = _
      have hexp : x.value - ((d' :: rest).length : ℤ) = e := by
        rw [hvalue]
        simp only [List.length_cons]
        omega
      rw [List.singleton_append, hc, hexp]
  · next hshort =>
    -- a decimal has a digit, and here it has only one
    have hone : (digits c).length = 1 := by
      cases hds : digits c with
      | nil => exact absurd hds (digits_ne_nil c)
      | cons d ds =>
        cases ds with
        | nil => rfl
        | cons d' rest => exact absurd hds (hshort d d' rest)
    refine ⟨⟨digits c, none, some x⟩, ⟨digits_ne_nil c, hdigits, ?_, ?_⟩, ?_, ?_⟩
    · intro ds h
      cases h
    · intro y hy
      rwa [← Option.some.inj hy]
    · show digits c ++ [] ++ x.text = _
      rw [List.append_nil, htext]
    · show Decimal.value ⟨Text.digitsValue (digits c ++ []), x.value - (0 : ℕ)⟩ = _
      have hexp : x.value - ((0 : ℕ) : ℤ) = e := by omega
      rw [List.append_nil, hc, hexp]

/-! ## Numbers -/

/-- The shortest digits of a finite number are a proper numeral for it. -/
theorem exists_numeral_plainMagnitude {bits : Nat} (hbits : bits < infinityBits) :
    ∃ n : Numeral, n.IsProper ∧ n.text = plainMagnitude bits ∧ n.decimal.toBits = bits := by
  unfold plainMagnitude
  dsimp only
  by_cases hzero : bits = 0
  · -- zero is written as one of the layouts too
    obtain ⟨n, hn, htext, hvalue⟩ := stands_trailing_zeros 0 0
    refine ⟨n, hn, ?_, ?_⟩
    · rw [if_pos hzero]
      exact htext
    · rw [hzero]
      exact Decimal.toBits_of_value_eq_zero (hvalue.trans ((Decimal.value_eq_zero_iff _).2 rfl))
  · rw [if_neg hzero]
    have hshort := Decimal.toBits_shortest hbits
    generalize Decimal.shortest bits = d at hshort ⊢
    obtain ⟨c, e⟩ := d
    dsimp only
    split
    · obtain ⟨n, hn, htext, hvalue⟩ := stands_positional c e rfl
      refine ⟨n, hn, ?_, (Decimal.toBits_congr hvalue).trans hshort⟩
      rw [htext, sub_add_cancel]
    · obtain ⟨n, hn, htext, hvalue⟩ := stands_withExponent c e
      exact ⟨n, hn, htext, (Decimal.toBits_congr hvalue).trans hshort⟩

end NumberText

/-! ## Literals -/

/-- The nearest number is a number or an infinity. -/
theorem nearestBits_le (num den : Nat) : nearestBits num den ≤ infinityBits := by
  unfold nearestBits
  split
  · exact Nat.zero_le _
  · exact Nat.min_le_right _ _

/-- And so is that of a decimal. -/
theorem Decimal.toBits_le (d : Decimal) : d.toBits ≤ infinityBits := by
  unfold toBits
  dsimp only
  split
  · exact Nat.zero_le _
  · split
    · exact Nat.le_refl _
    · split
      · exact nearestBits_le _ _
      · exact nearestBits_le _ _

/-- A number that is found to be an integer is a natural one with the same magnitude. -/
theorem Binary.exists_nat_of_toInt? {bits : Nat} {i : ℤ}
    (h : (Binary.ofBits false bits).toInt? = some i) :
    ∃ n : Nat, i = n ∧ (n : ℚ) = (Binary.ofBits false bits).magnitude := by
  have hsigned : (Binary.ofBits false bits).signed = (Binary.ofBits false bits).mantissa := by
    unfold signed ofBits
    split
    · rfl
    · rfl
  unfold toInt? at h
  rw [hsigned] at h
  unfold magnitude
  -- the mantissa is multiplied, or it is divided without a rest
  by_cases he : 0 ≤ (Binary.ofBits false bits).exponent
  · obtain ⟨k, hk⟩ := Int.eq_ofNat_of_zero_le he
    rw [if_pos he, hk, Int.toNat_natCast] at h
    refine ⟨(Binary.ofBits false bits).mantissa * 2 ^ k, ?_, ?_⟩
    · rw [← Option.some.inj h]
      push_cast
      rfl
    · rw [hk, zpow_natCast]
      push_cast
      rfl
  · obtain ⟨k, hk⟩ := Int.eq_ofNat_of_zero_le (by omega : 0 ≤ -(Binary.ofBits false bits).exponent)
    have hexp : (Binary.ofBits false bits).exponent = -(k : ℤ) := by omega
    rw [if_neg he, hk, Int.toNat_natCast] at h
    split at h
    · next hmod =>
      refine ⟨(Binary.ofBits false bits).mantissa / 2 ^ k, ?_, ?_⟩
      · rw [← Option.some.inj h]
        push_cast
        rfl
      · have hdvd : 2 ^ k ∣ (Binary.ofBits false bits).mantissa := Nat.dvd_of_mod_eq_zero hmod
        rw [hexp, zpow_neg, zpow_natCast, Nat.cast_div hdvd (by positivity)]
        push_cast
        rw [div_eq_mul_inv]
    · cases h

/-- The text of a finite number without a sign, be it written as an integer or in its shortest
    digits, is a proper numeral for it. -/
theorem Expr.exists_numeral_literalText {bits : Nat} (hbits : bits < infinityBits) :
    ∃ n : Numeral, n.IsProper ∧ n.text = literalText (floatOfMagnitude false bits) ∧
      n.value = floatOfMagnitude false bits := by
  have hle := Nat.le_of_lt hbits
  have hfinite : (floatOfMagnitude false bits).isFinite = true := by
    rw [isFinite_iff, magnitudeBits_floatOfMagnitude false hle]
    exact hbits
  obtain ⟨hnan, hinf⟩ := isNaN_isInf_of_isFinite hfinite
  have hplain : (NumberText.plain (floatOfMagnitude false bits)).toList =
      NumberText.plainMagnitude bits := by
    unfold NumberText.plain NumberText.signed
    rw [hnan, hinf, signBit_floatOfMagnitude false hle, magnitudeBits_floatOfMagnitude false hle]
    exact String.toList_ofList
  have hvalue (n : Numeral) (h : n.decimal.toBits = bits) :
      n.value = floatOfMagnitude false bits := by
    unfold Numeral.value Decimal.toFloat
    rw [h]
  obtain ⟨n, hn, htext, hnbits⟩ := NumberText.exists_numeral_plainMagnitude hbits
  have hshortest : ∃ n : Numeral, n.IsProper ∧
      n.text = (NumberText.plain (floatOfMagnitude false bits)).toList ∧
      n.value = floatOfMagnitude false bits := ⟨n, hn, htext.trans hplain.symm, hvalue n hnbits⟩
  unfold literalText
  split
  · next i hi =>
    split
    · -- an integer is written with all its digits
      unfold Binary.ofFloat? at hi
      rw [if_pos hfinite, signBit_floatOfMagnitude false hle,
        magnitudeBits_floatOfMagnitude false hle] at hi
      obtain ⟨m, rfl, hm⟩ := Binary.exists_nat_of_toInt? hi
      obtain ⟨n, hn, htext, hq⟩ := NumberText.stands_digits m
      refine ⟨n, hn, ?_, hvalue n (Decimal.toBits_eq_of_exact hbits (hq.trans hm))⟩
      rw [htext]
      exact Nat.toList_repr.symm
    · exact hshortest
  · exact hshortest

end DirectionField
