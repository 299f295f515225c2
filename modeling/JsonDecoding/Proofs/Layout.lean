import JsonDecoding.Json.Render
import JsonDecoding.Proofs.Numerals
import JsonDecoding.Proofs.Rounding

/-!
# The layout of numbers

The text of a finite number is a numeral that is read as that number, wherever the point is put
(`writes_decimalText`, `exists_numeral_float`).
-/

namespace JsonDecoding

namespace Scanner

open Scanner.Numeral

/-! ## Parts of texts -/

theorem areDigits_ofNat (n : Nat) : AreDigits (Text.ofNat n) := by
  refine ⟨fun hnil => ?_, fun c hc => Text.isDigit_of_mem_ofNat hc⟩
  have hlength : 0 < (Text.ofNat n).length := by
    rw [Text.length_ofNat]
    exact Nat.length_toDigits_pos
  rw [hnil] at hlength
  cases hlength

theorem areDigits_zero : AreDigits [48] := by
  refine ⟨by simp, fun c hc => ?_⟩
  rw [List.mem_singleton.mp hc]
  rfl

theorem isDigit_of_mem_zeros {count : Nat} {c : CodePoint} (h : c ∈ List.replicate count 48) :
    Text.isDigit c = true := by
  rw [List.eq_of_mem_replicate h]
  rfl

theorem head_ofNat {n : Nat} (hn : 0 < n) : ∀ c ∈ (Text.ofNat n).head?, c ≠ 48 := by
  obtain ⟨c, rest, htext, hc⟩ := Text.ofNat_eq_cons hn
  rintro other hother
  rw [htext] at hother
  cases hother
  exact hc

/-- Only zero is written with a leading zero. -/
theorem leading_ofNat (n : Nat) :
    Text.ofNat n = [48] ∨ ∀ c ∈ (Text.ofNat n).head?, c ≠ 48 := by
  rcases Nat.eq_zero_or_pos n with rfl | hpos
  · exact .inl rfl
  · exact .inr (head_ofNat hpos)

/-- A numeral with a fraction or an exponent that writes a decimal. -/
structure Numeral.Writes (n : Numeral) (d : Decimal) : Prop where
  wellFormed : n.WellFormed
  notWhole : (n.fraction.isNone && n.exponent.isNone) = false
  value : ∃ zeros, n.toDecimal = d.shifted zeros

section Layout

variable {d : Decimal}

/-- Below one, zeros stand between the point and the digits. -/
theorem writes_below_one (h : d.adjusted + 1 ≤ 0) :
    Numeral.Writes ⟨d.negative, [48],
      some (List.replicate (-(d.adjusted + 1)).toNat 48 ++ Text.ofNat d.coefficient), none⟩ d where
  wellFormed := by
    refine ⟨areDigits_zero, .inl rfl, ?_, by simp⟩
    rintro digits ⟨⟩
    refine ⟨by simp [(areDigits_ofNat _).1], fun c hc => ?_⟩
    exact (List.mem_append.mp hc).elim isDigit_of_mem_zeros ((areDigits_ofNat _).2 c)
  notWhole := rfl
  value := by
    refine ⟨0, ?_⟩
    have hlength : (Text.ofNat d.coefficient).length = d.digits := Text.length_ofNat _
    have hzero : Text.digitsValue [48] = 0 := rfl
    simp only [Decimal.adjusted] at h
    simp only [toDecimal, exponentValue, Option.getD_some, Text.digitsValue_append,
      Text.digitsValue_zeros, Text.digitsValue_ofNat, hzero, List.length_append,
      List.length_replicate, hlength, Decimal.shifted, Decimal.adjusted, Decimal.mk.injEq]
    refine ⟨trivial, by simp, ?_⟩
    omega

/-- A whole number ends in a point and a zero. -/
theorem writes_whole (hd : 0 < d.coefficient)
    (h : ((Text.ofNat d.coefficient).length : Int) ≤ d.adjusted + 1) :
    Numeral.Writes ⟨d.negative, Text.ofNat d.coefficient ++
      List.replicate ((d.adjusted + 1).toNat - (Text.ofNat d.coefficient).length) 48,
      some [48], none⟩ d where
  wellFormed := by
    refine ⟨⟨by simp [(areDigits_ofNat _).1], fun c hc => ?_⟩, .inr ?_, ?_, by simp⟩
    · exact (List.mem_append.mp hc).elim ((areDigits_ofNat _).2 c) isDigit_of_mem_zeros
    · intro c hc
      rw [List.head?_append_of_ne_nil _ (areDigits_ofNat _).1] at hc
      exact head_ofNat hd c hc
    · rintro digits ⟨⟩
      exact areDigits_zero
  notWhole := rfl
  value := by
    refine ⟨d.exponent.toNat + 1, ?_⟩
    have hlength : (Text.ofNat d.coefficient).length = d.digits := Text.length_ofNat _
    have hzero : Text.digitsValue [48] = 0 := rfl
    rw [hlength] at h
    simp only [Decimal.adjusted] at h
    have hzeros : (d.adjusted + 1).toNat - d.digits = d.exponent.toNat := by
      simp only [Decimal.adjusted]
      omega
    simp only [toDecimal, exponentValue, Option.getD_some, Text.digitsValue_append,
      Text.digitsValue_zeros, Text.digitsValue_ofNat, hzero, List.length_replicate, hlength,
      Decimal.shifted, hzeros, Decimal.mk.injEq, List.length_singleton]
    refine ⟨trivial, by ring, ?_⟩
    omega

/-- Otherwise the point stands among the digits. -/
theorem writes_between (hd : 0 < d.coefficient) (hlow : 0 < d.adjusted + 1)
    (hhigh : d.adjusted + 1 < ((Text.ofNat d.coefficient).length : Int)) :
    Numeral.Writes ⟨d.negative, (Text.ofNat d.coefficient).take (d.adjusted + 1).toNat,
      some ((Text.ofNat d.coefficient).drop (d.adjusted + 1).toNat), none⟩ d where
  wellFormed := by
    have hdigits := (areDigits_ofNat d.coefficient).2
    refine ⟨⟨?_, fun c hc => hdigits c (List.mem_of_mem_take hc)⟩, .inr ?_, ?_, by simp⟩
    · simp [(areDigits_ofNat _).1]
      omega
    · intro c hc
      rw [List.head?_take, if_neg (by omega)] at hc
      exact head_ofNat hd c hc
    · rintro digits ⟨⟩
      refine ⟨?_, fun c hc => hdigits c (List.mem_of_mem_drop hc)⟩
      simp
      omega
  notWhole := rfl
  value := by
    refine ⟨0, ?_⟩
    have hlength : (Text.ofNat d.coefficient).length = d.digits := Text.length_ofNat _
    rw [hlength] at hhigh
    simp only [Decimal.adjusted] at hlow hhigh
    simp only [toDecimal, exponentValue, Option.getD_some, List.take_append_drop,
      Text.digitsValue_ofNat, List.length_drop, hlength, Decimal.shifted, Decimal.adjusted,
      Decimal.mk.injEq]
    refine ⟨trivial, by simp, ?_⟩
    omega

theorem writes_positional (hd : 0 < d.coefficient) :
    ∃ n : Numeral, n.Writes d ∧ n.text =
      (if d.negative then [45] else []) ++
        Binary64.positional (Text.ofNat d.coefficient) (d.adjusted + 1) := by
  by_cases hpoint : d.adjusted + 1 ≤ 0
  · refine ⟨_, writes_below_one hpoint, ?_⟩
    rw [Binary64.positional, if_pos hpoint]
    simp [text, fractionText, exponentText, Text.lit]
  · by_cases hlong : ((Text.ofNat d.coefficient).length : Int) ≤ d.adjusted + 1
    · refine ⟨_, writes_whole hd hlong, ?_⟩
      rw [Binary64.positional, if_neg hpoint, if_pos hlong]
      simp [text, fractionText, exponentText, Text.lit]
    · refine ⟨_, writes_between hd (by omega) (by omega), ?_⟩
      rw [Binary64.positional, if_neg hpoint, if_neg hlong]
      simp [text, fractionText, exponentText]

/-- The digits of an exponent, at least two of them. -/
def exponentDigitsOf (e : Int) : Text :=
  if (Text.ofNat e.natAbs).length < 2 then 48 :: Text.ofNat e.natAbs else Text.ofNat e.natAbs

theorem areDigits_exponent (e : Int) : AreDigits (exponentDigitsOf e) := by
  have hdigits := areDigits_ofNat e.natAbs
  unfold exponentDigitsOf
  split
  · refine ⟨by simp, fun c hc => ?_⟩
    rcases List.mem_cons.mp hc with rfl | hmem
    · rfl
    · exact hdigits.2 c hmem
  · exact hdigits

theorem digitsValue_exponent (e : Int) : Text.digitsValue (exponentDigitsOf e) = e.natAbs := by
  unfold exponentDigitsOf
  split
  · exact Text.digitsValue_ofNat e.natAbs
  · exact Text.digitsValue_ofNat e.natAbs

theorem exponentValue_exponentDigitsOf (negative : Bool) (whole : Text) (fraction : Option Text)
    (e : Int) :
    exponentValue ⟨negative, whole, fraction, some (e < 0, exponentDigitsOf e)⟩ = e := by
  by_cases hsign : e < 0
  · simp only [exponentValue, hsign, decide_true, digitsValue_exponent]
    omega
  · simp only [exponentValue, hsign, decide_false, digitsValue_exponent]
    omega

/-- One digit stands before the point, the others behind it, and an exponent follows. -/
theorem writes_with_exponent (hd : 0 < d.coefficient) {first : CodePoint} {more : Text}
    (hdigits : Text.ofNat d.coefficient = first :: more) :
    Numeral.Writes ⟨d.negative, [first], if more = [] then none else some more,
      some (d.adjusted < 0, exponentDigitsOf d.adjusted)⟩ d where
  wellFormed := by
    have hall := (areDigits_ofNat d.coefficient).2
    rw [hdigits] at hall
    refine ⟨⟨by simp, ?_⟩, .inr ?_, ?_, ?_⟩
    · intro c hc
      rw [List.mem_singleton.mp hc]
      exact hall first (by simp)
    · intro c hc
      refine head_ofNat hd c ?_
      rw [hdigits]
      exact hc
    · intro digits hmore
      split at hmore
      · cases hmore
      · rename_i hne
        cases hmore
        exact ⟨hne, fun c hc => hall c (by simp [hc])⟩
    · rintro signed ⟨⟩
      exact areDigits_exponent d.adjusted
  notWhole := by simp
  value := by
    refine ⟨0, ?_⟩
    have hlength : (first :: more).length = d.digits := by
      rw [← hdigits]
      exact Text.length_ofNat _
    have hvalue : Text.digitsValue (first :: more) = d.coefficient := by
      rw [← hdigits]
      exact Text.digitsValue_ofNat _
    have hmore : (if more = [] then none else some more).getD [] = more := by
      split
      · rename_i hnil
        exact hnil.symm
      · rfl
    simp only [toDecimal, exponentValue_exponentDigitsOf, hmore, List.singleton_append, hvalue,
      Decimal.shifted, Decimal.mk.injEq]
    refine ⟨trivial, by simp, ?_⟩
    simp only [List.length_cons] at hlength
    simp only [Decimal.adjusted]
    omega

theorem writes_scientific (hd : 0 < d.coefficient) :
    ∃ n : Numeral, n.Writes d ∧ n.text =
      (if d.negative then [45] else []) ++
        Binary64.scientific (Text.ofNat d.coefficient) d.adjusted := by
  obtain ⟨first, more, hdigits, -⟩ := Text.ofNat_eq_cons hd
  refine ⟨_, writes_with_exponent hd hdigits, ?_⟩
  rw [hdigits]
  cases more <;>
    simp [text, fractionText, exponentText, Binary64.scientific, Binary64.scientificExponent,
      exponentDigitsOf]

/-- **The text of a decimal is a numeral** that writes it. -/
theorem writes_decimalText (hd : 0 < d.coefficient) :
    ∃ n : Numeral, n.Writes d ∧ n.text = Binary64.decimalText d := by
  unfold Binary64.decimalText
  by_cases hplain : (-4 ≤ d.adjusted && d.adjusted < 16) = true
  · obtain ⟨n, hwrites, htext⟩ := writes_positional hd
    refine ⟨n, hwrites, htext.trans ?_⟩
    simp only [hplain, if_true]
    split <;> rfl
  · obtain ⟨n, hwrites, htext⟩ := writes_scientific hd
    refine ⟨n, hwrites, htext.trans ?_⟩
    simp only [hplain]
    split <;> rfl

end Layout

/-! ## Numbers -/

theorem toNumber_of_writes {n : Numeral} {d : Decimal} (h : n.Writes d) :
    n.toNumber = .ok (.float (.ofDecimal d)) := by
  obtain ⟨zeros, hvalue⟩ := h.value
  rw [toNumber, h.notWhole, if_neg (by simp), hvalue, Binary64.ofDecimal_shifted]

theorem significand_eq_zero {exponent : Fin 2047} {fraction : Fin (Nat.pow 2 52)}
    (h : Binary64.significand exponent fraction = 0) : exponent = 0 ∧ fraction = 0 := by
  unfold Binary64.significand at h
  split at h
  · rename_i hexponent
    exact ⟨Fin.ext hexponent, Fin.ext h⟩
  · simp at h

/-- Every finite number is shown by a numeral that is read as it. -/
theorem exists_writes_float {x : Binary64} (hx : x.isFinite = true) (infinity nan : Text) :
    ∃ (n : Numeral) (d : Decimal), n.Writes d ∧ n.text = x.textWith infinity nan ∧
      Binary64.ofDecimal d = x := by
  cases x with
  | infinity | nan => cases hx
  | finite negative exponent fraction =>
      rcases Nat.eq_zero_or_pos (Binary64.significand exponent fraction) with hzero | hpos
      · have hexact : (Binary64.exactDecimal negative exponent fraction).coefficient = 0 := by
          simp only [Binary64.exactDecimal, hzero, Nat.zero_mul]
          split <;> rfl
        obtain ⟨rfl, rfl⟩ := significand_eq_zero hzero
        refine ⟨⟨negative, [48], some [48], none⟩, ⟨negative, 0, 0⟩, ⟨?_, rfl, 1, rfl⟩, ?_, ?_⟩
        · refine ⟨areDigits_zero, .inl rfl, ?_, by simp⟩
          rintro digits ⟨⟩
          exact areDigits_zero
        · rw [Binary64.textWith, if_pos hexact]
          cases negative <;> rfl
        · rfl
      · obtain ⟨hcoefficient, hread⟩ := Binary64.ofDecimal_shown negative hpos
        obtain ⟨n, hwrites, htext⟩ := writes_decimalText hcoefficient
        have hexact := (Binary64.coefficient_exactDecimal_pos negative hpos).ne'
        refine ⟨n, _, hwrites, ?_, hread⟩
        rw [htext, Binary64.textWith, if_neg hexact]

/-- What a rendered number is read as: the number, unless it has too many digits or is named by a
word that stands for no JSON number. -/
def reread : Number → Except Fault Number
  | .int i =>
      if Text.digitLimit < (Text.ofNat i.natAbs).length then
        .error (.digitLimit (Text.ofNat i.natAbs).length)
      else .ok (.int i)
  | .float (.nan _) => .error (.constant (Text.lit "NaN"))
  | .float (.infinity false) => .error (.constant (Text.lit "Infinity"))
  | .float (.infinity true) => .error (.constant (Text.lit "-Infinity"))
  | .float x => .ok (.float x)

/-- Every integer is shown by a numeral that is read as it, if it is not too long. -/
theorem exists_numeral_int (i : Int) :
    ∃ n : Numeral, n.WellFormed ∧ n.text = Text.ofInt i ∧ n.toNumber = reread (.int i) := by
  refine ⟨⟨i < 0, Text.ofNat i.natAbs, none, none⟩,
    ⟨areDigits_ofNat _, leading_ofNat _, by simp, by simp⟩, ?_, ?_⟩
  · cases i with
    | ofNat n => simp [text, Text.ofInt, fractionText, exponentText]
    | negSucc n => simp [text, Text.ofInt, fractionText, exponentText]
  · have hvalue : (Numeral.mk (i < 0) (Text.ofNat i.natAbs) none none).toInt = i := by
      simp only [toInt, Text.digitsValue_ofNat, decide_eq_true_eq]
      split <;> omega
    simp only [toNumber, hvalue, Option.isNone_none, Bool.and_self, if_true, reread]

/-- Every finite floating-point number is shown by a numeral that is read as it. -/
theorem exists_numeral_float {x : Binary64} (hx : x.isFinite = true) :
    ∃ n : Numeral, n.WellFormed ∧ n.text = Json.renderNumber (.float x) ∧
      n.toNumber = .ok (.float x) := by
  obtain ⟨n, d, hwrites, htext, rfl⟩ :=
    exists_writes_float hx (Text.lit "Infinity") (Text.lit "NaN")
  exact ⟨n, hwrites.wellFormed, htext, toNumber_of_writes hwrites⟩

/-- A number that JSON can write: one that is finite, with few enough digits if it is whole. -/
def Writable : Number → Prop
  | .int i => (Text.ofNat i.natAbs).length ≤ Text.digitLimit
  | .float x => x.isFinite = true

/-- **Exactly the numbers that JSON can write are read back.** -/
theorem reread_eq_iff {number : Number} : reread number = .ok number ↔ Writable number := by
  cases number with
  | int i => simp [reread, Writable]
  | float x =>
      cases x with
      | finite => simp [reread, Writable, Binary64.isFinite]
      | infinity negative => cases negative <;> simp [reread, Writable, Binary64.isFinite]
      | nan => simp [reread, Writable, Binary64.isFinite]

end Scanner

end JsonDecoding
