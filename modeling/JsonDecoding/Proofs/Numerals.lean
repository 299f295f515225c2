import Mathlib.Data.List.Induction
import Mathlib.Data.List.TakeWhile
import Mathlib.Tactic.Ring
import JsonDecoding.Json.Scanner

/-!
# Reading numerals

The digits of a number write it (`Text.digitsValue_ofNat`). What is read at the front of a text is
the whole numeral that is spelled there, if nothing behind it can be taken for more of it
(`Scanner.numeral?_spelled`), and whatever is read as a numeral is spelled there
(`Scanner.exists_spelled_of_numeral?`).
-/

namespace JsonDecoding

/-! ## Digits -/

namespace Text

theorem isDigit_toNat {c : Char} (h : c.isDigit = true) : isDigit c.toNat = true := by
  simp only [Char.isDigit, Bool.and_eq_true, decide_eq_true_eq, ge_iff_le,
    UInt32.le_iff_toNat_le] at h
  simp only [isDigit, Bool.and_eq_true, decide_eq_true_eq]
  exact h

theorem isDigit_of_mem_ofNat {n : Nat} {c : CodePoint} (h : c ∈ ofNat n) : isDigit c = true := by
  obtain ⟨digit, hdigit, rfl⟩ := List.mem_map.mp h
  exact isDigit_toNat (Nat.isDigit_of_mem_toDigits (by norm_num) (by norm_num) hdigit)

theorem toNat_digitChar {n : Nat} (h : n < 10) : n.digitChar.toNat = 48 + n := by
  revert n
  decide

theorem ofNat_of_lt {n : Nat} (h : n < 10) : ofNat n = [48 + n] := by
  simp [ofNat, Nat.toDigits_of_lt_base h, toNat_digitChar h]

theorem ofNat_of_le {n : Nat} (h : 10 ≤ n) : ofNat n = ofNat (n / 10) ++ [48 + n % 10] := by
  simp [ofNat, Nat.toDigits_of_base_le (by norm_num) h,
    toNat_digitChar (Nat.mod_lt n (by norm_num))]

theorem digitsValue_append (a b : Text) :
    digitsValue (a ++ b) = digitsValue a * 10 ^ b.length + digitsValue b := by
  induction b using List.reverseRecOn with
  | nil => simp [digitsValue]
  | append_singleton b c ih =>
      simp only [digitsValue, ← List.append_assoc, List.foldl_append, List.foldl_cons,
        List.foldl_nil, List.length_append, List.length_singleton] at ih ⊢
      rw [ih]
      ring

theorem digitsValue_zeros (count : Nat) : digitsValue (List.replicate count 48) = 0 := by
  induction count with
  | zero => rfl
  | succ count ih => rw [List.replicate_succ', digitsValue_append, ih]; rfl

/-- **The digits of a number write it.** -/
theorem digitsValue_ofNat (n : Nat) : digitsValue (ofNat n) = n := by
  induction n using Nat.strong_induction_on with
  | _ n ih =>
    rcases Nat.lt_or_ge n 10 with h | h
    · simp [ofNat_of_lt h, digitsValue]
    · rw [ofNat_of_le h, digitsValue_append, ih (n / 10) (by omega)]
      simp only [digitsValue, List.foldl_cons, List.foldl_nil, List.length_singleton]
      omega

theorem length_ofNat (n : Nat) : (ofNat n).length = (Nat.toDigits 10 n).length := List.length_map ..

/-- The integers that are too long to be written, by their size. -/
theorem isOverlong_iff {i : Int} : isOverlong i = true ↔ 10 ^ digitLimit ≤ i.natAbs := by
  have hlength : (ofNat i.natAbs).length ≤ digitLimit ↔ i.natAbs < 10 ^ digitLimit := by
    rw [length_ofNat]
    exact Nat.length_toDigits_le_iff (by norm_num) (by decide)
  rw [isOverlong, decide_eq_true_eq]
  omega

/-- The first integer that has too many digits. -/
theorem isOverlong_of_eq {n : Nat} (h : n = 10 ^ digitLimit) : isOverlong n = true :=
  isOverlong_iff.mpr (h.ge.trans (Int.natAbs_natCast n).ge)

/-- A positive number is written without leading zeros. -/
theorem ofNat_eq_cons {n : Nat} (hn : 0 < n) : ∃ c rest, ofNat n = c :: rest ∧ c ≠ 48 := by
  induction n using Nat.strong_induction_on with
  | _ n ih =>
    rcases Nat.lt_or_ge n 10 with h | h
    · exact ⟨48 + n, [], ofNat_of_lt h, Nat.ne_of_gt (Nat.lt_add_of_pos_right hn)⟩
    · obtain ⟨c, rest, hrest, hc⟩ := ih (n / 10) (by omega) (by omega)
      exact ⟨c, rest ++ [48 + n % 10], by rw [ofNat_of_le h, hrest]; rfl, hc⟩

end Text

namespace Scanner

/-! ## What may follow a value -/

/-- A text that begins with nothing by which a value could go on: it is empty, or begins with a
blank, a comma or a closing bracket. -/
def Ends (t : Text) : Prop := ∀ c ∈ t.head?, isSpace c = true ∨ c = 44 ∨ c = 93 ∨ c = 125

namespace Ends

theorem nil : Ends [] := by simp [Ends]

theorem cons {c : CodePoint} (h : isSpace c = true ∨ c = 44 ∨ c = 93 ∨ c = 125) (t : Text) :
    Ends (c :: t) := by
  simpa [Ends] using h

/-- What stands behind a value is no part of a number. -/
theorem notNumeric {t : Text} (h : Ends t) :
    ∀ c ∈ t.head?, Text.isDigit c = false ∧ c ≠ 46 ∧ c ≠ 69 ∧ c ≠ 101 := by
  intro c hc
  have hcases := h c hc
  simp only [isSpace, Bool.or_eq_true, decide_eq_true_eq] at hcases
  rcases hcases with ((((rfl | rfl) | rfl) | rfl) | rfl | rfl | rfl) <;> decide

end Ends

/-! ## Numerals -/

theorem takeWhile_digits {digits rest : Text} (hdigits : ∀ c ∈ digits, Text.isDigit c = true)
    (hrest : ∀ c ∈ rest.head?, Text.isDigit c = false) :
    (digits ++ rest).takeWhile Text.isDigit = digits ∧
      (digits ++ rest).dropWhile Text.isDigit = rest := by
  induction digits with
  | nil =>
      cases rest with
      | nil => simp
      | cons c more => simp [hrest c rfl]
  | cons c more ih =>
      obtain ⟨htake, hdrop⟩ := ih fun other hmem => hdigits other (by simp [hmem])
      simp [hdigits c (by simp), htake, hdrop]

namespace Numeral

/-- A point and the digits behind it, where there are any. -/
def fractionText : Option Text → Text
  | none => []
  | some digits => 46 :: digits

/-- An exponent with its sign, where there is one. -/
def exponentText : Option (Bool × Text) → Text
  | none => []
  | some (negative, digits) => 101 :: (if negative then 45 else 43) :: digits

/-- The text of a numeral. -/
def text (n : Numeral) : Text :=
  (if n.negative then [45] else []) ++ (n.whole ++ (fractionText n.fraction ++
    exponentText n.exponent))

/-- How an exponent can be spelled: its mark is a small or a capital letter, and a sign stands in
front of its digits or none does, in which case it is not negative. -/
inductive SpellsExponent : Text → Option (Bool × Text) → Prop where
  | none : SpellsExponent [] none
  | signed {mark : CodePoint} (hmark : mark = 69 ∨ mark = 101) (negative : Bool) (digits : Text) :
      SpellsExponent (mark :: (if negative then 45 else 43) :: digits) (some (negative, digits))
  | unsigned {mark : CodePoint} (hmark : mark = 69 ∨ mark = 101) (digits : Text) :
      SpellsExponent (mark :: digits) (some (false, digits))

theorem spellsExponent_text (exponent : Option (Bool × Text)) :
    SpellsExponent (exponentText exponent) exponent := by
  cases exponent with
  | none => exact .none
  | some signed => exact .signed (.inr rfl) signed.1 signed.2

/-- Some digits. -/
def AreDigits (t : Text) : Prop := t ≠ [] ∧ ∀ c ∈ t, Text.isDigit c = true

/-- The parts of a numeral are digits; the whole part does not begin with a zero unless it is
one. -/
structure WellFormed (n : Numeral) : Prop where
  whole : AreDigits n.whole
  leading : n.whole = [48] ∨ ∀ c ∈ n.whole.head?, c ≠ 48
  fraction : ∀ digits ∈ n.fraction, AreDigits digits
  exponent : ∀ signed ∈ n.exponent, AreDigits signed.2

/-- A text spells a numeral: only the exponent leaves a choice. -/
structure SpelledBy (n : Numeral) (t : Text) : Prop where
  wellFormed : n.WellFormed
  parts : ∃ exponent, SpellsExponent exponent n.exponent ∧
    t = (if n.negative then [45] else []) ++ (n.whole ++ (fractionText n.fraction ++ exponent))

theorem WellFormed.spelledBy {n : Numeral} (h : n.WellFormed) : n.SpelledBy n.text :=
  ⟨h, _, spellsExponent_text n.exponent, rfl⟩

end Numeral

open Scanner.Numeral

/-- A digit is no sign. -/
theorem splitSign_of_isDigit {c : CodePoint} (h : Text.isDigit c = true) (rest : Text) :
    Decimal.splitSign (c :: rest) = (false, c :: rest) := by
  unfold Decimal.splitSign
  split
  · rename_i heq
    cases heq
    cases h
  · rename_i heq
    cases heq
    cases h
  · rfl

theorem wholeDigits_append {digits rest : Text} (hdigits : AreDigits digits)
    (hleading : digits = [48] ∨ ∀ c ∈ digits.head?, c ≠ 48)
    (hrest : ∀ c ∈ rest.head?, Text.isDigit c = false) :
    wholeDigits (digits ++ rest) = (digits, rest) := by
  rcases hleading with rfl | hleading
  · rfl
  · obtain ⟨htake, hdrop⟩ := takeWhile_digits hdigits.2 hrest
    cases digits with
    | nil => exact absurd rfl hdigits.1
    | cons first more =>
        have hfirst : first ≠ 48 := hleading first rfl
        unfold wholeDigits
        split
        · rename_i heq
          cases heq
          exact absurd rfl hfirst
        · rw [htake, hdrop]

theorem fractionDigits_append {fraction : Option Text} {rest : Text}
    (hfraction : ∀ digits ∈ fraction, AreDigits digits)
    (hrest : ∀ c ∈ rest.head?, Text.isDigit c = false ∧ c ≠ 46) :
    fractionDigits (fractionText fraction ++ rest) = (fraction, rest) := by
  cases fraction with
  | none =>
      unfold fractionDigits fractionText
      split
      · rename_i heq
        rw [List.nil_append] at heq
        exact absurd rfl (hrest 46 (by simp [heq])).2
      · rfl
  | some digits =>
      obtain ⟨hne, hdigits⟩ := hfraction digits rfl
      obtain ⟨htake, hdrop⟩ := takeWhile_digits hdigits fun c hc => (hrest c hc).1
      simp [fractionDigits, fractionText, htake, hdrop, hne]

theorem exponentDigits_append {spelled : Text} {exponent : Option (Bool × Text)} {rest : Text}
    (hspelled : SpellsExponent spelled exponent)
    (hexponent : ∀ signed ∈ exponent, AreDigits signed.2) (hrest : Ends rest) :
    exponentDigits (spelled ++ rest) = (exponent, rest) := by
  have hdigit : ∀ c ∈ rest.head?, Text.isDigit c = false := fun c hc => (hrest.notNumeric c hc).1
  cases hspelled with
  | none =>
      cases rest with
      | nil => rfl
      | cons c more =>
          obtain ⟨-, -, hcapital, hsmall⟩ := hrest.notNumeric c rfl
          simp [exponentDigits, hcapital, hsmall]
  | signed hmark negative digits =>
      obtain ⟨hne, hdigits⟩ := hexponent _ rfl
      obtain ⟨htake, hdrop⟩ := takeWhile_digits hdigits hdigit
      cases negative <;>
        simp [exponentDigits, Decimal.splitSign, hmark, htake, hdrop, hne]
  | unsigned hmark digits =>
      obtain ⟨hne, hdigits⟩ := hexponent _ rfl
      obtain ⟨htake, hdrop⟩ := takeWhile_digits hdigits hdigit
      have hsign : Decimal.splitSign (digits ++ rest) = (false, digits ++ rest) := by
        cases digits with
        | nil => exact absurd rfl hne
        | cons c more => exact splitSign_of_isDigit (hdigits c (by simp)) _
      simp [exponentDigits, hsign, hmark, htake, hdrop, hne]

theorem splitMinus_append (negative : Bool) {whole : Text} (hwhole : AreDigits whole)
    (rest : Text) :
    splitMinus ((if negative then [45] else []) ++ (whole ++ rest)) =
      (negative, whole ++ rest) := by
  cases negative with
  | true => rfl
  | false =>
      obtain ⟨hne, hdigits⟩ := hwhole
      cases whole with
      | nil => exact absurd rfl hne
      | cons c more =>
          have hdigit := hdigits c (by simp)
          unfold splitMinus
          split
          · rename_i heq
            cases heq
            cases hdigit
          · rfl

/-- **Reading a numeral takes its text and no more.** -/
theorem numeral?_spelled {n : Numeral} {t : Text} (h : n.SpelledBy t) {rest : Text}
    (hrest : Ends rest) : numeral? (t ++ rest) = some (n, rest) := by
  obtain ⟨negative, whole, fraction, exponent⟩ := n
  obtain ⟨hformed, spelled, hspelled, rfl⟩ := h
  -- what stands behind each part cannot be taken for more of it
  have hexponent : ∀ c ∈ (spelled ++ rest).head?, Text.isDigit c = false ∧ c ≠ 46 := by
    cases hspelled with
    | none => exact fun c hc => ⟨(hrest.notNumeric c hc).1, (hrest.notNumeric c hc).2.1⟩
    | signed hmark | unsigned hmark =>
        rintro c ⟨⟩
        rcases hmark with rfl | rfl <;> exact ⟨rfl, by decide⟩
  have hfraction : ∀ c ∈ (fractionText fraction ++ (spelled ++ rest)).head?,
      Text.isDigit c = false := by
    cases fraction with
    | none => exact fun c hc => (hexponent c hc).1
    | some digits =>
        rintro c ⟨⟩
        rfl
  simp only [numeral?, List.append_assoc, splitMinus_append negative hformed.whole,
    wholeDigits_append hformed.whole hformed.leading hfraction,
    fractionDigits_append hformed.fraction hexponent,
    exponentDigits_append hspelled hformed.exponent hrest]
  simp [hformed.whole.1]

/-! ## What is read as a numeral -/

theorem areDigits_takeWhile {t : Text} (h : (t.takeWhile Text.isDigit).isEmpty = false) :
    AreDigits (t.takeWhile Text.isDigit) :=
  ⟨by simpa using h, fun _ hc => List.mem_takeWhile_imp hc⟩

theorem splitMinus_eq (t : Text) :
    t = (if (splitMinus t).1 then [45] else []) ++ (splitMinus t).2 := by
  unfold splitMinus
  split <;> rfl

theorem wholeDigits_eq (t : Text) : t = (wholeDigits t).1 ++ (wholeDigits t).2 := by
  unfold wholeDigits
  split
  · rfl
  · exact (List.takeWhile_append_dropWhile).symm

/-- The digits before the point are digits, the first of them no zero unless it stands alone. -/
theorem wholeDigits_wellFormed {t : Text} (h : (wholeDigits t).1.isEmpty = false) :
    AreDigits (wholeDigits t).1 ∧
      ((wholeDigits t).1 = [48] ∨ ∀ c ∈ (wholeDigits t).1.head?, c ≠ 48) := by
  unfold wholeDigits at h ⊢
  split
  · exact ⟨⟨by simp, by simp [Text.isDigit]⟩, .inl rfl⟩
  · rename_i hzero
    refine ⟨areDigits_takeWhile (by simpa using h), .inr ?_⟩
    rintro c hc rfl
    cases t with
    | nil => cases hc
    | cons first rest =>
        by_cases hdigit : Text.isDigit first = true
        · simp only [List.takeWhile_cons, hdigit, if_true, List.head?_cons,
            Option.mem_some_iff] at hc
          exact hzero rest (by rw [hc])
        · simp [hdigit] at hc

theorem fractionDigits_eq (t : Text) :
    t = fractionText (fractionDigits t).1 ++ (fractionDigits t).2 ∧
      ∀ digits ∈ (fractionDigits t).1, AreDigits digits := by
  unfold fractionDigits
  split
  · split
    · exact ⟨rfl, by simp⟩
    · rename_i hdigits
      refine ⟨by simp [fractionText, List.takeWhile_append_dropWhile], ?_⟩
      rintro digits ⟨⟩
      exact areDigits_takeWhile (by simpa using hdigits)
  · exact ⟨rfl, by simp⟩

/-- A sign, or none, in front of the digits of an exponent. -/
theorem splitSign_eq {mark : CodePoint} (hmark : mark = 69 ∨ mark = 101) (t : Text) :
    ∃ sign, t = sign ++ (Decimal.splitSign t).2 ∧
      ∀ digits, SpellsExponent (mark :: (sign ++ digits))
        (some ((Decimal.splitSign t).1, digits)) := by
  unfold Decimal.splitSign
  split
  · exact ⟨[45], rfl, .signed hmark true⟩
  · exact ⟨[43], rfl, .signed hmark false⟩
  · exact ⟨[], rfl, .unsigned hmark⟩

/-- What is read as an exponent is spelled at the front of the text. -/
theorem exponentDigits_eq (t : Text) :
    ∃ spelled, SpellsExponent spelled (exponentDigits t).1 ∧ t = spelled ++ (exponentDigits t).2 ∧
      ∀ signed ∈ (exponentDigits t).1, AreDigits signed.2 := by
  unfold exponentDigits
  split
  · exact ⟨[], .none, rfl, by simp⟩
  · rename_i mark rest
    split
    · rename_i hmark
      have hletter : mark = 69 ∨ mark = 101 := by simpa using hmark
      simp only
      split
      · exact ⟨[], .none, rfl, by simp⟩
      · rename_i hdigits
        have hsigned := areDigits_takeWhile (by simpa using hdigits)
        have hshown : (Decimal.splitSign rest).2 =
            (Decimal.splitSign rest).2.takeWhile Text.isDigit ++
              (Decimal.splitSign rest).2.dropWhile Text.isDigit :=
          List.takeWhile_append_dropWhile.symm
        obtain ⟨sign, hsign, hspells⟩ := splitSign_eq hletter rest
        refine ⟨_, hspells _, ?_, ?_⟩
        · simp only [List.cons_append, List.append_assoc]
          rw [← hshown, ← hsign]
        · rintro signed ⟨⟩
          exact hsigned
    · exact ⟨[], .none, rfl, by simp⟩

/-- **Whatever is read as a numeral is spelled** at the front of the text. -/
theorem exists_spelled_of_numeral? {t rest : Text} {n : Numeral}
    (h : numeral? t = some (n, rest)) : ∃ spelled, n.SpelledBy spelled ∧ t = spelled ++ rest := by
  simp only [numeral?] at h
  split at h
  · cases h
  · rename_i hwhole
    have hminus := splitMinus_eq t
    have hdigits := wholeDigits_eq (splitMinus t).2
    obtain ⟨hfraction, hfractions⟩ := fractionDigits_eq (wholeDigits (splitMinus t).2).2
    obtain ⟨spelled, hspelled, hexponent, hexponents⟩ :=
      exponentDigits_eq (fractionDigits (wholeDigits (splitMinus t).2).2).2
    obtain ⟨hareDigits, hleading⟩ := wholeDigits_wellFormed (by simpa using hwhole)
    cases h
    refine ⟨_, ⟨⟨hareDigits, hleading, hfractions, hexponents⟩, spelled, hspelled, rfl⟩, ?_⟩
    simp only [List.append_assoc]
    rw [← hexponent, ← hfraction, ← hdigits, ← hminus]

end Scanner

end JsonDecoding
