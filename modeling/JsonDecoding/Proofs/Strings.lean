import JsonDecoding.Json.Render
import JsonDecoding.Json.Scanner
import JsonDecoding.Proofs.Outcomes

/-!
# Reading strings

A string is read piece by piece as it is spelled, whatever stands around it
(`Scanner.quotedText_spelled`), and whatever is read as a string is spelled there
(`Scanner.exists_spelled_of_quotedText`). The rendered form of a string spells it
(`Scanner.spellsString_renderString`): surrogates are written as they are and stay apart, since only
halves that are both escaped are joined.
-/

namespace JsonDecoding

namespace Scanner

/-! ## Spellings -/

/-- How a code point of a string can be spelled: as it is, by a backslash and a letter, or by a
backslash and a number. -/
inductive SpellsPiece : Text → Piece → Prop where
  | plain {c : CodePoint} (hquote : c ≠ 34) (hslash : c ≠ 92) (hcontrol : ¬c < 32) :
      SpellsPiece [c] (.plain c)
  | letter {e point : CodePoint} (hpoint : simpleEscape? e = some point) :
      SpellsPiece [92, e] (.plain point)
  | number {h1 h2 h3 h4 point : CodePoint} (hpoint : hex4? h1 h2 h3 h4 = some point) :
      SpellsPiece [92, 117, h1, h2, h3, h4] (.escaped point)

/-- The spellings of pieces in order, up to the closing quote. -/
inductive SpellsPieces : Text → List Piece → Prop where
  | close : SpellsPieces [34] []
  | cons {spelled more : Text} {piece : Piece} {others : List Piece}
      (hpiece : SpellsPiece spelled piece) (hothers : SpellsPieces more others) :
      SpellsPieces (spelled ++ more) (piece :: others)

/-- A text spells a string between quotes. -/
inductive SpellsString : Text → Text → Prop where
  | quoted {spelled : Text} {parts : List Piece} (h : SpellsPieces spelled parts) :
      SpellsString (34 :: spelled) (joinPieces parts)

theorem SpellsPieces.ne_nil {spelled : Text} {parts : List Piece} (h : SpellsPieces spelled parts) :
    spelled ≠ [] := by
  cases h with
  | close => simp
  | cons hpiece => cases hpiece <;> simp

/-! ## Reading what is spelled -/

theorem pieces_quote (opening : Nat) (rest : Text) :
    pieces opening (34 :: rest) = .ok ([], rest) := by
  rw [pieces.eq_def]
  rfl

/-- **One code point is read as it is spelled.** -/
theorem pieces_spelled (opening : Nat) {spelled : Text} {piece : Piece}
    (h : SpellsPiece spelled piece) {after : Text} (hafter : after ≠ []) :
    pieces opening (spelled ++ after) = piece.before (pieces opening after) := by
  cases h with
  | plain hquote hslash hcontrol =>
      rw [List.singleton_append, pieces.eq_def]
      simp [hquote, hslash, hcontrol]
  | @letter e point hpoint =>
      -- the letter that announces a number stands for no code point
      have hletter : e ≠ 117 := by
        rintro rfl
        cases hpoint
      rw [List.cons_append, List.singleton_append, pieces.eq_def]
      simp [hletter, hpoint]
  | number hpoint =>
      have hmore : after.isEmpty = false := by simpa using hafter
      simp only [List.cons_append, List.nil_append]
      rw [pieces.eq_def]
      simp [hpoint, hmore]

theorem pieces_spelledPieces (opening : Nat) {spelled : Text} {parts : List Piece}
    (h : SpellsPieces spelled parts) (rest : Text) :
    pieces opening (spelled ++ rest) = .ok (parts, rest) := by
  induction h with
  | close => exact pieces_quote opening rest
  | cons hpiece hothers ih =>
      rw [List.append_assoc, pieces_spelled opening hpiece (by simp [hothers.ne_nil]), ih]
      rfl

/-- **A string is read as it is spelled**, its opening quote having been passed. -/
theorem quotedText_spelled {spelled : Text} {parts : List Piece} (h : SpellsPieces spelled parts)
    (rest : Text) : quotedText (spelled ++ rest) = .ok (joinPieces parts, rest) := by
  rw [quotedText, pieces_spelledPieces _ h]
  rfl

/-! ## What is read as a string -/

theorem before_ok {piece : Piece} {step : Step (List Piece)} {parts : List Piece} {rest : Text}
    (h : piece.before step = .ok (parts, rest)) :
    ∃ others, step = .ok (others, rest) ∧ parts = piece :: others := by
  obtain ⟨read, hread, heq⟩ := Outcomes.map_ok.mp h
  cases heq
  exact ⟨read.1, hread, rfl⟩

/-- Whatever is read as pieces is spelled at the front of the text. -/
theorem exists_spelled_of_pieces {opening : Nat} {t rest : Text} {parts : List Piece}
    (h : pieces opening t = .ok (parts, rest)) :
    ∃ spelled, SpellsPieces spelled parts ∧ t = spelled ++ rest := by
  -- a piece that is read first is spelled in front of what is spelled behind it
  have hfirst {spelled after : Text} {piece : Piece} {parts : List Piece}
      (hpiece : SpellsPiece spelled piece)
      (ih : ∀ {others}, pieces opening after = .ok (others, rest) →
        ∃ spelled, SpellsPieces spelled others ∧ after = spelled ++ rest)
      (h : piece.before (pieces opening after) = .ok (parts, rest)) :
      ∃ whole, SpellsPieces whole parts ∧ spelled ++ after = whole ++ rest := by
    obtain ⟨others, hothers, rfl⟩ := before_ok h
    obtain ⟨more, hmore, rfl⟩ := ih hothers
    exact ⟨spelled ++ more, .cons hpiece hmore, (List.append_assoc ..).symm⟩
  fun_induction pieces opening t generalizing parts with
  | case2 =>
      cases h
      exact ⟨[34], .close, rfl⟩
  | case4 h1 h2 h3 h4 after point _ hpoint _ ih => exact hfirst (.number hpoint) ih h
  | case7 e after _ point hpoint _ ih => exact hfirst (.letter hpoint) ih h
  | case10 c after hquote hslash hcontrol ih => exact hfirst (.plain hquote hslash hcontrol) ih h
  | _ => cases h

/-- **Whatever is read as a string is spelled** at the front of the text. -/
theorem exists_spelled_of_quotedText {t rest s : Text} (h : quotedText t = .ok (s, rest)) :
    ∃ spelled, SpellsString (34 :: spelled) s ∧ t = spelled ++ rest := by
  obtain ⟨⟨parts, _⟩, hparts, heq⟩ := Outcomes.map_ok.mp h
  cases heq
  obtain ⟨spelled, hspelled, rfl⟩ := exists_spelled_of_pieces hparts
  exact ⟨spelled, .quoted hspelled, rfl⟩

/-! ## Rendered strings -/

/-- How a code point of a rendered string comes back: control characters without a letter of their
own are escaped by number. -/
def pieceOf (c : CodePoint) : Piece :=
  if c < 32 && !([8, 9, 10, 12, 13] : Text).contains c then .escaped c else .plain c

/-- Four hexadecimal digits name the control character that they write. -/
theorem hex4?_of_lt {c : Nat} (h : c < 32) :
    ∃ h1 h2 h3 h4, Text.hex 4 c = [h1, h2, h3, h4] ∧ hex4? h1 h2 h3 h4 = some c := by
  refine ⟨_, _, _, _, rfl, ?_⟩
  revert c
  decide

/-- The form of a code point in a rendered string spells it. -/
theorem spellsPiece_escaped (c : CodePoint) : SpellsPiece (Json.escaped c) (pieceOf c) := by
  by_cases hletter : c ∈ ([34, 92, 10, 13, 9, 8, 12] : Text)
  · -- the code points that have a letter
    simp only [List.mem_cons, List.not_mem_nil, or_false] at hletter
    rcases hletter with rfl | rfl | rfl | rfl | rfl | rfl | rfl <;> exact .letter rfl
  · simp only [List.mem_cons, List.not_mem_nil, or_false, not_or] at hletter
    obtain ⟨hquote, hslash, hline, hreturn, htab, hback, hfeed⟩ := hletter
    simp only [Json.escaped, if_neg hquote, if_neg hslash, if_neg hline, if_neg hreturn,
      if_neg htab, if_neg hback, if_neg hfeed]
    by_cases hcontrol : c < 32
    · obtain ⟨h1, h2, h3, h4, hhex, hpoint⟩ := hex4?_of_lt hcontrol
      have hpiece : pieceOf c = .escaped c := by
        simp [pieceOf, hcontrol, hline, hreturn, htab, hback, hfeed]
      rw [if_pos hcontrol, hhex, hpiece]
      exact .number hpoint
    · have hpiece : pieceOf c = .plain c := by simp [pieceOf, hcontrol]
      rw [if_neg hcontrol, hpiece]
      exact .plain hquote hslash hcontrol

theorem joinPieces_escaped {c : CodePoint} (h : Text.isHighSurrogate c = false)
    (others : List Piece) : joinPieces (.escaped c :: others) = c :: joinPieces others := by
  cases others with
  | nil => simp [joinPieces]
  | cons next more => cases next <;> simp [joinPieces, h]

/-- Escapes by number stand for control characters only, so none of them is half of a pair. -/
theorem joinPieces_map_pieceOf (s : Text) : joinPieces (s.map pieceOf) = s := by
  induction s with
  | nil => rfl
  | cons c more ih =>
      rw [List.map_cons]
      by_cases hescaped : (c < 32 && !([8, 9, 10, 12, 13] : Text).contains c) = true
      · have hpiece : pieceOf c = .escaped c := if_pos hescaped
        have hhigh : Text.isHighSurrogate c = false := by
          simp only [Bool.and_eq_true, decide_eq_true_eq] at hescaped
          have hlow : ¬(0xD800 : Nat) ≤ c := Nat.not_le.mpr (Nat.lt_trans hescaped.1 (by decide))
          simp [Text.isHighSurrogate, hlow]
        rw [hpiece, joinPieces_escaped hhigh, ih]
      · have hpiece : pieceOf c = .plain c := if_neg hescaped
        rw [hpiece, joinPieces, ih]

/-- **The rendered form of a string spells it.** -/
theorem spellsString_renderString (s : Text) : SpellsString (Json.renderString s) s := by
  have hpieces : SpellsPieces (s.flatMap Json.escaped ++ [34]) (s.map pieceOf) := by
    induction s with
    | nil => exact .close
    | cons c more ih =>
        rw [List.flatMap_cons, List.append_assoc]
        exact .cons (spellsPiece_escaped c) ih
  have hspelled := SpellsString.quoted hpieces
  rwa [joinPieces_map_pieceOf] at hspelled

end Scanner

end JsonDecoding
