import JsonDecoding.Json.Render
import JsonDecoding.Location
import JsonDecoding.Proofs.Numerals
import JsonDecoding.Proofs.Subspecs

/-!
# Lines

How many lines a text has. The compact text of a value is one line, whatever is in its strings and
keys (`Json.oneLine_render`), and so is the quoted form of a path (`Location.oneLine_shownPath`). A
description breaks a line only where the name of an identity does (`Spec.oneLine_describe`).
-/

namespace JsonDecoding

namespace Text

/-- How many line breaks a text has. -/
def breaks (t : Text) : Nat := t.count 10

/-- A text without line breaks. -/
def OneLine (t : Text) : Prop := t.breaks = 0

/-- How many lines a text has. -/
def lineCount (t : Text) : Nat := t.breaks + 1

@[simp] theorem breaks_nil : breaks [] = 0 := rfl

@[simp] theorem breaks_append (t u : Text) : (t ++ u).breaks = t.breaks + u.breaks :=
  List.count_append

theorem oneLine_iff {t : Text} : t.OneLine ↔ 10 ∉ t := List.count_eq_zero

theorem oneLine_append {t u : Text} : (t ++ u).OneLine ↔ t.OneLine ∧ u.OneLine := by
  simp [OneLine]

theorem oneLine_cons {c : CodePoint} {t : Text} : OneLine (c :: t) ↔ c ≠ 10 ∧ t.OneLine := by
  simp [oneLine_iff, eq_comm]

theorem oneLine_flatMap {f : CodePoint → Text} {t : Text} (h : ∀ c ∈ t, (f c).OneLine) :
    OneLine (t.flatMap f) := by
  simp only [oneLine_iff, List.mem_flatMap, not_exists, not_and] at h ⊢
  exact h

/-- Joined texts have the line breaks of all of them and of the separators. -/
theorem breaks_joined (separator : Text) (texts : List Text) :
    (joined separator texts).breaks =
      (texts.map breaks).sum + (texts.length - 1) * separator.breaks := by
  induction texts with
  | nil => simp [joined]
  | cons first rest ih =>
      cases rest with
      | nil => simp [joined]
      | cons second more =>
          simp only [joined, breaks_append, ih, List.map_cons, List.sum_cons, List.length_cons,
            Nat.add_sub_cancel, Nat.succ_mul]
          omega

/-- Texts joined on one line have the line breaks of all of them. -/
theorem breaks_joined_of_oneLine (separator : Text) (h : separator.OneLine) (texts : List Text) :
    (joined separator texts).breaks = (texts.map breaks).sum := by
  rw [breaks_joined, h, Nat.mul_zero, Nat.add_zero]

theorem oneLine_joined (separator : Text) (h : separator.OneLine) {texts : List Text}
    (htexts : ∀ t ∈ texts, t.OneLine) : (joined separator texts).OneLine := by
  rw [OneLine, breaks_joined_of_oneLine separator h, List.sum_eq_zero_iff_forall_eq_nat]
  exact List.forall_mem_map.mpr htexts

/-- The beginning of a line is a line. -/
theorem OneLine.clip {t : Text} (h : t.OneLine) : t.clip.OneLine := by
  unfold Text.clip
  split
  · exact h
  · rw [oneLine_append, oneLine_iff]
    exact ⟨fun hmem => oneLine_iff.mp h (List.mem_of_mem_take hmem), rfl⟩

/-! ## Digits and quotes -/

theorem oneLine_ofNat (n : Nat) : (ofNat n).OneLine := by
  refine oneLine_iff.mpr fun hmem => ?_
  have hdigit := isDigit_of_mem_ofNat hmem
  simp [isDigit] at hdigit

theorem oneLine_ofInt (i : Int) : (ofInt i).OneLine := by
  cases i with
  | ofNat n => exact oneLine_ofNat n
  | negSucc n => exact oneLine_cons.mpr ⟨by decide, oneLine_ofNat _⟩

theorem oneLine_hex (width n : Nat) : (hex width n).OneLine := by
  induction width generalizing n with
  | zero => rfl
  | succ width ih =>
      refine oneLine_append.mpr ⟨ih _, ?_⟩
      have hdigit : 48 ≤ hexDigit (n % 16) := by
        unfold hexDigit
        split <;> exact Nat.le_add_right_of_le (by decide)
      exact oneLine_cons.mpr ⟨fun hbreak => absurd (hbreak ▸ hdigit) (by decide), rfl⟩

theorem quoteFor_ne (t : Text) : quoteFor t ≠ 10 := by
  unfold quoteFor
  split <;> decide

/-- Between quotes a line break is written as an escape. -/
theorem oneLine_quotedPoint {quote : CodePoint} (hquote : quote ≠ 10) (c : CodePoint) :
    (quotedPoint quote c).OneLine := by
  unfold quotedPoint
  split
  · next hc =>
      have hbreak : c ≠ 10 := by
        rintro rfl
        simp [hquote.symm] at hc
      exact oneLine_cons.mpr ⟨by decide, oneLine_cons.mpr ⟨hbreak, rfl⟩⟩
  · split
    · rfl
    · split
      · rfl
      · next hbreak =>
          split
          · rfl
          · split
            · exact oneLine_cons.mpr ⟨hbreak, rfl⟩
            · split
              · exact oneLine_append.mpr ⟨rfl, oneLine_hex _ _⟩
              · split <;> exact oneLine_append.mpr ⟨rfl, oneLine_hex _ _⟩

/-- **A quoted text is one line.** -/
theorem oneLine_quoted (t : Text) : (quoted t).OneLine := by
  have hquote : OneLine [quoteFor t] := oneLine_cons.mpr ⟨quoteFor_ne t, rfl⟩
  refine oneLine_append.mpr ⟨oneLine_append.mpr ⟨hquote, ?_⟩, hquote⟩
  exact oneLine_flatMap fun c _ => oneLine_quotedPoint (quoteFor_ne t) c

end Text

open Text

/-! ## Numbers -/

namespace Binary64

theorem oneLine_positional {digits : Text} (h : digits.OneLine) (point : Int) :
    (positional digits point).OneLine := by
  have hzeros (count : Nat) : OneLine (List.replicate count 48) := by simp [oneLine_iff]
  unfold positional
  split
  · exact oneLine_append.mpr ⟨oneLine_append.mpr ⟨rfl, hzeros _⟩, h⟩
  · split
    · exact oneLine_append.mpr ⟨oneLine_append.mpr ⟨h, hzeros _⟩, rfl⟩
    · rw [oneLine_iff] at h
      refine oneLine_append.mpr ⟨?_, oneLine_cons.mpr ⟨by decide, ?_⟩⟩
      · exact oneLine_iff.mpr fun hmem => h (List.mem_of_mem_take hmem)
      · exact oneLine_iff.mpr fun hmem => h (List.mem_of_mem_drop hmem)

theorem oneLine_scientificExponent (e : Int) : (scientificExponent e).OneLine := by
  unfold scientificExponent
  refine oneLine_cons.mpr ⟨by split <;> decide, ?_⟩
  split
  · exact oneLine_cons.mpr ⟨by decide, oneLine_ofNat _⟩
  · exact oneLine_ofNat _

theorem oneLine_scientific {digits : Text} (h : digits.OneLine) (e : Int) :
    (scientific digits e).OneLine := by
  refine oneLine_append.mpr ⟨?_, oneLine_cons.mpr ⟨by decide, oneLine_scientificExponent e⟩⟩
  split
  · rw [oneLine_cons, oneLine_cons] at h ⊢
    exact ⟨h.1, by decide, oneLine_cons.mpr h.2⟩
  · exact h

theorem oneLine_decimalText (d : Decimal) : (decimalText d).OneLine := by
  have hbody : OneLine (if -4 ≤ d.adjusted && d.adjusted < 16
      then positional (Text.ofNat d.coefficient) (d.adjusted + 1)
      else scientific (Text.ofNat d.coefficient) d.adjusted) := by
    split
    · exact oneLine_positional (oneLine_ofNat _) _
    · exact oneLine_scientific (oneLine_ofNat _) _
  simp only [decimalText]
  split
  · exact oneLine_cons.mpr ⟨by decide, hbody⟩
  · exact hbody

theorem oneLine_textWith {infinity nan : Text} (x : Binary64) (hinfinity : infinity.OneLine)
    (hnan : nan.OneLine) : (textWith infinity nan x).OneLine := by
  unfold textWith
  split
  · exact hnan
  · split
    · exact oneLine_cons.mpr ⟨by decide, hinfinity⟩
    · exact hinfinity
  · simp only
    split
    · split <;> rfl
    · exact oneLine_decimalText _

end Binary64

/-! ## Values -/

namespace Json

/-- Inside a string a line break is written as an escape. -/
theorem oneLine_escaped (c : CodePoint) : (escaped c).OneLine := by
  unfold escaped
  by_cases hbreak : c = 10
  · subst hbreak
    rfl
  · repeat' split
    all_goals first
      | rfl
      | exact oneLine_append.mpr ⟨rfl, oneLine_hex _ _⟩
      | exact oneLine_cons.mpr ⟨hbreak, rfl⟩

theorem oneLine_renderString (s : Text) : (renderString s).OneLine := by
  refine oneLine_cons.mpr ⟨by decide, oneLine_append.mpr ⟨?_, rfl⟩⟩
  exact oneLine_flatMap fun c _ => oneLine_escaped c

theorem oneLine_renderNumber (n : Number) : (renderNumber n).OneLine := by
  cases n with
  | int i => exact oneLine_ofInt i
  | float x => exact Binary64.oneLine_textWith x rfl rfl

mutual

/-- **The compact text of a value is one line.** -/
theorem oneLine_render (value : Json) : value.render.OneLine := by
  cases value with
  | null => rfl
  | boolean b => cases b <;> rfl
  | number n => exact oneLine_renderNumber n
  | string s => exact oneLine_renderString s
  | array items =>
      have hitems := oneLine_joined [44] rfl (oneLine_renderItems items)
      exact oneLine_cons.mpr ⟨by decide, oneLine_append.mpr ⟨hitems, rfl⟩⟩
  | object fields =>
      have hfields := oneLine_joined [44] rfl (oneLine_renderFields fields)
      exact oneLine_cons.mpr ⟨by decide, oneLine_append.mpr ⟨hfields, rfl⟩⟩

theorem oneLine_renderItems (items : List Json) : ∀ t ∈ renderItems items, t.OneLine := by
  cases items with
  | nil => simp [renderItems]
  | cons item rest =>
      simpa [renderItems] using ⟨oneLine_render item, oneLine_renderItems rest⟩

theorem oneLine_renderFields (fields : List (Text × Json)) :
    ∀ t ∈ renderFields fields, t.OneLine := by
  cases fields with
  | nil => simp [renderFields]
  | cons field rest =>
      obtain ⟨key, value⟩ := field
      have hfield : (renderString key ++ 58 :: render value).OneLine :=
        oneLine_append.mpr ⟨oneLine_renderString key,
          oneLine_cons.mpr ⟨by decide, oneLine_render value⟩⟩
      simpa [renderFields] using ⟨hfield, oneLine_renderFields rest⟩

end

theorem oneLine_seen (value : Json) : value.seen.OneLine := (oneLine_render value).clip

theorem oneLine_tagName (tag : Tag) : tag.name.OneLine := by cases tag <;> rfl

end Json

/-! ## Locations -/

namespace Location

/-- How many line breaks the key at a location has. -/
def breaks : Location → Nat
  | .key name => name.breaks
  | .index _ => 0

/-- The words for a location show its key as it is. -/
theorem breaks_words (location : Location) : location.words.breaks = location.breaks := by
  cases location with
  | key name =>
      simp only [words, breaks_append, breaks]
      exact Nat.zero_add _
  | index position =>
      have hposition : (ofInt position).breaks = 0 := oneLine_ofInt position
      simp only [words, breaks_append, breaks, hposition]
      rfl

/-- **A path in reports is one line**: its keys are quoted. -/
theorem oneLine_shownPath (path : List Location) : (shownPath path).OneLine := by
  have hitems : ∀ t ∈ Data.shownItems (path.map toData), t.OneLine := by
    induction path with
    | nil => simp [Data.shownItems]
    | cons location rest ih =>
        have hfirst : location.toData.shown.OneLine := by
          cases location with
          | key name => exact oneLine_quoted name
          | index position => exact oneLine_ofInt position
        simpa [Data.shownItems] using ⟨hfirst, ih⟩
  simp only [shownPath, Data.shown, Data.shownTuple]
  generalize Data.shownItems (path.map toData) = items at hitems
  split
  · exact oneLine_append.mpr ⟨oneLine_append.mpr ⟨rfl, hitems _ (by simp)⟩, rfl⟩
  · have hjoined := oneLine_joined (Text.lit ", ") rfl hitems
    exact oneLine_append.mpr ⟨oneLine_append.mpr ⟨rfl, hjoined⟩, rfl⟩

end Location

/-! ## Descriptions -/

namespace Spec

/-- The names of all identities that a specification shows are of one line. -/
def NamedInLine (spec : Spec) : Prop :=
  spec.Every fun
    | .custom identity _ => identity.identityName.OneLine
    | hint => hint.identityName.OneLine

theorem NamedInLine.desugar {spec : Spec} (h : spec.NamedInLine) : spec.desugar.NamedInLine := by
  cases spec with
  | bareArray | bareObject => exact ⟨rfl, rfl⟩
  | _ => exact h

mutual

/-- **A description is one line** where the names in it are. -/
theorem oneLine_describe {spec : Spec} (h : spec.NamedInLine) : spec.describe.OneLine := by
  cases spec with
  | primitive kind => cases kind <;> rfl
  | bareArray | bareObject => rfl
  | arrayOf element | objectOf element | setOf element =>
      unfold describe
      split
      · rfl
      · exact oneLine_append.mpr ⟨rfl, oneLine_describe h.2⟩
  | mapOf key content =>
      have hkey := oneLine_describe h.2.1
      have hcontent := oneLine_describe h.2.2
      exact oneLine_append.mpr
        ⟨oneLine_append.mpr ⟨oneLine_append.mpr ⟨rfl, hkey⟩, rfl⟩, hcontent⟩
  | tupleOf specs =>
      have hspecs := oneLine_joined (Text.lit ", ") rfl (oneLine_describeAll h.2)
      exact oneLine_append.mpr ⟨oneLine_append.mpr ⟨rfl, hspecs⟩, rfl⟩
  | anyOf specs =>
      cases specs with
      | nil => rfl
      | cons first rest =>
          exact oneLine_joined (Text.lit " or ") rfl (oneLine_describeAll h.2)
  | custom identity arguments =>
      cases arguments with
      | nil => exact h.1
      | cons first rest =>
          have hspecs := oneLine_joined (Text.lit ", ") rfl (oneLine_describeAll h.2)
          exact oneLine_append.mpr ⟨oneLine_append.mpr ⟨h.1, rfl⟩, hspecs⟩
  | _ => exact h

theorem oneLine_describeAll {specs : List Spec}
    (h : EveryAmong (fun
      | .custom identity _ => identity.identityName.OneLine
      | hint => hint.identityName.OneLine) specs) :
    ∀ t ∈ describeAll specs, t.OneLine := by
  cases specs with
  | nil => simp [describeAll]
  | cons spec rest =>
      simpa [describeAll] using ⟨oneLine_describe h.1, oneLine_describeAll h.2⟩

end

end Spec

end JsonDecoding
