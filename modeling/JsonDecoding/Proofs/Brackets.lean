import Mathlib
import JsonDecoding.Proofs.Texts

/-!
# Brackets that are open at once

How many brackets and braces are open at a point of a text is counted on the text alone
(`Text.openBrackets`): those in strings do not count. In a JSON text the most that are open at once
is the depth of its source (`Source.counts_text`), so the depth limit of a reader is a limit on the
text, members that are replaced being left out (`Input.nesting_of_text`).
-/

namespace JsonDecoding

/-! ## Counting brackets -/

/-- Where in a text a count of brackets stands: outside of strings, in one, or behind a backslash in
one. -/
inductive Place where
  | outside
  | quoted
  | escaped
deriving DecidableEq

/-- How many brackets are open, and where the count stands. -/
structure Count where
  opened : Nat
  place : Place
deriving DecidableEq

namespace Count

/-- The count behind one more code point. -/
def step (count : Count) (c : CodePoint) : Count :=
  match count.place with
  | .outside =>
      if c = 34 then ⟨count.opened, .quoted⟩
      else if c = 91 || c = 123 then ⟨count.opened + 1, .outside⟩
      else if c = 93 || c = 125 then ⟨count.opened - 1, .outside⟩
      else count
  | .quoted =>
      if c = 34 then ⟨count.opened, .outside⟩
      else if c = 92 then ⟨count.opened, .escaped⟩
      else count
  | .escaped => ⟨count.opened, .quoted⟩

/-- The count behind a text. -/
def after (count : Count) (t : Text) : Count := t.foldl step count

/-- The most brackets that are open at any point of a text. -/
def peak (count : Count) : Text → Nat
  | [] => count.opened
  | c :: rest => max count.opened (peak (count.step c) rest)

theorem after_append (count : Count) (a b : Text) :
    count.after (a ++ b) = (count.after a).after b := List.foldl_append

theorem opened_le_peak (count : Count) (t : Text) : count.opened ≤ count.peak t := by
  cases t with
  | nil => exact le_rfl
  | cons c rest => exact Nat.le_max_left _ _

theorem peak_append (count : Count) (a b : Text) :
    count.peak (a ++ b) = max (count.peak a) ((count.after a).peak b) := by
  induction a generalizing count with
  | nil => exact (Nat.max_eq_right (opened_le_peak count b)).symm
  | cons c rest ih =>
      rw [List.cons_append, peak, peak, ih, Nat.max_assoc]
      rfl

/-- The peak is reached at some point, and no other point lies above it. -/
theorem lt_peak_iff {count : Count} {t : Text} {k : Nat} :
    k < count.peak t ↔ ∃ front, front <+: t ∧ k < (count.after front).opened := by
  induction t generalizing count with
  | nil => simp [peak, after]
  | cons c rest ih =>
      rw [peak, lt_max_iff, ih]
      constructor
      · rintro (h | ⟨front, hfront, h⟩)
        · exact ⟨[], List.nil_prefix, h⟩
        · exact ⟨c :: front, List.cons_prefix_cons.mpr ⟨rfl, hfront⟩, h⟩
      · rintro ⟨front, hfront, h⟩
        cases front with
        | nil => exact .inl h
        | cons other more =>
            obtain ⟨rfl, hmore⟩ := List.cons_prefix_cons.mp hfront
            exact .inr ⟨more, hmore, h⟩

end Count

/-- How many brackets and braces are open at the end of a text. -/
def Text.openBrackets (t : Text) : Nat := ((Count.mk 0 .outside).after t).opened

/-- At some point of a text a bracket is open, and more of them are than a limit allows. -/
def Text.OpensBeyond (limit : Int) (t : Text) : Prop :=
  ∃ front, front <+: t ∧ 0 < Text.openBrackets front ∧ limit < Text.openBrackets front

theorem Text.opensBeyond_iff {limit : Int} {t : Text} :
    Text.OpensBeyond limit t ↔ limit.toNat < (Count.mk 0 .outside).peak t := by
  rw [Count.lt_peak_iff]
  -- a negative limit is exceeded from the first bracket on, as is the limit zero
  refine exists_congr fun front => and_congr_right fun _ => ?_
  simp only [Text.openBrackets]
  omega

/-! ## JSON texts -/

/-- The code points that change a count outside of strings: quotes and brackets. -/
def marks : Text := [34, 91, 93, 123, 125]

/-- Counting over a text that stands inside `level` brackets ends where it began, `depth` brackets
higher at most. -/
structure Counts (level : Nat) (t : Text) (depth : Nat) : Prop where
  after : (Count.mk level .outside).after t = ⟨level, .outside⟩
  peak : (Count.mk level .outside).peak t = level + depth

namespace Counts

variable {level depth other : Nat} {t u : Text}

theorem nil (level : Nat) : Counts level [] 0 := ⟨rfl, rfl⟩

theorem append (ht : Counts level t depth) (hu : Counts level u other) :
    Counts level (t ++ u) (max depth other) where
  after := by rw [Count.after_append, ht.after, hu.after]
  peak := by rw [Count.peak_append, ht.peak, ht.after, hu.peak]; omega

/-- A code point that is neither a quote nor a bracket changes nothing. -/
theorem cons {c : CodePoint} (hc : c ∉ marks)
    (ht : Counts level t depth) : Counts level (c :: t) depth := by
  simp only [marks, List.mem_cons, List.not_mem_nil, or_false, not_or] at hc
  have hstep : (Count.mk level .outside).step c = ⟨level, .outside⟩ := by
    simp [Count.step, hc]
  constructor
  · rw [Count.after, List.foldl_cons, hstep]
    exact ht.after
  · rw [Count.peak, hstep, ht.peak]
    exact Nat.max_eq_right (Nat.le_add_right _ _)

theorem of_forall (h : ∀ c ∈ t, c ∉ marks) : Counts level t 0 := by
  induction t with
  | nil => exact nil level
  | cons c rest ih =>
      exact (ih fun other hmem => h other (List.mem_cons_of_mem _ hmem)).cons
        (h c (List.mem_cons_self ..))

/-- What stands between brackets is one bracket higher. -/
theorem bracketed (opening closing : CodePoint) (hopening : opening = 91 ∨ opening = 123)
    (hclosing : closing = 93 ∨ closing = 125) (ht : Counts (level + 1) t depth) :
    Counts level (opening :: (t ++ [closing])) (depth + 1) := by
  have hopen : (Count.mk level .outside).step opening = ⟨level + 1, .outside⟩ := by
    rcases hopening with rfl | rfl <;> rfl
  have hclose : (Count.mk (level + 1) .outside).step closing = ⟨level, .outside⟩ := by
    rcases hclosing with rfl | rfl <;> rfl
  constructor
  · rw [Count.after, List.foldl_cons, hopen]
    show (Count.mk (level + 1) .outside).after (t ++ [closing]) = _
    rw [Count.after_append, ht.after]
    exact hclose
  · rw [Count.peak, hopen, Count.peak_append, ht.peak, ht.after, Count.peak, Count.peak, hclose]
    show max level (max (level + 1 + depth) (max (level + 1) level)) = level + (depth + 1)
    omega

end Counts

/-! ## Scalars and blanks -/

/-- Counting over a part of a string changes nothing. -/
structure CountsQuoted (level : Nat) (t : Text) : Prop where
  after : (Count.mk level .quoted).after t = ⟨level, .quoted⟩
  peak : (Count.mk level .quoted).peak t = level

theorem CountsQuoted.of_forall {level : Nat} {t : Text} (h : ∀ c ∈ t, c ≠ 34 ∧ c ≠ 92) :
    CountsQuoted level t := by
  induction t with
  | nil => exact ⟨rfl, rfl⟩
  | cons c rest ih =>
      obtain ⟨hafter, hpeak⟩ := ih fun other hmem => h other (List.mem_cons_of_mem _ hmem)
      have hc := h c (List.mem_cons_self ..)
      have hstep : (Count.mk level .quoted).step c = ⟨level, .quoted⟩ := by
        simp [Count.step, hc.1, hc.2]
      constructor
      · rw [Count.after, List.foldl_cons, hstep]
        exact hafter
      · rw [Count.peak, hstep, hpeak]
        exact Nat.max_self _

/-- What is behind a backslash does not end a string. -/
theorem CountsQuoted.escape {level : Nat} {t : Text} (e : CodePoint) (h : CountsQuoted level t) :
    CountsQuoted level (92 :: e :: t) where
  after := h.after
  peak := by
    have hescape : (Count.mk level .quoted).step 92 = ⟨level, .escaped⟩ := rfl
    have hquoted : (Count.mk level .escaped).step e = ⟨level, .quoted⟩ := rfl
    rw [Count.peak, hescape, Count.peak, hquoted, h.peak]
    show max level (max level level) = level
    omega

namespace Scanner

theorem ne_of_hex4? {h1 h2 h3 h4 point : CodePoint} (h : hex4? h1 h2 h3 h4 = some point) :
    ∀ c ∈ ([h1, h2, h3, h4] : Text), c ≠ 34 ∧ c ≠ 92 := by
  simp only [hex4?, Option.bind_eq_bind, Option.bind_eq_some_iff] at h
  obtain ⟨v1, hv1, v2, hv2, v3, hv3, v4, hv4, -⟩ := h
  have hne {c v : CodePoint} (hv : Text.hexValue? c = some v) : c ≠ 34 ∧ c ≠ 92 := by
    constructor <;> rintro rfl <;> cases hv
  simp only [List.mem_cons, List.not_mem_nil, or_false]
  rintro c (rfl | rfl | rfl | rfl)
  · exact hne hv1
  · exact hne hv2
  · exact hne hv3
  · exact hne hv4

theorem SpellsPiece.counts {spelled : Text} {piece : Piece} (h : SpellsPiece spelled piece)
    (level : Nat) : CountsQuoted level spelled := by
  cases h with
  | plain hquote hslash => exact .of_forall (by simpa using ⟨hquote, hslash⟩)
  | letter => exact .escape _ ⟨rfl, rfl⟩
  | number hpoint => exact .escape _ (.of_forall (ne_of_hex4? hpoint))

theorem SpellsPieces.counts {spelled : Text} {parts : List Piece} (h : SpellsPieces spelled parts)
    (level : Nat) :
    (Count.mk level .quoted).after spelled = ⟨level, .outside⟩ ∧
      (Count.mk level .quoted).peak spelled = level := by
  induction h with
  | close => exact ⟨rfl, Nat.max_self _⟩
  | cons hpiece hothers ih =>
      obtain ⟨hafter, hpeak⟩ := hpiece.counts level
      constructor
      · rw [Count.after_append, hafter, ih.1]
      · rw [Count.peak_append, hafter, hpeak, ih.2]
        exact Nat.max_self _

/-- Brackets in a string do not count. -/
theorem SpellsString.counts {written s : Text} (h : SpellsString written s) (level : Nat) :
    Counts level written 0 := by
  obtain ⟨hpieces⟩ := h
  obtain ⟨hafter, hpeak⟩ := hpieces.counts level
  have hstep : (Count.mk level .outside).step 34 = ⟨level, .quoted⟩ := rfl
  constructor
  · rw [Count.after, List.foldl_cons, hstep]
    exact hafter
  · rw [Count.peak, hstep, hpeak]
    exact Nat.max_self _

theorem notMem_marks_of_isSpace {c : CodePoint} (h : isSpace c = true) : c ∉ marks := by
  intro hmark
  simp only [marks, List.mem_cons, List.not_mem_nil, or_false] at hmark
  rcases hmark with rfl | rfl | rfl | rfl | rfl <;> cases h

theorem notMem_marks_of_isDigit {c : CodePoint} (h : Text.isDigit c = true) : c ∉ marks := by
  intro hmark
  simp only [marks, List.mem_cons, List.not_mem_nil, or_false] at hmark
  rcases hmark with rfl | rfl | rfl | rfl | rfl <;> cases h

theorem AreBlanks.counts {t : Text} (h : AreBlanks t) (level : Nat) : Counts level t 0 :=
  .of_forall fun c hc => notMem_marks_of_isSpace (h c hc)

theorem Numeral.AreDigits.counts {t : Text} (h : Numeral.AreDigits t) (level : Nat) :
    Counts level t 0 :=
  .of_forall fun c hc => notMem_marks_of_isDigit (h.2 c hc)

theorem Numeral.SpelledBy.counts {n : Numeral} {written : Text} (h : n.SpelledBy written)
    (level : Nat) : Counts level written 0 := by
  obtain ⟨negative, whole, fraction, exponent⟩ := n
  obtain ⟨hformed, spelled, hspelled, rfl⟩ := h
  have hminus : Counts level (if negative then [45] else []) 0 := by
    cases negative with
    | true => exact .cons (by decide) (.nil level)
    | false => exact .nil level
  have hfraction : Counts level (Numeral.fractionText fraction) 0 := by
    cases fraction with
    | none => exact .nil level
    | some digits => exact .cons (by decide) ((hformed.fraction digits rfl).counts level)
  have hexponent : Counts level spelled 0 := by
    cases hspelled with
    | none => exact .nil level
    | signed hmark negative digits =>
        have hdigits := (hformed.exponent _ rfl).counts level
        refine .cons (by rcases hmark with rfl | rfl <;> decide) (.cons ?_ hdigits)
        cases negative <;> decide
    | unsigned hmark digits =>
        have hdigits := (hformed.exponent _ rfl).counts level
        exact .cons (by rcases hmark with rfl | rfl <;> decide) hdigits
  exact hminus.append ((hformed.whole.counts level).append (hfraction.append hexponent))

theorem SpellsScalar.counts {written : Text} {outcome : Except Fault Json}
    (h : SpellsScalar written outcome) (level : Nat) : Counts level written 0 := by
  cases h with
  | word hword =>
      have hunmarked : ∀ word ∈ words, ∀ c ∈ word.1, c ∉ marks := by decide
      exact .of_forall (hunmarked _ hword)
  | numeral hnumeral => exact hnumeral.counts level
  | quoted hstring => exact hstring.counts level

end Scanner

/-! ## Sources -/

namespace Spaced

variable {α : Type}

/-- The same blanks around something else. -/
def map {β : Type} (f : α → β) (part : Spaced α) : Spaced β :=
  ⟨part.before, f part.content, part.after⟩

theorem counts_text {form : α → Text} {level depth : Nat} {part : Spaced α}
    (hpart : part.Holds fun content => Counts level (form content) depth) :
    Counts level (part.text form) depth := by
  have hcounts := (hpart.before.counts level).append
    (hpart.content.append (hpart.after.counts level))
  rwa [Nat.zero_max, Nat.max_zero] at hcounts

end Spaced

namespace Source

mutual

/-- **In a JSON text no more brackets are open at once than its source is deep**, and so many
are. -/
theorem counts_text {source : Source} (h : source.Valid) (level : Nat) :
    Counts level source.text source.depth := by
  cases source with
  | scalar written outcome => exact Scanner.SpellsScalar.counts h level
  | array blank items =>
      have hitems := (h.1.counts (level + 1)).append (counts_items h.2 (level + 1))
      rw [Nat.zero_max] at hitems
      -- one level further in, the level that the bracket adds
      have hbracketed := hitems.bracketed 91 93 (.inl rfl) (.inl rfl)
      rwa [List.append_assoc] at hbracketed
  | object blank members =>
      have hmembers := (h.1.counts (level + 1)).append (counts_members h.2 (level + 1))
      rw [Nat.zero_max] at hmembers
      have hbracketed := hmembers.bracketed 123 125 (.inr rfl) (.inr rfl)
      rwa [List.append_assoc] at hbracketed

theorem counts_items {items : List (Spaced Source)} (h : ValidItems items) (level : Nat) :
    Counts level (Text.joined [44] (textItems items)) (depthItems items) := by
  cases items with
  | nil => exact .nil level
  | cons item rest =>
      obtain ⟨⟨hbefore, hsource, hafter⟩, hrest⟩ := h
      have hitem : Counts level (item.text text) item.content.depth :=
        Spaced.counts_text ⟨hbefore, counts_text hsource level, hafter⟩
      have hothers := counts_items hrest level
      cases rest with
      | nil => simpa [textItems, Text.joined, depthItems, Spaced.text] using hitem
      | cons next others =>
          have hcomma : Counts level [44] 0 := .of_forall (by decide)
          have hall := (hitem.append hcomma).append hothers
          simpa [textItems, Text.joined, depthItems, Spaced.text] using hall

theorem counts_members {members : List (Spaced Label × Spaced Source)} (h : ValidMembers members)
    (level : Nat) :
    Counts level (Text.joined [44] (textMembers members)) (depthMembers members) := by
  cases members with
  | nil => exact .nil level
  | cons member rest =>
      obtain ⟨hkey, ⟨hbefore, hsource, hafter⟩, hrest⟩ := h
      have hlabel : Counts level (member.1.text Label.written) 0 :=
        Spaced.counts_text ⟨hkey.before, hkey.content.counts level, hkey.after⟩
      have hvalue : Counts level (member.2.text text) member.2.content.depth :=
        Spaced.counts_text ⟨hbefore, counts_text hsource level, hafter⟩
      have hcolon : Counts level (58 :: member.2.text text) member.2.content.depth :=
        hvalue.cons (by decide)
      have hmember := hlabel.append hcolon
      have hothers := counts_members hrest level
      cases rest with
      | nil => simpa [textMembers, Text.joined, depthMembers, Spaced.text] using hmember
      | cons next others =>
          have hcomma : Counts level [44] 0 := .of_forall (by decide)
          have hall := (hmember.append hcomma).append hothers
          simpa [textMembers, Text.joined, depthMembers, Spaced.text] using hall

end

/-! ## Texts in which nothing is replaced -/

mutual

/-- No object of a text has a key twice. -/
def LabelsDistinct : Source → Prop
  | .scalar .. => True
  | .array _ items => LabelsDistinctItems items
  | .object _ members => (labels members).Nodup ∧ LabelsDistinctMembers members

/-- No object among items has a key twice. -/
def LabelsDistinctItems : List (Spaced Source) → Prop
  | [] => True
  | ⟨_, source, _⟩ :: rest => LabelsDistinct source ∧ LabelsDistinctItems rest

/-- No object among the values of members has a key twice. -/
def LabelsDistinctMembers : List (Spaced Label × Spaced Source) → Prop
  | [] => True
  | (_, ⟨_, source, _⟩) :: rest => LabelsDistinct source ∧ LabelsDistinctMembers rest

end

mutual

/-- Where no key comes twice, nothing is struck out. -/
theorem struck_eq {source : Source} (h : source.LabelsDistinct) : source.struck = source := by
  cases source with
  | scalar => rfl
  | array blank items => rw [struck, struckItems_eq h]
  | object blank members => rw [struck, struckMembers_eq h.1 h.2]

theorem struckItems_eq {items : List (Spaced Source)} (h : LabelsDistinctItems items) :
    struckItems items = items := by
  cases items with
  | nil => rfl
  | cons item rest => rw [struckItems, struck_eq h.1, struckItems_eq h.2]

theorem struckMembers_eq {members : List (Spaced Label × Spaced Source)}
    (hlabels : (labels members).Nodup) (h : LabelsDistinctMembers members) :
    struckMembers members = members := by
  cases members with
  | nil => rfl
  | cons member rest =>
      obtain ⟨hlabel, hrest⟩ := List.nodup_cons.mp hlabels
      have hlast : member.1.content.name ∉ labels rest := hlabel
      rw [struckMembers, if_neg hlast, struck_eq h.1, struckMembers_eq hrest h.2]

end

end Source

/-! ## The depth limit -/

/-- A text opens brackets beyond a limit exactly when its source is deeper. -/
theorem Spaced.opensBeyond_iff {whole : Spaced Source} (h : whole.Holds Source.Valid)
    {limit : Int} :
    Text.OpensBeyond limit (whole.text Source.text) ↔ limit.toNat < whole.content.depth := by
  have hcounts : Counts 0 (whole.text Source.text) whole.content.depth :=
    Spaced.counts_text ⟨h.before, Source.counts_text h.content 0, h.after⟩
  rw [Text.opensBeyond_iff, hcounts.peak, Nat.zero_add]

/-- **The depth limit is a limit on the text.** A JSON text that stands for a value is read as that
value, unless at some point brackets are open at once and more of them than the limit allows, where
members that a later one with the same key replaces are left out; then the nesting is told. Where
no key comes twice, nothing is left out. The most brackets that any reader can open are not
exceeded. -/
theorem Input.nesting_of_text {input : Input} {whole : Spaced Source} {value : Json} (limit : Int)
    (ht : input.text? = some (whole.text Source.text)) (hvalid : whole.Holds Source.Valid)
    (hvalue : whole.content.value = .ok value)
    (hdepth : ¬Text.OpensBeyond Scanner.nestingLimit (whole.text Source.text)) :
    ((∃ e, (input.read limit).result = .error (.invalid e)) ↔
      Text.OpensBeyond limit ((whole.map Source.struck).text Source.text)) ∧
    (Text.OpensBeyond limit ((whole.map Source.struck).text Source.text) →
      (input.read limit).result = .error (.invalid (.nesting limit))) ∧
    (¬Text.OpensBeyond limit ((whole.map Source.struck).text Source.text) →
      (input.read limit).result = .ok value) ∧
    (whole.content.LabelsDistinct → whole.map Source.struck = whole) := by
  rw [Spaced.opensBeyond_iff hvalid] at hdepth
  have hstruck : (whole.map Source.struck).Holds Source.Valid :=
    ⟨hvalid.before, Source.valid_struck hvalid.content, hvalid.after⟩
  -- the depth of the value is the link: the reader counts it, and the struck text has it
  have hbeyond : Text.OpensBeyond limit ((whole.map Source.struck).text Source.text) ↔
      0 < value.depth ∧ limit < value.depth := by
    rw [Spaced.opensBeyond_iff hstruck, ← Source.depth_struck hvalid.content hvalue]
    simp only [Spaced.map]
    omega
  have hread := Reader.readText_source limit hvalid (by omega) hvalue
  rw [← read_of_text? ht] at hread
  rw [hbeyond, hread]
  refine ⟨?_, fun h => if_pos h, fun h => if_neg h, fun h => ?_⟩
  · split
    · rename_i hdeep
      exact iff_of_true ⟨_, rfl⟩ hdeep
    · rename_i hfits
      exact iff_of_false (by simp) hfits
  · rw [Spaced.map, Source.struck_eq h]

/-- The source of `{"a":[[1]],"a":` and some value, without blanks. -/
def Source.replacing (last : Source) : Spaced Source :=
  let key : Spaced Label := ⟨[], ⟨Text.lit "\"a\"", Text.lit "a"⟩, []⟩
  let one : Source := .scalar (Text.lit "1") (.ok (.number (.int 1)))
  let first : Source := .array [] [⟨[], .array [] [⟨[], one, []⟩], []⟩]
  ⟨[], .object [] [(key, ⟨[], first, []⟩), (key, ⟨[], last, []⟩)], []⟩

theorem Source.valid_one : Scanner.SpellsScalar (Text.lit "1") (.ok (.number (.int 1))) := by
  have hdigits : Scanner.Numeral.AreDigits [49] := ⟨by decide, by decide⟩
  have hformed : (Scanner.Numeral.mk false [49] none none).WellFormed :=
    ⟨hdigits, .inr (by decide), by simp, by simp⟩
  exact .numeral hformed.spelledBy

theorem Source.valid_replacing {last : Source} (h : last.Valid) :
    (replacing last).Holds Source.Valid := by
  have hletter : Scanner.SpellsPiece [97] (.plain 97) := .plain (by decide) (by decide) (by decide)
  have hlabel : Scanner.SpellsString (Text.lit "\"a\"") (Text.lit "a") :=
    .quoted (.cons hletter .close)
  have hfirst : (Source.array [] [⟨[], .array [] [⟨[], .scalar (Text.lit "1")
      (.ok (.number (.int 1))), []⟩], []⟩]).Valid :=
    ⟨.nil, ⟨.nil, ⟨.nil, ⟨.nil, valid_one, .nil⟩, trivial⟩, .nil⟩, trivial⟩
  exact ⟨.nil, ⟨.nil, ⟨.nil, hlabel, .nil⟩, ⟨.nil, hfirst, .nil⟩, ⟨.nil, hlabel, .nil⟩,
    ⟨.nil, h, .nil⟩, trivial⟩, .nil⟩

/-- Three brackets are open at once in a member that is replaced, two in the one that counts: a
limit of two is kept, a limit of one is not. -/
theorem Input.nesting_of_text_with_replaced_member :
    let whole := Source.replacing (.array [] [])
    let input : Input := .text (whole.text Source.text)
    whole.text Source.text = Text.lit "\x7b\"a\":[[1]],\"a\":[]\x7d" ∧
    (whole.map Source.struck).text Source.text = Text.lit "\x7b\"a\":[]\x7d" ∧
    (input.read 2).result = .ok (.object [(Text.lit "a", .array [])]) ∧
    (input.read 1).result = .error (.invalid (.nesting 1)) := by
  intro whole input
  have hvalid : whole.Holds Source.Valid := Source.valid_replacing ⟨.nil, trivial⟩
  have hvalue : whole.content.value = .ok (.object [(Text.lit "a", .array [])]) := rfl
  have hdepth : ¬Text.OpensBeyond Scanner.nestingLimit (whole.text Source.text) := by
    rw [Spaced.opensBeyond_iff hvalid]
    decide
  have hstruck : (whole.map Source.struck).Holds Source.Valid :=
    ⟨.nil, Source.valid_struck hvalid.content, .nil⟩
  refine ⟨rfl, rfl, ?_, ?_⟩
  · refine (Input.nesting_of_text 2 rfl hvalid hvalue hdepth).2.2.1 ?_
    rw [Spaced.opensBeyond_iff hstruck]
    decide
  · refine (Input.nesting_of_text 1 rfl hvalid hvalue hdepth).2.1 ?_
    rw [Spaced.opensBeyond_iff hstruck]
    decide

/-- A text with more brackets open at once than the limit allows is read, since the member in which
they are open is replaced. -/
theorem Input.replaced_brackets_do_not_count :
    let whole := Source.replacing (.scalar (Text.lit "1") (.ok (.number (.int 1))))
    whole.Holds Source.Valid ∧
    whole.text Source.text = Text.lit "\x7b\"a\":[[1]],\"a\":1\x7d" ∧
    Text.OpensBeyond 1 (whole.text Source.text) ∧
    ((Input.text (whole.text Source.text)).read 1).result =
      .ok (.object [(Text.lit "a", .number (.int 1))]) := by
  intro whole
  have hvalid : whole.Holds Source.Valid := Source.valid_replacing Source.valid_one
  refine ⟨hvalid, rfl, ?_, by cbv⟩
  rw [Spaced.opensBeyond_iff hvalid]
  decide

end JsonDecoding
