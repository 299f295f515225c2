import JsonDecoding.Proofs.Numerals
import JsonDecoding.Proofs.Strings

/-!
# JSON text

A JSON text as it is written (`Source`): scalars as they are spelled, and containers with the blanks
around their parts. From it come the text (`Source.text`), the value that it stands for
(`Source.value`), and how many brackets lie inside one another (`Source.depth`), in members that a
later one replaces too. The names of numbers that JSON does not know and whole numbers with too many
digits have their place in the text, but no value.
-/

namespace JsonDecoding

namespace Scanner

/-- A text of blanks only. -/
def AreBlanks (t : Text) : Prop := ∀ c ∈ t, isSpace c = true

theorem AreBlanks.nil : AreBlanks [] := by simp [AreBlanks]

/-- A text spells a scalar, or what is in the place of one: `outcome` is what comes of it. -/
inductive SpellsScalar : Text → Except Fault Json → Prop where
  | word {written : Text} {outcome : Except Text Json} (h : (written, outcome) ∈ words) :
      SpellsScalar written (outcome.mapError .constant)
  | numeral {written : Text} {n : Numeral} (h : n.SpelledBy written) :
      SpellsScalar written (n.toNumber.map .number)
  | quoted {written s : Text} (h : SpellsString written s) : SpellsScalar written (.ok (.string s))

/-- A word stands for null or a truth value, or is the name of a number that JSON does not know. -/
theorem outcome_of_word {written : Text} {outcome : Except Text Json}
    (h : (written, outcome) ∈ words) :
    outcome = .ok .null ∨ (∃ b, outcome = .ok (.boolean b)) ∨ outcome = .error written := by
  simp only [words, List.mem_cons, Prod.mk.injEq, List.not_mem_nil, or_false] at h
  rcases h with ⟨-, rfl⟩ | ⟨-, rfl⟩ | ⟨-, rfl⟩ | ⟨rfl, rfl⟩ | ⟨rfl, rfl⟩ | ⟨rfl, rfl⟩ <;> simp

end Scanner

namespace Text

/-- There are no more texts than code points and one in what they are joined to. -/
theorem length_le_joined (ts : List Text) : ts.length ≤ (joined [44] ts).length + 1 := by
  induction ts with
  | nil => simp
  | cons t more ih =>
      cases more with
      | nil => simp [joined]
      | cons next others =>
          simp only [joined, List.length_append, List.length_cons, List.length_nil] at ih ⊢
          omega

theorem length_le_joined_map {α : Type} (form : α → Text) {parts : List α} {part : α}
    (h : part ∈ parts) : (form part).length ≤ (joined [44] (parts.map form)).length := by
  induction parts with
  | nil => cases h
  | cons first more ih =>
      cases more with
      | nil =>
          obtain rfl := List.mem_singleton.mp h
          exact le_rfl
      | cons next others =>
          simp only [List.map_cons, joined, List.length_append] at ih ⊢
          rcases List.mem_cons.mp h with rfl | hmore
          · omega
          · have hlength := ih hmore
            omega

end Text

open Scanner

/-! ## Sources -/

/-- What stands in a text with blanks around it. -/
structure Spaced (α : Type) where
  before : Text
  content : α
  after : Text

/-- A key as it is written. -/
structure Label where
  written : Text
  name : Text

/-- A JSON text as it is written. The blank of a container stands behind its opening bracket. -/
inductive Source where
  | scalar (written : Text) (outcome : Except Scanner.Fault Json)
  | array (blank : Text) (items : List (Spaced Source))
  | object (blank : Text) (members : List (Spaced Label × Spaced Source))

namespace Spaced

variable {α : Type}

/-- The text of a part with the blanks around it. -/
def text (form : α → Text) (part : Spaced α) : Text :=
  part.before ++ (form part.content ++ part.after)

/-- What is around a part is blank, and the part has a property. -/
structure Holds (p : α → Prop) (part : Spaced α) : Prop where
  before : AreBlanks part.before
  content : p part.content
  after : AreBlanks part.after

end Spaced

namespace Source

mutual

/-- The text. -/
def text : Source → Text
  | .scalar written _ => written
  | .array blank items => 91 :: (blank ++ (Text.joined [44] (textItems items) ++ [93]))
  | .object blank members => 123 :: (blank ++ (Text.joined [44] (textMembers members) ++ [125]))

/-- The texts of items in order. -/
def textItems : List (Spaced Source) → List Text
  | [] => []
  | ⟨before, source, after⟩ :: rest => (before ++ (text source ++ after)) :: textItems rest

/-- The texts of members in order, each key before its value. -/
def textMembers : List (Spaced Label × Spaced Source) → List Text
  | [] => []
  | (key, ⟨before, source, after⟩) :: rest =>
      (key.text Label.written ++ 58 :: (before ++ (text source ++ after))) :: textMembers rest

end

mutual

/-- The value that a text stands for, or the first thing in it that has none. Of equal keys in one
object the last value counts, at the place of the first. -/
def value : Source → Except Scanner.Fault Json
  | .scalar _ outcome => outcome
  | .array _ items => (valueItems items).map .array
  | .object _ members => (valueMembers members).map fun fields => .object (Assoc.ofPairs fields)

/-- The values of items in order. -/
def valueItems : List (Spaced Source) → Except Scanner.Fault (List Json)
  | [] => .ok []
  | ⟨_, source, _⟩ :: rest =>
      (value source).bind fun value => (valueItems rest).map fun values => value :: values

/-- The fields of members in order, equal keys included. -/
def valueMembers : List (Spaced Label × Spaced Source) → Except Scanner.Fault (List (Text × Json))
  | [] => .ok []
  | (key, ⟨_, source, _⟩) :: rest =>
      (value source).bind fun value =>
        (valueMembers rest).map fun fields => (key.content.name, value) :: fields

end

mutual

/-- How many containers lie inside one another at most. -/
def depth : Source → Nat
  | .scalar .. => 0
  | .array _ items => depthItems items + 1
  | .object _ members => depthMembers members + 1

/-- The greatest depth among items. -/
def depthItems : List (Spaced Source) → Nat
  | [] => 0
  | ⟨_, source, _⟩ :: rest => max (depth source) (depthItems rest)

/-- The greatest depth among the values of members. -/
def depthMembers : List (Spaced Label × Spaced Source) → Nat
  | [] => 0
  | (_, ⟨_, source, _⟩) :: rest => max (depth source) (depthMembers rest)

end

mutual

/-- Scalars and keys are spelled, and nothing but blanks stands between the parts. -/
def Valid : Source → Prop
  | .scalar written outcome => SpellsScalar written outcome
  | .array blank items => AreBlanks blank ∧ ValidItems items
  | .object blank members => AreBlanks blank ∧ ValidMembers members

/-- This is so for every item. -/
def ValidItems : List (Spaced Source) → Prop
  | [] => True
  | ⟨before, source, after⟩ :: rest =>
      (AreBlanks before ∧ Valid source ∧ AreBlanks after) ∧ ValidItems rest

/-- This is so for every member. -/
def ValidMembers : List (Spaced Label × Spaced Source) → Prop
  | [] => True
  | (key, ⟨before, source, after⟩) :: rest =>
      key.Holds (fun key => SpellsString key.written key.name) ∧
        (AreBlanks before ∧ Valid source ∧ AreBlanks after) ∧ ValidMembers rest

end

/-! ## Parts of containers -/

/-- The text of a member. -/
def textMember (member : Spaced Label × Spaced Source) : Text :=
  member.1.text Label.written ++ 58 :: member.2.text text

/-- A key is spelled, and so is its value. -/
structure ValidMember (member : Spaced Label × Spaced Source) : Prop where
  key : member.1.Holds fun key => SpellsString key.written key.name
  value : member.2.Holds Valid

theorem textItems_eq (items : List (Spaced Source)) :
    textItems items = items.map (·.text text) := by
  induction items with
  | nil => rfl
  | cons item rest ih => rw [textItems, ih, List.map_cons, Spaced.text]

theorem textMembers_eq (members : List (Spaced Label × Spaced Source)) :
    textMembers members = members.map textMember := by
  induction members with
  | nil => rfl
  | cons member rest ih => rw [textMembers, ih, List.map_cons, textMember, Spaced.text, Spaced.text]

theorem validItems_iff {items : List (Spaced Source)} :
    ValidItems items ↔ ∀ item ∈ items, item.Holds Valid := by
  induction items with
  | nil => simp [ValidItems]
  | cons item rest ih =>
      rw [ValidItems, ih, List.forall_mem_cons]
      refine and_congr_left fun _ => ⟨fun h => ⟨h.1, h.2.1, h.2.2⟩, fun h => ?_⟩
      exact ⟨h.before, h.content, h.after⟩

theorem validMembers_iff {members : List (Spaced Label × Spaced Source)} :
    ValidMembers members ↔ ∀ member ∈ members, ValidMember member := by
  induction members with
  | nil => simp [ValidMembers]
  | cons member rest ih =>
      rw [ValidMembers, ih, List.forall_mem_cons, ← and_assoc]
      refine and_congr_left fun _ => ⟨fun h => ⟨h.1, h.2.1, h.2.2.1, h.2.2.2⟩, fun h => ?_⟩
      exact ⟨h.key, h.value.before, h.value.content, h.value.after⟩

theorem depth_le_depthItems {items : List (Spaced Source)} {item : Spaced Source}
    (h : item ∈ items) : item.content.depth ≤ depthItems items := by
  induction items with
  | nil => cases h
  | cons first rest ih =>
      rw [depthItems]
      rcases List.mem_cons.mp h with rfl | hrest
      · exact Nat.le_max_left _ _
      · exact (ih hrest).trans (Nat.le_max_right _ _)

theorem depth_le_depthMembers {members : List (Spaced Label × Spaced Source)}
    {member : Spaced Label × Spaced Source} (h : member ∈ members) :
    member.2.content.depth ≤ depthMembers members := by
  induction members with
  | nil => cases h
  | cons first rest ih =>
      rw [depthMembers]
      rcases List.mem_cons.mp h with rfl | hrest
      · exact Nat.le_max_left _ _
      · exact (ih hrest).trans (Nat.le_max_right _ _)

/-! ## Lengths -/

theorem length_text_array (blank : Text) (items : List (Spaced Source)) :
    (array blank items).text.length =
      blank.length + (Text.joined [44] (items.map (·.text text))).length + 2 := by
  simp only [text, textItems_eq, List.length_cons, List.length_append, List.length_nil]
  omega

theorem length_text_object (blank : Text) (members : List (Spaced Label × Spaced Source)) :
    (object blank members).text.length =
      blank.length + (Text.joined [44] (members.map textMember)).length + 2 := by
  simp only [text, textMembers_eq, List.length_cons, List.length_append, List.length_nil]
  omega

/-- The text of an item is shorter than that of the array. -/
theorem length_text_item (blank : Text) {items : List (Spaced Source)} {item : Spaced Source}
    (h : item ∈ items) : item.content.text.length < (array blank items).text.length := by
  have hitem := Text.length_le_joined_map (·.text text) h
  simp only [Spaced.text, List.length_append] at hitem
  rw [length_text_array]
  simp only [Spaced.text]
  omega

/-- The text of a member's value is shorter than that of the object. -/
theorem length_text_member (blank : Text) {members : List (Spaced Label × Spaced Source)}
    {member : Spaced Label × Spaced Source} (h : member ∈ members) :
    member.2.content.text.length < (object blank members).text.length := by
  have hmember := Text.length_le_joined_map textMember h
  rw [textMember, Spaced.text, Spaced.text] at hmember
  simp only [List.length_append, List.length_cons] at hmember
  rw [length_text_object]
  omega

end Source

end JsonDecoding
