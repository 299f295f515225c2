import JsonDecoding.Models.Issue

/-!
# Matches

What data becomes as data of a type, with how well it matched. A union takes the member that matches
best, so a match of a whole counts what its parts tell: the worst exactness of all, and how many
fields of models and records are given among them.
-/

namespace JsonDecoding

/-- How well data matches a type: only after a conversion, without one as a type that takes it in,
or as it is. -/
inductive Exactness where
  | lax
  | strict
  | exact
deriving DecidableEq

namespace Exactness

/-- The rank of a match; a better match has a higher one. -/
def rank : Exactness → Nat
  | .lax => 0
  | .strict => 1
  | .exact => 2

/-- How well something matches two parts of which match this well. -/
def both (a b : Exactness) : Exactness := if a.rank ≤ b.rank then a else b

end Exactness

/-- What data becomes as data of some type, how well it matched, and how many fields were given to
the instances that were made for it; `none` where no instance was made. -/
structure Match (α : Type) where
  result : α
  exactness : Exactness
  given : Option Nat

namespace Match

variable {α β γ : Type}

/-- The sum of two counts of fields, either of which may be lacking. -/
def total : Option Nat → Option Nat → Option Nat
  | some a, some b => some (a + b)
  | some a, none => some a
  | none, b => b

/-- The match with a function applied to its result. -/
def map (f : α → β) (m : Match α) : Match β := ⟨f m.result, m.exactness, m.given⟩

/-- The match of something of which one part has matched before. -/
def atMost (exactness : Exactness) (m : Match α) : Match α :=
  { m with exactness := exactness.both m.exactness }

/-- The match of two parts together. -/
def both (f : α → β → γ) (m : Match α) (n : Match β) : Match γ :=
  ⟨f m.result n.result, m.exactness.both n.exactness, total m.given n.given⟩

/-- The match of an instance that was made of its parts: it is not exact, and the fields given to it
count. -/
def made (count : Nat) (m : Match α) : Match α := ⟨m.result, .lax, total m.given (some count)⟩

/-- Whether a match is worse than another: more fields are better, and where that decides nothing, a
more exact match is. -/
def isWorse (m n : Match α) : Bool :=
  match m.given, n.given with
  | some a, some b => if a = b then m.exactness.rank < n.exactness.rank else a < b
  | _, _ => m.exactness.rank < n.exactness.rank

/-- Whether no other match can be better: it is exact, and has no fields to be counted. -/
def isBest (m : Match α) : Bool := m.exactness = .exact && m.given.isNone

end Match

/-- The outcome of bringing data to a type. -/
abbrev Outcome (α : Type) := Checked (Match α)

namespace Outcome

variable {α : Type}

/-- Data that matches. -/
def matched (exactness : Exactness) (result : α) : Outcome α := .ok ⟨result, exactness, none⟩

/-- The issue that data is not what was expected. -/
def unexpected (expected : Expected) (data : Data) : Outcome α :=
  Checked.issue (.unexpected expected) data

end Outcome

end JsonDecoding
