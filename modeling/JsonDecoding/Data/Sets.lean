import JsonDecoding.Data.Hash

/-!
# The order of set elements

A set lists its elements in the order of the slots that they take in a table. An element takes the
first free slot of a series that starts at its hash; the table grows fourfold before it is three
fifths full, and its elements are then placed again in their order. Elements whose hashes differ
from run to run stay in order of arrival.
-/

namespace JsonDecoding

/-- A table of slots; their number is a power of two, one more than `mask`. -/
structure SlotTable (α : Type) where
  slots : Array (Option (Nat × α))
  mask : Nat
  used : Nat

namespace SlotTable

variable {α : Type}

/-- A table of free slots. -/
def empty (size : Nat) : SlotTable α := ⟨Array.replicate size none, size - 1, 0⟩

/-- Whether a slot is free. -/
def isFree (t : SlotTable α) (slot : Nat) : Bool := (t.slots[slot]?.join).isNone

/-- The first free slot of the series that goes on at `start`: up to nine neighbours are looked at
before the series jumps. -/
def freeSlot (t : SlotTable α) : Nat → Nat → Nat → Nat
  | 0, _, start => start
  | fuel + 1, perturbation, start =>
      let neighbours := if start + 9 ≤ t.mask then 9 else 0
      match (List.range (neighbours + 1)).find? fun step => t.isFree (start + step) with
      | some step => start + step
      | none =>
          let perturbation := perturbation / 32
          t.freeSlot fuel perturbation ((start * 5 + 1 + perturbation) % (t.mask + 1))

/-- Jumps that lead a series to a free slot: after thirteen the perturbation is gone, and from then
on the series visits every slot. -/
def jumps (t : SlotTable α) : Nat := t.mask + 14

/-- The table with one element more in a free slot. -/
def place (t : SlotTable α) (hash : Nat) (element : α) : SlotTable α :=
  let slot := t.freeSlot t.jumps hash (hash % (t.mask + 1))
  ⟨t.slots.setIfInBounds slot (some (hash, element)), t.mask, t.used + 1⟩

/-- The entries in the order of their slots. -/
def entries (t : SlotTable α) : List (Nat × α) := t.slots.toList.filterMap id

/-- The least power of two above a number, of at least eight; `fuel` bounds the doublings. -/
def sizeAbove (number : Nat) : Nat → Nat → Nat
  | 0, size => size
  | fuel + 1, size => if size ≤ number then sizeAbove number fuel (2 * size) else size

/-- A larger table with the same elements, if the table has become too full. -/
def grown (t : SlotTable α) : SlotTable α :=
  if t.used * 5 < t.mask * 3 then t
  else
    let room := if 50000 < t.used then t.used * 2 else t.used * 4
    t.entries.foldl (fun larger entry => larger.place entry.1 entry.2)
      (empty (sizeAbove room room.log2 8))

/-- The elements with their hashes in the order that a table of them has. -/
def arranged (elements : List (Nat × α)) : List α :=
  (elements.foldl (fun t element => (t.place element.1 element.2).grown) (empty 8)).entries.map
    Prod.snd

end SlotTable

namespace Data

/-- Distinct elements in the order in which a set lists them. -/
def arranged (elements : List Data) : List Data :=
  match elements.mapM fun element => element.hash?.map fun hash => (Hash.word hash, element) with
  | some entries => SlotTable.arranged entries
  | none => elements

/-- The set of some elements. -/
def setOf (elements : List Data) : Data := .set (arranged (distinct elements))

end Data

end JsonDecoding
