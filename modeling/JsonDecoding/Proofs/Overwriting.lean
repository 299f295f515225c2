import JsonDecoding.Proofs.Places
import JsonDecoding.Proofs.Source

/-!
# Members that are replaced

A member of an object is replaced by a later one with the same key. `Source.struck` strikes out all
members that are, in every object of a text. What remains is what its value is made of: the value
nests as deep as the struck text (`Source.depth_struck`), and its scalars are those of the struck
text (`Source.mem_leaves_iff`). No key comes twice in the value (`Source.keysDistinct_value`).
-/

namespace JsonDecoding

/-! ## Entries that are written last -/

namespace Assoc

variable {κ α : Type} [BEq κ] [LawfulBEq κ]

theorem keys_put_of_mem {key : κ} {entries : List (κ × α)} (h : key ∈ keys entries) (value : α) :
    keys (put key value entries) = keys entries := by
  induction entries with
  | nil => cases h
  | cons entry rest ih =>
      obtain ⟨k, old⟩ := entry
      rw [put]
      split
      · rfl
      · rename_i hne
        have hrest : key ∈ keys rest := by
          rcases List.mem_cons.mp h with rfl | hrest
          · exact absurd (beq_self_eq_true _) hne
          · exact hrest
        exact congrArg (k :: ·) (ih hrest)

theorem nodup_keys_put {entries : List (κ × α)} (h : (keys entries).Nodup) (key : κ) (value : α) :
    (keys (put key value entries)).Nodup := by
  by_cases hmem : key ∈ keys entries
  · rwa [keys_put_of_mem hmem]
  · rw [put_of_notMem hmem]
    simpa [keys, List.nodup_append] using ⟨h, fun a b hab heq => hmem (by
      rw [← heq]
      exact List.mem_map.mpr ⟨_, hab, rfl⟩)⟩

theorem nodup_keys_foldl {written : List (κ × α)} (h : (keys written).Nodup)
    (pairs : List (κ × α)) :
    (keys (pairs.foldl (fun entries pair => put pair.1 pair.2 entries) written)).Nodup := by
  induction pairs generalizing written with
  | nil => exact h
  | cons pair rest ih => exact ih (nodup_keys_put h pair.1 pair.2)

/-- No key comes twice among the entries that remain. -/
theorem nodup_keys_ofPairs (pairs : List (κ × α)) : (keys (ofPairs pairs)).Nodup :=
  nodup_keys_foldl (show (keys ([] : List (κ × α))).Nodup from List.nodup_nil) pairs

/-- After a write, the entry written is there, and what was there under other keys. -/
theorem mem_put_iff {key : κ} {value : α} {entries : List (κ × α)} (h : (keys entries).Nodup)
    {entry : κ × α} :
    entry ∈ put key value entries ↔ entry = (key, value) ∨ entry ∈ entries ∧ entry.1 ≠ key := by
  induction entries with
  | nil => simp [put]
  | cons first rest ih =>
      obtain ⟨k, old⟩ := first
      obtain ⟨hk, hrest⟩ := List.nodup_cons.mp h
      have hnot {other : κ × α} (hmem : other ∈ rest) : other.1 ≠ k := by
        rintro rfl
        exact hk (List.mem_map.mpr ⟨other, hmem, rfl⟩)
      rw [put]
      split
      · rename_i heq
        obtain rfl := eq_of_beq heq
        simp only [List.mem_cons]
        constructor
        · rintro (rfl | hmem)
          · exact .inl rfl
          · exact .inr ⟨.inr hmem, hnot hmem⟩
        · rintro (rfl | ⟨rfl | hmem, hne⟩)
          · exact .inl rfl
          · exact absurd rfl hne
          · exact .inr hmem
      · rename_i hne
        have hother : k ≠ key := fun heq => hne (by simp [heq])
        simp only [List.mem_cons, ih hrest]
        constructor
        · rintro (rfl | rfl | ⟨hmem, hentry⟩)
          · exact .inr ⟨.inl rfl, hother⟩
          · exact .inl rfl
          · exact .inr ⟨.inr hmem, hentry⟩
        · rintro (rfl | ⟨rfl | hmem, hentry⟩)
          · exact .inr (.inl rfl)
          · exact .inl rfl
          · exact .inr (.inr ⟨hmem, hentry⟩)

/-- The pairs that no later one replaces. -/
def latest : List (κ × α) → List (κ × α)
  | [] => []
  | pair :: rest => if pair.1 ∈ keys rest then latest rest else pair :: latest rest

theorem mem_foldl_put_iff {pairs written : List (κ × α)} (h : (keys written).Nodup)
    {entry : κ × α} :
    entry ∈ pairs.foldl (fun entries pair => put pair.1 pair.2 entries) written ↔
      entry ∈ latest pairs ∨ entry ∈ written ∧ entry.1 ∉ keys pairs := by
  induction pairs generalizing written with
  | nil => simp [latest, keys]
  | cons pair rest ih =>
      rw [List.foldl_cons, ih (nodup_keys_put h ..), mem_put_iff h, latest]
      have hkeys : entry.1 ∉ keys (pair :: rest) ↔ entry.1 ≠ pair.1 ∧ entry.1 ∉ keys rest := by
        simp [keys]
      rw [hkeys]
      split
      · rename_i hlater
        constructor
        · rintro (hmem | ⟨rfl | ⟨hmem, hne⟩, hrest⟩)
          · exact .inl hmem
          · exact absurd hlater hrest
          · exact .inr ⟨hmem, hne, hrest⟩
        · rintro (hmem | ⟨hmem, hne, hrest⟩)
          · exact .inl hmem
          · exact .inr ⟨.inr ⟨hmem, hne⟩, hrest⟩
      · rename_i hlast
        rw [List.mem_cons]
        constructor
        · rintro (hmem | ⟨rfl | ⟨hmem, hne⟩, hrest⟩)
          · exact .inl (.inr hmem)
          · exact .inl (.inl rfl)
          · exact .inr ⟨hmem, hne, hrest⟩
        · rintro ((rfl | hmem) | ⟨hmem, hne, hrest⟩)
          · exact .inr ⟨.inl rfl, hlast⟩
          · exact .inl hmem
          · exact .inr ⟨.inr ⟨hmem, hne⟩, hrest⟩

/-- **The entries that remain** are the pairs that no later one replaces. -/
theorem mem_ofPairs_iff {pairs : List (κ × α)} {entry : κ × α} :
    entry ∈ ofPairs pairs ↔ entry ∈ latest pairs := by
  have hempty : (keys ([] : List (κ × α))).Nodup := List.nodup_nil
  rw [ofPairs, mem_foldl_put_iff hempty]
  simp

end Assoc

/-! ## Scalars of values -/

namespace Json

mutual

/-- The scalars in a value. -/
def leaves : Json → List Json
  | .array items => leavesItems items
  | .object fields => leavesFields fields
  | value => [value]

/-- The scalars in items. -/
def leavesItems : List Json → List Json
  | [] => []
  | item :: rest => leaves item ++ leavesItems rest

/-- The scalars in the values of fields. -/
def leavesFields : List (Text × Json) → List Json
  | [] => []
  | (_, value) :: rest => leaves value ++ leavesFields rest

end

theorem mem_leavesFields {fields : List (Text × Json)} {leaf : Json} :
    leaf ∈ leavesFields fields ↔ ∃ field ∈ fields, leaf ∈ field.2.leaves := by
  induction fields with
  | nil => simp [leavesFields]
  | cons field rest ih => simp [leavesFields, ih]

theorem depthFields_le_iff {fields : List (Text × Json)} {n : Nat} :
    depthFields fields ≤ n ↔ ∀ field ∈ fields, field.2.depth ≤ n := by
  induction fields with
  | nil => simp [depthFields]
  | cons field rest ih => simp [depthFields, ih]

/-- Fields that replace others decide about the depth. -/
theorem depthFields_ofPairs (fields : List (Text × Json)) :
    depthFields (Assoc.ofPairs fields) = depthFields (Assoc.latest fields) := by
  apply Nat.le_antisymm
  · rw [depthFields_le_iff]
    exact fun field hmem => depth_le_depthFields (Assoc.mem_ofPairs_iff.mp hmem)
  · rw [depthFields_le_iff]
    exact fun field hmem => depth_le_depthFields (Assoc.mem_ofPairs_iff.mpr hmem)

theorem keysDistinctFields_iff {fields : List (Text × Json)} :
    KeysDistinctFields fields ↔ ∀ field ∈ fields, field.2.KeysDistinct := by
  induction fields with
  | nil => simp [KeysDistinctFields]
  | cons field rest ih => simp [KeysDistinctFields, ih]

end Json

/-! ## Striking out -/

namespace Source

/-- The keys of members in order. -/
def labels (members : List (Spaced Label × Spaced Source)) : List Text :=
  members.map fun member => member.1.content.name

mutual

/-- The text without the members that a later one with the same key replaces. -/
def struck : Source → Source
  | .scalar written outcome => .scalar written outcome
  | .array blank items => .array blank (struckItems items)
  | .object blank members => .object blank (struckMembers members)

/-- The items without such members in them. -/
def struckItems : List (Spaced Source) → List (Spaced Source)
  | [] => []
  | ⟨before, source, after⟩ :: rest => ⟨before, struck source, after⟩ :: struckItems rest

/-- The members that no later one replaces, without such members in their values. -/
def struckMembers :
    List (Spaced Label × Spaced Source) → List (Spaced Label × Spaced Source)
  | [] => []
  | (key, ⟨before, source, after⟩) :: rest =>
      if key.content.name ∈ labels rest then struckMembers rest
      else (key, ⟨before, struck source, after⟩) :: struckMembers rest

end

mutual

/-- The scalars of a text, each as it is written and with what comes of it. -/
def leaves : Source → List (Text × Except Scanner.Fault Json)
  | .scalar written outcome => [(written, outcome)]
  | .array _ items => leavesItems items
  | .object _ members => leavesMembers members

/-- The scalars of items. -/
def leavesItems : List (Spaced Source) → List (Text × Except Scanner.Fault Json)
  | [] => []
  | ⟨_, source, _⟩ :: rest => leaves source ++ leavesItems rest

/-- The scalars of the values of members. -/
def leavesMembers :
    List (Spaced Label × Spaced Source) → List (Text × Except Scanner.Fault Json)
  | [] => []
  | (_, ⟨_, source, _⟩) :: rest => leaves source ++ leavesMembers rest

end

/-! ## The struck text -/

mutual

theorem valid_struck {source : Source} (h : source.Valid) : source.struck.Valid := by
  cases source with
  | scalar => exact h
  | array blank items => exact ⟨h.1, validItems_struck h.2⟩
  | object blank members => exact ⟨h.1, validMembers_struck h.2⟩

theorem validItems_struck {items : List (Spaced Source)} (h : ValidItems items) :
    ValidItems (struckItems items) := by
  cases items with
  | nil => trivial
  | cons item rest => exact ⟨⟨h.1.1, valid_struck h.1.2.1, h.1.2.2⟩, validItems_struck h.2⟩

theorem validMembers_struck {members : List (Spaced Label × Spaced Source)}
    (h : ValidMembers members) : ValidMembers (struckMembers members) := by
  cases members with
  | nil => trivial
  | cons member rest =>
      obtain ⟨hkey, ⟨hbefore, hsource, hafter⟩, hrest⟩ := h
      rw [struckMembers]
      split
      · exact validMembers_struck hrest
      · exact ⟨hkey, ⟨hbefore, valid_struck hsource, hafter⟩, validMembers_struck hrest⟩

end

mutual

/-- Striking out members leaves nothing that was not there. -/
theorem depth_struck_le (source : Source) : source.struck.depth ≤ source.depth := by
  cases source with
  | scalar => exact le_rfl
  | array blank items => exact Nat.succ_le_succ (depthItems_struck_le items)
  | object blank members => exact Nat.succ_le_succ (depthMembers_struck_le members)

theorem depthItems_struck_le (items : List (Spaced Source)) :
    depthItems (struckItems items) ≤ depthItems items := by
  cases items with
  | nil => exact le_rfl
  | cons item rest => exact max_le_max (depth_struck_le item.content) (depthItems_struck_le rest)

theorem depthMembers_struck_le (members : List (Spaced Label × Spaced Source)) :
    depthMembers (struckMembers members) ≤ depthMembers members := by
  cases members with
  | nil => exact le_rfl
  | cons member rest =>
      rw [struckMembers, depthMembers]
      split
      · exact (depthMembers_struck_le rest).trans (Nat.le_max_right _ _)
      · exact max_le_max (depth_struck_le member.2.content) (depthMembers_struck_le rest)

end

theorem keys_of_valueMembers {members : List (Spaced Label × Spaced Source)}
    {fields : List (Text × Json)} (h : valueMembers members = .ok fields) :
    Assoc.keys fields = labels members := by
  induction members generalizing fields with
  | nil =>
      cases h
      rfl
  | cons member rest ih =>
      obtain ⟨value, -, h⟩ := Outcomes.bind_ok.mp h
      obtain ⟨others, hothers, rfl⟩ := Outcomes.map_ok.mp h
      exact congrArg (member.1.content.name :: ·) (ih hothers)

/-- What a scalar spells holds nothing else. -/
theorem leaf_of_spellsScalar {written : Text} {value : Json}
    (h : Scanner.SpellsScalar written (.ok value)) : value.leaves = [value] ∧ value.depth = 0 := by
  generalize houtcome : (Except.ok value : Except Scanner.Fault Json) = outcome at h
  cases h with
  | word hword =>
      obtain rfl | ⟨b, rfl⟩ | rfl := Scanner.outcome_of_word hword <;> cases houtcome <;>
        exact ⟨rfl, rfl⟩
  | numeral =>
      obtain ⟨number, -, rfl⟩ := Outcomes.map_ok.mp houtcome.symm
      exact ⟨rfl, rfl⟩
  | quoted =>
      cases houtcome
      exact ⟨rfl, rfl⟩

mutual

/-- **The value nests as deep as the struck text.** -/
theorem depth_struck {source : Source} {value : Json} (hvalid : source.Valid)
    (h : source.value = .ok value) : source.struck.depth = value.depth := by
  cases source with
  | scalar written outcome =>
      obtain rfl : outcome = .ok value := h
      exact (leaf_of_spellsScalar hvalid).2.symm
  | array blank items =>
      obtain ⟨values, hvalues, rfl⟩ := Outcomes.map_ok.mp h
      exact congrArg (· + 1) (depthItems_struck hvalid.2 hvalues)
  | object blank members =>
      obtain ⟨fields, hfields, rfl⟩ := Outcomes.map_ok.mp h
      rw [struck, depth, Json.depth, Json.depthFields_ofPairs,
        depthMembers_struck hvalid.2 hfields]

theorem depthItems_struck {items : List (Spaced Source)} {values : List Json}
    (hvalid : ValidItems items) (h : valueItems items = .ok values) :
    depthItems (struckItems items) = Json.depthItems values := by
  cases items with
  | nil =>
      cases h
      rfl
  | cons item rest =>
      obtain ⟨value, hvalue, h⟩ := Outcomes.bind_ok.mp h
      obtain ⟨others, hothers, rfl⟩ := Outcomes.map_ok.mp h
      rw [struckItems, depthItems, Json.depthItems, depth_struck hvalid.1.2.1 hvalue,
        depthItems_struck hvalid.2 hothers]

theorem depthMembers_struck {members : List (Spaced Label × Spaced Source)}
    {fields : List (Text × Json)} (hvalid : ValidMembers members)
    (h : valueMembers members = .ok fields) :
    depthMembers (struckMembers members) = Json.depthFields (Assoc.latest fields) := by
  cases members with
  | nil =>
      cases h
      rfl
  | cons member rest =>
      obtain ⟨value, hvalue, h⟩ := Outcomes.bind_ok.mp h
      obtain ⟨others, hothers, rfl⟩ := Outcomes.map_ok.mp h
      rw [struckMembers, Assoc.latest, keys_of_valueMembers hothers]
      split
      · exact depthMembers_struck hvalid.2.2 hothers
      · rw [depthMembers, Json.depthFields, depth_struck hvalid.2.1.2.1 hvalue,
          depthMembers_struck hvalid.2.2 hothers]

end

mutual

/-- **The scalars of the value** are those of the struck text. -/
theorem mem_leaves_iff {source : Source} {value : Json} (hvalid : source.Valid)
    (h : source.value = .ok value) {leaf : Json} :
    leaf ∈ value.leaves ↔ ∃ written, (written, .ok leaf) ∈ source.struck.leaves := by
  cases source with
  | scalar written outcome =>
      obtain rfl : outcome = .ok value := h
      rw [(leaf_of_spellsScalar hvalid).1]
      simp [struck, leaves]
  | array blank items =>
      obtain ⟨values, hvalues, rfl⟩ := Outcomes.map_ok.mp h
      exact mem_leavesItems_iff hvalid.2 hvalues
  | object blank members =>
      obtain ⟨fields, hfields, rfl⟩ := Outcomes.map_ok.mp h
      rw [Json.leaves, Json.mem_leavesFields]
      simp only [Assoc.mem_ofPairs_iff]
      rw [← Json.mem_leavesFields, mem_leavesMembers_iff hvalid.2 hfields]
      rfl

theorem mem_leavesItems_iff {items : List (Spaced Source)} {values : List Json}
    (hvalid : ValidItems items) (h : valueItems items = .ok values) {leaf : Json} :
    leaf ∈ Json.leavesItems values ↔
      ∃ written, (written, .ok leaf) ∈ leavesItems (struckItems items) := by
  cases items with
  | nil =>
      cases h
      simp [struckItems, leavesItems, Json.leavesItems]
  | cons item rest =>
      obtain ⟨value, hvalue, h⟩ := Outcomes.bind_ok.mp h
      obtain ⟨others, hothers, rfl⟩ := Outcomes.map_ok.mp h
      simp only [struckItems, leavesItems, Json.leavesItems, List.mem_append, exists_or,
        mem_leaves_iff hvalid.1.2.1 hvalue, mem_leavesItems_iff hvalid.2 hothers]

theorem mem_leavesMembers_iff {members : List (Spaced Label × Spaced Source)}
    {fields : List (Text × Json)} (hvalid : ValidMembers members)
    (h : valueMembers members = .ok fields) {leaf : Json} :
    leaf ∈ Json.leavesFields (Assoc.latest fields) ↔
      ∃ written, (written, .ok leaf) ∈ leavesMembers (struckMembers members) := by
  cases members with
  | nil =>
      cases h
      simp [struckMembers, leavesMembers, Json.leavesFields, Assoc.latest]
  | cons member rest =>
      obtain ⟨value, hvalue, h⟩ := Outcomes.bind_ok.mp h
      obtain ⟨others, hothers, rfl⟩ := Outcomes.map_ok.mp h
      rw [struckMembers, Assoc.latest, keys_of_valueMembers hothers]
      split
      · exact mem_leavesMembers_iff hvalid.2.2 hothers
      · simp only [leavesMembers, Json.leavesFields, List.mem_append, exists_or,
          mem_leaves_iff hvalid.2.1.2.1 hvalue, mem_leavesMembers_iff hvalid.2.2 hothers]

end

mutual

/-- **No key comes twice** in the value of a text. -/
theorem keysDistinct_value {source : Source} {value : Json} (hvalid : source.Valid)
    (h : source.value = .ok value) : value.KeysDistinct := by
  cases source with
  | scalar written outcome =>
      obtain rfl : outcome = .ok value := h
      have hdepth := (leaf_of_spellsScalar hvalid).2
      cases value with
      | array | object => simp [Json.depth] at hdepth
      | _ => trivial
  | array blank items =>
      obtain ⟨values, hvalues, rfl⟩ := Outcomes.map_ok.mp h
      exact keysDistinctItems_value hvalid.2 hvalues
  | object blank members =>
      obtain ⟨fields, hfields, rfl⟩ := Outcomes.map_ok.mp h
      refine ⟨Assoc.nodup_keys_ofPairs fields, Json.keysDistinctFields_iff.mpr ?_⟩
      intro field hmem
      obtain ⟨pair, hpair, hvalue⟩ := Assoc.mem_ofPairs hmem
      rw [← hvalue]
      exact keysDistinctFields_value hvalid.2 hfields pair hpair

theorem keysDistinctItems_value {items : List (Spaced Source)} {values : List Json}
    (hvalid : ValidItems items) (h : valueItems items = .ok values) :
    Json.KeysDistinctItems values := by
  cases items with
  | nil =>
      cases h
      trivial
  | cons item rest =>
      obtain ⟨value, hvalue, h⟩ := Outcomes.bind_ok.mp h
      obtain ⟨others, hothers, rfl⟩ := Outcomes.map_ok.mp h
      exact ⟨keysDistinct_value hvalid.1.2.1 hvalue, keysDistinctItems_value hvalid.2 hothers⟩

theorem keysDistinctFields_value {members : List (Spaced Label × Spaced Source)}
    {fields : List (Text × Json)} (hvalid : ValidMembers members)
    (h : valueMembers members = .ok fields) : ∀ field ∈ fields, field.2.KeysDistinct := by
  cases members with
  | nil =>
      cases h
      simp
  | cons member rest =>
      obtain ⟨value, hvalue, h⟩ := Outcomes.bind_ok.mp h
      obtain ⟨others, hothers, rfl⟩ := Outcomes.map_ok.mp h
      rw [List.forall_mem_cons]
      exact ⟨keysDistinct_value hvalid.2.1.2.1 hvalue,
        keysDistinctFields_value hvalid.2.2 hothers⟩

end

end Source

end JsonDecoding
