/-!
# Ordered entries

A finite map kept as a list of entries in order of first arrival. Reading takes the first entry
whose key is equal (`List.lookup`); writing replaces the value of that entry and leaves its key
and its place alone, or adds an entry at the end. Keys are compared by `==`, which may identify
different keys.
-/

namespace JsonDecoding.Assoc

variable {κ α : Type}

/-- Writes a value under a key. -/
def put [BEq κ] (key : κ) (value : α) : List (κ × α) → List (κ × α)
  | [] => [(key, value)]
  | (k, old) :: rest =>
      if key == k then (k, value) :: rest else (k, old) :: put key value rest

/-- The entries that remain when pairs are written one after the other. -/
def ofPairs [BEq κ] (pairs : List (κ × α)) : List (κ × α) :=
  pairs.foldl (fun entries pair => put pair.1 pair.2 entries) []

/-- The keys in order of first arrival. -/
def keys (entries : List (κ × α)) : List κ := entries.map Prod.fst

/-! ## What a write changes -/

variable [BEq κ]

theorem keys_put (key : κ) (value : α) (entries : List (κ × α)) :
    keys (put key value entries) =
      if (entries.lookup key).isSome then keys entries else keys entries ++ [key] := by
  induction entries with
  | nil => rfl
  | cons entry rest ih =>
    obtain ⟨k, old⟩ := entry
    cases h : key == k
    · simp only [put, h, List.lookup_cons, keys, List.map_cons, Bool.false_eq_true,
        if_false] at ih ⊢
      rw [ih]
      split <;> simp
    · simp [put, h, List.lookup_cons, keys]

theorem lookup_put [LawfulBEq κ] (key other : κ) (value : α) (entries : List (κ × α)) :
    (put key value entries).lookup other =
      if other == key then some value else entries.lookup other := by
  induction entries with
  | nil => cases h : other == key <;> simp [put, List.lookup_cons, h]
  | cons entry rest ih =>
    obtain ⟨k, old⟩ := entry
    cases hk : key == k
    · cases ho : other == k
      · simp [put, List.lookup_cons, hk, ho, ih]
      · have hne : (other == key) = false := by
          rw [beq_iff_eq] at ho
          subst ho
          rwa [BEq.comm]
        simp [put, List.lookup_cons, hk, ho, hne]
    · rw [beq_iff_eq] at hk
      subst hk
      cases h : other == key <;> simp [put, List.lookup_cons, h]

/-- With distinct keys, an entry is what its key leads to. -/
theorem lookup_of_mem [LawfulBEq κ] {entries : List (κ × α)} (h : (keys entries).Nodup) {key : κ}
    {value : α} (hmem : (key, value) ∈ entries) : entries.lookup key = some value := by
  induction entries with
  | nil => cases hmem
  | cons first rest ih =>
      obtain ⟨k, v⟩ := first
      simp only [keys, List.map_cons, List.nodup_cons] at h
      rcases List.mem_cons.mp hmem with heq | hrest
      · cases heq
        simp
      · have hne : key ≠ k := by
          rintro rfl
          exact h.1 (List.mem_map.mpr ⟨(key, value), hrest, rfl⟩)
        rw [List.lookup_cons, beq_false_of_ne hne]
        exact ih h.2 hrest

/-- A key that is new is written at the end. -/
theorem put_of_notMem [LawfulBEq κ] {key : κ} {entries : List (κ × α)} (h : key ∉ keys entries)
    (value : α) : put key value entries = entries ++ [(key, value)] := by
  induction entries with
  | nil => rfl
  | cons entry rest ih =>
      obtain ⟨k, old⟩ := entry
      simp only [keys, List.map_cons, List.mem_cons, not_or] at h
      rw [put, beq_false_of_ne h.1, ih h.2]
      rfl

/-- Pairs are written at the end as long as all keys are distinct, those written before included. -/
theorem foldl_put_of_nodup [LawfulBEq κ] {pairs written : List (κ × α)}
    (h : (keys (written ++ pairs)).Nodup) :
    pairs.foldl (fun entries pair => put pair.1 pair.2 entries) written = written ++ pairs := by
  induction pairs generalizing written with
  | nil => simp
  | cons pair rest ih =>
      have hnew : pair.1 ∉ keys written := by
        simp only [keys, List.map_append, List.map_cons, List.nodup_append] at h
        intro hmem
        exact h.2.2 _ hmem _ (by simp) rfl
      rw [List.foldl_cons, put_of_notMem hnew, ih (by simpa using h)]
      simp

/-- Pairs with distinct keys all remain as they are. -/
theorem ofPairs_of_nodup [LawfulBEq κ] {pairs : List (κ × α)} (h : (keys pairs).Nodup) :
    ofPairs pairs = pairs := foldl_put_of_nodup h

/-- What is written under a key is found among the entries, all others were there before. -/
theorem mem_put {key : κ} {value : α} {entries : List (κ × α)} {entry : κ × α}
    (h : entry ∈ put key value entries) : entry.2 = value ∨ entry ∈ entries := by
  induction entries with
  | nil =>
      obtain rfl := List.mem_singleton.mp h
      exact .inl rfl
  | cons first rest ih =>
      obtain ⟨k, old⟩ := first
      unfold put at h
      split at h
      · rcases List.mem_cons.mp h with rfl | hrest
        · exact .inl rfl
        · exact .inr (List.mem_cons_of_mem _ hrest)
      · rcases List.mem_cons.mp h with rfl | hrest
        · exact .inr (List.mem_cons_self ..)
        · exact (ih hrest).imp_right (List.mem_cons_of_mem _)

theorem mem_foldl_put {pairs written : List (κ × α)} {entry : κ × α}
    (h : entry ∈ pairs.foldl (fun entries pair => put pair.1 pair.2 entries) written) :
    entry ∈ written ∨ ∃ pair ∈ pairs, pair.2 = entry.2 := by
  induction pairs generalizing written with
  | nil => exact .inl h
  | cons pair rest ih =>
      rcases ih h with hwritten | ⟨later, hlater, hvalue⟩
      · rcases mem_put hwritten with hvalue | hbefore
        · exact .inr ⟨pair, List.mem_cons_self .., hvalue.symm⟩
        · exact .inl hbefore
      · exact .inr ⟨later, List.mem_cons_of_mem _ hlater, hvalue⟩

/-- Every value that remains was written by one of the pairs. -/
theorem mem_ofPairs {pairs : List (κ × α)} {entry : κ × α} (h : entry ∈ ofPairs pairs) :
    ∃ pair ∈ pairs, pair.2 = entry.2 := (mem_foldl_put h).resolve_left (by simp)

end JsonDecoding.Assoc
