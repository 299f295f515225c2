import Mathlib.RingTheory.ZMod.UnitsCyclic
import JsonDecoding.Data.Sets

/-!
# Slots of sets

A set loses no element on the way to its slots. The series of slots that is looked at for an element
jumps from `s` to `5 * s + 1`, and once the hash has been used up it visits every slot
(`exists_jumps`), as the powers of five are all different up to a fourth of a power of two. So a
free slot is found as long as there is one, and the table that elements are placed in has exactly
these elements (`SlotTable.arranged_perm`).
-/

namespace JsonDecoding.SlotTable

/-! ## The series -/

/-- Where the series goes on when the hash has been used up, with `2 ^ bits` slots. -/
def jump (bits slot : Nat) : Nat := (slot * 5 + 1) % 2 ^ bits

/-- Four times a slot and one more is multiplied by five in each jump. -/
theorem cast_jump (bits slot : Nat) :
    ((4 * jump bits slot + 1 : Nat) : ZMod (2 ^ (bits + 2))) =
      5 * ((4 * slot + 1 : Nat) : ZMod _) := by
  have hmod : 4 * jump bits slot ≡ 4 * (slot * 5 + 1) [MOD 4 * 2 ^ bits] :=
    (Nat.mod_modEq _ _).mul_left' 4
  have hsize : 4 * 2 ^ bits = 2 ^ (bits + 2) := by ring
  rw [hsize] at hmod
  have hcast := (ZMod.natCast_eq_natCast_iff _ _ _).mpr hmod
  push_cast at hcast ⊢
  rw [hcast]
  ring

theorem cast_iterate_jump (bits slot jumps : Nat) :
    ((4 * (jump bits)^[jumps] slot + 1 : Nat) : ZMod (2 ^ (bits + 2))) =
      5 ^ jumps * ((4 * slot + 1 : Nat) : ZMod _) := by
  induction jumps with
  | zero => simp
  | succ jumps ih => rw [Function.iterate_succ_apply', cast_jump, ih, pow_succ]; ring

/-- **The series visits every slot.** -/
theorem exists_jumps {bits slot target : Nat} (hslot : slot < 2 ^ bits)
    (htarget : target < 2 ^ bits) : ∃ jumps < 2 ^ bits, (jump bits)^[jumps] slot = target := by
  have hbound (jumps : Nat) : (jump bits)^[jumps] slot < 2 ^ bits := by
    cases jumps with
    | zero => exact hslot
    | succ jumps =>
        rw [Function.iterate_succ_apply']
        exact Nat.mod_lt _ (Nat.two_pow_pos bits)
  have hunit : IsUnit ((4 * slot + 1 : Nat) : ZMod (2 ^ (bits + 2))) := by
    rw [ZMod.isUnit_iff_coprime]
    exact (Nat.coprime_pow_right_iff (by omega) _ _).mpr (by
      rw [Nat.coprime_two_right]
      exact ⟨2 * slot, by ring⟩)
  -- as many slots are visited as there are, for no slot is visited twice
  let visit : Fin (2 ^ bits) → Fin (2 ^ bits) := fun jumps => ⟨_, hbound jumps⟩
  have hinjective : Function.Injective visit := by
    intro i j hij
    have hsame : (jump bits)^[i] slot = (jump bits)^[j] slot := congrArg Fin.val hij
    have hpowers := cast_iterate_jump bits slot i
    rw [hsame, cast_iterate_jump, hunit.mul_left_inj] at hpowers
    have horder := ZMod.orderOf_five bits
    exact Fin.ext (pow_injOn_Iio_orderOf (by simp [horder]) (by simp [horder]) hpowers.symm)
  obtain ⟨jumps, hjumps⟩ := Finite.injective_iff_surjective.mp hinjective ⟨target, htarget⟩
  exact ⟨jumps, jumps.isLt, congrArg Fin.val hjumps⟩

/-- Where the series stands after jumps, the first ones led by the perturbation. -/
def series (mask : Nat) : Nat → Nat → Nat → Nat
  | 0, _, start => start
  | jumps + 1, perturbation, start =>
      series mask jumps (perturbation / 32) ((start * 5 + 1 + perturbation / 32) % (mask + 1))

theorem series_add (mask : Nat) (first more perturbation start : Nat) :
    series mask (first + more) perturbation start =
      series mask more (perturbation / 32 ^ first) (series mask first perturbation start) := by
  induction first generalizing perturbation start with
  | zero => simp [series]
  | succ first ih =>
      rw [Nat.add_right_comm, series, ih, series, Nat.div_div_eq_div_mul, pow_succ']

/-- What is left of a perturbation below 32 is nothing. -/
theorem series_of_small {bits mask perturbation : Nat} (hmask : mask + 1 = 2 ^ bits)
    (hsmall : perturbation < 32) (jumps start : Nat) :
    series mask jumps perturbation start = (jump bits)^[jumps] start := by
  induction jumps generalizing perturbation start with
  | zero => rfl
  | succ jumps ih =>
      have hnone : perturbation / 32 = 0 := by omega
      rw [series, hnone, ih (by omega), Function.iterate_succ_apply, jump, hmask, Nat.add_zero]

theorem series_le {mask : Nat} {start : Nat} (hstart : start ≤ mask) (jumps perturbation : Nat) :
    series mask jumps perturbation start ≤ mask := by
  induction jumps generalizing perturbation start with
  | zero => exact hstart
  | succ jumps ih =>
      exact ih (Nat.lt_succ_iff.mp (Nat.mod_lt _ (Nat.succ_pos mask))) _

variable {α : Type}

/-- A slot that the series comes to in time, if it is free, leads to a free slot. -/
theorem isFree_freeSlot {t : SlotTable α} {fuel perturbation start : Nat} (hstart : start ≤ t.mask)
    (h : ∃ jumps < fuel, t.isFree (series t.mask jumps perturbation start) = true) :
    t.isFree (t.freeSlot fuel perturbation start) = true ∧
      t.freeSlot fuel perturbation start ≤ t.mask := by
  induction fuel generalizing perturbation start with
  | zero =>
      obtain ⟨jumps, hjumps, -⟩ := h
      omega
  | succ fuel ih =>
      simp only [freeSlot]
      generalize hneighbours : (if start + 9 ≤ t.mask then 9 else 0) = neighbours
      have hbound : start + neighbours ≤ t.mask := by
        split at hneighbours <;> omega
      cases hfind : (List.range (neighbours + 1)).find? fun step => t.isFree (start + step) with
      | some step =>
          have hfree : t.isFree (start + step) = true := by simpa using List.find?_some hfind
          have hrange := List.mem_range.mp (List.mem_of_find?_eq_some hfind)
          have hle : start + step ≤ t.mask := by omega
          exact ⟨hfree, hle⟩
      | none =>
          obtain ⟨jumps, hjumps, hfree⟩ := h
          cases jumps with
          | zero => simpa [series] using (List.find?_eq_none.mp hfind 0 (by simp)) hfree
          | succ jumps =>
              exact ih (Nat.lt_succ_iff.mp (Nat.mod_lt _ (Nat.succ_pos _)))
                ⟨jumps, by omega, hfree⟩

/-! ## Placing elements -/

/-- A table whose slots are as many as it says, with words for hashes. -/
structure Sound (t : SlotTable α) : Prop where
  size : ∃ bits, t.mask + 1 = 2 ^ bits
  slots : t.slots.size = t.mask + 1
  used : t.used = t.entries.length
  words : ∀ entry ∈ t.entries, entry.1 < Hash.wordSize

theorem isFree_iff {t : SlotTable α} {slot : Nat} (h : slot < t.slots.toList.length) :
    t.isFree slot = true ↔ t.slots.toList[slot] = none := by
  rw [Array.length_toList] at h
  simp [isFree, h]

/-- A table that is not full has a free slot. -/
theorem Sound.exists_free {t : SlotTable α} (h : t.Sound) (hroom : t.used < t.mask + 1) :
    ∃ slot ≤ t.mask, t.isFree slot = true := by
  by_contra hnone
  push Not at hnone
  have hall : ∀ slot ∈ t.slots.toList, slot.isSome = true := by
    intro slot hslot
    obtain ⟨index, hindex, rfl⟩ := List.getElem_of_mem hslot
    have hlength : index < t.mask + 1 := by simpa [h.slots] using hindex
    have htaken := hnone index (by omega)
    rw [ne_eq, isFree_iff hindex] at htaken
    exact Option.isSome_iff_ne_none.mpr htaken
  have hfull : t.entries.length = t.slots.toList.length :=
    List.filterMap_length_eq_length.mpr hall
  rw [← h.used, Array.length_toList, h.slots] at hfull
  omega

/-- **A free slot is found** for every hash while there is one. -/
theorem Sound.isFree_freeSlot {t : SlotTable α} (h : t.Sound) (hroom : t.used < t.mask + 1)
    {hash : Nat} (hhash : hash < Hash.wordSize) :
    t.isFree (t.freeSlot t.jumps hash (hash % (t.mask + 1))) = true ∧
      t.freeSlot t.jumps hash (hash % (t.mask + 1)) ≤ t.mask := by
  obtain ⟨bits, hbits⟩ := h.size
  obtain ⟨target, htarget, hfree⟩ := h.exists_free hroom
  have hstart : hash % (t.mask + 1) ≤ t.mask := Nat.lt_succ_iff.mp (Nat.mod_lt _ (Nat.succ_pos _))
  -- twelve jumps use up the hash but for a rest that the next one drops
  have hspent : hash / 32 ^ 12 < 32 := by
    refine Nat.div_lt_of_lt_mul (lt_of_lt_of_le hhash ?_)
    decide
  have hlast := series_le hstart 12 hash
  have hslot : series t.mask 12 hash (hash % (t.mask + 1)) < 2 ^ bits := by omega
  have hbelow : target < 2 ^ bits := by omega
  obtain ⟨jumps, hjumps, hvisit⟩ := exists_jumps hslot hbelow
  refine SlotTable.isFree_freeSlot hstart ⟨12 + jumps, ?_, ?_⟩
  · simp only [SlotTable.jumps]
    omega
  · rw [series_add, series_of_small hbits hspent, hvisit]
    exact hfree

/-- What is put in a free slot comes to the entries, and nothing is lost. -/
theorem filterMap_set_perm {slots : List (Option (Nat × α))} {slot : Nat}
    (h : slot < slots.length) (hfree : slots[slot] = none) (entry : Nat × α) :
    ((slots.set slot (some entry)).filterMap id).Perm (entry :: slots.filterMap id) := by
  have hset := (List.set_perm_cons_eraseIdx h (some entry)).filterMap id
  have herase := (List.getElem_cons_eraseIdx_perm h).filterMap id
  rw [hfree] at herase
  exact hset.trans (herase.cons entry)

/-- **One more element** is placed beside all others. -/
theorem Sound.place {t : SlotTable α} (h : t.Sound) (hroom : t.used < t.mask + 1) {hash : Nat}
    (hhash : hash < Hash.wordSize) (element : α) :
    (t.place hash element).Sound ∧
      (t.place hash element).entries.Perm ((hash, element) :: t.entries) := by
  obtain ⟨hfree, hslot⟩ := h.isFree_freeSlot hroom hhash
  have hindex : t.freeSlot t.jumps hash (hash % (t.mask + 1)) < t.slots.toList.length := by
    rw [Array.length_toList, h.slots]
    omega
  have hperm : (t.place hash element).entries.Perm ((hash, element) :: t.entries) := by
    rw [entries, SlotTable.place, Array.toList_setIfInBounds]
    exact filterMap_set_perm hindex ((isFree_iff hindex).mp hfree) _
  refine ⟨⟨h.size, ?_, ?_, fun entry hentry => ?_⟩, hperm⟩
  · simpa [SlotTable.place] using h.slots
  · rw [hperm.length_eq, List.length_cons, ← h.used]
    rfl
  · rcases List.mem_cons.mp (hperm.mem_iff.mp hentry) with rfl | hold
    · exact hhash
    · exact h.words entry hold

/-- **Elements one by one** are all placed, if there are slots for them. -/
theorem Sound.foldl_place {t : SlotTable α} (h : t.Sound) {elements : List (Nat × α)}
    (hwords : ∀ element ∈ elements, element.1 < Hash.wordSize)
    (hroom : t.used + elements.length ≤ t.mask + 1) :
    let filled := elements.foldl (fun t element => t.place element.1 element.2) t
    filled.Sound ∧ filled.mask = t.mask ∧ filled.entries.Perm (elements ++ t.entries) := by
  induction elements generalizing t with
  | nil => exact ⟨h, rfl, .rfl⟩
  | cons element rest ih =>
      simp only [List.mem_cons, forall_eq_or_imp, List.length_cons] at hwords hroom
      obtain ⟨hsound, hperm⟩ := h.place (by omega) hwords.1 element.2
      obtain ⟨hfilled, hmask, hrest⟩ := ih hsound hwords.2 (by simp only [SlotTable.place]; omega)
      refine ⟨hfilled, hmask, hrest.trans ?_⟩
      exact (hperm.append_left rest).trans List.perm_middle

theorem entries_empty (size : Nat) : (empty size : SlotTable α).entries = [] := by
  simp [entries, empty]

theorem sound_empty (bits : Nat) : (empty (2 ^ bits) : SlotTable α).Sound where
  size := ⟨bits, Nat.sub_add_cancel (Nat.two_pow_pos bits)⟩
  slots := by simp [empty, Nat.sub_add_cancel (Nat.two_pow_pos bits)]
  used := by rw [entries_empty]; rfl
  words := by simp [entries_empty]

/-- A size above a number is a power of two. -/
theorem exists_sizeAbove {number fuel bits : Nat} (h : number < 2 ^ fuel * 2 ^ bits) :
    ∃ more, sizeAbove number fuel (2 ^ bits) = 2 ^ more ∧ number < 2 ^ more := by
  induction fuel generalizing bits with
  | zero => exact ⟨bits, rfl, by simpa using h⟩
  | succ fuel ih =>
      unfold sizeAbove
      split
      · rw [← pow_succ']
        refine ih (lt_of_lt_of_eq h ?_)
        ring
      · exact ⟨bits, rfl, by omega⟩

/-- A table has room for more elements, and is never more than three fifths full. -/
def Roomy (t : SlotTable α) : Prop := t.used * 5 < t.mask * 3

/-- **A table that has grown** has the same elements, and room again. -/
theorem Sound.grown {t : SlotTable α} (h : t.Sound) (hused : 0 < t.used) :
    t.grown.Sound ∧ t.grown.Roomy ∧ t.grown.entries.Perm t.entries := by
  unfold SlotTable.grown
  split
  · next hroomy => exact ⟨h, hroomy, .rfl⟩
  · generalize hroom : (if 50000 < t.used then t.used * 2 else t.used * 4) = room
    have hdouble : t.used * 2 ≤ room := by split at hroom <;> omega
    have hbound : room < 2 ^ room.log2 * 2 ^ 3 := by
      have hlog : room < 2 ^ (room.log2 + 1) := Nat.lt_log2_self
      rw [pow_succ] at hlog
      omega
    obtain ⟨bits, hsize, hbits⟩ := exists_sizeAbove hbound
    have hleast : (2 : Nat) ^ 3 = 8 := rfl
    rw [hleast] at hsize
    simp only [hsize]
    have hmask : (empty (2 ^ bits) : SlotTable α).mask + 1 = 2 ^ bits :=
      Nat.sub_add_cancel (Nat.two_pow_pos bits)
    have hplaces : (empty (2 ^ bits) : SlotTable α).used + t.entries.length ≤
        (empty (2 ^ bits) : SlotTable α).mask + 1 := by
      rw [hmask, ← h.used]
      simp only [empty]
      omega
    obtain ⟨hsound, hsame, hperm⟩ := (sound_empty bits).foldl_place h.words hplaces
    rw [entries_empty, List.append_nil] at hperm
    refine ⟨hsound, ?_, hperm⟩
    have hfilled := hsound.used
    rw [hperm.length_eq, ← h.used] at hfilled
    rw [Roomy, hsame, hfilled]
    omega

/-- **A set lists each of its elements once**, in the order of slots. -/
theorem arranged_perm {elements : List (Nat × α)}
    (hwords : ∀ element ∈ elements, element.1 < Hash.wordSize) :
    (arranged elements).Perm (elements.map Prod.snd) := by
  have hfold (t : SlotTable α) (ht : t.Sound) (hroomy : t.Roomy) :
      (elements.foldl (fun t element => (t.place element.1 element.2).grown) t).entries.Perm
        (elements ++ t.entries) := by
    induction elements generalizing t with
    | nil => exact .rfl
    | cons element rest ih =>
        simp only [List.mem_cons, forall_eq_or_imp] at hwords
        have hroom : t.used < t.mask + 1 := by
          unfold Roomy at hroomy
          omega
        obtain ⟨hplaced, hperm⟩ := ht.place hroom hwords.1 element.2
        obtain ⟨hgrown, hagain, hsame⟩ := hplaced.grown (Nat.succ_pos _)
        refine (ih hwords.2 _ hgrown hagain).trans ?_
        exact ((hsame.trans hperm).append_left rest).trans List.perm_middle
  have hentries := hfold (empty (2 ^ 3)) (sound_empty 3) (by simp [Roomy, empty])
  rw [entries_empty, List.append_nil] at hentries
  exact hentries.map Prod.snd

end JsonDecoding.SlotTable
