import Mathlib.Data.List.Dedup
import JsonDecoding.Proofs.Merging
import JsonDecoding.Proofs.RecordFields

/-!
# Keys shared by fields

Fields of a record class may be mapped to one key. A field that loses its key to a later one is
never given to the constructor, and neither is a field whose key has become optional through another
one and is absent (`RecordClass.isSome_lookup_given`), or an argument of the hook. Where one of these
has no default, the complaint of the generated constructor about it ends the decoding, whatever is
around it (`RecordClass.constructors_lack_fields_with_shared_keys`).
-/

namespace JsonDecoding

open Attempt Decoder

namespace RecordClass

variable {c : RecordClass} {mapping : List (Text × Text)} {description : Text} {schema : Schema}
  {step : Spec → Json → Attempt Data} {content : List (Text × Json)} {requests : List KeyRequest}
  {given : Values}

/-! ## Fields that share keys -/

/-- The initial fields that are mapped to a key. -/
def sharing (c : RecordClass) (mapping : List (Text × Text)) (key : Text) : List RecordField :=
  (c.fields.filter RecordField.isInitial).filter fun field =>
    KeyRequest.renamed mapping field.name == key

/-- The name of the field that a key is read for: the last of those that are mapped to it. -/
def reader? (c : RecordClass) (mapping : List (Text × Text)) (key : Text) : Option Text :=
  ((c.sharing mapping key).map RecordField.name).getLast?

/-- Whether an object supplies a field: the field is initial, and the object has its key, which is
read for this field. -/
def supplies (c : RecordClass) (mapping : List (Text × Text)) (content : List (Text × Json))
    (field : RecordField) : Bool :=
  field.isInitial && (c.reader? mapping (KeyRequest.renamed mapping field.name) == some field.name &&
    (Assoc.keys content).contains (KeyRequest.renamed mapping field.name))

/-- The names of the fields without a default that the constructor takes and an object does not
supply. -/
def lacking (c : RecordClass) (mapping : List (Text × Text)) (content : List (Text × Json)) :
    List Text :=
  (c.fields.filter fun field =>
    field.isTaken && (field.default.isNone && !c.supplies mapping content field)).map
      RecordField.name

/-- What the code of a class itself complains of: a constructor of its own, or the hook that the
generated constructor asks. -/
def Complains (c : RecordClass) (complaint : Complaint) : Prop :=
  match c.ownConstructor with
  | some build => ∃ given, build given = .error complaint
  | none => ∃ values arguments, c.complete values arguments = .error complaint

/-- All arguments of the hook have a default. -/
def ArgumentsDefaulted (c : RecordClass) : Prop :=
  ∀ field ∈ c.fields, field.role = .argument → field.default ≠ none

/-- The keys of an object pass: it has no other keys than those of initial fields, and each key that
no field with a default is mapped to. -/
structure KeysPass (c : RecordClass) (mapping : List (Text × Text))
    (content : List (Text × Json)) : Prop where
  known : ∀ key ∈ Assoc.keys content, key ∈ c.initialKeys mapping
  required : ∀ key ∈ c.initialKeys mapping,
    (∀ field ∈ c.sharing mapping key, field.default = none) → key ∈ Assoc.keys content

/-- All that is read for a field decodes by its annotation. -/
def AllDecode (c : RecordClass) (mapping : List (Text × Text))
    (step : Spec → Json → Attempt Data) (content : List (Text × Json)) : Prop :=
  ∀ key, ∀ field ∈ c.sharing mapping key, c.reader? mapping key = some field.name →
    ∀ item, content.lookup key = some item →
      ∃ spec data, c.Annotates field spec ∧ (step spec item).result = .ok data

/-- No initial field without a default shares its key. -/
def KeysApart (c : RecordClass) (mapping : List (Text × Text)) : Prop :=
  ∀ key, ∀ field ∈ c.sharing mapping key, field.default = none →
    ∀ other ∈ c.sharing mapping key, other = field

theorem mem_sharing {key : Text} {field : RecordField} :
    field ∈ c.sharing mapping key ↔
      (field ∈ c.fields ∧ field.isInitial = true) ∧
        KeyRequest.renamed mapping field.name = key := by
  simp only [sharing, List.mem_filter, beq_iff_eq]

theorem mem_initialKeys {key : Text} :
    key ∈ c.initialKeys mapping ↔ ∃ field, field ∈ c.sharing mapping key := by
  simp only [initialKeys, List.mem_map, List.mem_filter, mem_sharing]

theorem mem_lacking {name : Text} :
    name ∈ c.lacking mapping content ↔ ∃ field ∈ c.fields, field.isTaken = true ∧
      field.default = none ∧ c.supplies mapping content field = false ∧ field.name = name := by
  simp only [lacking, List.mem_map, List.mem_filter, Bool.and_eq_true, Option.isNone_iff_eq_none,
    Bool.not_eq_true', and_assoc]

theorem supplies_iff {field : RecordField} :
    c.supplies mapping content field = true ↔ field.isInitial = true ∧
      c.reader? mapping (KeyRequest.renamed mapping field.name) = some field.name ∧
        KeyRequest.renamed mapping field.name ∈ Assoc.keys content := by
  simp [supplies]

/-- Fields of one name are one. -/
theorem eq_of_name_eq (hnames : (c.fields.map RecordField.name).Nodup) {field other : RecordField}
    (hfield : field ∈ c.fields) (hother : other ∈ c.fields) (h : field.name = other.name) :
    field = other := List.inj_on_of_nodup_map hnames hfield hother h

/-- A key that is asked for is read for one of the fields that share it. -/
theorem exists_reader {key : Text} (h : key ∈ c.initialKeys mapping) :
    ∃ field ∈ c.sharing mapping key, c.reader? mapping key = some field.name := by
  obtain ⟨first, hfirst⟩ := mem_initialKeys.mp h
  obtain ⟨name, hname⟩ : ∃ name, c.reader? mapping key = some name := by
    refine Option.ne_none_iff_exists'.mp fun hnone => ?_
    rw [reader?, List.getLast?_eq_none_iff, List.map_eq_nil_iff] at hnone
    rw [hnone] at hfirst
    cases hfirst
  obtain ⟨field, hfield, rfl⟩ := List.mem_map.mp (List.mem_of_getLast? hname)
  exact ⟨field, hfield, hname⟩

/-! ## What is never supplied -/

section NeverLacking

/-- An object with some keys. -/
def nulls (keys : List Text) : List (Text × Json) := keys.map fun key => (key, .null)

theorem keys_nulls (keys : List Text) : Assoc.keys (nulls keys) = keys := by
  simp [nulls, Assoc.keys, Function.comp_def]

variable (hnever : ∀ content, (Assoc.keys content).Nodup → c.KeysPass mapping content →
  c.lacking mapping content = [])

include hnever

/-- Where nothing is ever lacking, a field without a default is supplied by the keys that pass. -/
theorem supplied_of_never_lacking {keys : List Text} (hnodup : keys.Nodup)
    (hpass : c.KeysPass mapping (nulls keys)) {key : Text} {field : RecordField}
    (hfield : field ∈ c.sharing mapping key) (hdefault : field.default = none) :
    c.reader? mapping key = some field.name ∧ key ∈ keys := by
  obtain ⟨⟨hmem, hinitial⟩, rfl⟩ := mem_sharing.mp hfield
  have hsupplies : c.supplies mapping (nulls keys) field = true := by
    by_contra hlacking
    have hname := mem_lacking.mpr ⟨field, hmem, RecordField.isTaken_of_isInitial hinitial,
      hdefault, Bool.eq_false_iff.mpr hlacking, rfl⟩
    rw [hnever _ (by rwa [keys_nulls]) hpass] at hname
    cases hname
  obtain ⟨-, hsupplied⟩ := supplies_iff.mp hsupplies
  rwa [keys_nulls] at hsupplied

omit hnever in
/-- The object with all keys passes. -/
theorem keysPass_nulls : c.KeysPass mapping (nulls (c.initialKeys mapping).dedup) := by
  constructor
  · intro asked hasked
    rwa [keys_nulls, List.mem_dedup] at hasked
  · intro asked hasked _
    rwa [keys_nulls, List.mem_dedup]

/-- No object ever supplies an argument of the hook. -/
theorem argumentsDefaulted_of_never_lacking : c.ArgumentsDefaulted := by
  intro field hfield hrole hdefault
  have hsupplies : c.supplies mapping (nulls (c.initialKeys mapping).dedup) field = false := by
    simp [supplies, RecordField.isInitial, hrole]
  have hname := mem_lacking.mpr
    ⟨field, hfield, by simp [RecordField.isTaken, hrole], hdefault, hsupplies, rfl⟩
  rw [hnever _ (by rw [keys_nulls]; exact List.nodup_dedup _) keysPass_nulls] at hname
  cases hname

/-- Of two fields with one key only the last is supplied, and if the other has a default, the key
may be absent. -/
theorem keysApart_of_never_lacking (hnames : (c.fields.map RecordField.name).Nodup) :
    c.KeysApart mapping := by
  intro key field hfield hdefault other hother
  by_cases hrequired : other.default = none
  · -- an object with all keys is read for the last of two required fields
    have hnodup := List.nodup_dedup (c.initialKeys mapping)
    obtain ⟨hreader, -⟩ := supplied_of_never_lacking hnever hnodup keysPass_nulls hfield hdefault
    obtain ⟨hlast, -⟩ := supplied_of_never_lacking hnever hnodup keysPass_nulls hother hrequired
    exact eq_of_name_eq hnames (mem_sharing.mp hother).1.1 (mem_sharing.mp hfield).1.1
      (Option.some.inj (hlast.symm.trans hreader))
  · -- an object without the key passes, since the other field has a default
    have hnodup := (List.nodup_dedup (c.initialKeys mapping)).filter fun asked => asked != key
    have hpass : c.KeysPass mapping
        (nulls ((c.initialKeys mapping).dedup.filter fun asked => asked != key)) := by
      constructor
      · intro asked hasked
        rw [keys_nulls] at hasked
        exact List.mem_dedup.mp (List.mem_filter.mp hasked).1
      · intro asked hasked hnone
        have hne : asked ≠ key := by
          rintro rfl
          exact hrequired (hnone other hother)
        rw [keys_nulls]
        exact List.mem_filter.mpr ⟨List.mem_dedup.mpr hasked, bne_iff_ne.mpr hne⟩
    obtain ⟨-, hpresent⟩ := supplied_of_never_lacking hnever hnodup hpass hfield hdefault
    exact (bne_iff_ne.mp (List.mem_filter.mp hpresent).2 rfl).elim

end NeverLacking

theorem lacking_eq_nil (hapart : c.KeysApart mapping) (harguments : c.ArgumentsDefaulted)
    (hpass : c.KeysPass mapping content) : c.lacking mapping content = [] := by
  refine List.eq_nil_iff_forall_not_mem.mpr fun name hname => ?_
  obtain ⟨field, hfield, htaken, hdefault, hsupplies, rfl⟩ := mem_lacking.mp hname
  have hinitial : field.isInitial = true := by
    cases hrole : field.role with
    | initial => simp [RecordField.isInitial, hrole]
    | internal => simp [RecordField.isTaken, hrole] at htaken
    | argument => exact (harguments field hfield hrole hdefault).elim
  have hshares : field ∈ c.sharing mapping (KeyRequest.renamed mapping field.name) :=
    mem_sharing.mpr ⟨⟨hfield, hinitial⟩, rfl⟩
  have hkey := mem_initialKeys.mpr ⟨field, hshares⟩
  obtain ⟨reader, hreader, hread⟩ := exists_reader hkey
  obtain rfl := hapart _ field hshares hdefault reader hreader
  refine Bool.eq_false_iff.mp hsupplies
    (supplies_iff.mpr ⟨hinitial, hread, hpass.required _ hkey ?_⟩)
  intro other hother
  rw [hapart _ reader hshares hdefault other hother]
  exact hdefault

/-! ## What the constructor is given -/

variable (hrequests : List.Forall₂ (c.Requests mapping) (c.fields.filter RecordField.isInitial)
  requests)

include hrequests

/-- The owner of a key is the field that it is read for. -/
theorem lookup_owners_eq_reader? (key : Text) :
    (KeyRequest.owners requests).lookup key = c.reader? mapping key := by
  have hpairs : (requests.map fun request => (request.key, request.field)) =
      (c.fields.filter RecordField.isInitial).map fun field =>
        (KeyRequest.renamed mapping field.name, field.name) := by
    generalize c.fields.filter RecordField.isInitial = initial at hrequests
    induction hrequests with
    | nil => rfl
    | cons hfirst _ ih => rw [List.map_cons, List.map_cons, hfirst.1, hfirst.2.1, ih]
  rw [KeyRequest.owners, hpairs, Assoc.lookup_ofPairs, List.filter_map, List.map_map]
  rfl

theorem keys_of_requests : requests.map KeyRequest.key = c.initialKeys mapping := by
  unfold initialKeys
  generalize c.fields.filter RecordField.isInitial = initial at hrequests
  induction hrequests with
  | nil => rfl
  | cons hfirst _ ih => rw [List.map_cons, List.map_cons, hfirst.1, ih]

/-- A key is optional through any of the fields that share it. -/
theorem mem_optionalKeys {key : Text} :
    key ∈ KeyRequest.optionalKeys requests ↔
      ∃ field ∈ c.sharing mapping key, field.default ≠ none := by
  simp only [KeyRequest.optionalKeys, List.mem_map, List.mem_filter]
  constructor
  · rintro ⟨request, ⟨hrequest, hoptional⟩, rfl⟩
    obtain ⟨field, hfield, hkey, -, -, hdefault⟩ :=
      Outcomes.exists_of_forall₂ hrequests.flip hrequest
    refine ⟨field, mem_sharing.mpr ⟨List.mem_filter.mp hfield, hkey.symm⟩, ?_⟩
    rwa [hdefault, Option.isSome_iff_ne_none] at hoptional
  · rintro ⟨field, hfield, hdefault⟩
    obtain ⟨hinitial, rfl⟩ := mem_sharing.mp hfield
    obtain ⟨request, hrequest, hkey, -, -, hoptional⟩ :=
      Outcomes.exists_of_forall₂ hrequests (List.mem_filter.mpr hinitial)
    refine ⟨request, ⟨hrequest, ?_⟩, hkey⟩
    rwa [hoptional, Option.isSome_iff_ne_none]

/-- A request that remains is optional through any of the fields that share its key. -/
theorem isOptional_merged_iff {request : KeyRequest}
    (h : request ∈ KeyRequest.merged requests) :
    request.isOptional = true ↔ ∃ field ∈ c.sharing mapping request.key, field.default ≠ none := by
  obtain ⟨original, -, rfl⟩ := KeyRequest.exists_of_mem_merged h
  exact List.contains_iff_mem.trans (mem_optionalKeys hrequests)

/-- The keys of an object fit the requests that remain when they pass. -/
theorem keysFit_merged_iff :
    KeyRequest.KeysFit (KeyRequest.merged requests) content ↔ c.KeysPass mapping content := by
  have hkeys := keys_of_requests hrequests
  constructor
  · rintro ⟨hknown, hrequired⟩
    constructor
    · intro key hkey
      obtain ⟨request, hrequest, rfl⟩ := hknown key hkey
      rw [← hkeys]
      exact KeyRequest.mem_keys_merged.mp (List.mem_map_of_mem hrequest)
    · intro key hkey hnone
      rw [← hkeys, ← KeyRequest.mem_keys_merged] at hkey
      obtain ⟨request, hrequest, rfl⟩ := List.mem_map.mp hkey
      refine hrequired request hrequest (Bool.eq_false_iff.mpr fun hoptional => ?_)
      obtain ⟨field, hfield, hdefault⟩ := (isOptional_merged_iff hrequests hrequest).mp hoptional
      exact hdefault (hnone field hfield)
  · rintro ⟨hknown, hrequired⟩
    constructor
    · intro key hkey
      have hasked := hknown key hkey
      rw [← hkeys, ← KeyRequest.mem_keys_merged] at hasked
      exact List.mem_map.mp hasked
    · intro request hrequest hoptional
      have hasked := KeyRequest.mem_keys_merged.mp (List.mem_map_of_mem hrequest)
      rw [hkeys] at hasked
      refine hrequired request.key hasked fun field hfield => ?_
      by_contra hdefault
      exact Bool.eq_false_iff.mp hoptional
        ((isOptional_merged_iff hrequests hrequest).mpr ⟨field, hfield, hdefault⟩)

/-- A request that remains is that of the field that its key is read for. -/
theorem exists_field_of_merged {request : KeyRequest} (h : request ∈ KeyRequest.merged requests) :
    ∃ field ∈ c.sharing mapping request.key, c.reader? mapping request.key = some field.name ∧
      request.field = field.name ∧ field.hint.resolved c.scope = .ok request.hint := by
  have howner := KeyRequest.lookup_owners (KeyRequest.nodup_keys_merged requests) h
  rw [KeyRequest.owners_merged, lookup_owners_eq_reader? hrequests] at howner
  obtain ⟨original, horiginal, rfl⟩ := KeyRequest.exists_of_mem_merged h
  obtain ⟨field, hfield, hkey, hname, hhint, -⟩ :=
    Outcomes.exists_of_forall₂ hrequests.flip horiginal
  have hshares := mem_sharing.mpr ⟨List.mem_filter.mp hfield, hkey.symm⟩
  exact ⟨field, hshares, hname ▸ howner, hname, hhint⟩

/-- The field that a key is read for has a request that remains. -/
theorem exists_merged_of_field (hnames : (c.fields.map RecordField.name).Nodup) {key : Text}
    {field : RecordField} (hfield : field ∈ c.sharing mapping key)
    (hreader : c.reader? mapping key = some field.name) :
    ∃ request ∈ KeyRequest.merged requests, request.key = key ∧ request.field = field.name ∧
      field.hint.resolved c.scope = .ok request.hint := by
  have hkey := mem_initialKeys.mpr ⟨field, hfield⟩
  rw [← keys_of_requests hrequests, ← KeyRequest.mem_keys_merged] at hkey
  obtain ⟨request, hrequest, rfl⟩ := List.mem_map.mp hkey
  obtain ⟨other, hother, hread, hname, hhint⟩ := exists_field_of_merged hrequests hrequest
  obtain rfl := eq_of_name_eq hnames (mem_sharing.mp hother).1.1 (mem_sharing.mp hfield).1.1
    (Option.some.inj (hread.symm.trans hreader))
  exact ⟨request, hrequest, rfl, hname, hhint⟩

/-- No field is given twice. -/
theorem nodup_fields_merged (hnames : (c.fields.map RecordField.name).Nodup) :
    ((KeyRequest.merged requests).map KeyRequest.field).Nodup := by
  have hkeys := KeyRequest.nodup_keys_merged requests
  refine List.Nodup.map_on ?_ (List.Nodup.of_map _ hkeys)
  intro request hrequest other hother hsame
  obtain ⟨field, hfield, -, hname, -⟩ := exists_field_of_merged hrequests hrequest
  obtain ⟨owner, howner, -, hownerName, -⟩ := exists_field_of_merged hrequests hother
  obtain ⟨hmem, hkey⟩ := mem_sharing.mp hfield
  obtain ⟨hownerMem, hownerKey⟩ := mem_sharing.mp howner
  obtain rfl := eq_of_name_eq hnames hmem.1 hownerMem.1
    (hname.symm.trans (hsame.trans hownerName))
  exact List.inj_on_of_nodup_map hkeys hrequest hother (hkey.symm.trans hownerKey)

/-- Requests that remain give something where all that is read decodes. -/
theorem allDecode_iff (hnames : (c.fields.map RecordField.name).Nodup) :
    c.AllDecode mapping step content ↔ ∃ given,
      KeyRequest.Gives step content KeyRequest.field (KeyRequest.merged requests) given := by
  constructor
  · intro hall
    refine KeyRequest.Gives.exists_gives _ fun request hrequest item hitem => ?_
    obtain ⟨field, hfield, hreader, -, hhint⟩ := exists_field_of_merged hrequests hrequest
    obtain ⟨spec, data, ⟨hint, hresolved, hspec⟩, hdata⟩ := hall _ field hfield hreader item hitem
    cases hhint.symm.trans hresolved
    exact ⟨spec, data, hspec, hdata⟩
  · rintro ⟨given, hgives⟩ key field hfield hreader item hitem
    obtain ⟨request, hrequest, rfl, -, hhint⟩ :=
      exists_merged_of_field hrequests hnames hfield hreader
    rcases hgives.lookup (nodup_fields_merged hrequests hnames) hrequest with
      ⟨habsent, -⟩ | ⟨found, spec, data, hfound, hspec, hdata, -⟩
    · cases habsent.symm.trans hitem
    · cases hfound.symm.trans hitem
      exact ⟨spec, data, ⟨request.hint, hhint, hspec⟩, hdata⟩

variable (hnames : (c.fields.map RecordField.name).Nodup)
  (hgives : KeyRequest.Gives step content KeyRequest.field (KeyRequest.merged requests) given)

include hnames hgives

/-- **The constructor is given the fields that are supplied**, and no other. -/
theorem isSome_lookup_given {field : RecordField} (hfield : field ∈ c.fields) :
    (given.lookup field.name).isSome = c.supplies mapping content field := by
  by_cases hreader : field.isInitial = true ∧
      c.reader? mapping (KeyRequest.renamed mapping field.name) = some field.name
  · obtain ⟨hinitial, hreader⟩ := hreader
    have hshares : field ∈ c.sharing mapping (KeyRequest.renamed mapping field.name) :=
      mem_sharing.mpr ⟨⟨hfield, hinitial⟩, rfl⟩
    obtain ⟨request, hrequest, hkey, hname, -⟩ :=
      exists_merged_of_field hrequests hnames hshares hreader
    have hlookup := hgives.lookup (nodup_fields_merged hrequests hnames) hrequest
    rw [hkey, hname] at hlookup
    rw [Bool.eq_iff_iff, supplies_iff]
    rcases hlookup with ⟨habsent, hnone⟩ | ⟨item, spec, data, hitem, -, -, hsome⟩
    · simp [hnone, hreader, Assoc.mem_keys_iff, habsent]
    · simp [hsome, hinitial, hreader, Assoc.mem_keys_iff, hitem]
  · -- the name of a field that is not read is that of no request
    have hnone : given.lookup field.name = none := by
      refine List.lookup_eq_none_iff.mpr fun entry hentry => ?_
      have hrequested := hgives.keys_sublist.subset (List.mem_map_of_mem hentry)
      obtain ⟨request, hrequest, hname⟩ := List.mem_map.mp hrequested
      simp only [bne_iff_ne, ne_eq]
      intro heq
      obtain ⟨other, hother, hread, hotherName, -⟩ := exists_field_of_merged hrequests hrequest
      obtain ⟨hmem, hkey⟩ := mem_sharing.mp hother
      obtain rfl := eq_of_name_eq hnames hfield hmem.1
        (heq.trans (hname.symm.trans hotherName))
      exact hreader ⟨hmem.2, hkey ▸ hread⟩
    have hsupplies : c.supplies mapping content field = false :=
      Bool.eq_false_iff.mpr fun hsupplies =>
        hreader ⟨(supplies_iff.mp hsupplies).1, (supplies_iff.mp hsupplies).2.1⟩
    rw [hnone, hsupplies]
    rfl

theorem missing_eq_lacking :
    (c.missing given).map RecordField.name = c.lacking mapping content := by
  unfold missing lacking
  congr 1
  refine List.filter_congr fun field hfield => ?_
  cases htaken : field.isTaken with
  | false => rfl
  | true =>
      have hgiven := isSome_lookup_given hrequests hnames hgives hfield
      simp only [RecordField.valueOf, htaken, if_true, ← hgiven]
      cases given.lookup field.name <;> cases field.default <;> rfl

/-- **What is lacking makes the generated constructor complain** about all of it at once; other
complaints are those of the class itself. -/
theorem construct_error_cases {complaint : Complaint}
    (h : c.construct given = .error complaint) :
    c.Complains complaint ∨ c.ownConstructor = none ∧ c.lacking mapping content ≠ [] ∧
      complaint = missingArguments c.name (c.lacking mapping content) := by
  unfold Complains
  rcases construct_error_iff.mp h with
    ⟨build, hown, hbuild⟩ | ⟨hown, ⟨-, hcomplete⟩ | ⟨hmissing, rfl⟩⟩
  · rw [hown]
    exact .inl ⟨given, hbuild⟩
  · rw [hown]
    exact .inl ⟨_, _, hcomplete⟩
  · rw [← missing_eq_lacking hrequests hnames hgives]
    exact .inr ⟨hown, by simpa using hmissing, rfl⟩

theorem construct_of_lacking (hown : c.ownConstructor = none)
    (hlacking : c.lacking mapping content ≠ []) :
    c.construct given = .error (missingArguments c.name (c.lacking mapping content)) := by
  rw [← missing_eq_lacking hrequests hnames hgives] at hlacking ⊢
  exact construct_error_iff.mpr (.inr ⟨hown, .inr ⟨by simpa using hlacking, rfl⟩⟩)

end RecordClass

/-- A fault under a frame was one before, or there was a failure and the value cannot be shown. -/
theorem Attempt.framed_faulted_iff {t : Attempt Data} {room : Nat} {description : Text}
    {value : Json} {fault : Fault} :
    (t.framed room description value).result = .error (.faulted fault) ↔
      t.result = .error (.faulted fault) ∨
        (∃ e, t.result = .error (.failed e)) ∧ unshown? room value = some (.faulted fault) := by
  obtain ⟨log, result⟩ := t
  rcases result with ⟨e | other | _⟩ | data
  · cases hshown : unshown? room value with
    | none => simp [framed, Except.mapError, shownAs, hshown]
    | some stop => simp [framed, Except.mapError, shownAs, hshown]
  · simp [framed, Except.mapError]
  · simp [framed, Except.mapError]
  · simp [framed, Except.mapError]

/-- **What a record class lacks where fields share keys.** An object whose keys pass, and all of
which decodes, is handed to the constructor as the values of the initial fields that it supplies.
Where neither the parts nor the code of the class itself complain of anything but the value, a
generated constructor ends the decoding exactly where it takes some other field that has no default,
with a complaint about all of these; the only other fault is that a value which fails has an integer
with too many digits to be shown. No object ever lacks a field exactly where no initial field
without a default shares its key and all arguments of the hook have a default. -/
theorem RecordClass.constructors_lack_fields_with_shared_keys {c : RecordClass}
    {mapping : List (Text × Text)} {description : Text} {schema : Schema}
    (h : c.schema mapping description = .ok schema)
    (hnames : (c.fields.map RecordField.name).Nodup) :
    (∀ registry step room content, c.KeysPass mapping content →
      c.AllDecode mapping step content →
      ∃ given, (bySchema registry step room schema (.object content)).result =
          (ofRule schema.description (.object content) (c.construct given)).result ∧
        ∀ field ∈ c.fields,
          (given.lookup field.name).isSome = c.supplies mapping content field) ∧
    ((∀ complaint, c.Complains complaint → complaint.Rejects) →
      ∀ (registry : Registry) room spec value fault, spec.DecodedBy registry schema →
        (∀ content, value = .object content → ∀ field ∈ c.fields, ∀ wanted item fault,
          content.lookup (KeyRequest.renamed mapping field.name) = some item →
            c.Annotates field wanted →
              (decode registry room wanted item).result ≠ .error (.faulted fault)) →
        ((decode registry (room + 1) spec value).result = .error (.faulted fault) ↔
          (c.ownConstructor = none ∧ ∃ content, value = .object content ∧
            c.KeysPass mapping content ∧ c.AllDecode mapping (decode registry room) content ∧
            c.lacking mapping content ≠ [] ∧
            fault = .complaint (missingArguments c.name (c.lacking mapping content))) ∨
          (∃ e, (bySchema registry (decode registry room) room schema value).result =
            .error (.failed e)) ∧ unshown? room value = some (.faulted fault))) ∧
    ((∀ content, (Assoc.keys content).Nodup → c.KeysPass mapping content →
      c.lacking mapping content = []) ↔ c.KeysApart mapping ∧ c.ArgumentsDefaulted) := by
  obtain ⟨requests, hrequests, -, hrequested⟩ := exists_requests h
  have hschema := KeyRequest.schema_merged hrequested
  have hkeys := KeyRequest.nodup_keys_merged requests
  have howners : ∀ request ∈ KeyRequest.merged requests,
      (KeyRequest.owners requests).lookup request.key = some request.field := by
    intro request hrequest
    rw [← KeyRequest.owners_merged]
    exact KeyRequest.lookup_owners hkeys hrequest
  refine ⟨?_, ?_, fun hnever => ⟨keysApart_of_never_lacking hnever hnames,
    argumentsDefaulted_of_never_lacking hnever⟩,
    fun hsound content _ => lacking_eq_nil hsound.1 hsound.2⟩
  · intro registry step room content hpass hall
    obtain ⟨given, hgives⟩ := (allDecode_iff hrequests hnames).mp hall
    obtain ⟨declared, hobject, -⟩ := KeyRequest.exists_declared hschema hkeys
    refine ⟨given, ?_, fun field => isSome_lookup_given hrequests hnames hgives⟩
    rw [KeyRequest.result_of_gives _ hschema hkeys howners
      ((keysFit_merged_iff hrequests).mpr hpass) hgives, hobject]
    rfl
  · intro hcomplains registry room spec value fault hdecoded hparts
    have hquiet : ∀ content, value = .object content →
        ∀ request ∈ KeyRequest.merged requests, ∀ spec item fault,
          content.lookup request.key = some item → Schema.specOf request.hint = .ok spec →
            (decode registry room spec item).result ≠ .error (.faulted fault) := by
      intro content hvalue request hrequest spec item fault hitem hspec
      obtain ⟨field, hfield, -, -, hhint⟩ := exists_field_of_merged hrequests hrequest
      obtain ⟨⟨hmem, -⟩, hkey⟩ := mem_sharing.mp hfield
      exact hparts content hvalue field hmem spec item fault (hkey ▸ hitem)
        ⟨request.hint, hhint, hspec⟩
    rw [decode_of_schema hdecoded, framed_faulted_iff]
    refine or_congr ?_ Iff.rfl
    rw [KeyRequest.schema_faulted_iff hschema hkeys howners hquiet]
    constructor
    · rintro ⟨content, given, complaint, rfl, hfit, hgives, hconstruct, hconcern, rfl⟩
      have hall := (allDecode_iff hrequests hnames).mpr ⟨given, hgives⟩
      rcases construct_error_cases hrequests hnames hgives hconstruct with
        hown | ⟨hown, hlacking, rfl⟩
      · cases hconcern.symm.trans (hcomplains complaint hown)
      · exact ⟨hown, content, rfl, (keysFit_merged_iff hrequests).mp hfit, hall, hlacking, rfl⟩
    · rintro ⟨hown, content, rfl, hpass, hall, hlacking, rfl⟩
      obtain ⟨given, hgives⟩ := (allDecode_iff hrequests hnames).mp hall
      exact ⟨content, given, _, rfl, (keysFit_merged_iff hrequests).mpr hpass, hgives,
        construct_of_lacking hrequests hnames hgives hown hlacking, rfl, rfl⟩

/-- Two fields with one key, of which the second has a default: an object without the key passes,
and the constructor misses the first. -/
theorem RecordClass.constructors_lack_fields_with_shared_keys_for_pairs :
    let a := Text.lit "a"
    let b := Text.lit "b"
    let c : RecordClass := ⟨Text.lit "Pair", [⟨a, .builtin .int, none, .initial⟩,
      ⟨b, .builtin .int, some (.shared (.int 0)), .initial⟩], false, fun values _ => .ok values, none⟩
    let identity : Spec := .symbol (Text.lit "Pair") []
    ∃ schema, c.schema [(b, a)] [] = .ok schema ∧
      (decode ⟨[(identity, ⟨fun _ => .ok schema, 0, [], Text.lit "Pair"⟩)]⟩ 2
        (.custom identity []) (.object [])).result =
          .error (.faulted (.complaint (missingArguments (Text.lit "Pair") [a]))) := by
  intro a b c identity
  obtain ⟨schema, hschema⟩ : ∃ schema, c.schema [(b, a)] [] = .ok schema := ⟨_, rfl⟩
  obtain ⟨-, hfaults, -⟩ := constructors_lack_fields_with_shared_keys hschema (by decide)
  have hcomplains : ∀ complaint, c.Complains complaint → complaint.Rejects := by
    rintro complaint ⟨values, arguments, hcomplete⟩
    cases hcomplete
  refine ⟨schema, hschema,
    (hfaults hcomplains _ 1 _ _ _ ⟨_, _, _, rfl, rfl, rfl⟩ ?_).mpr (.inl ?_)⟩
  · intro content hvalue field hfield wanted item fault hitem
    cases hvalue
    cases hitem
  · refine ⟨rfl, [], rfl, ⟨by decide, by decide⟩, ?_, by decide, rfl⟩
    intro key field _ _ item hitem
    cases hitem

/-- A mapping gives two fields without defaults one key: the object has it, and still the
constructor misses the first of them. -/
theorem RecordClass.shared_key_raises :
    let a := Text.lit "a"
    let b := Text.lit "b"
    let c : RecordClass :=
      ⟨Text.lit "P", [⟨a, .builtin .int, none, .initial⟩, ⟨b, .builtin .int, none, .initial⟩],
        false, fun values _ => .ok values, none⟩
    let identity : Spec := .symbol (Text.lit "P") []
    let content : List (Text × Json) := [(a, .number (.int 1))]
    ∃ schema, c.schema [(b, a)] [] = .ok schema ∧ c.KeysPass [(b, a)] content ∧
      (∀ complaint, c.Complains complaint → complaint.Rejects) ∧
      (decode ⟨[(identity, ⟨fun _ => .ok schema, 0, [], Text.lit "P"⟩)]⟩ 3
        (.custom identity []) (.object content)).result =
          .error (.faulted (.complaint (missingArguments (Text.lit "P") [a]))) := by
  intro a b c identity content
  refine ⟨_, rfl, ⟨by decide, by decide⟩, ?_, rfl⟩
  rintro complaint ⟨values, arguments, hcomplete⟩
  cases hcomplete

end JsonDecoding
