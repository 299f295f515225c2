import JsonDecoding.Proofs.Containment
import JsonDecoding.Proofs.Merging
import JsonDecoding.Proofs.Restraint

/-!
# Fields of records

The schema of a record class reads every initial field under its own key: its name, or the key that
it is mapped to. The constructor is given exactly what was decoded there (`RecordClass.Reads`), and
makes an instance that starts with these values, with the default where a key is absent, and with
fields that are not initial as they are whatever the object has (`RecordClass.Holds`). From there on
the hook of the class has its way. All that is needed is that initial fields have distinct keys, so
names may be exchanged.
-/

namespace JsonDecoding

open Attempt Decoder

namespace RecordField

variable {field : RecordField}

theorem isTaken_of_isInitial (h : field.isInitial = true) : field.isTaken = true := by
  cases hrole : field.role <;> simp_all [isInitial, isTaken]

theorem isStored_of_isInitial (h : field.isInitial = true) : field.isStored = true := by
  cases hrole : field.role <;> simp_all [isInitial, isStored]

/-- Beside initial fields, the constructor takes only what it does not store. -/
theorem isTaken_eq_false (hinitial : field.isInitial = false) (hstored : field.isStored = true) :
    field.isTaken = false := by
  cases hrole : field.role <;> simp_all [isInitial, isStored, isTaken]

end RecordField

namespace RecordClass

variable {c : RecordClass} {mapping : List (Text × Text)} {description : Text} {schema : Schema}
  {step : Spec → Json → Attempt Data} {room : Nat} {content : List (Text × Json)}
  {fields : List RecordField} {given : Values}

/-! ## What constructors are given -/

/-- A field is read by a specification: what its annotation stands for in the scope of the class. -/
def Annotates (c : RecordClass) (field : RecordField) (spec : Spec) : Prop :=
  ∃ hint, field.hint.resolved c.scope = .ok hint ∧ Schema.specOf hint = .ok spec

/-- The keys of an object fit a record class: all are those of initial fields, and those of initial
fields without a default are there. -/
structure Fits (c : RecordClass) (mapping : List (Text × Text)) (content : List (Text × Json)) :
    Prop where
  known : ∀ key ∈ Assoc.keys content, key ∈ c.initialKeys mapping
  required : ∀ field ∈ c.fields, field.isInitial = true → field.default = none →
    KeyRequest.renamed mapping field.name ∈ Assoc.keys content

/-- The values that fields read from an object: for each initial field whose own key is there, what
is found under it, decoded by the annotation of the field. -/
inductive Reads (c : RecordClass) (mapping : List (Text × Text)) (step : Spec → Json → Attempt Data)
    (content : List (Text × Json)) : List RecordField → Values → Prop where
  | nil : Reads c mapping step content [] []
  | unread {field : RecordField} {fields : List RecordField} {given : Values}
      (hinitial : field.isInitial = false) (hrest : Reads c mapping step content fields given) :
      Reads c mapping step content (field :: fields) given
  | absent {field : RecordField} {fields : List RecordField} {given : Values}
      (hinitial : field.isInitial = true)
      (hitem : content.lookup (KeyRequest.renamed mapping field.name) = none)
      (hrest : Reads c mapping step content fields given) :
      Reads c mapping step content (field :: fields) given
  | found {field : RecordField} {fields : List RecordField} {given : Values} {item : Json}
      {spec : Spec} {data : Data} (hinitial : field.isInitial = true)
      (hitem : content.lookup (KeyRequest.renamed mapping field.name) = some item)
      (hspec : c.Annotates field spec) (hdata : (step spec item).result = .ok data)
      (hrest : Reads c mapping step content fields given) :
      Reads c mapping step content (field :: fields) ((field.name, data) :: given)

/-- What a field of an instance holds when an object is decoded: the value read under its own key,
else its default, if it has one. -/
inductive Holds (c : RecordClass) (mapping : List (Text × Text))
    (step : Spec → Json → Attempt Data) (content : List (Text × Json)) :
    RecordField → Option Data → Prop where
  | read {field : RecordField} {item : Json} {spec : Spec} {data : Data}
      (hinitial : field.isInitial = true)
      (hitem : content.lookup (KeyRequest.renamed mapping field.name) = some item)
      (hspec : c.Annotates field spec) (hdata : (step spec item).result = .ok data) :
      Holds c mapping step content field (some data)
  | absent {field : RecordField} (hinitial : field.isInitial = true)
      (hitem : content.lookup (KeyRequest.renamed mapping field.name) = none) :
      Holds c mapping step content field (field.default.map FieldDefault.value)
  | unread {field : RecordField} (hinitial : field.isInitial = false) :
      Holds c mapping step content field (field.default.map FieldDefault.value)

namespace Reads

/-- Only initial fields are given a value, in the order of fields. -/
theorem keys_sublist (h : c.Reads mapping step content fields given) :
    (Assoc.keys given).Sublist ((fields.filter RecordField.isInitial).map RecordField.name) := by
  induction h with
  | nil => exact .slnil
  | unread hinitial _ ih => rwa [List.filter_cons_of_neg (by simp [hinitial])]
  | absent hinitial _ _ ih =>
      rw [List.filter_cons_of_pos hinitial]
      exact ih.cons _
  | found hinitial _ _ _ _ ih =>
      rw [List.filter_cons_of_pos hinitial]
      exact ih.cons_cons _

/-- A name that no initial field has is given no value. -/
theorem lookup_eq_none (h : c.Reads mapping step content fields given) {name : Text}
    (hname : ∀ field ∈ fields, field.isInitial = true → field.name ≠ name) :
    given.lookup name = none := by
  refine List.lookup_eq_none_iff.mpr fun entry hentry => ?_
  obtain ⟨field, hfield, hsame⟩ :=
    List.mem_map.mp (h.keys_sublist.subset (List.mem_map_of_mem hentry))
  obtain ⟨hmem, hinitial⟩ := List.mem_filter.mp hfield
  simp only [bne_iff_ne, ne_eq]
  rintro rfl
  exact hname field hmem hinitial hsame

/-- **Every field has its own value**: where names are distinct, the value that the constructor takes
for a stored field is what the field should hold. -/
theorem holds (h : c.Reads mapping step content fields given)
    (hnames : (fields.map RecordField.name).Nodup) {field : RecordField} (hfield : field ∈ fields)
    (hstored : field.isStored = true) :
    c.Holds mapping step content field (field.valueOf given) := by
  induction h with
  | nil => cases hfield
  | @unread first rest given hinitial hrest ih =>
      obtain ⟨-, hnodup⟩ := List.nodup_cons.mp hnames
      rcases List.mem_cons.mp hfield with rfl | hmem
      · simp only [RecordField.valueOf, RecordField.isTaken_eq_false hinitial hstored,
          Bool.false_eq_true, if_false]
        exact .unread hinitial
      · exact ih hnodup hmem
  | @absent first rest given hinitial hitem hrest ih =>
      obtain ⟨hnew, hnodup⟩ := List.nodup_cons.mp hnames
      rcases List.mem_cons.mp hfield with rfl | hmem
      · have hnone : given.lookup field.name = none :=
          hrest.lookup_eq_none fun other hother _ hsame =>
            hnew (hsame ▸ List.mem_map_of_mem hother)
        have hvalue : field.valueOf given = field.default.map FieldDefault.value := by
          simp only [RecordField.valueOf, hnone, Option.none_or, ite_self]
        rw [hvalue]
        exact .absent hinitial hitem
      · exact ih hnodup hmem
  | @found first rest given item spec data hinitial hitem hspec hdata hrest ih =>
      obtain ⟨hnew, hnodup⟩ := List.nodup_cons.mp hnames
      rcases List.mem_cons.mp hfield with rfl | hmem
      · have hvalue : field.valueOf ((field.name, data) :: given) = some data := by
          simp [RecordField.valueOf, RecordField.isTaken_of_isInitial hinitial]
        rw [hvalue]
        exact .read hinitial hitem hspec hdata
      · have hne : field.name ≠ first.name := by
          intro hsame
          exact hnew (hsame ▸ List.mem_map_of_mem hmem)
        have hvalue : field.valueOf ((first.name, data) :: given) = field.valueOf given := by
          simp only [RecordField.valueOf, List.lookup_cons, beq_false_of_ne hne]
        rw [hvalue]
        exact ih hnodup hmem

end Reads

/-! ## What instances start with -/

/-- With distinct names, a field has its own value among those of several fields. -/
theorem lookup_valuesOf (hnames : (fields.map RecordField.name).Nodup) {field : RecordField}
    (hfield : field ∈ fields) :
    (valuesOf given fields).lookup field.name = field.valueOf given := by
  induction fields with
  | nil => cases hfield
  | cons first rest ih =>
      obtain ⟨hnew, hnodup⟩ := List.nodup_cons.mp hnames
      rcases List.mem_cons.mp hfield with rfl | hmem
      · cases hvalue : field.valueOf given with
        | some value => simp [valuesOf, hvalue]
        | none =>
            have hrest : (valuesOf given rest).lookup field.name = none := by
              refine List.lookup_eq_none_iff.mpr fun entry hentry => ?_
              obtain ⟨other, hother, hmade⟩ := List.mem_filterMap.mp hentry
              obtain ⟨value, -, rfl⟩ := Option.map_eq_some_iff.mp hmade
              simp only [bne_iff_ne, ne_eq]
              intro hsame
              exact hnew (hsame ▸ List.mem_map_of_mem hother)
            simpa [valuesOf, hvalue] using hrest
      · have hne : field.name ≠ first.name := by
          intro hsame
          exact hnew (hsame ▸ List.mem_map_of_mem hmem)
        have hlookup : (valuesOf given (first :: rest)).lookup field.name =
            (valuesOf given rest).lookup field.name := by
          cases hvalue : first.valueOf given with
          | none => simp [valuesOf, hvalue]
          | some value => simp [valuesOf, hvalue, List.lookup_cons, beq_false_of_ne hne]
        rw [hlookup]
        exact ih hnodup hmem

/-- A stored field of a new instance has the value that the constructor takes for it. -/
theorem lookup_stored (hnames : (c.fields.map RecordField.name).Nodup) {field : RecordField}
    (hfield : field ∈ c.fields) (hstored : field.isStored = true) :
    (c.stored given).lookup field.name = field.valueOf given :=
  lookup_valuesOf (hnames.sublist (List.filter_sublist.map _))
    (List.mem_filter.mpr ⟨hfield, hstored⟩)

/-- Where the hook leaves a field as it was, the instance shows what the field started with. -/
theorem shownIn_of_kept (given : Values) {values : Values} {field : RecordField}
    (hnames : (c.fields.map RecordField.name).Nodup) (hfield : field ∈ c.fields)
    (hstored : field.isStored = true)
    (hkept : values.lookup field.name = (c.stored given).lookup field.name) :
    shownIn values field = field.valueOf given := by
  rw [shownIn, hkept, lookup_stored hnames hfield hstored]
  cases hvalue : field.valueOf given with
  | some value => rfl
  | none =>
      -- a field without a value has no default, so the class shows none either
      have hdefault : field.default = none := by
        simp only [RecordField.valueOf] at hvalue
        split at hvalue
        · simpa using (Option.or_eq_none_iff.mp hvalue).2
        · simpa using hvalue
      simp [RecordField.sharedDefault?, hdefault]

/-! ## Constructors -/

/-- An object that fits leaves out no initial field without a default, so the constructor lacks at
most arguments of the hook. -/
theorem missing_eq_nil_iff (hnames : (c.fields.map RecordField.name).Nodup)
    (hfits : c.Fits mapping content) (hreads : c.Reads mapping step content c.fields given) :
    c.missing given = [] ↔
      ∀ field ∈ c.fields, field.role = .argument → field.default ≠ none := by
  constructor
  · intro hnone field hfield hrole hdefault
    have hgiven : given.lookup field.name = none := by
      refine hreads.lookup_eq_none fun other hother hinitial hsame => ?_
      obtain rfl := List.inj_on_of_nodup_map hnames hother hfield hsame
      simp [RecordField.isInitial, hrole] at hinitial
    have hlacks : field ∈ c.missing given := by
      refine List.mem_filter.mpr ⟨hfield, ?_⟩
      simp [RecordField.isTaken, RecordField.valueOf, hrole, hgiven, hdefault]
    rw [hnone] at hlacks
    cases hlacks
  · intro harguments
    refine missing_eq_nil
      (fun field hfield hrole => Option.isSome_iff_ne_none.mpr (harguments field hfield hrole))
      fun field hfield hinitial hdefault => ?_
    have hheld := hreads.holds hnames hfield (RecordField.isStored_of_isInitial hinitial)
    have hvalue : field.valueOf given = given.lookup field.name := by
      simp [RecordField.valueOf, RecordField.isTaken_of_isInitial hinitial, hdefault]
    rw [hvalue] at hheld
    generalize given.lookup field.name = value at hheld
    cases hheld with
    | read => rfl
    | absent _ habsent =>
        have hkey := hfits.required field hfield hinitial hdefault
        rw [Assoc.mem_keys_iff, habsent] at hkey
        cases hkey
    | unread hunread => cases hinitial.symm.trans hunread

/-- The generated constructor makes an instance when all arguments of the hook have a default and
the hook completes the instance. -/
theorem construct_ok_iff (hnames : (c.fields.map RecordField.name).Nodup)
    (hown : c.ownConstructor = none) (hfits : c.Fits mapping content)
    (hreads : c.Reads mapping step content c.fields given) {data : Data} :
    c.construct given = .ok data ↔
      (∀ field ∈ c.fields, field.role = .argument → field.default ≠ none) ∧
      ∃ values, c.complete (c.stored given) (c.arguments given) = .ok values ∧
        data = c.instanceOf values := by
  rw [← missing_eq_nil_iff hnames hfits hreads]
  simp only [construct, Outcomes.map_ok, initialized, hown]
  cases c.missing given with
  | nil => simp only [List.isEmpty_nil, if_true, true_and, eq_comm]
  | cons field rest => simp

/-! ## Requests of initial fields -/

/-- A request is that of a field: it asks for its key, with its annotation. -/
def Requests (c : RecordClass) (mapping : List (Text × Text)) (field : RecordField)
    (request : KeyRequest) : Prop :=
  request.key = KeyRequest.renamed mapping field.name ∧ request.field = field.name ∧
    field.hint.resolved c.scope = .ok request.hint ∧ request.isOptional = field.default.isSome

/-- The initial fields of a class make requests, in order. -/
theorem requests_of_resolved {resolved : List RecordField} (h : c.resolvedFields = .ok resolved)
    (mapping : List (Text × Text)) :
    List.Forall₂ (c.Requests mapping) (c.fields.filter RecordField.isInitial)
      (requests resolved mapping) := by
  have heach := Outcomes.mapM_ok.mp h
  unfold requests
  generalize c.fields = declared at heach
  clear h
  induction heach with
  | nil => exact .nil
  | @cons field made _ _ hfirst _ ih =>
      obtain ⟨hint, hhint, rfl⟩ := Outcomes.map_ok.mp hfirst
      have hresolved := Outcomes.mapError_ok.mp hhint
      cases hinitial : field.isInitial with
      | false =>
          have hkept : RecordField.isInitial { field with hint := hint } = false := hinitial
          simpa only [List.filter_cons, hinitial, hkept, Bool.false_eq_true, if_false] using ih
      | true =>
          have hkept : RecordField.isInitial { field with hint := hint } = true := hinitial
          simp only [List.filter_cons, hinitial, hkept, if_true, List.map_cons]
          exact .cons ⟨rfl, rfl, hresolved, rfl⟩ ih

variable {requests : List KeyRequest}

theorem keysFit_iff
    (h : List.Forall₂ (c.Requests mapping) (c.fields.filter RecordField.isInitial) requests) :
    KeyRequest.KeysFit requests content ↔ c.Fits mapping content := by
  have hkeys : ∀ key, key ∈ c.initialKeys mapping ↔ ∃ request ∈ requests, request.key = key := by
    intro key
    simp only [initialKeys, List.mem_map]
    constructor
    · rintro ⟨field, hfield, rfl⟩
      obtain ⟨request, hrequest, hkey, -⟩ := Outcomes.exists_of_forall₂ h hfield
      exact ⟨request, hrequest, hkey⟩
    · rintro ⟨request, hrequest, rfl⟩
      obtain ⟨field, hfield, hkey, -⟩ := Outcomes.exists_of_forall₂ h.flip hrequest
      exact ⟨field, hfield, hkey.symm⟩
  constructor
  · rintro ⟨hknown, hrequired⟩
    refine ⟨fun key hkey => (hkeys key).mpr (hknown key hkey), ?_⟩
    intro field hfield hinitial hdefault
    obtain ⟨request, hrequest, hkey, -, -, hoptional⟩ :=
      Outcomes.exists_of_forall₂ h (List.mem_filter.mpr ⟨hfield, hinitial⟩)
    exact hkey ▸ hrequired request hrequest (by simp [hoptional, hdefault])
  · rintro ⟨hknown, hrequired⟩
    refine ⟨fun key hkey => (hkeys key).mp (hknown key hkey), ?_⟩
    intro request hrequest hoptional
    obtain ⟨field, hfield, hkey, -, -, hdefault⟩ := Outcomes.exists_of_forall₂ h.flip hrequest
    obtain ⟨hmem, hinitial⟩ := List.mem_filter.mp hfield
    refine hkey ▸ hrequired field hmem hinitial ?_
    simpa [hdefault] using hoptional

theorem Annotates.unique {field : RecordField} {spec other : Spec} (h : c.Annotates field spec)
    (hother : c.Annotates field other) : spec = other := by
  obtain ⟨hint, hhint, hspec⟩ := h
  obtain ⟨hint', hhint', hspec'⟩ := hother
  cases hhint.symm.trans hhint'
  cases hspec.symm.trans hspec'
  rfl

/-- What the requests of initial fields give is what the fields read. -/
theorem gives_iff_reads
    (h : List.Forall₂ (c.Requests mapping) (fields.filter RecordField.isInitial) requests) :
    KeyRequest.Gives step content KeyRequest.field requests given ↔
      c.Reads mapping step content fields given := by
  induction fields generalizing requests given with
  | nil =>
      cases h
      constructor
      · rintro ⟨⟩
        exact .nil
      · rintro ⟨⟩
        exact .nil
  | cons field rest ih =>
      cases hinitial : field.isInitial with
      | false =>
          rw [List.filter_cons_of_neg (by simp [hinitial])] at h
          rw [ih h]
          constructor
          · exact .unread hinitial
          · intro hreads
            cases hreads with
            | unread _ hrest => exact hrest
            | absent hread => cases hinitial.symm.trans hread
            | found hread => cases hinitial.symm.trans hread
      | true =>
          rw [List.filter_cons_of_pos hinitial] at h
          cases h with
          | cons hfirst hrest =>
              obtain ⟨hkey, hname, hhint, -⟩ := hfirst
              constructor
              · intro hgives
                cases hgives with
                | absent hitem hgives =>
                    exact .absent hinitial (hkey ▸ hitem) ((ih hrest).mp hgives)
                | found hitem hspec hdata hgives =>
                    rw [hname]
                    exact .found hinitial (hkey ▸ hitem) ⟨_, hhint, hspec⟩ hdata
                      ((ih hrest).mp hgives)
              · intro hreads
                cases hreads with
                | unread hunread => cases hinitial.symm.trans hunread
                | absent _ hitem hreads =>
                    exact .absent (hkey ▸ hitem) ((ih hrest).mpr hreads)
                | found _ hitem hspec hdata hreads =>
                    obtain ⟨hint, hresolved, hspec⟩ := hspec
                    cases hhint.symm.trans hresolved
                    rw [← hname]
                    exact .found (hkey ▸ hitem) hspec hdata ((ih hrest).mpr hreads)

/-! ## The schema of a record class -/

/-- The schema of a class is one of requests, which are those of its initial fields. -/
theorem exists_requests (h : c.schema mapping description = .ok schema) :
    ∃ requests : List KeyRequest,
      List.Forall₂ (c.Requests mapping) (c.fields.filter RecordField.isInitial) requests ∧
      requests.map KeyRequest.key = c.initialKeys mapping ∧
      KeyRequest.schema (if description.isEmpty then c.name else description) requests
        (fun data => c.construct
          (KeyRequest.renamedEntries (KeyRequest.owners requests) data)) = .ok schema := by
  obtain ⟨resolved, hresolved, hschema⟩ := Outcomes.bind_ok.mp h
  exact ⟨_, requests_of_resolved hresolved mapping, Recipe.keys_requests hresolved mapping, hschema⟩

/-- **Records read their own keys.** Where the initial fields of a record class have distinct keys,
its schema makes data of exactly the objects whose keys fit the class and whose fields can be read,
as far as the constructor makes an instance of what is read; a complaint of the constructor decides
about any other such object. The generated constructor needs a default for every argument of the
hook, and hands the hook an instance each field of which holds what was decoded under its own key,
or its default; fields that the hook leaves as they are hold this in the end. The order of keys in
the object changes failures only. -/
theorem records_read_their_own_keys (h : c.schema mapping description = .ok schema)
    (hnames : (c.fields.map RecordField.name).Nodup) (hkeys : (c.initialKeys mapping).Nodup) :
    (∀ registry step room value data, (bySchema registry step room schema value).result = .ok data ↔
      ∃ content given, value = .object content ∧ c.Fits mapping content ∧
        c.Reads mapping step content c.fields given ∧ c.construct given = .ok data) ∧
    (∀ registry step room content given complaint, c.Fits mapping content →
      c.Reads mapping step content c.fields given → c.construct given = .error complaint →
      (bySchema registry step room schema (.object content)).result =
        (ofRule schema.description (.object content) (.error complaint)).result) ∧
    (∀ step content given, c.Fits mapping content → c.Reads mapping step content c.fields given →
      c.ownConstructor = none →
      (∀ data, c.construct given = .ok data ↔
        (∀ field ∈ c.fields, field.role = .argument → field.default ≠ none) ∧
        ∃ values, c.complete (c.stored given) (c.arguments given) = .ok values ∧
          data = c.instanceOf values) ∧
      ∀ field ∈ c.fields, field.isStored = true →
        c.Holds mapping step content field ((c.stored given).lookup field.name) ∧
        ∀ values : Values, values.lookup field.name = (c.stored given).lookup field.name →
          c.Holds mapping step content field (shownIn values field)) ∧
    ∀ registry step room content other, (Assoc.keys content).Nodup → content.Perm other →
      (bySchema registry step room schema (.object content)).result =
          (bySchema registry step room schema (.object other)).result ∨
        ∃ e others, (bySchema registry step room schema (.object content)).result =
            .error (.failed e) ∧
          (bySchema registry step room schema (.object other)).result = .error (.failed others) := by
  obtain ⟨requests, hrequests, hsame, hschema⟩ := exists_requests h
  rw [← hsame] at hkeys
  have howners : ∀ request ∈ requests,
      (KeyRequest.owners requests).lookup request.key = some request.field :=
    fun request hrequest => KeyRequest.lookup_owners hkeys hrequest
  obtain ⟨declared, hobject, -⟩ := KeyRequest.exists_declared hschema hkeys
  refine ⟨fun registry step room value data => ?_, ?_, ?_, ?_⟩
  · simp only [KeyRequest.schema_ok_iff hschema hkeys howners, keysFit_iff hrequests,
      gives_iff_reads hrequests]
  · intro registry step room content given complaint hfits hreads hconstruct
    rw [KeyRequest.result_of_gives _ hschema hkeys howners ((keysFit_iff hrequests).mpr hfits)
      ((gives_iff_reads hrequests).mpr hreads), hconstruct, hobject]
    rfl
  · intro step content given hfits hreads hown
    refine ⟨fun data => construct_ok_iff hnames hown hfits hreads, fun field hfield hstored => ?_⟩
    have hholds := hreads.holds hnames hfield hstored
    rw [lookup_stored hnames hfield hstored]
    refine ⟨hholds, fun values hkept => ?_⟩
    rwa [shownIn_of_kept given hnames hfield hstored
      (hkept.trans (lookup_stored hnames hfield hstored).symm)]
  · intro registry step room content other hcontent hperm
    rw [hobject]
    exact bySchema_of_perm hperm hcontent

/-- Two fields that are read under each other's names, and one that is never read. -/
theorem records_read_their_own_keys_for_swaps :
    let a := Text.lit "a"
    let b := Text.lit "b"
    let pair : RecordClass :=
      ⟨Text.lit "Pair", [⟨a, .builtin .int, none, .initial⟩, ⟨b, .builtin .bool, none, .initial⟩,
        ⟨Text.lit "c", .any, some (.shared .null), .internal⟩], false,
        fun values _ => .ok values, none⟩
    let content : List (Text × Json) := [(a, .boolean true), (b, .number (.int 1))]
    ∃ schema, pair.schema [(a, b), (b, a)] [] = .ok schema ∧
      (bySchema .empty (decode .empty 1) 1 schema (.object content)).result =
        .ok (.record (Text.lit "Pair") false
          [(a, .int 1), (b, .bool true), (Text.lit "c", .null)] []) := by
  intro a b pair content
  obtain ⟨schema, hschema⟩ : ∃ schema, pair.schema [(a, b), (b, a)] [] = .ok schema := ⟨_, rfl⟩
  have hfits : pair.Fits [(a, b), (b, a)] content := ⟨by decide, by decide⟩
  have hreads : pair.Reads [(a, b), (b, a)] (decode .empty 1) content pair.fields
      [(a, .int 1), (b, .bool true)] :=
    .found rfl rfl ⟨_, rfl, rfl⟩ rfl (.found rfl rfl ⟨_, rfl, rfl⟩ rfl (.unread rfl .nil))
  obtain ⟨hok, -, hmade, -⟩ := records_read_their_own_keys hschema (by decide) (by decide)
  obtain ⟨hconstruct, -⟩ := hmade (decode .empty 1) content _ hfits hreads rfl
  exact ⟨schema, hschema, (hok .empty _ 1 _ _).mpr
    ⟨content, _, rfl, hfits, hreads, (hconstruct _).mpr ⟨by decide, _, rfl, rfl⟩⟩⟩

/-- A hook may complain of something else than the value, which ends the decoding of an object that
fits, and another may leave a field with a value that was not read. -/
theorem hooks_interfere_with_records :
    let a := Text.lit "a"
    let complaint : Complaint := ⟨.type, Text.lit "no"⟩
    let strict : RecordClass := ⟨Text.lit "Strict", [⟨a, .builtin .int, none, .initial⟩], false,
      fun _ _ => .error complaint, none⟩
    let doubled : RecordClass := ⟨Text.lit "Doubled", [⟨a, .builtin .int, none, .initial⟩], false,
      fun _ _ => .ok [(a, .int 2)], none⟩
    let content : List (Text × Json) := [(a, .number (.int 1))]
    (∃ schema, strict.schema [] [] = .ok schema ∧ strict.Fits [] content ∧
      strict.Reads [] (decode .empty 1) content strict.fields [(a, .int 1)] ∧
      strict.construct [(a, .int 1)] = .error complaint ∧ ¬complaint.Rejects ∧
      (bySchema .empty (decode .empty 1) 1 schema (.object content)).result =
        .error (.faulted (.complaint complaint))) ∧
    ∃ schema, doubled.schema [] [] = .ok schema ∧ doubled.Fits [] content ∧
      doubled.Reads [] (decode .empty 1) content doubled.fields [(a, .int 1)] ∧
      (bySchema .empty (decode .empty 1) 1 schema (.object content)).result =
        .ok (.record (Text.lit "Doubled") false [(a, .int 2)] []) := by
  intro a complaint strict doubled content
  refine ⟨⟨_, rfl, ⟨by decide, by decide⟩, ?_, rfl, ?_, rfl⟩,
    ⟨_, rfl, ⟨by decide, by decide⟩, ?_, rfl⟩⟩
  · exact .found rfl rfl ⟨_, rfl, rfl⟩ rfl .nil
  · intro hrejects
    cases hrejects
  · exact .found rfl rfl ⟨_, rfl, rfl⟩ rfl .nil

end RecordClass

end JsonDecoding
