import Mathlib.Data.List.Nodup
import JsonDecoding.Proofs.Coercions
import JsonDecoding.Proofs.Precedence

/-!
# Fields under their own keys

The schema of a class asks for one key for each field and hands the decoded values on under other
names: those of the fields, or their aliases. Where keys are distinct, no request gets in the way of
another (`KeyRequest.schema_ok_iff`), and where names are distinct too, each name has the value that
was decoded under the key of its request, and no value if that key is absent (`Gives.lookup`). This
holds of every renaming, also of one that makes the names of fields the keys of others.
-/

namespace JsonDecoding

open Attempt Decoder

/-- Keys can be declared by all annotations that are specifications. -/
theorem Schema.exists_ofFields {description : Text} {fields : List (Text × Spec)}
    {optional : List Text} {assemble : Rule}
    (h : ∀ pair ∈ fields, ∃ spec, Schema.specOf pair.2 = .ok spec) :
    ∃ schema, Schema.ofFields description fields optional assemble = .ok schema := by
  have hdeclare : ∀ pair ∈ Assoc.ofPairs fields, ∃ field : Field,
      ((Schema.specOf pair.2).map fun spec => ⟨pair.1, spec, optional.contains pair.1⟩) =
        .ok field := by
    intro pair hpair
    obtain ⟨written, hwritten, hsame⟩ := Assoc.mem_ofPairs hpair
    obtain ⟨spec, hspec⟩ := h written hwritten
    exact ⟨_, Outcomes.map_ok.mpr ⟨spec, hsame ▸ hspec, rfl⟩⟩
  obtain ⟨declared, hdeclared⟩ := Outcomes.exists_mapM_ok hdeclare
  exact ⟨_, Outcomes.map_ok.mpr ⟨declared, hdeclared, rfl⟩⟩

namespace KeyRequest

/-! ## Declared requests -/

/-- A field that is declared as it was requested. -/
def DeclaredAs (request : KeyRequest) (field : Field) : Prop :=
  field.key = request.key ∧ Schema.specOf request.hint = .ok field.spec ∧
    field.isOptional = request.isOptional

/-- An object has the keys that were requested: no other, and all that are not optional. -/
structure KeysFit (requests : List KeyRequest) (content : List (Text × Json)) : Prop where
  known : ∀ key ∈ Assoc.keys content, ∃ request ∈ requests, request.key = key
  required : ∀ request ∈ requests, request.isOptional = false → request.key ∈ Assoc.keys content

variable {description : Text} {requests : List KeyRequest} {assemble : Rule} {schema : Schema}
  {declared : List Field} {content : List (Text × Json)} {step : Spec → Json → Attempt Data}

theorem specOf_eq_of_specOf {hint spec : Spec} (h : Schema.specOf hint = .ok spec) :
    Schema.specOf spec = .ok spec :=
  Outcomes.mapError_ok.mpr (Spec.coerce_eq_of_coerce (Outcomes.mapError_ok.mp h))

/-- With distinct keys, a key is optional exactly when its request is. -/
theorem contains_optional (hkeys : (requests.map KeyRequest.key).Nodup) {request : KeyRequest}
    (hmem : request ∈ requests) :
    ((requests.filter KeyRequest.isOptional).map KeyRequest.key).contains request.key =
      request.isOptional := by
  cases hrequest : request.isOptional with
  | true =>
      rw [List.contains_iff_mem]
      exact List.mem_map_of_mem (List.mem_filter.mpr ⟨hmem, hrequest⟩)
  | false =>
      simp only [List.contains_eq_mem, decide_eq_false_iff_not, List.mem_map, List.mem_filter]
      rintro ⟨other, ⟨hother, hoptional⟩, hkey⟩
      obtain rfl := List.inj_on_of_nodup_map hkeys hother hmem hkey
      simp [hrequest] at hoptional

/-- Requests have a schema where all of them are for specifications. -/
theorem exists_schema (description : Text) (assemble : Rule)
    (h : ∀ request ∈ requests, ∃ spec, Schema.specOf request.hint = .ok spec) :
    ∃ schema, KeyRequest.schema description requests assemble = .ok schema := by
  unfold KeyRequest.schema
  have hread : ∀ request ∈ requests, ∃ pair : Text × Spec,
      ((Schema.specOf request.hint).map fun spec => (request.key, spec)) = .ok pair := by
    intro request hrequest
    obtain ⟨spec, hspec⟩ := h request hrequest
    exact ⟨_, Outcomes.map_ok.mpr ⟨spec, hspec, rfl⟩⟩
  obtain ⟨specs, hspecs⟩ := Outcomes.exists_mapM_ok hread
  simp only [hspecs, Except.bind]
  refine Schema.exists_ofFields fun pair hpair => ?_
  obtain ⟨request, -, hread⟩ := Outcomes.exists_of_mem_mapM hspecs hpair
  obtain ⟨spec, hspec, rfl⟩ := Outcomes.map_ok.mp hread
  exact ⟨spec, specOf_eq_of_specOf hspec⟩

/-- With distinct keys, each request is declared as it is. -/
theorem exists_declared (h : KeyRequest.schema description requests assemble = .ok schema)
    (hkeys : (requests.map KeyRequest.key).Nodup) :
    ∃ declared, schema = .object description declared assemble ∧
      List.Forall₂ DeclaredAs requests declared := by
  obtain ⟨specs, hspecs, hfields⟩ := Outcomes.bind_ok.mp h
  obtain ⟨declared, rfl, hdeclared⟩ := Schema.exists_declared_of_ofFields hfields
  have hsame : Assoc.keys specs = requests.map KeyRequest.key := by
    refine Outcomes.map_of_mapM_ok ?_ hspecs
    intro request pair hpair
    obtain ⟨spec, -, rfl⟩ := Outcomes.map_ok.mp hpair
    rfl
  rw [Assoc.ofPairs_of_nodup (hsame ▸ hkeys)] at hdeclared
  refine ⟨declared, rfl, ?_⟩
  have hoptional : ∀ request ∈ requests,
      ((requests.filter KeyRequest.isOptional).map KeyRequest.key).contains request.key =
        request.isOptional := fun request hmem => contains_optional hkeys hmem
  generalize (requests.filter KeyRequest.isOptional).map KeyRequest.key = optional
    at hoptional hdeclared
  have heach := Outcomes.mapM_ok.mp hspecs
  clear h hspecs hfields hsame hkeys
  induction heach generalizing declared with
  | nil =>
      cases hdeclared
      exact .nil
  | @cons request pair requests specs hfirst _ ih =>
      obtain ⟨spec, hspec, rfl⟩ := Outcomes.map_ok.mp hfirst
      cases hdeclared with
      | cons hfield hrest =>
          obtain ⟨hkey, hdeclared, hopt⟩ := hfield
          -- what has been coerced once stays as it is
          rw [specOf_eq_of_specOf hspec] at hdeclared
          cases hdeclared
          refine .cons ⟨hkey, hspec, hopt.trans (hoptional request (by simp))⟩ (ih _ ?_ hrest)
          exact fun other hother => hoptional other (by simp [hother])

/-- The keys of an object fit requests when it lacks no declared key and has no other. -/
theorem keysFit_iff (h : List.Forall₂ DeclaredAs requests declared) :
    KeysFit requests content ↔
      missingKeys declared content = [] ∧ unknownKeys declared content = [] := by
  simp only [List.eq_nil_iff_forall_not_mem, mem_missingKeys, mem_unknownKeys]
  constructor
  · rintro ⟨hknown, hrequired⟩
    constructor
    · rintro key ⟨field, hfield, hoptional, habsent, rfl⟩
      obtain ⟨request, hrequest, hkey, -, hopt⟩ := Outcomes.exists_of_forall₂ h.flip hfield
      exact habsent (hkey ▸ hrequired request hrequest (hopt ▸ hoptional))
    · rintro key ⟨hkey, hother⟩
      obtain ⟨request, hrequest, rfl⟩ := hknown key hkey
      obtain ⟨field, hfield, hsame, -⟩ := Outcomes.exists_of_forall₂ h hrequest
      exact hother field hfield hsame
  · rintro ⟨hmissing, hunknown⟩
    constructor
    · intro key hkey
      by_contra hnone
      refine hunknown key ⟨hkey, fun field hfield hsame => hnone ?_⟩
      obtain ⟨request, hrequest, hrequested, -⟩ := Outcomes.exists_of_forall₂ h.flip hfield
      exact ⟨request, hrequest, hrequested ▸ hsame⟩
    · intro request hrequest hoptional
      by_contra habsent
      obtain ⟨field, hfield, hkey, -, hopt⟩ := Outcomes.exists_of_forall₂ h hrequest
      exact hmissing request.key ⟨field, hfield, hopt ▸ hoptional, habsent, hkey⟩

/-! ## What requests give -/

/-- The values that some requests find in an object, under the name that each of them has. -/
inductive Gives (step : Spec → Json → Attempt Data) (content : List (Text × Json))
    (name : KeyRequest → Text) : List KeyRequest → List (Text × Data) → Prop where
  | nil : Gives step content name [] []
  | absent {request : KeyRequest} {rest : List KeyRequest} {given : List (Text × Data)}
      (h : content.lookup request.key = none) (hrest : Gives step content name rest given) :
      Gives step content name (request :: rest) given
  | found {request : KeyRequest} {rest : List KeyRequest} {given : List (Text × Data)} {item : Json}
      {spec : Spec} {data : Data} (h : content.lookup request.key = some item)
      (hspec : Schema.specOf request.hint = .ok spec) (hdata : (step spec item).result = .ok data)
      (hrest : Gives step content name rest given) :
      Gives step content name (request :: rest) ((name request, data) :: given)

variable {names : List (Text × Text)} {name : KeyRequest → Text} {given : List (Text × Data)}

theorem present_cons (field : Field) (declared : List Field) :
    present content (field :: declared) =
      ((content.lookup field.key).map fun item => (field, item)).toList ++
        present content declared := by
  cases h : content.lookup field.key <;> simp [present, h]

/-- A field that has been decoded is given under the name for its key. -/
theorem renamedEntries_decodedDict_cons {request : KeyRequest} {field : Field}
    (hkey : field.key = request.key) (hname : names.lookup request.key = some (name request))
    (item : Json) (parts : List (Field × Json)) (d : Data) (data : List Data) :
    renamedEntries names (decodedDict ((field, item) :: parts) (d :: data)) =
      (name request, d) :: renamedEntries names (decodedDict parts data) := by
  simp [renamedEntries, decodedDict, hkey, hname]

/-- What requests give are the decoded fields under the names for their keys. -/
theorem gives_iff (h : List.Forall₂ DeclaredAs requests declared)
    (hnames : ∀ request ∈ requests, names.lookup request.key = some (name request)) :
    Gives step content name requests given ↔
      ∃ data, Decoded step (present content declared) data ∧
        renamedEntries names (decodedDict (present content declared) data) = given := by
  induction h generalizing given with
  | nil =>
      constructor
      · intro h
        cases h
        exact ⟨[], .nil, rfl⟩
      · rintro ⟨data, hdata, rfl⟩
        cases hdata
        exact .nil
  | @cons request field requests declared hfirst _ ih =>
      obtain ⟨hkey, hspec, -⟩ := hfirst
      have hname := hnames request (List.mem_cons_self ..)
      have hrest {given : List (Text × Data)} : Gives step content name requests given ↔
          ∃ data, Decoded step (present content declared) data ∧
            renamedEntries names (decodedDict (present content declared) data) = given :=
        ih fun other hother => hnames other (List.mem_cons_of_mem _ hother)
      cases hlookup : content.lookup request.key with
      | none =>
          have hpresent : present content (field :: declared) = present content declared := by
            simp [present_cons, hkey, hlookup]
          rw [hpresent, ← hrest]
          constructor
          · intro h
            cases h with
            | absent _ hgives => exact hgives
            | found hfound => cases hlookup.symm.trans hfound
          · exact .absent hlookup
      | some item =>
          have hpresent : present content (field :: declared) =
              (field, item) :: present content declared := by
            simp [present_cons, hkey, hlookup]
          rw [hpresent]
          constructor
          · intro h
            cases h with
            | absent habsent => cases hlookup.symm.trans habsent
            | @found _ _ _ other spec d hfound hother hd hgives =>
                cases hlookup.symm.trans hfound
                cases hspec.symm.trans hother
                obtain ⟨data, hdata, rfl⟩ := hrest.mp hgives
                exact ⟨d :: data, .cons hd hdata,
                  renamedEntries_decodedDict_cons hkey hname item _ d data⟩
          · rintro ⟨data, hdata, rfl⟩
            cases hdata with
            | @cons _ d _ data hd hdata =>
                rw [renamedEntries_decodedDict_cons hkey hname]
                exact .found hlookup hspec hd (hrest.mpr ⟨data, hdata, rfl⟩)

/-! ## Schemas of requests -/

variable {rule : List (Text × Data) → Except Complaint Data} {value : Json} {room : Nat}

/-- What the rule answers about what is given decides. -/
theorem result_of_gives (rule : List (Text × Data) → Except Complaint Data)
    (h : KeyRequest.schema description requests (fun data => rule (renamedEntries names data)) =
      .ok schema)
    (hkeys : (requests.map KeyRequest.key).Nodup)
    (hnames : ∀ request ∈ requests, names.lookup request.key = some (name request))
    (hfit : KeysFit requests content) (hgives : Gives step content name requests given) :
    (bySchema registry step room schema (.object content)).result =
      (ofRule description (.object content) (rule given)).result := by
  obtain ⟨declared, rfl, hdeclared⟩ := exists_declared h hkeys
  obtain ⟨hmissing, hunknown⟩ := (keysFit_iff hdeclared).mp hfit
  obtain ⟨data, hdata, rfl⟩ := (gives_iff hdeclared hnames).mp hgives
  exact result_of_decoded hmissing hunknown hdata

/-- **A schema of requests** with distinct keys gives data where the keys of the object fit, all
requests that find a key give a value, and the rule gives data for these. -/
theorem schema_ok_iff
    (h : KeyRequest.schema description requests (fun data => rule (renamedEntries names data)) =
      .ok schema)
    (hkeys : (requests.map KeyRequest.key).Nodup)
    (hnames : ∀ request ∈ requests, names.lookup request.key = some (name request))
    {result : Data} :
    (bySchema registry step room schema value).result = .ok result ↔
      ∃ content given, value = .object content ∧ KeysFit requests content ∧
        Gives step content name requests given ∧ rule given = .ok result := by
  constructor
  · intro hresult
    obtain ⟨declared, rfl, hdeclared⟩ := exists_declared h hkeys
    obtain ⟨content, data, rfl, hmissing, hunknown, hdata, hrule⟩ := bySchema_ok_iff.mp hresult
    exact ⟨content, _, rfl, (keysFit_iff hdeclared).mpr ⟨hmissing, hunknown⟩,
      (gives_iff hdeclared hnames).mpr ⟨data, hdata, rfl⟩, hrule⟩
  · rintro ⟨content, given, rfl, hfit, hgives, hrule⟩
    rw [result_of_gives _ h hkeys hnames hfit hgives, hrule]
    rfl

/-! ## Owners of keys -/

/-- With distinct keys, the field of a request owns its key. -/
theorem lookup_owners {requests : List KeyRequest} (hkeys : (requests.map KeyRequest.key).Nodup)
    {request : KeyRequest} (hmem : request ∈ requests) :
    (owners requests).lookup request.key = some request.field := by
  have hpairs : (Assoc.keys (requests.map fun request => (request.key, request.field))).Nodup := by
    simpa [Assoc.keys, Function.comp_def] using hkeys
  rw [owners, Assoc.ofPairs_of_nodup hpairs]
  exact Assoc.lookup_of_mem hpairs (List.mem_map.mpr ⟨request, hmem, rfl⟩)

/-- The entries of a decoded object hold its values. -/
theorem mem_renamedEntries {names : List (Text × Text)} {entries : List (Data × Data)}
    {renamed : Text × Data} (h : renamed ∈ renamedEntries names (.dict entries)) :
    ∃ entry ∈ entries, entry.2 = renamed.2 := by
  obtain ⟨⟨key, value⟩, hmem, heq⟩ := List.mem_filterMap.mp h
  refine ⟨(key, value), hmem, ?_⟩
  cases key with
  | str key =>
      obtain ⟨name, -, rfl⟩ := Option.map_eq_some_iff.mp heq
      rfl
  | _ => cases heq

/-- A name for the key of an entry has a value. -/
theorem lookup_renamedEntries {names : List (Text × Text)} {entries : List (Data × Data)}
    {key name : Text} (hname : names.lookup key = some name) {data : Data}
    (hmem : (.str key, data) ∈ entries) :
    ((renamedEntries names (.dict entries)).lookup name).isSome = true := by
  have hrenamed : (name, data) ∈ renamedEntries names (.dict entries) :=
    List.mem_filterMap.mpr ⟨_, hmem, by simp [hname]⟩
  rw [List.lookup_isSome_iff]
  exact ⟨_, hrenamed, by simp⟩

/-! ## Values under names -/

namespace Gives

/-- Only names of requests are given a value, in the order of requests. -/
theorem keys_sublist (h : Gives step content name requests given) :
    (Assoc.keys given).Sublist (requests.map name) := by
  induction h with
  | nil => exact .slnil
  | absent _ _ ih => exact ih.cons _
  | found _ _ _ _ ih => exact ih.cons_cons _

/-- **Each name has the value found under its own key**: where names are distinct, a request for an
absent key gives no value to its name, and any other the value that the key leads to, decoded. -/
theorem lookup (h : Gives step content name requests given) (hnodup : (requests.map name).Nodup)
    {request : KeyRequest} (hmem : request ∈ requests) :
    (content.lookup request.key = none ∧ given.lookup (name request) = none) ∨
    ∃ item spec data, content.lookup request.key = some item ∧
      Schema.specOf request.hint = .ok spec ∧ (step spec item).result = .ok data ∧
      given.lookup (name request) = some data := by
  induction h with
  | nil => cases hmem
  | @absent first rest given hfirst hrest ih =>
      obtain ⟨hnew, hnodup⟩ := List.nodup_cons.mp hnodup
      rcases List.mem_cons.mp hmem with rfl | hmem
      · refine .inl ⟨hfirst, List.lookup_eq_none_iff.mpr fun entry hentry => ?_⟩
        simp only [bne_iff_ne, ne_eq]
        intro heq
        exact hnew (heq ▸ hrest.keys_sublist.subset (List.mem_map_of_mem hentry))
      · exact ih hnodup hmem
  | @found first rest given item spec data hfirst hspec hdata hrest ih =>
      obtain ⟨hnew, hnodup⟩ := List.nodup_cons.mp hnodup
      rcases List.mem_cons.mp hmem with rfl | hmem
      · exact .inr ⟨item, spec, data, hfirst, hspec, hdata, by simp⟩
      · have hne : name request ≠ name first := by
          intro heq
          exact hnew (heq ▸ List.mem_map_of_mem hmem)
        rw [List.lookup_cons, beq_false_of_ne hne]
        exact ih hnodup hmem

/-- Requests give something where every key that is found leads to a value that decodes. -/
theorem exists_gives (name : KeyRequest → Text)
    (h : ∀ request ∈ requests, ∀ item, content.lookup request.key = some item →
      ∃ spec data, Schema.specOf request.hint = .ok spec ∧ (step spec item).result = .ok data) :
    ∃ given, Gives step content name requests given := by
  induction requests with
  | nil => exact ⟨[], .nil⟩
  | cons request rest ih =>
      obtain ⟨given, hgiven⟩ := ih fun other hother => h other (List.mem_cons_of_mem _ hother)
      cases hlookup : content.lookup request.key with
      | none => exact ⟨given, .absent hlookup hgiven⟩
      | some item =>
          obtain ⟨spec, data, hspec, hdata⟩ := h request (List.mem_cons_self ..) item hlookup
          exact ⟨(name request, data) :: given, .found hlookup hspec hdata hgiven⟩

end Gives

end KeyRequest

end JsonDecoding
