import JsonDecoding.Proofs.Overwriting
import JsonDecoding.Proofs.OwnKeys

/-!
# Requests that remain

Several class fields may request one key. What remains of the requests for a key is one, at the
place of the first and with the field of the last, optional where any of them is
(`KeyRequest.merged`). They make the same schema (`KeyRequest.schema_merged`) and their keys are
distinct, so all that holds of distinct keys can be said of them.
-/

namespace JsonDecoding

open Attempt Decoder

/-! ## Pairs written one after the other -/

namespace Assoc

variable {κ α β : Type} [BEq κ]

theorem ofPairs_concat (pairs : List (κ × α)) (pair : κ × α) :
    ofPairs (pairs ++ [pair]) = put pair.1 pair.2 (ofPairs pairs) := by
  simp only [ofPairs, List.foldl_append, List.foldl_cons, List.foldl_nil]

theorem put_map (f : α → β) (key : κ) (value : α) (entries : List (κ × α)) :
    put key (f value) (entries.map (Prod.map id f)) =
      (put key value entries).map (Prod.map id f) := by
  induction entries with
  | nil => rfl
  | cons entry rest ih =>
      obtain ⟨k, old⟩ := entry
      by_cases hkey : (key == k) = true
      · simp [put, hkey]
      · simp [put, hkey, ih]

/-- What is made of values one by one can be made of those that remain. -/
theorem ofPairs_map (f : α → β) (pairs : List (κ × α)) :
    ofPairs (pairs.map (Prod.map id f)) = (ofPairs pairs).map (Prod.map id f) := by
  induction pairs using List.reverseRecOn with
  | nil => rfl
  | append_singleton pairs pair ih =>
      rw [List.map_append, List.map_singleton, ofPairs_concat, ofPairs_concat, ih]
      exact put_map f pair.1 pair.2 _

variable [LawfulBEq κ]

/-- **A key leads to the value that is written last** under it. -/
theorem lookup_ofPairs (pairs : List (κ × α)) (key : κ) :
    (ofPairs pairs).lookup key =
      ((pairs.filter fun pair => pair.1 == key).map Prod.snd).getLast? := by
  induction pairs using List.reverseRecOn with
  | nil => rfl
  | append_singleton pairs pair ih =>
      rw [ofPairs_concat, lookup_put, ih]
      by_cases hkey : key = pair.1
      · simp [hkey]
      · simp [hkey, Ne.symm hkey]

theorem mem_of_mem_ofPairs {pairs : List (κ × α)} {entry : κ × α} (h : entry ∈ ofPairs pairs) :
    entry ∈ pairs := by
  have hlookup : (ofPairs pairs).lookup entry.1 = some entry.2 :=
    lookup_of_mem (nodup_keys_ofPairs pairs) h
  rw [lookup_ofPairs] at hlookup
  obtain ⟨pair, hpair, hvalue⟩ := List.mem_map.mp (List.mem_of_getLast? hlookup)
  obtain ⟨hmem, hkey⟩ := List.mem_filter.mp hpair
  obtain rfl : pair = entry := Prod.ext (beq_iff_eq.mp hkey) hvalue
  exact hmem

theorem mem_keys_iff {entries : List (κ × α)} {key : κ} :
    key ∈ keys entries ↔ (entries.lookup key).isSome = true := by
  rw [List.lookup_isSome_iff, keys, List.mem_map]
  constructor
  · rintro ⟨entry, hentry, rfl⟩
    exact ⟨entry, hentry, beq_self_eq_true _⟩
  · rintro ⟨entry, hentry, hkey⟩
    exact ⟨entry, hentry, (beq_iff_eq.mp hkey).symm⟩

theorem mem_keys_ofPairs {pairs : List (κ × α)} {key : κ} :
    key ∈ keys (ofPairs pairs) ↔ key ∈ keys pairs := by
  rw [mem_keys_iff, lookup_ofPairs, List.getLast?_isSome, ← List.length_pos_iff,
    List.length_map, List.length_pos_iff_exists_mem, keys, List.mem_map]
  simp only [List.mem_filter, beq_iff_eq]

end Assoc

/-! ## Requests that remain -/

namespace KeyRequest

variable {description : Text} {requests : List KeyRequest} {assemble : Rule} {schema : Schema}
  {content : List (Text × Json)} {step : Spec → Json → Attempt Data} {request : KeyRequest}

/-- The keys that some request makes optional. -/
def optionalKeys (requests : List KeyRequest) : List Text :=
  (requests.filter KeyRequest.isOptional).map KeyRequest.key

/-- One request for each key: that of the last field, at the place of the first, optional where any
of them is. -/
def merged (requests : List KeyRequest) : List KeyRequest :=
  (Assoc.ofPairs (requests.map fun request => (request.key, request))).map fun entry =>
    ⟨entry.1, entry.2.field, entry.2.hint, (optionalKeys requests).contains entry.1⟩

theorem keys_merged (requests : List KeyRequest) :
    (merged requests).map KeyRequest.key =
      Assoc.keys (Assoc.ofPairs (requests.map fun request => (request.key, request))) := by
  rw [merged, List.map_map]
  rfl

theorem nodup_keys_merged (requests : List KeyRequest) :
    ((merged requests).map KeyRequest.key).Nodup := by
  rw [keys_merged]
  exact Assoc.nodup_keys_ofPairs _

theorem mem_keys_merged {key : Text} :
    key ∈ (merged requests).map KeyRequest.key ↔ key ∈ requests.map KeyRequest.key := by
  rw [keys_merged, Assoc.mem_keys_ofPairs, Assoc.keys, List.map_map]
  rfl

/-- A request that remains is one of the requests, but for being optional. -/
theorem exists_of_mem_merged (h : request ∈ merged requests) :
    ∃ original ∈ requests, request = ⟨original.key, original.field, original.hint,
      (optionalKeys requests).contains original.key⟩ := by
  obtain ⟨entry, hentry, rfl⟩ := List.mem_map.mp h
  obtain ⟨original, horiginal, rfl⟩ := List.mem_map.mp (Assoc.mem_of_mem_ofPairs hentry)
  exact ⟨original, horiginal, rfl⟩

theorem contains_optionalKeys_merged (requests : List KeyRequest) (key : Text) :
    (optionalKeys (merged requests)).contains key = (optionalKeys requests).contains key := by
  rw [Bool.eq_iff_iff, List.contains_iff_mem, List.contains_iff_mem]
  constructor
  · intro h
    obtain ⟨request, hrequest, rfl⟩ := List.mem_map.mp h
    obtain ⟨hmem, hoptional⟩ := List.mem_filter.mp hrequest
    obtain ⟨original, -, rfl⟩ := exists_of_mem_merged hmem
    exact List.contains_iff_mem.mp hoptional
  · intro h
    obtain ⟨original, horiginal, rfl⟩ := List.mem_map.mp h
    have hkey := mem_keys_merged.mpr (List.mem_map_of_mem (List.mem_filter.mp horiginal).1)
    obtain ⟨request, hrequest, hsame⟩ := List.mem_map.mp hkey
    obtain ⟨other, -, rfl⟩ := exists_of_mem_merged hrequest
    refine List.mem_map.mpr ⟨_, List.mem_filter.mpr ⟨hrequest, ?_⟩, hsame⟩
    exact List.contains_iff_mem.mpr (hsame ▸ h)

/-- **What is written under the keys** for fields and their annotations, the requests that remain
write as well. -/
theorem ofPairs_merged {β : Type} (requests : List KeyRequest) (g : Text → Spec → β) :
    Assoc.ofPairs ((merged requests).map fun request =>
        (request.key, g request.field request.hint)) =
      Assoc.ofPairs (requests.map fun request => (request.key, g request.field request.hint)) := by
  have hkeys : (Assoc.keys ((merged requests).map fun request =>
      (request.key, g request.field request.hint))).Nodup := by
    simpa [Assoc.keys, Function.comp_def] using nodup_keys_merged requests
  have hpairs : (requests.map fun request => (request.key, g request.field request.hint)) =
      (requests.map fun request => (request.key, request)).map
        (Prod.map id fun request => g request.field request.hint) := by
    rw [List.map_map]
    rfl
  rw [Assoc.ofPairs_of_nodup hkeys, hpairs, Assoc.ofPairs_map, merged, List.map_map]
  rfl

/-- The fields that own keys are those of the requests that remain. -/
theorem owners_merged (requests : List KeyRequest) :
    owners (merged requests) = owners requests :=
  ofPairs_merged requests fun field _ => field

/-- The specification that the annotation of a request stands for. -/
def wanted (request : KeyRequest) : Spec := (Schema.specOf request.hint).toOption.getD .any

theorem specs_eq_map {specs : List (Text × Spec)}
    (h : (requests.mapM fun request =>
      (Schema.specOf request.hint).map fun spec => (request.key, spec)) = .ok specs) :
    specs = requests.map fun request => (request.key, request.wanted) := by
  have hsame := Outcomes.map_of_mapM_ok (k := id)
    (g := fun request : KeyRequest => (request.key, request.wanted)) ?_ h
  · rwa [List.map_id] at hsame
  · intro request pair hpair
    obtain ⟨spec, hspec, rfl⟩ := Outcomes.map_ok.mp hpair
    simp [wanted, hspec, Except.toOption]

/-- **Requests that remain** make the same schema. -/
theorem schema_merged (h : KeyRequest.schema description requests assemble = .ok schema) :
    KeyRequest.schema description (merged requests) assemble = .ok schema := by
  obtain ⟨specs, hspecs, hfields⟩ := Outcomes.bind_ok.mp h
  have hread : ((merged requests).mapM fun request =>
      (Schema.specOf request.hint).map fun spec => (request.key, spec)) =
        .ok ((merged requests).map fun request => (request.key, request.wanted)) := by
    rw [Outcomes.mapM_ok, List.forall₂_map_right_iff, List.forall₂_same]
    intro request hrequest
    obtain ⟨original, horiginal, rfl⟩ := exists_of_mem_merged hrequest
    obtain ⟨pair, -, hpair⟩ := Outcomes.exists_of_mapM_ok hspecs horiginal
    obtain ⟨spec, hspec, -⟩ := Outcomes.map_ok.mp hpair
    simp [wanted, hspec, Except.toOption, Except.map]
  have hpairs : Assoc.ofPairs ((merged requests).map fun request => (request.key, request.wanted)) =
      Assoc.ofPairs specs := by
    rw [specs_eq_map hspecs]
    exact ofPairs_merged requests fun _ hint => (Schema.specOf hint).toOption.getD .any
  have hoptional := contains_optionalKeys_merged requests
  unfold optionalKeys at hoptional
  rw [← hfields, KeyRequest.schema, hread]
  simp only [Except.bind, Schema.ofFields, hpairs, hoptional]

/-- **What faults a schema of requests**, if no value that it decodes does: a complaint of the rule
about something else than the value, asked about an object that fits. -/
theorem schema_faulted_iff {names : List (Text × Text)} {name : KeyRequest → Text}
    {rule : List (Text × Data) → Except Complaint Data} {value : Json} {room : Nat} {fault : Fault}
    (h : KeyRequest.schema description requests (fun data => rule (renamedEntries names data)) =
      .ok schema)
    (hkeys : (requests.map KeyRequest.key).Nodup)
    (hnames : ∀ request ∈ requests, names.lookup request.key = some (name request))
    (hparts : ∀ content, value = .object content → ∀ request ∈ requests, ∀ spec item fault,
      content.lookup request.key = some item → Schema.specOf request.hint = .ok spec →
        (step spec item).result ≠ .error (.faulted fault)) :
    (bySchema registry step room schema value).result = .error (.faulted fault) ↔
      ∃ content given complaint, value = .object content ∧ KeysFit requests content ∧
        Gives step content name requests given ∧ rule given = .error complaint ∧
        complaint.concern.rejects = false ∧ fault = .complaint complaint := by
  constructor
  · intro hresult
    obtain ⟨declared, rfl, hdeclared⟩ := exists_declared h hkeys
    obtain ⟨t, hverdict⟩ := exists_verdict step description declared
      (fun data => rule (renamedEntries names data)) value
    rw [bySchema_of_verdict hverdict] at hresult
    cases hverdict with
    | notObject | missing | unknown => cases hresult
    | @stopped content before after field item data stop _ _ hpresent _ hstop =>
        obtain ⟨hfield, hitem⟩ :=
          mem_present.mp (hpresent ▸ by simp : (field, item) ∈ present content declared)
        obtain ⟨request, hrequest, hkey, hspec, -⟩ :=
          Outcomes.exists_of_forall₂ hdeclared.flip hfield
        cases stop with
        | faulted inner =>
            exact (hparts content rfl request hrequest _ item inner (hkey ▸ hitem) hspec hstop).elim
        | failed | exhausted => cases hresult
    | @assembled content data hmissing hunknown hdata =>
        obtain ⟨complaint, hcomplaint, hconcern, rfl⟩ := ofRule_faulted.mp hresult
        exact ⟨content, _, complaint, rfl, (keysFit_iff hdeclared).mpr ⟨hmissing, hunknown⟩,
          (gives_iff hdeclared hnames).mpr ⟨data, hdata, rfl⟩, hcomplaint, hconcern, rfl⟩
  · rintro ⟨content, given, complaint, rfl, hfit, hgives, hrule, hconcern, rfl⟩
    rw [result_of_gives _ h hkeys hnames hfit hgives, hrule]
    exact ofRule_faulted.mpr ⟨complaint, rfl, hconcern, rfl⟩

end KeyRequest

end JsonDecoding
