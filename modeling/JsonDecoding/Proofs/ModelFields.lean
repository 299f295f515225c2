import JsonDecoding.Proofs.ModelLaws
import JsonDecoding.Proofs.OwnKeys

/-!
# Fields of models

The schema of a model class reads every field under its own key: the key that it is mapped to, its
alias, or its name. A schema that validates hands the values on under aliases, and each field holds
what was read for it. A schema that does not hands them on under the names of fields, where a field
takes the value under its alias first. So a field whose alias is the name of another field may take
what was read for that one (`ModelClass.Borrows`). The two schemas make the same instance where no
alias is the name of a later field that has been read. Of the library that builds the models only its
laws are used (`ModelClass.Lawful`).
-/

namespace JsonDecoding

/-- Entries without those under one key. -/
theorem Assoc.lookup_filter_ne {κ α : Type} [BEq κ] [LawfulBEq κ] {entries : List (κ × α)}
    {key other : κ} {value : α} :
    (entries.filter fun entry => entry.1 != key).lookup other = some value ↔
      other ≠ key ∧ entries.lookup other = some value := by
  induction entries with
  | nil => simp
  | cons entry rest ih =>
      obtain ⟨k, v⟩ := entry
      by_cases hk : k = key
      · subst hk
        rw [List.filter_cons_of_neg (by simp), ih, List.lookup_cons]
        refine and_congr_right fun hne => ?_
        rw [beq_false_of_ne hne]
      · rw [List.filter_cons_of_pos (by simpa using hk), List.lookup_cons, List.lookup_cons]
        cases hother : other == k with
        | false => exact ih
        | true => simp [beq_iff_eq.mp hother, hk]

namespace ModelClass

open Attempt Decoder

variable {c : ModelClass} {keeps : ModelField → Data → Prop} {mapping : List (Text × Text)}
  {step : Spec → Json → Attempt Data} {content : List (Text × Json)}
  {reading taken : ModelField → Option Data} {f g x y : ModelField}

/-! ## What is read -/

/-- What is read for a field: the value under its own key, decoded, or nothing where the object does
not have this key. -/
inductive Reads (mapping : List (Text × Text)) (step : Spec → Json → Attempt Data)
    (content : List (Text × Json)) (field : ModelField) : Option Data → Prop where
  | found {item : Json} {spec : Spec} {data : Data}
      (hitem : content.lookup (field.key mapping) = some item)
      (hspec : Schema.specOf field.hint = .ok spec) (hdata : (step spec item).result = .ok data) :
      Reads mapping step content field (some data)
  | absent (hitem : content.lookup (field.key mapping) = none) :
      Reads mapping step content field none

/-- The fields of a class are told apart by their names, by the names under which validation looks
for them, and by their keys. -/
structure Distinct (c : ModelClass) (mapping : List (Text × Text)) : Prop where
  names : (c.fields.map ModelField.name).Nodup
  aliases : (c.fields.map ModelField.inputName).Nodup
  nonempty : ∀ field ∈ c.fields, field.publicName ≠ some []
  keys : (c.fields.map (ModelField.key mapping)).Nodup

/-- An object fits a model class: all annotations are specifications, all its keys are those of
fields, all that have no default are there, and this is what is read for the fields. -/
structure Fits (c : ModelClass) (mapping : List (Text × Text)) (step : Spec → Json → Attempt Data)
    (content : List (Text × Json)) (reading : ModelField → Option Data) : Prop where
  annotated : ∀ field ∈ c.fields, ∃ spec, Schema.specOf field.hint = .ok spec
  known : ∀ key ∈ Assoc.keys content, ∃ field ∈ c.fields, field.key mapping = key
  required : ∀ field ∈ c.fields, field.default = none → field.key mapping ∈ Assoc.keys content
  reads : ∀ field ∈ c.fields, Reads mapping step content field (reading field)

/-! ## Borrowing -/

/-- The alias of a field is the name of a field that has been read. -/
structure Aims (c : ModelClass) (reading : ModelField → Option Data) (f g : ModelField) : Prop where
  left_mem : f ∈ c.fields
  right_mem : g ∈ c.fields
  name : f.publicName = some g.name
  isRead : reading g ≠ none

/-- A field takes what was read for another one, when a model is built as it stands: its alias is
the name of that field, which comes later, or has itself borrowed and left its own value. -/
inductive Borrows (c : ModelClass) (reading : ModelField → Option Data) :
    ModelField → ModelField → Prop where
  | later {f g : ModelField} (haims : c.Aims reading f g) (hlater : [f, g].Sublist c.fields) :
      Borrows c reading f g
  | left {f g x : ModelField} (haims : c.Aims reading f g) (hborrows : Borrows c reading g x) :
      Borrows c reading f g

/-- What a field takes when a model is built as it stands: what it borrows, else what was read for
it, unless another field has borrowed this. -/
inductive Takes (c : ModelClass) (reading : ModelField → Option Data) (f : ModelField) :
    Option Data → Prop where
  | borrowed {g : ModelField} (h : c.Borrows reading f g) : Takes c reading f (reading g)
  | own (hnothing : ∀ g, ¬c.Borrows reading f g) (hkept : ∀ e, ¬c.Borrows reading e f) :
      Takes c reading f (reading f)
  | lost {e : ModelField} (hnothing : ∀ g, ¬c.Borrows reading f g) (h : c.Borrows reading e f) :
      Takes c reading f none

theorem exists_takes (c : ModelClass) (reading : ModelField → Option Data) (f : ModelField) :
    ∃ value, c.Takes reading f value := by
  by_cases hborrows : ∃ g, c.Borrows reading f g
  · obtain ⟨g, h⟩ := hborrows
    exact ⟨_, .borrowed h⟩
  · rw [not_exists] at hborrows
    by_cases hlost : ∃ e, c.Borrows reading e f
    · obtain ⟨e, h⟩ := hlost
      exact ⟨_, .lost hborrows h⟩
    · exact ⟨_, .own hborrows (not_exists.mp hlost)⟩

namespace Distinct

variable (hc : c.Distinct mapping)

include hc

theorem nodup : c.fields.Nodup := hc.names.of_map

theorem eq_of_name (hx : x ∈ c.fields) (hy : y ∈ c.fields) (h : x.name = y.name) : x = y :=
  List.inj_on_of_nodup_map hc.names hx hy h

/-- No two fields have one alias. -/
theorem eq_of_alias (hx : x ∈ c.fields) (hy : y ∈ c.fields) {name : Text}
    (hxname : x.publicName = some name) (hyname : y.publicName = some name) : x = y := by
  refine List.inj_on_of_nodup_map hc.aliases hx hy ?_
  simp only [ModelField.inputName, hxname, hyname, Option.getD_some]

/-- A field does not stand in front of itself. -/
theorem notMem_before {before after : List ModelField} (hfields : c.fields = before ++ f :: after) :
    f ∉ before := by
  have hnodup := hc.nodup
  rw [hfields] at hnodup
  exact fun hf => (List.nodup_append.mp hnodup).2.2 f hf f (.head _) rfl

end Distinct

namespace Borrows

theorem aims (h : c.Borrows reading f g) : c.Aims reading f g := by
  cases h with
  | later haims => exact haims
  | left haims => exact haims

/-- A field borrows from one other at most. -/
theorem right_unique (hc : c.Distinct mapping) (hx : c.Borrows reading f x)
    (hy : c.Borrows reading f y) : x = y :=
  hc.eq_of_name hx.aims.right_mem hy.aims.right_mem
    (Option.some.inj (hx.aims.name.symm.trans hy.aims.name))

/-- A field lends to one other at most. -/
theorem left_unique (hc : c.Distinct mapping) (hx : c.Borrows reading x g)
    (hy : c.Borrows reading y g) : x = y :=
  hc.eq_of_alias hx.aims.left_mem hy.aims.left_mem hx.aims.name hy.aims.name

/-- Nothing is borrowed where no alias is the name of a later field that has been read. -/
theorem not_of_apart
    (h : ∀ f g, [f, g].Sublist c.fields → f.publicName = some g.name → reading g = none) :
    ¬c.Borrows reading f g := by
  intro hborrows
  induction hborrows with
  | later haims hlater => exact haims.isRead (h _ _ hlater haims.name)
  | left _ _ ih => exact ih

end Borrows

/-! ## What is left for later fields -/

/-- What was read for a field is left when these fields have taken their values: none of them has
borrowed it, and the field itself has not taken it. -/
structure Left (c : ModelClass) (reading : ModelField → Option Data) (before : List ModelField)
    (x : ModelField) : Prop where
  kept : ∀ e ∈ before, ¬c.Borrows reading e x
  spared : x ∈ before → ∃ y, c.Borrows reading x y

/-- These are the values that are left, under the names of their fields. -/
def Remains (c : ModelClass) (reading : ModelField → Option Data) (before : List ModelField)
    (input : Values) : Prop :=
  ∀ name value, input.lookup name = some value ↔
    ∃ x ∈ c.fields, x.name = name ∧ c.Left reading before x ∧ reading x = some value

variable {before after : List ModelField} {input : Values}

/-- In a list without repetitions, what is in front of an item comes before it. -/
theorem mem_before (hnodup : (before ++ f :: after).Nodup)
    (h : [x, f].Sublist (before ++ f :: after)) : x ∈ before := by
  obtain ⟨front, back, hsplit, hfront, hback⟩ := List.sublist_append_iff.mp h
  have hnew : f ∉ after := (List.nodup_cons.mp hnodup.of_append_right).1
  rcases front with - | ⟨first, front⟩
  · obtain rfl : [x, f] = back := hsplit
    exact absurd (hback.of_cons_cons.subset (List.mem_singleton_self f)) hnew
  · obtain ⟨rfl, -⟩ := List.cons.inj hsplit
    exact hfront.subset (.head _)

theorem left_append :
    c.Left reading (before ++ [f]) x ↔ c.Left reading before x ∧ ¬c.Borrows reading f x ∧
      (x = f → ∃ y, c.Borrows reading x y) := by
  constructor
  · rintro ⟨hkept, hspared⟩
    refine ⟨⟨fun e he => hkept e (List.mem_append_left _ he),
      fun hx => hspared (List.mem_append_left _ hx)⟩, hkept f (by simp), ?_⟩
    rintro rfl
    exact hspared (by simp)
  · rintro ⟨⟨hkept, hspared⟩, hnot, hself⟩
    constructor
    · intro e he
      rcases List.mem_append.mp he with he | he
      · exact hkept e he
      · exact List.mem_singleton.mp he ▸ hnot
    · intro hx
      rcases List.mem_append.mp hx with hx | hx
      · exact hspared hx
      · exact hself (List.mem_singleton.mp hx)

/-- After a field has borrowed, all is left that was, but what it has borrowed. -/
theorem left_append_of_borrows (hc : c.Distinct mapping) (h : c.Borrows reading f g) :
    c.Left reading (before ++ [f]) x ↔ c.Left reading before x ∧ x ≠ g := by
  rw [left_append]
  refine and_congr_right fun _ => ⟨?_, fun hne => ⟨?_, ?_⟩⟩
  · rintro ⟨hnot, -⟩ rfl
    exact hnot h
  · exact fun hx => hne (hx.right_unique hc h)
  · rintro rfl
    exact ⟨g, h⟩

/-- After a field that borrows nothing, all is left that was, but what was read for it. -/
theorem left_append_of_nothing (hnothing : ∀ g, ¬c.Borrows reading f g) :
    c.Left reading (before ++ [f]) x ↔ c.Left reading before x ∧ x ≠ f := by
  rw [left_append]
  refine and_congr_right fun _ => ⟨?_, fun hne => ⟨hnothing x, fun h => absurd h hne⟩⟩
  rintro ⟨-, hself⟩ rfl
  obtain ⟨y, hy⟩ := hself rfl
  exact hnothing y hy

/-- The values that are left when one more has been taken away. -/
theorem Remains.without (hc : c.Distinct mapping) (h : c.Remains reading before input)
    (hg : g ∈ c.fields)
    (hleft : ∀ x, c.Left reading (before ++ [f]) x ↔ c.Left reading before x ∧ x ≠ g) :
    c.Remains reading (before ++ [f]) (input.filter fun entry => entry.1 != g.name) := by
  intro name value
  rw [Assoc.lookup_filter_ne, h]
  constructor
  · rintro ⟨hne, x, hx, rfl, hbefore, hvalue⟩
    exact ⟨x, hx, rfl, (hleft x).mpr ⟨hbefore, fun heq => hne (heq ▸ rfl)⟩, hvalue⟩
  · rintro ⟨x, hx, rfl, hafter, hvalue⟩
    obtain ⟨hbefore, hne⟩ := (hleft x).mp hafter
    exact ⟨fun hname => hne (hc.eq_of_name hx hg hname), x, hx, rfl, hbefore, hvalue⟩

/-- The values that are left do not change with a field for which nothing is left. -/
theorem Remains.kept (h : c.Remains reading before input) (hnothing : ∀ g, ¬c.Borrows reading f g)
    (hgone : c.Left reading before f → reading f = none) :
    c.Remains reading (before ++ [f]) input := by
  intro name value
  rw [h]
  constructor
  · rintro ⟨x, hx, rfl, hbefore, hvalue⟩
    refine ⟨x, hx, rfl, (left_append_of_nothing hnothing).mpr ⟨hbefore, ?_⟩, hvalue⟩
    rintro rfl
    cases (hgone hbefore).symm.trans hvalue
  · rintro ⟨x, hx, rfl, hafter, hvalue⟩
    exact ⟨x, hx, rfl, ((left_append_of_nothing hnothing).mp hafter).1, hvalue⟩

/-- What a field aims at is borrowed, if it is left and not its own. -/
theorem borrows_of_left (hfields : c.fields = before ++ f :: after) (haims : c.Aims reading f g)
    (hne : g ≠ f) (hleft : c.Left reading before g) : c.Borrows reading f g := by
  have hmem := haims.right_mem
  rw [hfields, List.mem_append, List.mem_cons] at hmem
  rcases hmem with hbefore | rfl | hafter
  · obtain ⟨y, hy⟩ := hleft.spared hbefore
    exact .left haims hy
  · exact absurd rfl hne
  · refine .later haims ?_
    rw [hfields]
    exact ((List.singleton_sublist.mpr hafter).cons_cons f).trans (List.sublist_append_right ..)

/-- What a field borrows is left when its turn comes. -/
theorem left_of_borrows (hc : c.Distinct mapping) (hfields : c.fields = before ++ f :: after)
    (h : c.Borrows reading f g) : c.Left reading before g := by
  have hnew := hc.notMem_before hfields
  refine ⟨fun e he hother => hnew (hother.left_unique hc h ▸ he), fun hg => ?_⟩
  cases h with
  | left _ hborrows => exact ⟨_, hborrows⟩
  | later haims hlater =>
      obtain ⟨front, back, rfl⟩ := List.append_of_mem hg
      have hnodup := hc.nodup
      rw [hfields, List.append_assoc, List.cons_append] at hlater hnodup
      exact absurd (List.mem_append_left _ (mem_before hnodup hlater)) hnew

/-- Where a field borrows nothing, whoever borrows from it comes before it. -/
theorem mem_of_borrows (hc : c.Distinct mapping) (hfields : c.fields = before ++ f :: after)
    (hnothing : ∀ g, ¬c.Borrows reading f g) (h : c.Borrows reading x f) : x ∈ before := by
  cases h with
  | left _ hborrows => exact absurd hborrows (hnothing _)
  | later haims hlater =>
      have hnodup := hc.nodup
      rw [hfields] at hlater hnodup
      exact mem_before hnodup hlater

/-! ## Building a model as it stands -/

theorem source?_of_alias {name : Text} {value : Data} (hname : f.publicName = some name)
    (hnonempty : name ≠ []) (hvalue : input.lookup name = some value) :
    source? f input = some name := by
  simp [source?, hname, hnonempty, hvalue, Option.filter]

/-- A field whose alias leads to nothing but its own value takes this. -/
theorem source?_of_own {value : Data}
    (h : ∀ name, f.publicName = some name → input.lookup name ≠ none → name = f.name)
    (hvalue : input.lookup f.name = some value) : source? f input = some f.name := by
  have hrest : [f.name].find? (fun source => (input.lookup source).isSome) = some f.name := by
    simp [hvalue]
  rw [source?, List.find?_append, hrest]
  cases hname : f.publicName.filter fun name => !name.isEmpty with
  | none => rfl
  | some name =>
      cases hlookup : input.lookup name with
      | none => simp [hlookup]
      | some _ =>
          obtain rfl := h name (Option.filter_eq_some_iff.mp hname).1 (by simp [hlookup])
          simp [hlookup]

theorem source?_of_none (h : ∀ name, f.publicName = some name → input.lookup name = none)
    (hvalue : input.lookup f.name = none) : source? f input = none := by
  simp only [source?, List.find?_eq_none, List.mem_append, Option.mem_toList, List.mem_singleton]
  rintro source (hsource | rfl)
  · simp [h source (Option.filter_eq_some_iff.mp hsource).1]
  · simp [hvalue]

/-- What a field takes when its turn comes: a value that is left, which then is gone, or nothing. -/
inductive Turn (c : ModelClass) (reading : ModelField → Option Data) (before : List ModelField)
    (input : Values) (f : ModelField) : Option Data → Prop where
  | taken {g : ModelField} {value : Data} (hsource : source? f input = some g.name)
      (hvalue : input.lookup g.name = some value)
      (hrest : c.Remains reading (before ++ [f]) (input.filter fun entry => entry.1 != g.name)) :
      Turn c reading before input f (some value)
  | missed (hsource : source? f input = none) (hrest : c.Remains reading (before ++ [f]) input) :
      Turn c reading before input f none

/-- The alias of a field that borrows nothing leads to nothing, unless it is its name. -/
theorem eq_name_of_alias (hfields : c.fields = before ++ f :: after)
    (hremains : c.Remains reading before input) (hnothing : ∀ g, ¬c.Borrows reading f g)
    {name : Text} (hname : f.publicName = some name) (hvalue : input.lookup name ≠ none) :
    name = f.name := by
  obtain ⟨value, hvalue⟩ := Option.ne_none_iff_exists'.mp hvalue
  obtain ⟨g, hg, rfl, hleft, hread⟩ := (hremains name value).mp hvalue
  by_contra hne
  have haims : c.Aims reading f g := ⟨by simp [hfields], hg, hname, by simp [hread]⟩
  refine hnothing g (borrows_of_left hfields haims ?_ hleft)
  rintro rfl
  exact hne rfl

/-- A field finds under its name what was read for it, if this is left. -/
theorem Remains.lookup_name (hc : c.Distinct mapping) (hremains : c.Remains reading before input)
    (hf : f ∈ c.fields) {value : Data} :
    input.lookup f.name = some value ↔ c.Left reading before f ∧ reading f = some value := by
  rw [hremains]
  constructor
  · rintro ⟨g, hg, hname, hleft, hread⟩
    obtain rfl := hc.eq_of_name hg hf hname
    exact ⟨hleft, hread⟩
  · exact fun h => ⟨f, hf, rfl, h⟩

/-- A field that borrows nothing, and for which nothing is left, takes nothing. -/
theorem turn_of_gone (hc : c.Distinct mapping) (hfields : c.fields = before ++ f :: after)
    (hremains : c.Remains reading before input) (hnothing : ∀ g, ¬c.Borrows reading f g)
    (hgone : c.Left reading before f → reading f = none) : c.Turn reading before input f none := by
  have hown : input.lookup f.name = none := by
    by_contra hsome
    obtain ⟨value, hvalue⟩ := Option.ne_none_iff_exists'.mp hsome
    obtain ⟨hleft, hread⟩ := (hremains.lookup_name hc (by simp [hfields])).mp hvalue
    cases (hgone hleft).symm.trans hread
  refine .missed (source?_of_none (fun name hname => ?_) hown) (hremains.kept hnothing hgone)
  by_contra hsome
  exact hsome (eq_name_of_alias hfields hremains hnothing hname hsome ▸ hown)

/-- **A step**: a field takes what it should from the values that are left. -/
theorem turn_of_takes (hc : c.Distinct mapping) (hfields : c.fields = before ++ f :: after)
    (hremains : c.Remains reading before input) {value : Option Data}
    (htakes : c.Takes reading f value) : c.Turn reading before input f value := by
  have hmem : f ∈ c.fields := by simp [hfields]
  cases htakes with
  | @borrowed g h =>
      obtain ⟨value, hread⟩ := Option.ne_none_iff_exists'.mp h.aims.isRead
      have hvalue : input.lookup g.name = some value :=
        (hremains _ _).mpr ⟨g, h.aims.right_mem, rfl, left_of_borrows hc hfields h, hread⟩
      rw [hread]
      refine .taken (source?_of_alias h.aims.name ?_ hvalue) hvalue
        (hremains.without hc h.aims.right_mem fun _ => left_append_of_borrows hc h)
      exact fun hempty => hc.nonempty f hmem (hempty ▸ h.aims.name)
  | own hnothing hkept =>
      cases hread : reading f with
      | none => exact turn_of_gone hc hfields hremains hnothing fun _ => hread
      | some value =>
          have hleft : c.Left reading before f :=
            ⟨fun e _ => hkept e, fun hf => absurd hf (hc.notMem_before hfields)⟩
          have hvalue := (hremains.lookup_name hc hmem).mpr ⟨hleft, hread⟩
          exact .taken
            (source?_of_own (fun _ => eq_name_of_alias hfields hremains hnothing) hvalue) hvalue
            (hremains.without hc hmem fun _ => left_append_of_nothing hnothing)
  | @lost e hnothing h =>
      refine turn_of_gone hc hfields hremains hnothing fun hleft => ?_
      exact absurd h (hleft.kept e (mem_of_borrows hc hfields hnothing h))

/-- **A run**: fields one after the other take what they should, the others keep their default. -/
theorem takings_of_remains (hc : c.Distinct mapping) {rest : List ModelField} {values : Values}
    {names : List Text} (hfields : c.fields = before ++ rest)
    (hremains : c.Remains reading before input)
    (htakes : ∀ field ∈ rest, c.Takes reading field (taken field))
    (htakings : Takings rest input values names) :
    values = held taken rest ∧ names = given taken rest := by
  induction htakings generalizing before with
  | nil => exact ⟨rfl, rfl⟩
  | @taken field rest input values names source value hsource hvalue hrest ih =>
      have hturn := turn_of_takes hc hfields hremains (htakes field (.head _))
      generalize htaken : taken field = result at hturn
      cases hturn with
      | taken hother hlookup hnext =>
          cases hsource.symm.trans hother
          cases hvalue.symm.trans hlookup
          obtain ⟨rfl, rfl⟩ :=
            ih (by simp [hfields]) hnext fun other hmem => htakes other (.tail _ hmem)
          exact ⟨by simp [held, htaken], by simp [ModelClass.given, htaken]⟩
      | missed hother => cases hsource.symm.trans hother
  | @missed field rest input values names hsource hrest ih =>
      have hturn := turn_of_takes hc hfields hremains (htakes field (.head _))
      generalize htaken : taken field = result at hturn
      cases hturn with
      | taken hother => cases hsource.symm.trans hother
      | missed _ hnext =>
          obtain ⟨rfl, rfl⟩ :=
            ih (by simp [hfields]) hnext fun other hmem => htakes other (.tail _ hmem)
          exact ⟨by cases hdefault : field.default <;> simp [held, htaken, hdefault],
            by simp [ModelClass.given, htaken]⟩

/-- **A model built as it stands** is filled with what its fields take. -/
theorem construct_of_takes (hlaws : c.Lawful keeps) (hc : c.Distinct mapping)
    (hinput : ∀ name value, input.lookup name = some value ↔
      ∃ field ∈ c.fields, field.name = name ∧ reading field = some value)
    (htakes : ∀ field ∈ c.fields, c.Takes reading field (taken field)) :
    c.construct input = .ok (c.filled taken) := by
  have hremains : c.Remains reading [] input := by
    intro name value
    have hleft (x : ModelField) : c.Left reading [] x :=
      ⟨fun _ h => absurd h List.not_mem_nil, fun h => absurd h List.not_mem_nil⟩
    simp only [hinput, hleft, true_and]
  obtain ⟨values, names, htakings, hconstruct⟩ := hlaws.construct_eq input
  obtain ⟨rfl, rfl⟩ := takings_of_remains hc rfl hremains htakes htakings
  exact hconstruct

/-! ## Requests of fields -/

/-- What a field asks for. -/
def request (mapping : List (Text × Text)) (field : ModelField) : KeyRequest :=
  ⟨field.key mapping, field.name, field.hint, field.default.isSome⟩

theorem map_requests (c : ModelClass) (mapping : List (Text × Text)) (name : KeyRequest → Text) :
    (c.requests mapping).map name = c.fields.map fun field => name (request mapping field) := by
  simp [requests, request, Function.comp_def]

theorem mem_requests (hmem : f ∈ c.fields) : request mapping f ∈ c.requests mapping :=
  List.mem_map_of_mem hmem

theorem keysFit_of_fits (h : c.Fits mapping step content reading) :
    KeyRequest.KeysFit (c.requests mapping) content := by
  constructor
  · intro key hkey
    obtain ⟨field, hfield, rfl⟩ := h.known key hkey
    exact ⟨_, mem_requests hfield, rfl⟩
  · intro other hother hoptional
    obtain ⟨field, hfield, rfl⟩ := List.mem_map.mp hother
    exact h.required field hfield (by simpa using hoptional)

theorem exists_gives_of_fits (h : c.Fits mapping step content reading) (name : KeyRequest → Text) :
    ∃ given, KeyRequest.Gives step content name (c.requests mapping) given := by
  refine KeyRequest.Gives.exists_gives name fun other hother item hitem => ?_
  obtain ⟨field, hfield, rfl⟩ := List.mem_map.mp hother
  have hreads := h.reads field hfield
  generalize reading field = value at hreads
  cases hreads with
  | found hfound hspec hdata =>
      cases hitem.symm.trans hfound
      exact ⟨_, _, hspec, hdata⟩
  | absent habsent => cases hitem.symm.trans habsent

/-- What is read for a field is given under its name, whatever names are used. -/
theorem lookup_of_gives (h : c.Fits mapping step content reading) {name : KeyRequest → Text}
    {given : List (Text × Data)} (hnames : ((c.requests mapping).map name).Nodup)
    (hgives : KeyRequest.Gives step content name (c.requests mapping) given) (hmem : f ∈ c.fields) :
    given.lookup (name (request mapping f)) = reading f := by
  have hreads := h.reads f hmem
  rcases hgives.lookup hnames (mem_requests hmem) with
    ⟨habsent, hnone⟩ | ⟨item, spec, data, hitem, hspec, hdata, hsome⟩
  · generalize reading f = value at hreads ⊢
    cases hreads with
    | found hfound => cases habsent.symm.trans hfound
    | absent => exact hnone
  · generalize reading f = value at hreads ⊢
    cases hreads with
    | absent habsent => cases hitem.symm.trans habsent
    | found hfound hother hvalue =>
        cases hitem.symm.trans hfound
        cases hspec.symm.trans hother
        cases hdata.symm.trans hvalue
        exact hsome

/-- A field that has no default is read. -/
theorem Fits.isRead (h : c.Fits mapping step content reading) (hmem : f ∈ c.fields)
    (hdefault : f.default = none) : reading f ≠ none := by
  intro hnone
  have hreads := h.reads f hmem
  rw [hnone] at hreads
  cases hreads with
  | absent habsent =>
      have hkey := h.required f hmem hdefault
      obtain ⟨entry, hentry, hsame⟩ := List.mem_map.mp hkey
      exact absurd (List.lookup_eq_none_iff.mp habsent entry hentry) (by simp [hsame])

namespace Distinct

variable (hc : c.Distinct mapping)

include hc

/-- The keys that are requested are distinct. -/
theorem nodup_requested : ((c.requests mapping).map KeyRequest.key).Nodup := by
  rw [map_requests]
  exact hc.keys

theorem validationName_eq (hmem : f ∈ c.fields) : f.validationName = f.inputName := by
  have hnonempty := hc.nonempty f hmem
  unfold ModelField.validationName ModelField.inputName
  split
  · next hname => rw [hname, Option.getD_some]
  · next hother =>
      cases hname : f.publicName with
      | none => rfl
      | some name =>
          cases name with
          | nil => exact absurd hname hnonempty
          | cons first rest => exact absurd hname (hother first rest)

/-- The key of each field leads to its alias. -/
theorem lookup_validationNames (hmem : f ∈ c.fields) :
    (c.validationNames mapping).lookup (f.key mapping) = some f.inputName := by
  have hpairs : (Assoc.keys
      (c.fields.map fun field => (field.key mapping, field.validationName))).Nodup := by
    simpa [Assoc.keys, Function.comp_def] using hc.keys
  rw [validationNames, Assoc.ofPairs_of_nodup hpairs, ← hc.validationName_eq hmem]
  exact Assoc.lookup_of_mem hpairs (List.mem_map.mpr ⟨f, hmem, rfl⟩)

end Distinct

/-! ## The two schemas -/

variable {registry : Registry} {description : Text} {schema : Schema} {room : Nat}

/-- The name under which what a request reads is validated. -/
def aliasOf (c : ModelClass) (mapping : List (Text × Text)) (request : KeyRequest) : Text :=
  ((c.validationNames mapping).lookup request.key).getD []

theorem Distinct.aliasOf_request (hc : c.Distinct mapping) (hmem : f ∈ c.fields) :
    c.aliasOf mapping (request mapping f) = f.inputName := by
  rw [aliasOf, request, hc.lookup_validationNames hmem, Option.getD_some]

/-- **A schema that validates** reads every field under its own key. -/
theorem result_of_validating (hlaws : c.Lawful keeps) (hc : c.Distinct mapping)
    (h : c.Fits mapping step content reading)
    (hkeeps : ∀ field ∈ c.fields, ∀ data, reading field = some data → keeps field data)
    (hschema : c.schema mapping true description = .ok schema) :
    (bySchema registry step room schema (.object content)).result = .ok (c.filled reading) := by
  have hsame :
      (c.requests mapping).map (c.aliasOf mapping) = c.fields.map ModelField.inputName := by
    rw [map_requests]
    exact List.map_congr_left fun field hfield => hc.aliasOf_request hfield
  have hdistinct : ((c.requests mapping).map (c.aliasOf mapping)).Nodup := hsame ▸ hc.aliases
  have hnames : ∀ request ∈ c.requests mapping,
      (c.validationNames mapping).lookup request.key = some (c.aliasOf mapping request) := by
    intro other hother
    obtain ⟨field, hfield, rfl⟩ := List.mem_map.mp hother
    rw [hc.lookup_validationNames hfield, ← hc.aliasOf_request hfield]
    rfl
  obtain ⟨given, hgives⟩ := exists_gives_of_fits h (c.aliasOf mapping)
  have hinput : ∀ field ∈ c.fields, given.lookup field.inputName = reading field := by
    intro field hfield
    rw [← hc.aliasOf_request hfield]
    exact lookup_of_gives h hdistinct hgives hfield
  rw [KeyRequest.result_of_gives
      (fun entries => (c.validate (Assoc.ofPairs entries)).mapError Complaint.unlessValidation)
      hschema hc.nodup_requested hnames (keysFit_of_fits h) hgives,
    Assoc.ofPairs_of_nodup (hdistinct.sublist hgives.keys_sublist),
    hlaws.validate_eq given reading hinput hkeeps fun field hfield => h.isRead hfield]
  rfl

/-- **A schema that builds models as they stand** gives every field what it takes. -/
theorem result_of_constructing (hlaws : c.Lawful keeps) (hc : c.Distinct mapping)
    (h : c.Fits mapping step content reading)
    (htakes : ∀ field ∈ c.fields, c.Takes reading field (taken field))
    (hschema : c.schema mapping false description = .ok schema) :
    (bySchema registry step room schema (.object content)).result = .ok (c.filled taken) := by
  have hsame : (c.requests mapping).map KeyRequest.field = c.fields.map ModelField.name :=
    map_requests c mapping KeyRequest.field
  have hdistinct : ((c.requests mapping).map KeyRequest.field).Nodup := hsame ▸ hc.names
  obtain ⟨given, hgives⟩ := exists_gives_of_fits h KeyRequest.field
  have hown : ∀ field ∈ c.fields, given.lookup field.name = reading field :=
    fun field hfield => lookup_of_gives h hdistinct hgives hfield
  have hinput : ∀ name value, given.lookup name = some value ↔
      ∃ field ∈ c.fields, field.name = name ∧ reading field = some value := by
    intro name value
    constructor
    · intro hlookup
      obtain ⟨before, after, rfl, -⟩ := List.lookup_eq_some_iff.mp hlookup
      have hname : name ∈ c.fields.map ModelField.name :=
        hsame ▸ hgives.keys_sublist.subset (by simp [Assoc.keys])
      obtain ⟨field, hfield, rfl⟩ := List.mem_map.mp hname
      exact ⟨field, hfield, rfl, (hown field hfield).symm.trans hlookup⟩
    · rintro ⟨field, hfield, rfl, hread⟩
      exact (hown field hfield).trans hread
  have howners : ∀ request ∈ c.requests mapping,
      (KeyRequest.owners (c.requests mapping)).lookup request.key = some request.field :=
    fun request hrequest => KeyRequest.lookup_owners hc.nodup_requested hrequest
  rw [KeyRequest.result_of_gives
      (fun entries => (c.construct entries).mapError Complaint.unlessValidation) hschema
      hc.nodup_requested howners (keysFit_of_fits h) hgives,
    construct_of_takes hlaws hc hinput htakes]
  rfl

/-- **Models are built from their own keys** by a schema that validates, where validation keeps what
is read. One that does not validate gives every field what it takes, which may be what was read for
another; the two make the same instance where no alias is the name of a later field that has been
read. -/
theorem models_are_built_from_own_keys (hlaws : c.Lawful keeps) (hc : c.Distinct mapping)
    (h : c.Fits mapping step content reading)
    (hkeeps : ∀ field ∈ c.fields, ∀ data, reading field = some data → keeps field data)
    (registry : Registry) (room : Nat) (description : Text) :
    ∃ validating standing,
      c.schema mapping true description = .ok validating ∧
      c.schema mapping false description = .ok standing ∧
      (bySchema registry step room validating (.object content)).result = .ok (c.filled reading) ∧
      (∃ taken, (∀ field ∈ c.fields, c.Takes reading field (taken field)) ∧
        (bySchema registry step room standing (.object content)).result = .ok (c.filled taken)) ∧
      ((∀ f g, [f, g].Sublist c.fields → f.publicName = some g.name → reading g = none) →
        (bySchema registry step room standing (.object content)).result = .ok (c.filled reading)) := by
  have hhints : ∀ request ∈ c.requests mapping, ∃ spec, Schema.specOf request.hint = .ok spec := by
    intro other hother
    obtain ⟨field, hfield, rfl⟩ := List.mem_map.mp hother
    exact h.annotated field hfield
  obtain ⟨validating, hvalidating⟩ := KeyRequest.exists_schema _ _ hhints
  obtain ⟨standing, hstanding⟩ := KeyRequest.exists_schema _ _ hhints
  refine ⟨validating, standing, hvalidating, hstanding, ?_, ?_, ?_⟩
  · exact result_of_validating hlaws hc h hkeeps hvalidating
  · choose taken htakes using exists_takes c reading
    exact ⟨taken, fun field _ => htakes field,
      result_of_constructing hlaws hc h (fun field _ => htakes field) hstanding⟩
  · intro hapart
    refine result_of_constructing hlaws hc h (fun field _ => .own ?_ ?_) hstanding
    · exact fun g => Borrows.not_of_apart hapart
    · exact fun e => Borrows.not_of_apart hapart

/-- A field whose alias is the name of a later one, which is not read; the alias of each field is
the key of the other. -/
theorem models_are_built_from_own_keys_for_crossed_names :
    let id : ModelField := ⟨Text.lit "id", .builtin .int, some (Text.lit "key"), none⟩
    let key : ModelField :=
      ⟨Text.lit "key", .builtin .bool, some (Text.lit "code"), some (.bool false)⟩
    let account : DeclaredModel := ⟨Text.lit "Account", [id, key], [], none⟩
    let mapping : List (Text × Text) :=
      [(Text.lit "id", Text.lit "code"), (Text.lit "key", Text.lit "key")]
    let content : List (Text × Json) := [(Text.lit "code", .number (.int 1))]
    let data : Data :=
      .model (Text.lit "Account") [(Text.lit "id", .int 1), (Text.lit "key", .bool false)]
        [Text.lit "id"]
    ∀ help instances, ∃ validating standing,
      (account.modelClass help instances).schema mapping true [] = .ok validating ∧
      (account.modelClass help instances).schema mapping false [] = .ok standing ∧
      (bySchema .empty (decode .empty 1) 1 validating (.object content)).result = .ok data ∧
      (bySchema .empty (decode .empty 1) 1 standing (.object content)).result = .ok data := by
  intro id key account mapping content data help instances
  let reading (field : ModelField) : Option Data :=
    if field.name = Text.lit "id" then some (.int 1) else none
  have hdistinct : (account.modelClass help instances).Distinct mapping :=
    ⟨(by decide : (account.fields.map ModelField.name).Nodup),
      (by decide : (account.fields.map ModelField.inputName).Nodup),
      (by decide : ∀ field ∈ account.fields, field.publicName ≠ some []),
      (by decide : (account.fields.map (ModelField.key mapping)).Nodup)⟩
  have hknown : ∀ name ∈ Assoc.keys content, ∃ field ∈ account.fields,
      field.key mapping = name := by decide
  have hfits : (account.modelClass help instances).Fits mapping (decode .empty 1) content
      reading := by
    refine ⟨?_, hknown, ?_, ?_⟩
    · exact List.forall_mem_cons.mpr ⟨⟨_, rfl⟩, List.forall_mem_singleton.mpr ⟨_, rfl⟩⟩
    · exact List.forall_mem_cons.mpr ⟨fun _ => by decide, List.forall_mem_singleton.mpr nofun⟩
    · exact List.forall_mem_cons.mpr
        ⟨.found rfl rfl rfl, List.forall_mem_singleton.mpr (.absent rfl)⟩
  have hlaws : (account.modelClass help instances).Lawful (DeclaredModel.Keeps instances) :=
    DeclaredModel.lawful rfl rfl
  have hkeeps : ∀ field ∈ account.fields, ∀ data, reading field = some data →
      DeclaredModel.Keeps instances field data := by
    refine List.forall_mem_cons.mpr ⟨?_, List.forall_mem_singleton.mpr nofun⟩
    rintro _ ⟨⟩
    exact ⟨_, rfl, rfl⟩
  obtain ⟨validating, standing, hvalidating, hstanding, hvalidated, -, hapart⟩ :=
    models_are_built_from_own_keys hlaws hdistinct hfits hkeeps .empty 1 []
  refine ⟨validating, standing, hvalidating, hstanding, hvalidated, hapart fun f g hsub _ => ?_⟩
  cases hsub.eq_of_length rfl
  rfl

/-- Two fields that have each other's name as alias, both read: a model that is built as it stands
has their values exchanged. -/
theorem crossed_aliases_exchange_values :
    let a : ModelField := ⟨Text.lit "a", .builtin .int, some (Text.lit "b"), none⟩
    let b : ModelField := ⟨Text.lit "b", .builtin .int, some (Text.lit "a"), none⟩
    let pair : DeclaredModel := ⟨Text.lit "Pair", [a, b], [], none⟩
    let content : List (Text × Json) :=
      [(Text.lit "a", .number (.int 1)), (Text.lit "b", .number (.int 2))]
    let reading (field : ModelField) : Option Data :=
      if field.name = Text.lit "a" then some (.int 2) else some (.int 1)
    let built (first second : Int) : Data :=
      .model (Text.lit "Pair") [(Text.lit "a", .int first), (Text.lit "b", .int second)]
        [Text.lit "a", Text.lit "b"]
    built 1 2 ≠ built 2 1 ∧ ∀ help instances,
      (pair.modelClass help instances).Lawful (DeclaredModel.Keeps instances) ∧
      (pair.modelClass help instances).Distinct [] ∧
      (pair.modelClass help instances).Fits [] (decode .empty 1) content reading ∧
      (∀ field ∈ pair.fields, ∀ data, reading field = some data →
        DeclaredModel.Keeps instances field data) ∧
      (pair.modelClass help instances).filled reading = built 2 1 ∧
      ∃ standing, (pair.modelClass help instances).schema [] false [] = .ok standing ∧
        (bySchema .empty (decode .empty 1) 1 standing (.object content)).result = .ok (built 1 2) := by
  intro a b pair content reading built
  have hnames : (pair.fields.map ModelField.name).Nodup := by decide
  have haliases : (pair.fields.map ModelField.inputName).Nodup := by decide
  have hnonempty : ∀ field ∈ pair.fields, field.publicName ≠ some [] := by decide
  have hkeys : (pair.fields.map (ModelField.key [])).Nodup := by decide
  have hknown : ∀ name ∈ Assoc.keys content, ∃ field ∈ pair.fields, field.key [] = name := by
    decide
  have hrequired : ∀ field ∈ pair.fields, field.default = none →
      field.key [] ∈ Assoc.keys content := by decide
  refine ⟨by simp [built], fun help instances => ⟨DeclaredModel.lawful rfl rfl,
    ⟨hnames, haliases, hnonempty, hkeys⟩, ⟨?_, hknown, hrequired, ?_⟩, ?_, rfl, _, rfl, rfl⟩⟩
  · exact List.forall_mem_cons.mpr ⟨⟨_, rfl⟩, List.forall_mem_singleton.mpr ⟨_, rfl⟩⟩
  · exact List.forall_mem_cons.mpr
      ⟨.found rfl rfl rfl, List.forall_mem_singleton.mpr (.found rfl rfl rfl)⟩
  · refine List.forall_mem_cons.mpr ⟨?_, List.forall_mem_singleton.mpr ?_⟩
    · rintro _ ⟨⟩
      exact ⟨_, rfl, rfl⟩
    · rintro _ ⟨⟩
      exact ⟨_, rfl, rfl⟩

end ModelClass

end JsonDecoding
