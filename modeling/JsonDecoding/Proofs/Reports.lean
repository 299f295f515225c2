import JsonDecoding.Parser
import JsonDecoding.Proofs.Closed
import JsonDecoding.Proofs.Arrivals
import JsonDecoding.Proofs.Hashable
import JsonDecoding.Proofs.Lines
import JsonDecoding.Proofs.Lossless
import JsonDecoding.Proofs.Restraint

/-!
# Reports

What input can do to the layout of a report. Values are shown on one line each, whatever they hold.
Keys are shown as they are, on the path to the value at fault and in the list of unknown keys, so
where nothing that is registered breaks a line, the line breaks of these keys are the only ones
beyond the layout (`Parser.lines_of_report`).
-/

namespace JsonDecoding

open Attempt Decoder

/-! ## Texts of errors -/

namespace Cause

/-- The texts of a cause are of one line each, apart from unknown keys. -/
def Tidy : Cause → Prop
  | .typeMismatch expected actual _ => expected.OneLine ∧ actual.OneLine
  | .missingKeys keys => ∀ key ∈ keys, key.OneLine
  | .unknownKeys _ => True
  | .unknownSpec spec => spec.describe.OneLine
  | .invalid description _ detail => description.OneLine ∧ detail.OneLine

/-- How many line breaks there are in the keys that a cause lists as unknown. -/
def keyBreaks : Cause → Nat
  | .unknownKeys keys => (keys.map Text.breaks).sum
  | _ => 0

variable {cause : Cause}

theorem breaks_joined_keys (keys : List Text) :
    (Text.joined (Text.lit ", ") keys).breaks = (keys.map Text.breaks).sum :=
  Text.breaks_joined_of_oneLine (Text.lit ", ") rfl keys

/-- A reason breaks its line only in unknown keys. -/
theorem breaks_reason (h : cause.Tidy) : cause.reason.breaks = cause.keyBreaks := by
  cases cause with
  | typeMismatch expected actual value =>
      have hexpected : expected.breaks = 0 := h.1
      have hactual : actual.breaks = 0 := h.2
      have hseen : value.seen.breaks = 0 := Json.oneLine_seen value
      simp only [reason, Text.breaks_append, hexpected, hactual, hseen]
      rfl
  | missingKeys keys =>
      have hkeys : (Text.joined (Text.lit ", ") keys).breaks = 0 :=
        Text.oneLine_joined (Text.lit ", ") rfl h
      simp only [reason, Text.breaks_append, hkeys]
      rfl
  | unknownKeys keys =>
      simp only [reason, Text.breaks_append, breaks_joined_keys]
      exact Nat.zero_add _
  | unknownSpec spec =>
      have hspec : spec.describe.breaks = 0 := h
      simp only [reason, Text.breaks_append, hspec]
      rfl
  | invalid description value detail =>
      have hdescription : description.breaks = 0 := h.1
      have hdetail : detail.breaks = 0 := h.2
      simp only [reason, Text.breaks_append, hdescription, hdetail]
      rfl

/-- So does a conclusion. -/
theorem breaks_conclusion (h : cause.Tidy) : cause.conclusion.breaks = cause.keyBreaks := by
  cases cause with
  | typeMismatch expected actual value =>
      have hactual : actual.breaks = 0 := h.2
      simp only [conclusion, Text.breaks_append, hactual]
      rfl
  | missingKeys keys =>
      have hkeys : (Text.joined (Text.lit ", ") keys).breaks = 0 :=
        Text.oneLine_joined (Text.lit ", ") rfl h
      simp only [conclusion, Text.breaks_append, hkeys]
      rfl
  | unknownKeys keys =>
      simp only [conclusion, Text.breaks_append, breaks_joined_keys]
      exact Nat.zero_add _
  | unknownSpec spec =>
      have hspec : spec.describe.breaks = 0 := h
      unfold conclusion
      split <;> next heq => cases heq <;> simp only [Text.breaks_append, hspec] <;> rfl
  | invalid description value detail =>
      have hdetail : detail.breaks = 0 := h.2
      simp only [conclusion, Text.breaks_append, hdetail]
      rfl

end Cause

/-- The texts of a frame are of one line each. -/
def Frame.Tidy (frame : Frame) : Prop := frame.description.OneLine ∧ frame.seen.OneLine

namespace DecodeError

/-- The texts of an error are of one line each, apart from keys of the value. -/
structure Tidy (e : DecodeError) : Prop where
  cause : e.cause.Tidy
  frames : ∀ frame ∈ e.frames, frame.Tidy

/-- How many line breaks there are in the keys on the path of an error. -/
def pathBreaks (e : DecodeError) : Nat := (e.path.map Location.breaks).sum

variable {e : DecodeError}

theorem Tidy.ofCause {cause : Cause} (h : cause.Tidy) : (DecodeError.ofCause cause).Tidy :=
  ⟨h, by simp [DecodeError.ofCause]⟩

theorem Tidy.within (h : e.Tidy) {description : Text} (hdescription : description.OneLine)
    (value : Json) : (e.within description value).Tidy :=
  ⟨h.cause, List.forall_mem_cons.mpr ⟨⟨hdescription, Json.oneLine_seen value⟩, h.frames⟩⟩

theorem Tidy.locatedAt (h : e.Tidy) (location : Location) : (e.locatedAt location).Tidy := by
  obtain ⟨cause, frames⟩ := e
  cases frames with
  | nil => exact ⟨h.cause, List.forall_mem_singleton.mpr ⟨rfl, rfl⟩⟩
  | cons frame rest =>
      obtain ⟨hframe, hrest⟩ := List.forall_mem_cons.mp h.frames
      exact ⟨h.cause, List.forall_mem_cons.mpr ⟨hframe, hrest⟩⟩

/-- The lines of a frame break in the key of its location only. -/
theorem breaks_frameLines {frame : Frame} (h : frame.Tidy) :
    ((frameLines false frame).map Text.breaks).sum =
      (frame.location.map Location.breaks).getD 0 := by
  obtain ⟨description, seen, location⟩ := frame
  have hdescription : description.breaks = 0 := h.1
  have hseen : seen.breaks = 0 := h.2
  have hlines : ((if description.isEmpty then [] else
      [Text.lit "When trying to read a value for specification: `" ++ description ++
        Text.lit "`", Text.lit "I saw: `" ++ seen ++ Text.lit "`"]).map Text.breaks).sum = 0 := by
    split
    · rfl
    · simp only [List.map_cons, List.map_nil, Text.breaks_append, hdescription, hseen]
      rfl
  simp only [frameLines, List.map_append, List.sum_append, hlines, Nat.add_zero]
  cases location with
  | none => rfl
  | some location =>
      simp only [List.map_cons, List.map_nil, List.sum_singleton, Text.breaks_append,
        location.breaks_words, Option.map_some, Option.getD_some]
      exact Nat.zero_add _

/-- The lines of frames break in the keys of their locations only. -/
theorem breaks_flatMap_frameLines {frames : List Frame} (h : ∀ frame ∈ frames, frame.Tidy) :
    ((frames.flatMap (frameLines false)).map Text.breaks).sum =
      ((frames.filterMap Frame.location).map Location.breaks).sum := by
  induction frames with
  | nil => rfl
  | cons frame rest ih =>
      obtain ⟨hframe, hrest⟩ := List.forall_mem_cons.mp h
      rw [List.flatMap_cons, List.map_append, List.sum_append, breaks_frameLines hframe, ih hrest]
      cases hlocation : frame.location <;> simp [hlocation]

/-- The outermost frame of a whole value has no location, so its lines do not break. -/
theorem frameLines_outermost (description seen : Text) :
    frameLines true ⟨description, seen, none⟩ = frameLines false ⟨description, seen, none⟩ := rfl

/-- **The lines of a trace** break in keys on the path and in unknown keys only. -/
theorem Tidy.breaks_trace (h : e.Tidy) {description seen : Text} {rest : List Frame}
    (hframes : e.frames = ⟨description, seen, none⟩ :: rest) :
    (e.trace.map Text.breaks).sum = e.pathBreaks + e.cause.keyBreaks := by
  have hlines := breaks_flatMap_frameLines h.frames
  -- the first frame is shown without its location, and has none
  rw [← path, ← pathBreaks, hframes, List.flatMap_cons, ← frameLines_outermost] at hlines
  simp only [trace, hframes, List.map_append, List.sum_append, List.map_cons, List.map_nil,
    List.sum_singleton, Cause.breaks_conclusion h.cause] at hlines ⊢
  omega

/-- **The lines of a report**: the reason and those of the trace, and those that its keys add. -/
theorem Tidy.lineCount_message (h : e.Tidy) {description seen : Text} {rest : List Frame}
    (hframes : e.frames = ⟨description, seen, none⟩ :: rest) :
    e.message.lineCount = 1 + e.trace.length + e.pathBreaks + 2 * e.cause.keyBreaks := by
  have htrace := h.breaks_trace hframes
  have hreason : e.reason.breaks = e.cause.keyBreaks := Cause.breaks_reason h.cause
  have hseparator : Text.breaks [10] = 1 := rfl
  rw [message, hframes, List.isEmpty_cons, if_neg Bool.false_ne_true, Text.lineCount,
    Text.breaks_joined, hseparator]
  simp only [List.map_cons, List.sum_cons, List.length_cons, hreason, htrace]
  omega

end DecodeError

/-! ## What is registered -/

/-- Where data cannot be an element of a set, the reason for that is one line. -/
def Data.NamedInLine (data : Data) : Prop :=
  ∀ reason, data.unhashable? = some reason → reason.message.OneLine

namespace Data

/-- A container of the library itself is named on one line. -/
theorem namedInLine_of_kind {data : Data} {name : Text} (h : data.unhashable? = some (.kind name))
    (hname : Text.OneLine (Text.shownName 200 name)) : data.NamedInLine := by
  intro reason hreason
  cases h.symm.trans hreason
  exact Text.oneLine_append.mpr ⟨rfl, hname⟩

/-- Decoding adds no names of its own. -/
theorem kept_namedInLine : Data.Kept NamedInLine where
  scalar value data hdata reason hreason := by
    cases value with
    | number n => cases n <;> cases hdata <;> cases hreason
    | _ => cases hdata <;> cases hreason
  list _ _ := namedInLine_of_kind rfl rfl
  tuple items hitems reason hreason := by
    obtain ⟨item, hmem, hitem⟩ := exists_of_unhashableItem? hreason
    exact hitems item hmem reason hitem
  dict _ _ := namedInLine_of_kind rfl rfl
  set _ _ _ := namedInLine_of_kind rfl rfl

end Data

/-- A rule breaks no line: the words of its complaints are one line, and so are the names of the
data that it gives, if the names of the data given to it are. -/
def Rule.InLine (rule : Rule) : Prop :=
  ∀ data, data.NamedInLine →
    (∀ result, rule data = .ok result → result.NamedInLine) ∧
    ∀ complaint, rule data = .error complaint → complaint.message.OneLine

/-- A schema without a handler of its own breaks no line: its description, its declared keys, the
names in its specifications and what its rule says are of one line each. -/
def Schema.InLine : Schema → Prop
  | .object description fields assemble =>
      description.OneLine ∧
        (∀ field ∈ fields, field.key.OneLine ∧ field.spec.NamedInLine) ∧ assemble.InLine
  | .array description element assemble =>
      description.OneLine ∧ element.NamedInLine ∧ assemble.InLine
  | .scalar description _ convert => description.OneLine ∧ convert.InLine
  | .raw .. => False

/-- A factory breaks no line: neither its defaults do, nor what it builds of arguments that do
not. -/
structure Factory.InLine (f : Factory) : Prop where
  defaults : ∀ spec ∈ f.defaults, spec.NamedInLine
  body : ∀ arguments schema, (∀ argument ∈ arguments, argument.NamedInLine) →
    f.build arguments = .ok schema → schema.InLine

/-- Nothing that is registered breaks a line. -/
def Registry.InLine (r : Registry) : Prop := ∀ entry ∈ r.entries, entry.2.InLine

theorem Schema.InLine.description {schema : Schema} (h : schema.InLine) :
    schema.description.OneLine := by
  cases schema with
  | raw => exact h.elim
  | _ => exact h.1

theorem Registry.InLine.call {r : Registry} (h : r.InLine) {identity : Spec}
    {arguments : List Spec} (hspec : (Spec.custom identity arguments).NamedInLine)
    {factory : Factory} (hresolve : r.resolve identity = some factory) {schema : Schema}
    (hcall : factory.call arguments = .ok schema) : schema.InLine := by
  obtain ⟨key, hmem⟩ := Registry.mem_of_resolve hresolve
  refine (h _ hmem).body _ _ (fun argument hargument => ?_) (Factory.call_ok hcall)
  exact (Factory.mem_filled hargument).elim (Spec.everyAmong_iff.mp hspec.2 argument)
    ((h _ hmem).defaults argument)

/-! ## Attempts -/

namespace Attempt

variable {α β : Type}

/-- What an attempt gives is good, and what it fails with is tidy. -/
structure Tidy (good : α → Prop) (t : Attempt α) : Prop where
  given : ∀ a, t.result = .ok a → good a
  failed : ∀ e, t.result = .error (.failed e) → e.Tidy

namespace Tidy

variable {good : α → Prop} {better : β → Prop} {t : Attempt α}

theorem done {a : α} (h : good a) : (Attempt.done a).Tidy good := by
  refine ⟨fun b hb => ?_, nofun⟩
  cases hb
  exact h

theorem refuse {cause : Cause} (h : cause.Tidy) : (Attempt.refuse cause : Attempt α).Tidy good := by
  refine ⟨nofun, fun e he => ?_⟩
  cases he
  exact .ofCause h

theorem fault (f : Fault) : (Attempt.fault f : Attempt α).Tidy good :=
  ⟨nofun, nofun⟩

theorem bind (h : t.Tidy good) {next : α → Attempt β} (hnext : ∀ a, good a → (next a).Tidy better) :
    (t.bind next).Tidy better where
  given b hb := by
    obtain ⟨a, ha, hb⟩ := bind_ok.mp hb
    exact (hnext a (h.given a ha)).given b hb
  failed e he := by
    rcases bind_error.mp he with he | ⟨a, ha, he⟩
    · exact h.failed e he
    · exact (hnext a (h.given a ha)).failed e he

theorem map (h : t.Tidy good) {f : α → β} (hf : ∀ a, good a → better (f a)) :
    (t.map f).Tidy better where
  given b hb := by
    obtain ⟨a, ha, rfl⟩ := map_ok.mp hb
    exact hf a (h.given a ha)
  failed e he := h.failed e (map_error.mp he)

theorem located (h : t.Tidy good) (location : Location) : (t.located location).Tidy good where
  given a ha := h.given a (located_ok.mp ha)
  failed e he := by
    obtain ⟨inner, hinner, rfl⟩ := located_failed.mp he
    exact (h.failed inner hinner).locatedAt location

theorem framed (h : t.Tidy good) (room : Nat) {description : Text}
    (hdescription : description.OneLine) (value : Json) :
    (t.framed room description value).Tidy good where
  given a ha := h.given a (framed_ok.mp ha)
  failed e he := by
    obtain ⟨inner, hinner, -, rfl⟩ := framed_failed.mp he
    exact (h.failed inner hinner).within hdescription value

/-- Parts in order are tidy together when each is. -/
theorem inOrder {parts : List (Location × Attempt α)} (h : ∀ part ∈ parts, part.2.Tidy good) :
    (Attempt.inOrder parts).Tidy fun as => ∀ a ∈ as, good a := by
  induction parts with
  | nil => exact .done (by simp)
  | cons part rest ih =>
      obtain ⟨location, t⟩ := part
      obtain ⟨hfirst, hrest⟩ := List.forall_mem_cons.mp h
      exact (hfirst.located location).bind fun a ha => (ih hrest).map fun others hothers =>
        List.forall_mem_cons.mpr ⟨ha, hothers⟩

/-- What a rule says that breaks no line is tidy. -/
theorem ofRule {rule : Rule} (h : rule.InLine) {data : Data} (hdata : data.NamedInLine)
    {description : Text} (hdescription : description.OneLine) (value : Json) :
    (Attempt.ofRule description value (rule data)).Tidy Data.NamedInLine := by
  obtain ⟨hresult, hcomplaint⟩ := h data hdata
  cases hanswer : rule data with
  | ok result => exact .done (hresult result hanswer)
  | error complaint =>
      unfold Attempt.ofRule
      simp only
      split
      · exact .refuse ⟨hdescription, hcomplaint complaint hanswer⟩
      · exact .fault _

end Tidy

end Attempt

/-- The names in what a specification decodes by are among its own. -/
theorem Spec.NamedInLine.contents {spec : Spec} (h : spec.NamedInLine) :
    ∀ part ∈ spec.contents, part.NamedInLine :=
  contents_of_parts (p := NamedInLine) rfl (fun h => h.2) (fun h => h.2) (fun h => h.2.2) (fun h => h.2)
    (fun h => everyAmong_iff.mp h.2) (fun h => everyAmong_iff.mp h.2) h

/-! ## Courses -/

namespace Course

/-- A course breaks no line: it leads to nothing that does, and where it ends it is tidy. -/
def InLine : Course → Prop
  | .settled outcome => ∀ room, (outcome room).Tidy Data.NamedInLine
  | .parts members finish =>
      (∀ part ∈ members, part.spec.NamedInLine) ∧
        ∀ data, (∀ d ∈ data, d.NamedInLine) → (finish data).Tidy Data.NamedInLine
  | .alternatives whole specs => whole.NamedInLine ∧ ∀ spec ∈ specs, spec.NamedInLine
  | .delegated .. | .scripted _ => False

variable {registry : Registry} {spec : Spec} {value : Json}

theorem mismatch_tidy (expected : Text) (value : Json) (h : expected.OneLine) :
    (mismatch expected value).Tidy Data.NamedInLine :=
  .refuse ⟨h, Json.oneLine_tagName value.tag⟩

theorem dict_namedInLine (keys : List Text) (data : List Data) : (dict keys data).NamedInLine :=
  Data.namedInLine_of_kind rfl rfl

theorem ofItems_inLine {element : Spec} (h : element.NamedInLine) (items : List Json) :
    (ofItems element items).InLine :=
  ⟨fun _ hpart => Part.spec_of_items hpart ▸ h,
    fun data hdata => .done (Data.kept_namedInLine.list data hdata)⟩

theorem ofFields_inLine {content : Spec} (h : content.NamedInLine) (fields : List (Text × Json)) :
    (ofFields content fields).InLine :=
  ⟨fun _ hpart => Part.spec_of_fields hpart ▸ h, fun _ _ => .done (dict_namedInLine _ _)⟩

/-- The set of decoded items is tidy: a reason against it names data, or is none of the data's. -/
theorem setOf_tidy (hspec : spec.NamedInLine) {items : List Data}
    (hitems : ∀ item ∈ items, item.NamedInLine) (value : Json) :
    (setOf spec value items).Tidy Data.NamedInLine := by
  unfold Decoder.setOf
  split
  · next hnone => exact .done (Data.kept_namedInLine.set items hitems hnone)
  · exact .fault _
  · next reason _ hreason =>
      obtain ⟨item, hmem, hitem⟩ := Data.exists_of_unhashableItem? hreason
      unfold describable
      split
      · refine .refuse ⟨Spec.oneLine_describe hspec, ?_⟩
        have hmessage := hitems item hmem reason hitem
        exact Text.oneLine_append.mpr ⟨Text.oneLine_append.mpr ⟨rfl, hmessage⟩, rfl⟩
      · exact .fault _

theorem EndOfSpec.tidy {t : Attempt Data} (h : EndOfSpec spec value t) (hspec : spec.NamedInLine) :
    t.Tidy Data.NamedInLine := by
  have hlength (kind : Text) (hkind : kind.OneLine) (length : Nat) :
      (kind ++ Text.ofNat length).OneLine :=
    Text.oneLine_append.mpr ⟨hkind, Text.oneLine_ofNat length⟩
  cases h with
  | scalar hdata => exact .done (Data.kept_namedInLine.scalar value _ hdata)
  | kind kind => exact mismatch_tidy _ _ (by cases kind <;> rfl)
  | array => exact mismatch_tidy _ _ rfl
  | object => exact mismatch_tidy _ _ rfl
  | tuple length => exact mismatch_tidy _ _ (hlength (Text.lit "tuple of length ") rfl length)
  | length expected actual =>
      exact .refuse ⟨hlength (Text.lit "tuple of length ") rfl expected,
        hlength (Text.lit "array of length ") rfl actual⟩
  | key hmap =>
      subst hmap
      exact .refuse (Spec.oneLine_describe hspec.2.1)
  | stray => exact .fault _

theorem IsOfSpec.inLine {c : Course} (h : IsOfSpec spec value c) (hspec : spec.NamedInLine) :
    c.InLine := by
  have hcontents := hspec.contents
  cases h with
  | items hmem => exact ofItems_inLine (hcontents _ hmem) _
  | fields hmem => exact ofFields_inLine (hcontents _ hmem) _
  | distinct hset =>
      subst hset
      exact ⟨fun _ hpart => Part.spec_of_items hpart ▸ hspec.2,
        fun data hdata => setOf_tidy hspec hdata _⟩
  | positions htuple =>
      subst htuple
      exact ⟨fun _ hpart => hcontents _ (Part.spec_of_positions hpart),
        fun data hdata => .done (Data.kept_namedInLine.tuple data hdata)⟩
  | alternatives hunion =>
      subst hunion
      exact ⟨hspec, hcontents⟩
  | settled hend => exact fun room => (hend room).tidy hspec

theorem EndOfSchema.tidy {schema : Schema} {t : Attempt Data} (h : EndOfSchema schema value t)
    (hschema : schema.InLine) : t.Tidy Data.NamedInLine := by
  cases h with
  | scalar hscalar hdata =>
      subst hscalar
      exact .ofRule hschema.2 (Data.kept_namedInLine.scalar value _ hdata) hschema.1 _
  | kind =>
      refine mismatch_tidy _ _ ?_
      cases schema with
      | object | array | scalar => exact hschema.1
      | raw => exact hschema.elim
  | missing hobject =>
      subst hobject
      refine .refuse fun key hkey => ?_
      obtain ⟨field, hfield, -, -, rfl⟩ := mem_missingKeys.mp hkey
      exact (hschema.2.1 field hfield).1
  | unknown => exact .refuse trivial
  | stray => exact .fault _

theorem IsOfSchema.inLine {schema : Schema} {c : Course} (h : IsOfSchema schema value c)
    (hschema : schema.InLine) : c.InLine := by
  cases h with
  | object hobject =>
      subst hobject
      obtain ⟨hdescription, hfields, hassemble⟩ := hschema
      refine ⟨fun part hpart => ?_, fun data _ =>
        .ofRule hassemble (dict_namedInLine _ _) hdescription _⟩
      obtain ⟨field, hfield, hspec⟩ := List.mem_map.mp (Part.spec_of_declared hpart)
      exact hspec ▸ (hfields field hfield).2
  | array harray =>
      subst harray
      obtain ⟨hdescription, helement, hassemble⟩ := hschema
      exact ⟨fun _ hpart => Part.spec_of_items hpart ▸ helement, fun data hdata =>
        .ofRule hassemble (Data.kept_namedInLine.list data hdata) hdescription _⟩
  | delegated hraw | scripted hraw =>
      subst hraw
      exact hschema.elim
  | settled hend => exact fun room => (hend room).tidy hschema

theorem course_inLine (hregistry : registry.InLine) (hspec : spec.NamedInLine) (value : Json) :
    (course registry spec value).InLine := by
  have h := isCourse registry spec value
  generalize course registry spec value = c at h ⊢
  cases h with
  | unregistered => exact fun room => .refuse (Spec.oneLine_describe hspec)
  | failed => exact fun room => .fault _
  | schema hcustom hresolve hcall h =>
      subst hcustom
      exact h.inLine (hregistry.call hspec hresolve hcall)
  | plain _ h => exact h.inLine hspec.desugar

/-- Following a course that breaks no line is tidy when the decodings on the way are. -/
theorem InLine.follow {c : Course} (h : c.InLine) {step : Spec → Json → Attempt Data}
    (hstep : ∀ spec value, spec.NamedInLine → (step spec value).Tidy Data.NamedInLine)
    (registry : Registry) (room : Nat) (value : Json) :
    (c.follow registry step room value).Tidy Data.NamedInLine := by
  cases c with
  | settled outcome => exact h room
  | parts members finish =>
      refine Attempt.Tidy.bind (.inOrder fun part hpart => ?_) h.2
      obtain ⟨member, hmember, rfl⟩ := List.mem_map.mp hpart
      exact hstep _ _ (h.1 member hmember)
  | alternatives whole specs =>
      constructor
      · intro data hdata
        obtain ⟨alternative, hmem, hdecoded⟩ := firstOf_ok hdata
        exact (hstep _ _ (h.2 alternative hmem)).given data hdecoded
      · intro e he
        obtain rfl := firstOf_failed he
        exact .ofCause ⟨Spec.oneLine_describe h.1, Json.oneLine_tagName _⟩
  | delegated | scripted => exact h.elim

end Course

/-! ## Decoding -/

namespace Decoder

variable {registry : Registry} {spec : Spec}

/-- What heads the failures of a decoding is one line. -/
theorem heading_oneLine (hregistry : registry.InLine) (hspec : spec.NamedInLine)
    {description : Text} (h : heading registry spec = .ok description) : description.OneLine := by
  have hdesugared := hspec.desugar
  have hheading {spec : Spec} (hspec : spec.NamedInLine) (h : spec.heading = .ok description) :
      description.OneLine := by
    unfold Spec.heading at h
    split at h
    · cases h
      exact Spec.oneLine_describe hspec
    · cases h
  unfold heading at h
  split at h
  · next identity arguments hcustom =>
      rw [hcustom] at hdesugared
      split at h
      · exact hheading hdesugared h
      · next factory hresolve =>
          cases h
          cases hcall : factory.call arguments with
          | error fault => rfl
          | ok schema => exact (hregistry.call hdesugared hresolve hcall).description
  · exact hheading hdesugared h

/-- **Decoding is tidy** where nothing that is registered breaks a line, by induction on the
room. -/
theorem decode_tidy (hregistry : registry.InLine) (hspec : spec.NamedInLine) (room : Nat)
    (value : Json) : (decode registry room spec value).Tidy Data.NamedInLine := by
  induction room generalizing spec value with
  | zero => exact ⟨nofun, nofun⟩
  | succ room ih =>
      have hfollow := (Course.course_inLine hregistry hspec value).follow
        (fun spec value hspec => ih hspec value) registry room value
      rw [decode_eq_follow]
      cases hheading : heading registry spec with
      | ok description => exact hfollow.framed room (heading_oneLine hregistry hspec hheading) value
      | error hint =>
          -- a failure that cannot be headed ends in a fault
          generalize (course registry spec value).follow _ _ _ _ = t at hfollow
          obtain ⟨log, result⟩ := t
          rcases result with stop | data
          · cases stop <;> exact ⟨nofun, nofun⟩
          · exact ⟨hfollow.given, nofun⟩

end Decoder

/-! ## Parsing -/

/-- The error of a parsing whose value did not match. -/
def Parsing.mismatch? (parsing : Parsing) : Option DecodeError :=
  match parsing.result with
  | .error (.mismatch e) => some e
  | _ => none

theorem Parsing.mem_mismatch? {parsing : Parsing} {e : DecodeError} :
    e ∈ parsing.mismatch? ↔ parsing.result = .error (.mismatch e) := by
  unfold Parsing.mismatch?
  split <;> simp_all [eq_comm]

namespace Parser

variable {p : Parser} {spec : Spec} {e : DecodeError}

/-- A failure is told in one record, unless something about it cannot be. -/
theorem told_cases (spec : Spec) (reason : Option Spec.Flaw) (record : Log.Record)
    (failure : Failure) :
    (∃ flaw, told spec reason record failure = ⟨[], .error (.faulted (.ofFlaw flaw))⟩) ∨
      told spec reason record failure = ⟨[record], .error failure⟩ := by
  unfold told
  split
  · next flaw _ => exact .inl ⟨flaw, rfl⟩
  · exact .inr rfl

/-- A failed decoding is told in the last record. -/
theorem decode_mismatch {input : Input} (hspec : spec.WellFormed)
    (h : (p.decode input spec).result = .error (.mismatch e)) :
    ∃ value, (Decoder.decode p.registry p.room spec value).result = .error (.failed e) ∧
      (p.decode input spec).log.getLast? = some (.notDecoded spec.describe e.path e.reason) := by
  unfold decode at h ⊢
  simp only at h ⊢
  split at h
  · next unreadable herror => cases unreadable <;> cases h
  · next value hvalue =>
      refine ⟨value, ?_⟩
      simp only [decodeValue, hspec.specOf_eq] at h ⊢
      split at h
      · cases h
      · next stop hstop =>
          simp only [hstop]
          have htooDeep {record : Log.Record} {error : SyntaxError} :
              (told spec none record (.invalid error)).result ≠ .error (.mismatch e) := by
            rcases told_cases spec none record (.invalid error) with ⟨flaw, htold⟩ | htold <;>
              simp [htold]
          unfold conclude at h ⊢
          simp only at h ⊢
          split at h
          · next inner =>
              rcases told_cases spec inner.cause.flaw?
                (.notDecoded spec.describe inner.path inner.reason) (.mismatch inner) with
                ⟨flaw, htold⟩ | htold
              · rw [htold] at h
                cases h
              · rw [htold] at h ⊢
                cases h
                simp
          · exact (htooDeep h).elim
          · split at h
            · exact (htooDeep h).elim
            · cases h
          · cases h

/-- **The lines of a report** are the reason and one for each entry of the trace, where nothing that
is registered breaks a line, and the line breaks in unknown keys and in keys on the path are all
that input adds to them: in the reason, in the trace, in the whole report, and in the last record.
So the lines are as they should be exactly when none of these keys has a line break. -/
theorem lines_of_report (hregistry : p.registry.InLine) (hspec : spec.WellFormed)
    (hnames : spec.NamedInLine) {input : Input}
    (h : (p.decode input spec).result = .error (.mismatch e)) :
    e.reason.breaks = e.cause.keyBreaks ∧
    (e.trace.map Text.breaks).sum = e.pathBreaks + e.cause.keyBreaks ∧
    e.message.lineCount = 1 + e.trace.length + e.pathBreaks + 2 * e.cause.keyBreaks ∧
    ∃ record, (p.decode input spec).log.getLast? = some record ∧
      record.message.breaks = e.cause.keyBreaks := by
  obtain ⟨value, hfailed, hlast⟩ := decode_mismatch hspec h
  have htidy := (Decoder.decode_tidy hregistry hnames p.room value).failed e hfailed
  have hreason : e.reason.breaks = e.cause.keyBreaks := Cause.breaks_reason htidy.cause
  -- the outermost frame is the heading of the specification, put around all other frames
  obtain ⟨description, rest, hframes⟩ :
      ∃ description rest, e.frames = ⟨description, value.seen, none⟩ :: rest := by
    cases hroom : p.room with
    | zero =>
        rw [hroom] at hfailed
        cases hfailed
    | succ room =>
        rw [hroom, Decoder.decode_eq_follow] at hfailed
        obtain ⟨inner, description, -, -, -, rfl⟩ := exists_of_headed_failed hfailed
        exact ⟨description, inner.frames, rfl⟩
  refine ⟨hreason, htidy.breaks_trace hframes, htidy.lineCount_message hframes, _, hlast, ?_⟩
  have hdescribed : spec.describe.breaks = 0 := Spec.oneLine_describe hnames
  have hpath : (Location.shownPath e.path).breaks = 0 := Location.oneLine_shownPath e.path
  simp only [Log.Record.message, Text.breaks_append, hdescribed, hpath, hreason]
  exact Nat.zero_add _

/-! ## Keys with line breaks -/

/-- A parser that knows one schema: objects with a truth value under the key `p`. -/
def ofBasic : Parser :=
  .ofRegistry ⟨[(.symbol (Text.lit "Basic") [],
    ⟨fun _ => .ok (.object (Text.lit "Basic") [⟨Text.lit "p", .primitive .boolean, false⟩] .ok),
      0, [], Text.lit "Basic"⟩)]⟩

/-- The specification of these objects. -/
def basic : Spec := .custom (.symbol (Text.lit "Basic") []) []

theorem inLine_ofBasic : ofBasic.registry.InLine := by
  intro entry hentry
  obtain rfl := List.mem_singleton.mp hentry
  refine ⟨by simp, fun arguments other _ hother => ?_⟩
  cases hother
  refine ⟨rfl, by simpa using ⟨rfl, rfl⟩, fun data hdata => ?_⟩
  exact ⟨fun result hresult => Except.ok.inj hresult ▸ hdata, nofun⟩

theorem namedInLine_basic : basic.NamedInLine := ⟨rfl, trivial⟩

/-- An object under a key with a line break, which has an unknown key with another: the reason has
one line more than it should, and the report has three. -/
theorem lines_of_report_for_nested_keys :
    ∃ e, (ofBasic.decode (.text (Text.lit "\x7b\"\\n\":\x7b\"p\":true,\"\\n\":1\x7d\x7d"))
        (.objectOf basic)).result = .error (.mismatch e) ∧
      e.trace.length = 6 ∧ e.reason.lineCount = 2 ∧ e.message.lineCount = 7 + 3 := by
  obtain ⟨e, he, hlength, hpath, hkeys⟩ : ∃ e ∈ (ofBasic.decode
      (.text (Text.lit "\x7b\"\\n\":\x7b\"p\":true,\"\\n\":1\x7d\x7d")) (.objectOf basic)).mismatch?,
      e.trace.length = 6 ∧ e.pathBreaks = 1 ∧ e.cause.keyBreaks = 1 := by decide +kernel
  have hspec : (Spec.objectOf basic).WellFormed := rfl
  have hnames : (Spec.objectOf basic).NamedInLine := ⟨rfl, namedInLine_basic⟩
  have hfailed := Parsing.mem_mismatch?.mp he
  obtain ⟨hreason, -, hmessage, -⟩ := lines_of_report inLine_ofBasic hspec hnames hfailed
  refine ⟨e, hfailed, hlength, ?_, ?_⟩
  · rw [Text.lineCount, hreason, hkeys]
  · rw [hmessage, hlength, hpath, hkeys]

/-- A line break in an unknown key breaks the line of the reason, although nothing that is
registered breaks one. -/
theorem unknown_key_breaks_reason :
    ofBasic.registry.InLine ∧ basic.WellFormed ∧ basic.NamedInLine ∧
    ∃ e ∈ (ofBasic.decode (.text (Text.lit "\x7b\"p\":true,\"\\n\":1\x7d")) basic).mismatch?,
      10 ∈ e.reason ∧ e.message.lineCount ≠ 1 + e.trace.length :=
  ⟨inLine_ofBasic, rfl, namedInLine_basic, by decide +kernel⟩

end Parser

end JsonDecoding
