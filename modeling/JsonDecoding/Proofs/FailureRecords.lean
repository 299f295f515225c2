import JsonDecoding.Proofs.Course
import JsonDecoding.Proofs.Reports
import JsonDecoding.Proofs.Safety

/-!
# Records of failures

What a parser reports about the inputs that it fails on. Decoding itself leaves no records but those
of alternatives without a strategy (`decode_reticent`); the reader leaves one for a malformed text,
and the parser one for a decoding that failed or ran too deep (`Failure.record?`). So every failed
decoding is reported once, and nothing is where data is given; but an input that was rejected for
anything else than malformed text goes unreported (`failures_are_reported`).
-/

namespace JsonDecoding

open Attempt Decoder

/-! ## What decoding leaves -/

namespace Attempt

variable {α β : Type}

/-- An attempt that leaves no records but those of alternatives without a strategy. -/
def Reticent (t : Attempt α) : Prop := ∀ record ∈ t.log, record.IsUnresolved

namespace Reticent

variable {t : Attempt α}

theorem of_mute (h : t.log = []) : t.Reticent := by simp [Reticent, h]

theorem after (h : t.Reticent) {records : List Log.Record}
    (hrecords : ∀ record ∈ records, record.IsUnresolved) : (t.after records).Reticent :=
  fun record hrecord => (List.mem_append.mp hrecord).elim (hrecords record) (h record)

theorem map (h : t.Reticent) (f : α → β) : (t.map f).Reticent := h

theorem mapStop (h : t.Reticent) (f : Stop → Stop) : (t.mapStop f).Reticent := h

theorem bind (h : t.Reticent) {next : α → Attempt β} (hnext : ∀ a, (next a).Reticent) :
    (t.bind next).Reticent := by
  cases hresult : t.result with
  | ok a =>
      rw [bind_of_ok hresult]
      exact (hnext a).after h
  | error stop =>
      rw [bind_of_error hresult]
      exact h

/-- What follows data or a failure adds what it leaves itself. -/
theorem resume (h : t.Reticent) {next : Except DecodeError α → Attempt β}
    (hnext : ∀ result, (next result).Reticent) : (t.resume next).Reticent := by
  unfold Attempt.resume
  split
  · exact (hnext _).after h
  · exact (hnext _).after h
  · exact h

theorem headed {t : Attempt Data} (h : t.Reticent) (room : Nat)
    (heading : Except Spec.Flaw Text) (value : Json) : (t.headed room heading value).Reticent := by
  cases heading <;> exact h.mapStop _

/-- Parts in order leave what each of them leaves. -/
theorem inOrder {parts : List (Location × Attempt α)} (h : ∀ part ∈ parts, part.2.Reticent) :
    (Attempt.inOrder parts).Reticent := by
  induction parts with
  | nil => exact .of_mute rfl
  | cons part rest ih =>
      have hrest := ih fun other hother => h other (List.mem_cons_of_mem _ hother)
      exact ((h part (List.mem_cons_self ..)).mapStop _).bind fun a => hrest.map _

theorem describable {t : Attempt Data} (h : t.Reticent) (spec : Spec) :
    (Decoder.describable spec t).Reticent := by
  unfold Decoder.describable
  split
  · exact h
  · exact .of_mute rfl

/-- An alternative without a strategy adds its own record. -/
theorem unresolved {t : Attempt Data} (h : t.Reticent) (whole alternative : Spec)
    (e : DecodeError) : (Decoder.unresolved whole alternative e t).Reticent := by
  cases hcause : e.cause with
  | unknownSpec spec =>
      simp only [Decoder.unresolved, hcause]
      refine (((h.after fun record hrecord => ?_).describable _).describable _).describable _
      obtain rfl := List.mem_singleton.mp hrecord
      trivial
  | _ =>
      simp only [Decoder.unresolved, hcause]
      exact h

theorem firstOf {step : Spec → Json → Attempt Data}
    (hstep : ∀ spec value, (step spec value).Reticent) (whole : Spec) (value : Json)
    (specs : List Spec) :
    (Decoder.firstOf step whole value specs).Reticent := by
  induction specs with
  | nil => exact (of_mute rfl).describable _
  | cons spec rest ih =>
      have hfirst := hstep spec value
      simp only [Decoder.firstOf]
      split
      · exact (ih.unresolved _ _ _).after hfirst
      · exact hfirst

/-- A procedure leaves what the decodings leave that it asks for. -/
theorem run {step : Spec → Json → Attempt Data} (hstep : ∀ spec value, (step spec value).Reticent)
    (registry : Registry) (room : Nat) (procedure : Procedure) :
    (Decoder.run registry step room procedure).Reticent := by
  induction procedure with
  | answer result => cases result <;> exact .of_mute rfl
  | complain complaint => exact .of_mute rfl
  | render value next ih =>
      unfold Decoder.run
      split
      · exact ih _
      · exact .of_mute rfl
  | load value hint next ih =>
      refine Reticent.bind (.of_mute ?_) fun spec => (hstep spec value).resume ih
      cases Schema.specOf hint <;> rfl
  | consult identity next ih => exact ih _
  | survey next ih => exact ih _

end Reticent

end Attempt

/-! ## Courses without records -/

theorem Decoder.log_ofRule (description : Text) (value : Json) (answer : Except Complaint Data) :
    (ofRule description value answer).log = [] := by
  unfold ofRule
  split
  · rfl
  · split <;> rfl

theorem Decoder.log_describable_refuse (spec : Spec) (cause : Cause) :
    (describable spec (.refuse cause)).log = [] := by
  unfold describable
  split <;> rfl

/-- A course that adds no records to those of the decodings that it leads to. -/
def Course.Mute (room : Nat) : Course → Prop
  | .settled outcome => (outcome room).log = []
  | .parts _ finish => ∀ data, (finish data).log = []
  | .alternatives .. | .delegated .. | .scripted _ => True

namespace Course

variable {step : Spec → Json → Attempt Data} {room : Nat}

theorem EndOfSpec.mute {spec : Spec} {value : Json} {t : Attempt Data}
    (h : EndOfSpec spec value t) : t.log = [] := by
  cases h <;> rfl

theorem EndOfSchema.mute {schema : Schema} {value : Json} {t : Attempt Data}
    (h : EndOfSchema schema value t) : t.log = [] := by
  cases h with
  | scalar => exact log_ofRule _ _ _
  | _ => rfl

theorem IsOfSpec.mute {spec : Spec} {value : Json} {c : Course} (h : IsOfSpec spec value c) :
    c.Mute room := by
  cases h with
  | items | fields | positions => exact fun data => rfl
  | distinct =>
      intro data
      unfold Decoder.setOf
      split
      · rfl
      · rfl
      · exact log_describable_refuse _ _
  | alternatives => trivial
  | settled hend => exact (hend room).mute

theorem IsOfSchema.mute {schema : Schema} {value : Json} {c : Course}
    (h : IsOfSchema schema value c) : c.Mute room := by
  cases h with
  | object | array => exact fun data => log_ofRule _ _ _
  | delegated | scripted => trivial
  | settled hend => exact (hend room).mute

/-- What a course leaves are the records of the decodings that it leads to, and those of its own
alternatives without a strategy. -/
theorem Mute.follow {c : Course} (h : c.Mute room)
    (hstep : ∀ spec value, (step spec value).Reticent) (registry : Registry) (value : Json) :
    (c.follow registry step room value).Reticent := by
  cases c with
  | settled => exact .of_mute h
  | parts members finish =>
      refine Reticent.bind (.inOrder fun part hpart => ?_) fun data => .of_mute (h data)
      obtain ⟨member, -, rfl⟩ := List.mem_map.mp hpart
      exact hstep _ _
  | alternatives whole specs => exact .firstOf hstep whole value specs
  | delegated spec build => exact (hstep spec value).map build
  | scripted procedure => exact .run hstep registry room procedure

end Course

namespace Decoder

variable {registry : Registry}

theorem course_mute (spec : Spec) (value : Json) (room : Nat) :
    (course registry spec value).Mute room := by
  have h := isCourse registry spec value
  generalize course registry spec value = c at h ⊢
  cases h with
  | unregistered | failed => rfl
  | schema _ _ _ h => exact h.mute
  | plain _ h => exact h.mute

/-- **Decoding reports nothing** but alternatives without a strategy, by induction on the room. -/
theorem decode_reticent (room : Nat) (spec : Spec) (value : Json) :
    (decode registry room spec value).Reticent := by
  induction room generalizing spec value with
  | zero => exact .of_mute rfl
  | succ room ih =>
      rw [decode_eq_follow]
      exact ((course_mute spec value room).follow ih registry value).headed _ _ _

end Decoder

/-! ## The record of a failure -/

/-- The record that a failure leaves when a value was to be decoded by the specification of that
description: there is none for an input that was rejected for anything else than malformed text. -/
def Failure.record? (description : Text) : Failure → Option Log.Record
  | .invalid (.malformed problem position) => some (.textRejected position.offset problem.message)
  | .invalid (.undecodableNesting _) => some (.tooDeeplyNested description)
  | .mismatch e => some (.notDecoded description e.path e.reason)
  | _ => none

/-- Whether input is rejected as malformed text. -/
def Unreadable.IsMalformed : Unreadable → Prop
  | .invalid (.malformed ..) => True
  | _ => False

/-- What was read and what was recorded about it fit together. -/
inductive Reader.Outcome.Accounts : Reader.Outcome → Prop where
  | read {value : Json} {after : Reader} : Accounts ⟨[], .ok value, after⟩
  | malformed {problem : Scanner.Problem} {position : Position} {after : Reader} :
      Accounts ⟨[.textRejected position.offset problem.message],
        .error (.invalid (.malformed problem position)), after⟩
  | unrecorded {unreadable : Unreadable} {after : Reader} (h : ¬unreadable.IsMalformed)
      (hread : ∀ limit, unreadable ≠ .invalid (.undecodableNesting limit)) :
      Accounts ⟨[], .error unreadable, after⟩

namespace Reader

theorem readData_accounts (r : Reader) (data : Data) : (r.readData data).Accounts := by
  unfold readData
  split
  · exact .read
  · exact .unrecorded id (by simp [Obstacle.failure])
  · next obstacle _ _ =>
      cases obstacle <;> exact .unrecorded id (by simp [Obstacle.failure])

/-- Of the faults of a text only the malformed one leaves a record. -/
theorem readText_accounts (r : Reader) (t : Text) : (r.readText t).Accounts := by
  unfold readText
  split
  · exact r.readData_accounts _
  · next fault _ =>
      cases fault with
      | malformed problem remaining => exact .malformed
      | _ => exact .unrecorded id (by simp [SyntaxError.ofFault])

end Reader

theorem Input.read_accounts (limit : Int) (input : Input) : (input.read limit).Accounts := by
  cases input with
  | text t => exact Reader.readText_accounts _ t
  | data content => exact Reader.readData_accounts _ content
  | octets units =>
      simp only [Input.read]
      split
      · exact Reader.readText_accounts _ _
      · exact .unrecorded id (by simp)

/-! ## What parsers report -/

/-- Whether a record is about the outcome as a whole: those of the reader and of the parser are. -/
def Log.Record.isReport (record : Log.Record) : Bool :=
  record.channel = .reader ∨ record.channel = .parser

/-- The records of a parsing that are about its outcome. -/
def Parsing.reports (parsing : Parsing) : List Log.Record := parsing.log.filter Log.Record.isReport

theorem Attempt.Reticent.filter_log {α : Type} {t : Attempt α} (h : t.Reticent) :
    t.log.filter Log.Record.isReport = [] := by
  refine List.filter_eq_nil_iff.mpr fun record hrecord => ?_
  have hunresolved := h record hrecord
  cases record with
  | alternativeUnresolved => simp [Log.Record.isReport, Log.Record.channel]
  | _ => exact hunresolved.elim

/-- Records that tell of a result: one of a failure, and none of data or of a fault. -/
inductive Parsing.Tells (description : Text) : List Log.Record → Except Failure Data → Prop where
  | given {data : Data} : Tells description [] (.ok data)
  | faulted {fault : Fault} : Tells description [] (.error (.faulted fault))
  | recorded {failure : Failure} {record : Log.Record}
      (h : failure.record? description = some record) :
      Tells description [record] (.error failure)

theorem Failure.isReport_of_record? {failure : Failure} {description : Text} {record : Log.Record}
    (h : failure.record? description = some record) :
    record.isReport = true ∧ record.level = .debug := by
  unfold Failure.record? at h
  split at h
  · cases h
    exact ⟨rfl, rfl⟩
  · cases h
    exact ⟨rfl, rfl⟩
  · cases h
    exact ⟨rfl, rfl⟩
  · cases h

theorem Parsing.Tells.filter {description : Text} {records : List Log.Record}
    {result : Except Failure Data} (h : Parsing.Tells description records result) :
    records.filter Log.Record.isReport = records := by
  cases h with
  | recorded h => simp [(Failure.isReport_of_record? h).1]
  | _ => rfl

namespace Parser

variable {p : Parser} {hint spec : Spec}

/-- A decoding that stopped is recorded once, unless it ends in a fault. -/
theorem conclude_tells (p : Parser) (spec : Spec) (stop : Stop) :
    Parsing.Tells spec.describe (p.conclude spec stop).log (p.conclude spec stop).result := by
  have htold {reason : Option Spec.Flaw} {record : Log.Record} {failure : Failure}
      (h : failure.record? spec.describe = some record) :
      Parsing.Tells spec.describe (told spec reason record failure).log
        (told spec reason record failure).result := by
    rcases told_cases spec reason record failure with ⟨flaw, heq⟩ | heq
    · rw [heq]
      exact .faulted
    · rw [heq]
      exact .recorded h
  unfold conclude
  simp only
  split
  · exact htold rfl
  · exact htold rfl
  · split
    · exact htold rfl
    · exact .faulted
  · exact .faulted

theorem decodeValue_tells (hspec : Schema.specOf hint = .ok spec) (value : Json) :
    Parsing.Tells spec.describe (p.decodeValue value hint).reports
      (p.decodeValue value hint).result := by
  have hreticent : (Decoder.decode p.registry p.room spec value).Reticent :=
    decode_reticent p.room spec value
  have hmute := hreticent.filter_log
  simp only [decodeValue, hspec, Parsing.reports]
  split
  · rw [hmute]
    exact .given
  · next stop _ =>
      have htells := p.conclude_tells spec stop
      rw [List.filter_append, hmute, htells.filter]
      exact htells

/-- A value that was read adds nothing to the reports on it. -/
theorem decode_of_read {input : Input} {value : Json}
    (h : (input.read p.maxDepth).result = .ok value) (hint : Spec) :
    (p.decode input hint).reports = (p.decodeValue value hint).reports ∧
      (p.decode input hint).result = (p.decodeValue value hint).result := by
  have haccounts := input.read_accounts p.maxDepth
  unfold decode
  generalize input.read p.maxDepth = outcome at h haccounts
  cases haccounts with
  | read =>
      cases h
      exact ⟨rfl, rfl⟩
  | malformed | unrecorded => cases h

/-- An input that was not read leaves the record of its failure, which only malformed text has. -/
theorem decode_of_unread {input : Input} {unreadable : Unreadable}
    (h : (input.read p.maxDepth).result = .error unreadable) (hint : Spec) (description : Text) :
    (p.decode input hint).result = .error unreadable.failure ∧
      (p.decode input hint).reports = (unreadable.failure.record? description).toList ∧
      ((unreadable.failure.record? description).isSome ↔ unreadable.IsMalformed) := by
  have haccounts := input.read_accounts p.maxDepth
  unfold decode
  generalize input.read p.maxDepth = outcome at h haccounts
  cases haccounts with
  | read => cases h
  | malformed =>
      cases h
      exact ⟨rfl, rfl, by simp [Failure.record?, Unreadable.failure, Unreadable.IsMalformed]⟩
  | unrecorded hmalformed hread =>
      cases h
      have hnone : unreadable.failure.record? description = none := by
        cases unreadable with
        | invalid error =>
            cases error with
            | malformed => exact (hmalformed trivial).elim
            | undecodableNesting limit => exact (hread limit rfl).elim
            | _ => rfl
        | _ => rfl
      simp [hnone, hmalformed, Parsing.reports]

/-- **Failures are reported once, or not at all.** Where data is given, nothing is reported; a
failure is reported by its one record, if it has one. A failure that is no fault goes unreported
exactly where the input was not read for anything else than malformed text: because it is no UTF-8,
has a constant or an integer that is not read, or nests too deeply. -/
theorem failures_are_reported (hspec : Schema.specOf hint = .ok spec) (input : Input) :
    (∀ data, (p.decode input hint).result = .ok data → (p.decode input hint).reports = []) ∧
    (∀ record ∈ (p.decode input hint).reports, record.level = .debug) ∧
    ∀ failure, (p.decode input hint).result = .error failure →
      (p.decode input hint).reports = (failure.record? spec.describe).toList ∧
      ((∀ fault, failure ≠ .faulted fault) →
        ((p.decode input hint).reports = [] ↔
          ∃ unreadable, (input.read p.maxDepth).result = .error unreadable ∧
            ¬unreadable.IsMalformed)) := by
  cases hread : (input.read p.maxDepth).result with
  | ok value =>
      obtain ⟨hreports, hresult⟩ := decode_of_read hread hint
      have htells := decodeValue_tells (p := p) hspec value
      rw [hreports, hresult]
      generalize (p.decodeValue value hint).reports = reports at htells
      generalize (p.decodeValue value hint).result = result at htells
      cases htells with
      | given => simp
      | faulted => simp [Failure.record?]
      | recorded hrecord => simp [hrecord, (Failure.isReport_of_record? hrecord).2]
  | error unreadable =>
      obtain ⟨hresult, hreports, hsome⟩ := decode_of_unread hread hint spec.describe
      rw [hreports, hresult]
      refine ⟨nofun, fun record hrecord => ?_, fun failure hfailure => ?_⟩
      · exact (Failure.isReport_of_record? (Option.mem_toList.mp hrecord)).2
      · cases hfailure
        refine ⟨rfl, fun _ => ?_⟩
        simp [← hsome]

/-- The report on an array in which one item is no number. -/
theorem failures_are_reported_for_item :
    let spec : Spec := .arrayOf (.primitive .number)
    let parsing := (ofRegistry ⟨[]⟩).decode (.text (Text.lit "[1, true]")) spec
    ∃ e, parsing.result = .error (.mismatch e) ∧
      parsing.reports = [.notDecoded (Text.lit "array of number") [.index 1] e.reason] := by
  intro spec parsing
  obtain ⟨e, he, hpath⟩ : ∃ e ∈ parsing.mismatch?, e.path = [.index 1] := by decide +kernel
  have hspec : Schema.specOf spec = .ok spec := rfl
  have hfailed := Parsing.mem_mismatch?.mp he
  obtain ⟨-, -, hreported⟩ := failures_are_reported hspec (.text (Text.lit "[1, true]"))
  obtain ⟨hreports, -⟩ := hreported _ hfailed
  refine ⟨e, hfailed, hreports.trans ?_⟩
  rw [Failure.record?, hpath]
  rfl

/-- A constant that is no JSON is rejected, and nothing is recorded about it. -/
theorem constant_goes_unreported :
    let parsing := (ofRegistry ⟨[]⟩).decode (.text (Text.lit "NaN")) .any
    parsing.result = .error (.invalid (.constant (Text.lit "NaN"))) ∧ parsing.log = [] :=
  ⟨rfl, rfl⟩

end Parser

end JsonDecoding
