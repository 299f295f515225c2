import JsonDecoding.Proofs.Source

/-!
# Scanning and the grammar

The scanner reads a JSON text as what the text stands for (`Scanner.value_text`), and whatever it
reads is the text of a source (`Scanner.exists_source_of_value`). So a whole text is read exactly
when it is a JSON text that has a value and does not nest beyond all bounds, and as that value
(`Scanner.document_ok_iff`).
-/

namespace JsonDecoding

namespace Scanner

/-! ## Blanks -/

theorem skip_append {blanks : Text} (h : AreBlanks blanks) (t : Text) :
    skip (blanks ++ t) = skip t := by
  induction blanks with
  | nil => rfl
  | cons c more ih =>
      have hrest := ih fun other hmem => h other (List.mem_cons_of_mem _ hmem)
      rw [← hrest, skip, List.cons_append, List.dropWhile_cons_of_pos (h c (List.mem_cons_self ..))]
      rfl

theorem skip_of_not_isSpace {c : CodePoint} (h : isSpace c = false) (t : Text) :
    skip (c :: t) = c :: t := by
  simp [skip, h]

theorem skip_append_cons {blanks : Text} (h : AreBlanks blanks) {c : CodePoint}
    (hc : isSpace c = false) (t : Text) : skip (blanks ++ c :: t) = c :: t :=
  (skip_append h _).trans (skip_of_not_isSpace hc t)

/-- Every text is the blanks at its front and what stands behind them. -/
theorem exists_blanks (t : Text) : ∃ blanks, AreBlanks blanks ∧ t = blanks ++ skip t :=
  ⟨t.takeWhile isSpace, fun _ hc => List.mem_takeWhile_imp hc,
    List.takeWhile_append_dropWhile.symm⟩

theorem ends_of_blanks {blanks : Text} (h : AreBlanks blanks) {t : Text} (ht : Ends t) :
    Ends (blanks ++ t) := by
  cases blanks with
  | nil => exact ht
  | cons c more => exact .cons (.inl (h c (List.mem_cons_self ..))) _

/-! ## How texts begin -/

/-- A text begins with something other than a blank, a closing bracket or a byte order mark. -/
def Begins (t : Text) : Prop :=
  ∃ c rest, t = c :: rest ∧ isSpace c = false ∧ c ≠ 93 ∧ c ≠ 125 ∧ c ≠ 0xFEFF

namespace Begins

theorem append {t : Text} (h : Begins t) (rest : Text) : Begins (t ++ rest) := by
  obtain ⟨c, more, rfl, hc⟩ := h
  exact ⟨c, more ++ rest, rfl, hc⟩

theorem skip_eq {t : Text} (h : Begins t) : skip t = t := by
  obtain ⟨c, rest, rfl, hspace, -⟩ := h
  exact skip_of_not_isSpace hspace rest

/-- Behind blanks it is the first thing that counts. -/
theorem skip_append {t : Text} (h : Begins t) {blanks : Text} (hblanks : AreBlanks blanks)
    (rest : Text) : skip (blanks ++ (t ++ rest)) = t ++ rest := by
  rw [Scanner.skip_append hblanks, (h.append rest).skip_eq]

end Begins

/-! ## Scalars -/

/-- The code points by which no word and no number begins: quotes, brackets, the byte order mark. -/
def openers : Text := [34, 91, 93, 123, 125, 0xFEFF]

/-- A word begins with a letter or a minus sign. -/
theorem exists_head_word {written : Text} {outcome : Except Text Json}
    (h : (written, outcome) ∈ words) :
    ∃ c rest, written = c :: rest ∧ isSpace c = false ∧ c ∉ openers := by
  simp only [words, List.mem_cons, Prod.mk.injEq, List.not_mem_nil, or_false] at h
  rcases h with ⟨rfl, -⟩ | ⟨rfl, -⟩ | ⟨rfl, -⟩ | ⟨rfl, -⟩ | ⟨rfl, -⟩ | ⟨rfl, -⟩ <;>
    exact ⟨_, _, rfl, by decide, by decide⟩

theorem notMem_openers_of_isDigit {c : CodePoint} (h : Text.isDigit c = true) :
    isSpace c = false ∧ c ∉ openers := by
  have hne (k : CodePoint) (hk : Text.isDigit k = false) : c ≠ k := by
    rintro rfl
    rw [h] at hk
    cases hk
  simp [isSpace, openers, hne, Text.isDigit]

/-- A numeral begins with a digit or a minus sign. -/
theorem exists_head_numeral {n : Numeral} {written : Text} (h : n.SpelledBy written) :
    ∃ c rest, written = c :: rest ∧ isSpace c = false ∧ c ∉ openers := by
  obtain ⟨negative, whole, fraction, exponent⟩ := n
  obtain ⟨hformed, spelled, -, rfl⟩ := h
  obtain ⟨hne, hdigits⟩ := hformed.whole
  cases negative with
  | true => exact ⟨45, _, rfl, by decide, by decide⟩
  | false =>
      cases whole with
      | nil => exact absurd rfl hne
      | cons c more =>
          exact ⟨c, _, rfl, notMem_openers_of_isDigit (hdigits c (List.mem_cons_self ..))⟩

/-- A word is read as what it stands for. -/
theorem plain_word {written : Text} {outcome : Except Text Json} (h : (written, outcome) ∈ words)
    (rest : Text) :
    plain (written ++ rest) = (outcome.mapError .constant).map fun value => (value, rest) := by
  simp only [words, List.mem_cons, Prod.mk.injEq, List.not_mem_nil, or_false] at h
  rcases h with ⟨rfl, rfl⟩ | ⟨rfl, rfl⟩ | ⟨rfl, rfl⟩ | ⟨rfl, rfl⟩ | ⟨rfl, rfl⟩ | ⟨rfl, rfl⟩ <;> rfl

/-- A text that begins like a number is no word. -/
theorem find_words_eq_none {n : Numeral} {written : Text} (h : n.SpelledBy written) (rest : Text) :
    words.find? (fun word => word.1.isPrefixOf (written ++ rest)) = none := by
  obtain ⟨negative, whole, fraction, exponent⟩ := n
  obtain ⟨hformed, spelled, -, rfl⟩ := h
  obtain ⟨hne, hdigits⟩ := hformed.whole
  cases whole with
  | nil => exact absurd rfl hne
  | cons c more =>
      have hother (k : Nat) (hk : Text.isDigit k = false) : (k == c) = false := by
        rw [beq_eq_false_iff_ne]
        rintro rfl
        rw [hdigits k (by simp)] at hk
        cases hk
      cases negative <;> simp [words, Text.lit, List.isPrefixOf, hother, Text.isDigit]

/-- A numeral is read as the number that it writes. -/
theorem plain_numeral {n : Numeral} {written : Text} (h : n.SpelledBy written) {rest : Text}
    (hrest : Ends rest) :
    plain (written ++ rest) = (n.toNumber.map .number).map fun value => (value, rest) := by
  rw [plain, find_words_eq_none h, numeral?_spelled h hrest]
  show n.toNumber.map _ = _
  cases n.toNumber <;> rfl

section Node

variable {fuel : Nat} {inner? : Option (Text → Step Json)}

/-- What begins with neither a quote nor a bracket is no string and no container. -/
theorem node_eq_plain {c : CodePoint} (hc : c ∉ openers) (t : Text) :
    node fuel inner? (c :: t) = plain (c :: t) := by
  unfold node
  split
  · rename_i heq
    cases heq
    exact absurd (by decide) hc
  · rename_i heq
    cases heq
    exact absurd (by decide) hc
  · rename_i heq
    cases heq
    exact absurd (by decide) hc
  · rfl

/-- **A scalar is read as what it spells**, without a look inside. -/
theorem node_scalar {written : Text} {outcome : Except Fault Json}
    (h : SpellsScalar written outcome) {rest : Text} (hrest : Ends rest) :
    node fuel inner? (written ++ rest) = outcome.map fun value => (value, rest) := by
  cases h with
  | word hword =>
      rw [← plain_word hword]
      obtain ⟨c, more, rfl, -, hc⟩ := exists_head_word hword
      exact node_eq_plain hc _
  | numeral hnumeral =>
      rw [← plain_numeral hnumeral hrest]
      obtain ⟨c, more, rfl, -, hc⟩ := exists_head_numeral hnumeral
      exact node_eq_plain hc _
  | quoted hstring =>
      obtain ⟨hpieces⟩ := hstring
      rw [List.cons_append, node, quotedText_spelled hpieces]
      rfl

end Node

theorem begins_of_notMem {c : CodePoint} (hspace : isSpace c = false) (hc : c ∉ openers)
    (rest : Text) : Begins (c :: rest) := by
  simp only [openers, List.mem_cons, List.not_mem_nil, or_false, not_or] at hc
  exact ⟨c, rest, rfl, hspace, hc.2.2.1, hc.2.2.2.2.1, hc.2.2.2.2.2⟩

theorem SpellsString.begins {written s : Text} (h : SpellsString written s) : Begins written := by
  obtain ⟨-⟩ := h
  exact ⟨34, _, rfl, rfl, by decide, by decide, by decide⟩

theorem SpellsScalar.begins {written : Text} {outcome : Except Fault Json}
    (h : SpellsScalar written outcome) : Begins written := by
  cases h with
  | word hword =>
      obtain ⟨c, more, rfl, hspace, hc⟩ := exists_head_word hword
      exact begins_of_notMem hspace hc more
  | numeral hnumeral =>
      obtain ⟨c, more, rfl, hspace, hc⟩ := exists_head_numeral hnumeral
      exact begins_of_notMem hspace hc more
  | quoted hstring => exact hstring.begins

theorem begins_text {source : Source} (h : source.Valid) : Begins source.text := by
  cases source with
  | scalar written outcome => exact SpellsScalar.begins h
  | array => exact ⟨91, _, rfl, rfl, by decide, by decide, by decide⟩
  | object => exact ⟨123, _, rfl, rfl, by decide, by decide, by decide⟩

/-! ## Containers -/

/-- A source is read as the value that it stands for, whatever can stand behind a value. -/
def Reads (read : Text → Step Json) (source : Source) : Prop :=
  ∀ rest, Ends rest →
    read (source.text ++ rest) = source.value.map fun value => (value, rest)

section Containers

variable {inner : Text → Step Json} {fuel : Nat}

/-- Items are read up to the closing bracket. -/
theorem elements_text {items : List (Spaced Source)} (hne : items ≠ [])
    (hvalid : Source.ValidItems items) (hinner : ∀ item ∈ items, Reads inner item.content)
    (hfuel : items.length ≤ fuel) (rest : Text) :
    elements inner fuel (skip (Text.joined [44] (Source.textItems items) ++ 93 :: rest)) =
      (Source.valueItems items).map fun values => (values, rest) := by
  induction items generalizing fuel with
  | nil => exact absurd rfl hne
  | cons item more ih =>
      cases fuel with
      | zero => simp at hfuel
      | succ fuel =>
        obtain ⟨before, source, after⟩ := item
        obtain ⟨⟨hbefore, hsource, hafter⟩, hmore⟩ := hvalid
        have hread := hinner ⟨before, source, after⟩ (List.mem_cons_self ..)
        have hbegins := begins_text hsource
        cases more with
        | nil =>
            have htext :
                Text.joined [44] (Source.textItems [⟨before, source, after⟩]) ++ 93 :: rest =
                  before ++ (source.text ++ (after ++ 93 :: rest)) := by
              simp [Source.textItems, Text.joined]
            have hclose : skip (after ++ 93 :: rest) = 93 :: rest :=
              skip_append_cons hafter rfl rest
            have hlast := hread (after ++ 93 :: rest) (ends_of_blanks hafter (.cons (by simp) _))
            rw [htext, hbegins.skip_append hbefore, elements, hlast, Source.valueItems]
            cases source.value with
            | error fault => rfl
            | ok value => simp [Except.map, Except.bind, hclose, Source.valueItems]
        | cons next others =>
            have htext :
                Text.joined [44] (Source.textItems (⟨before, source, after⟩ :: next :: others)) ++
                  93 :: rest = before ++ (source.text ++ (after ++ 44 ::
                  (Text.joined [44] (Source.textItems (next :: others)) ++ 93 :: rest))) := by
              simp [Source.textItems, Text.joined]
            have hcomma (t : Text) : skip (after ++ 44 :: t) = 44 :: t :=
              skip_append_cons hafter rfl t
            have hfirst (t : Text) := hread (after ++ 44 :: t)
              (ends_of_blanks hafter (.cons (by simp) _))
            have hothers := ih (by simp) hmore
              (fun other hmem => hinner other (List.mem_cons_of_mem _ hmem)) (by simpa using hfuel)
            rw [htext, hbegins.skip_append hbefore, elements, hfirst, Source.valueItems]
            cases source.value with
            | error fault => rfl
            | ok value =>
                simp only [Except.map, Except.bind, hcomma] at hothers ⊢
                rw [hothers]
                cases Source.valueItems (next :: others) <;> rfl

/-- A key is read with its colon and the blanks around it. -/
theorem key_text {key : Spaced Label}
    (h : key.Holds fun key => SpellsString key.written key.name) (t : Text) :
    Scanner.key (skip (key.text Label.written ++ 58 :: t)) = .ok (key.content.name, skip t) := by
  obtain ⟨before, ⟨written, name⟩, after⟩ := key
  obtain ⟨hbefore, hspelled, hafter⟩ := h
  obtain ⟨hpieces⟩ := hspelled
  have hcolon : skip (after ++ 58 :: t) = 58 :: t := skip_append_cons hafter rfl t
  rw [Spaced.text]
  simp only [List.append_assoc]
  rw [skip_append hbefore, List.cons_append, skip_of_not_isSpace rfl, Scanner.key,
    quotedText_spelled hpieces]
  simp [Except.bind, hcolon]

/-- Members are read up to the closing brace. -/
theorem members_text {members : List (Spaced Label × Spaced Source)} (hne : members ≠ [])
    (hvalid : Source.ValidMembers members)
    (hinner : ∀ member ∈ members, Reads inner member.2.content)
    (hfuel : members.length ≤ fuel) (rest : Text) :
    Scanner.members inner fuel
        (skip (Text.joined [44] (Source.textMembers members) ++ 125 :: rest)) =
      (Source.valueMembers members).map fun fields => (fields, rest) := by
  induction members generalizing fuel with
  | nil => exact absurd rfl hne
  | cons member more ih =>
      cases fuel with
      | zero => simp at hfuel
      | succ fuel =>
        obtain ⟨key, before, source, after⟩ := member
        obtain ⟨hkey, ⟨hbefore, hsource, hafter⟩, hmore⟩ := hvalid
        have hread := hinner (key, ⟨before, source, after⟩) (List.mem_cons_self ..)
        have hbegins := begins_text hsource
        cases more with
        | nil =>
            have htext : Text.joined [44] (Source.textMembers [(key, ⟨before, source, after⟩)]) ++
                125 :: rest = key.text Label.written ++ 58 ::
                  (before ++ (source.text ++ (after ++ 125 :: rest))) := by
              simp [Source.textMembers, Text.joined]
            have hclose : skip (after ++ 125 :: rest) = 125 :: rest :=
              skip_append_cons hafter rfl rest
            have hlast := hread (after ++ 125 :: rest) (ends_of_blanks hafter (.cons (by simp) _))
            rw [htext, Scanner.members, key_text hkey, hbegins.skip_append hbefore,
              Source.valueMembers]
            simp only [Except.bind]
            rw [hlast]
            cases source.value with
            | error fault => rfl
            | ok value => simp [Except.map, hclose, Source.valueMembers]
        | cons next others =>
            have htext : Text.joined [44]
                (Source.textMembers ((key, ⟨before, source, after⟩) :: next :: others)) ++
                  125 :: rest =
                    key.text Label.written ++ 58 :: (before ++ (source.text ++ (after ++ 44 ::
                      (Text.joined [44] (Source.textMembers (next :: others)) ++ 125 :: rest)))) := by
              simp [Source.textMembers, Text.joined]
            have hcomma (t : Text) : skip (after ++ 44 :: t) = 44 :: t :=
              skip_append_cons hafter rfl t
            have hfirst (t : Text) := hread (after ++ 44 :: t)
              (ends_of_blanks hafter (.cons (by simp) _))
            have hothers := ih (by simp) hmore
              (fun other hmem => hinner other (List.mem_cons_of_mem _ hmem)) (by simpa using hfuel)
            rw [htext, Scanner.members, key_text hkey, hbegins.skip_append hbefore,
              Source.valueMembers]
            simp only [Except.bind]
            rw [hfirst]
            cases source.value with
            | error fault => rfl
            | ok value =>
                simp only [Except.map, hcomma] at hothers ⊢
                rw [hothers]
                cases Source.valueMembers (next :: others) <;> rfl

/-- An array that goes on with something other than its bracket has items. -/
theorem array_of_begins {t : Text} (h : Begins (skip t)) :
    array inner fuel t =
      (elements inner fuel (skip t)).map fun read => (.array read.1, read.2) := by
  obtain ⟨c, rest, hskip, -, hclose, -⟩ := h
  rw [array, hskip]
  split
  · rename_i heq
    cases heq
    exact absurd rfl hclose
  · rfl

/-- An object that goes on with something other than its brace has members. -/
theorem object_of_begins {t : Text} (h : Begins (skip t)) :
    object inner fuel t =
      (members inner fuel (skip t)).map fun read => (.object (Assoc.ofPairs read.1), read.2) := by
  obtain ⟨c, rest, hskip, -, -, hclose, -⟩ := h
  rw [object, hskip]
  split
  · rename_i heq
    cases heq
    exact absurd rfl hclose
  · rfl

/-- Among joined texts the first one is met first, behind its blanks. -/
theorem begins_skip_joined {before t : Text} (hbefore : AreBlanks before) (ht : Begins t)
    (after : Text) (others : List Text) (rest : Text) :
    Begins (skip (Text.joined [44] ((before ++ (t ++ after)) :: others) ++ rest)) := by
  cases others with
  | nil =>
      rw [Text.joined, List.append_assoc, List.append_assoc, ht.skip_append hbefore]
      exact ht.append _
  | cons other more =>
      simp only [Text.joined, List.append_assoc]
      rw [ht.skip_append hbefore]
      exact ht.append _

/-- An array is read where its items are. -/
theorem array_text {blank : Text} {items : List (Spaced Source)}
    (hvalid : (Source.array blank items).Valid) (hinner : ∀ item ∈ items, Reads inner item.content)
    (hfuel : items.length ≤ fuel) (rest : Text) :
    array inner fuel (blank ++ (Text.joined [44] (Source.textItems items) ++ 93 :: rest)) =
      (Source.array blank items).value.map fun value => (value, rest) := by
  obtain ⟨hblank, hitems⟩ := hvalid
  cases items with
  | nil =>
      have hclose : skip (blank ++ 93 :: rest) = 93 :: rest := skip_append_cons hblank rfl rest
      simp [array, Source.textItems, Source.valueItems, Source.value, Text.joined, hclose,
        Except.map]
  | cons item more =>
      have hfirst := begins_skip_joined hitems.1.1 (begins_text hitems.1.2.1) item.after
        (Source.textItems more) (93 :: rest)
      rw [array_of_begins (by rwa [skip_append hblank]), skip_append hblank,
        elements_text (by simp) hitems hinner hfuel, Source.value]
      cases Source.valueItems (item :: more) <;> rfl

/-- An object is read where the values of its members are. -/
theorem object_text {blank : Text} {members : List (Spaced Label × Spaced Source)}
    (hvalid : (Source.object blank members).Valid)
    (hinner : ∀ member ∈ members, Reads inner member.2.content)
    (hfuel : members.length ≤ fuel) (rest : Text) :
    object inner fuel (blank ++ (Text.joined [44] (Source.textMembers members) ++ 125 :: rest)) =
      (Source.object blank members).value.map fun value => (value, rest) := by
  obtain ⟨hblank, hmembers⟩ := hvalid
  cases members with
  | nil =>
      have hclose : skip (blank ++ 125 :: rest) = 125 :: rest := skip_append_cons hblank rfl rest
      simp [object, Source.textMembers, Source.valueMembers, Source.value, Text.joined, hclose,
        Except.map, Assoc.ofPairs]
  | cons member more =>
      obtain ⟨key, before, source, after⟩ := member
      have hkey : Begins key.content.written := SpellsString.begins hmembers.1.content
      have hfirst := begins_skip_joined hmembers.1.before hkey
        (key.after ++ 58 :: (before ++ (source.text ++ after))) (Source.textMembers more)
        (125 :: rest)
      have htext : key.before ++ (key.content.written ++ (key.after ++ 58 ::
          (before ++ (source.text ++ after)))) =
          key.text Label.written ++ 58 :: (before ++ (source.text ++ after)) := by
        simp [Spaced.text]
      rw [htext] at hfirst
      rw [object_of_begins (by rwa [skip_append hblank]), skip_append hblank,
        members_text (by simp) hmembers hinner hfuel, Source.value]
      cases Source.valueMembers _ <;> rfl

end Containers

/-! ## Values -/

theorem length_items_le {blank : Text} {items : List (Spaced Source)} {fuel : Nat}
    (h : (Source.array blank items).text.length ≤ fuel) : items.length ≤ fuel := by
  have hcount := Text.length_le_joined (items.map (·.text Source.text))
  rw [List.length_map] at hcount
  rw [Source.length_text_array] at h
  omega

theorem length_members_le {blank : Text} {members : List (Spaced Label × Spaced Source)}
    {fuel : Nat} (h : (Source.object blank members).text.length ≤ fuel) :
    members.length ≤ fuel := by
  have hcount := Text.length_le_joined (members.map Source.textMember)
  rw [List.length_map] at hcount
  rw [Source.length_text_object] at h
  omega

/-- **A source is read as what it stands for** where as many brackets may be open as it needs. -/
theorem value_text {source : Source} (hvalid : source.Valid) {room : Nat}
    (hdepth : source.depth ≤ room) {fuel : Nat} (hfuel : source.text.length ≤ fuel) :
    Reads (value fuel room) source := by
  intro rest hrest
  -- the fuel is that of the whole text throughout: only the room shrinks on the way in
  induction room generalizing source rest with
  | zero =>
      cases source with
      | scalar => exact node_scalar hvalid hrest
      | array | object => simp [Source.depth] at hdepth
  | succ room ih =>
      cases source with
      | scalar => exact node_scalar hvalid hrest
      | array blank items =>
          have hinner : ∀ item ∈ items, Reads (fun t => value fuel room t) item.content := by
            intro item hmem rest hrest
            have hnesting := Source.depth_le_depthItems hmem
            have hlength := Source.length_text_item blank hmem
            simp only [Source.depth] at hdepth
            exact ih (Source.validItems_iff.mp hvalid.2 item hmem).content (by omega) (by omega)
              rest hrest
          have hread := array_text hvalid hinner (length_items_le hfuel) rest
          simpa [Source.text, value, node] using hread
      | object blank members =>
          have hinner : ∀ member ∈ members,
              Reads (fun t => value fuel room t) member.2.content := by
            intro member hmem rest hrest
            have hnesting := Source.depth_le_depthMembers hmem
            have hlength := Source.length_text_member blank hmem
            simp only [Source.depth] at hdepth
            exact ih (Source.validMembers_iff.mp hvalid.2 member hmem).value.content (by omega)
              (by omega) rest hrest
          have hread := object_text hvalid hinner (length_members_le hfuel) rest
          simpa [Source.text, value, node] using hread

/-- **A whole text is read as what it stands for**, with the blanks around it. -/
theorem document_text {whole : Spaced Source} (hvalid : whole.Holds Source.Valid)
    (hdepth : whole.content.depth ≤ nestingLimit) :
    document (whole.text Source.text) = whole.content.value := by
  obtain ⟨before, source, after⟩ := whole
  obtain ⟨hbefore, hsource, hafter⟩ := hvalid
  have hbegins := begins_text hsource
  -- neither a blank nor what a source begins with is a byte order mark
  have hmark : ¬(before ++ (source.text ++ after)).head? = some 0xFEFF := by
    cases before with
    | nil =>
        obtain ⟨c, rest, htext, -, -, -, hmark⟩ := hbegins
        simpa [htext] using hmark
    | cons c more =>
        intro hhead
        have hspace := hbefore c (List.mem_cons_self ..)
        simp only [List.cons_append, List.head?_cons, Option.some.injEq] at hhead
        subst hhead
        cases hspace
  have hfuel : source.text.length ≤ (before ++ (source.text ++ after)).length + 1 := by
    simp only [List.length_append]
    omega
  have hread := value_text hsource hdepth hfuel after
    (by simpa using ends_of_blanks hafter .nil)
  rw [Spaced.text, document, if_neg hmark, hbegins.skip_append hbefore, hread]
  have hend : skip after = [] := by simpa [skip] using skip_append hafter []
  cases source.value with
  | error fault => rfl
  | ok value => simp [Except.map, Except.bind, hend]

/-! ## What is read -/

/-- What is read as a scalar is spelled at the front of the text. -/
theorem exists_scalar_of_plain {t rest : Text} {value : Json} (h : plain t = .ok (value, rest)) :
    ∃ written, SpellsScalar written (.ok value) ∧ t = written ++ rest := by
  unfold plain at h
  split at h
  · rename_i word found hword
    have hprefix : word.isPrefixOf t = true := by simpa using List.find?_some hword
    obtain ⟨more, rfl⟩ := List.isPrefixOf_iff_prefix.mp hprefix
    cases h
    exact ⟨word, .word (List.mem_of_find?_eq_some hword), by simp⟩
  · cases h
  · split at h
    · rename_i n behind hnumeral
      obtain ⟨number, hnumber, heq⟩ := Outcomes.map_ok.mp h
      cases heq
      obtain ⟨written, hspelled, rfl⟩ := exists_spelled_of_numeral? hnumeral
      have hscalar := SpellsScalar.numeral hspelled
      rw [hnumber] at hscalar
      exact ⟨written, hscalar, rfl⟩
    · cases h

/-- A source of a value at the front of a text, with the text behind it. -/
structure SourceOf (room : Nat) (t : Text) (value : Json) (rest : Text) (source : Source) :
    Prop where
  valid : source.Valid
  depth : source.depth ≤ room
  value : source.value = .ok value
  text : t = source.text ++ rest

section Containers

variable {inner : Text → Step Json} {room fuel : Nat} {t rest : Text}

/-- Whatever is read has a source. -/
def HasSources (room : Nat) (read : Text → Step Json) : Prop :=
  ∀ t value rest, read t = .ok (value, rest) → ∃ source, SourceOf room t value rest source

/-- Whatever is read as items is the text of items. -/
theorem exists_items_of_elements (hinner : HasSources room inner) {values : List Json}
    (h : elements inner fuel (skip t) = .ok (values, rest)) :
    ∃ items, items ≠ [] ∧ Source.ValidItems items ∧ Source.depthItems items ≤ room ∧
      Source.valueItems items = .ok values ∧
      t = Text.joined [44] (Source.textItems items) ++ 93 :: rest := by
  induction fuel generalizing t values with
  | zero => cases h
  | succ fuel ih =>
      obtain ⟨⟨value, behind⟩, hvalue, h⟩ := Outcomes.bind_ok.mp h
      obtain ⟨source, hvalid, hdepth, hsource, htext⟩ := hinner _ _ _ hvalue
      obtain ⟨before, hbefore, ht⟩ := exists_blanks t
      obtain ⟨after, hafter, hbehind⟩ := exists_blanks behind
      simp only at h
      split at h
      · rename_i hclose
        cases h
        refine ⟨[⟨before, source, after⟩], by simp, ⟨⟨hbefore, hvalid, hafter⟩, trivial⟩,
          Nat.max_le.mpr ⟨hdepth, Nat.zero_le _⟩, ?_, ?_⟩
        · simp [Source.valueItems, hsource, Except.bind, Except.map]
        · rw [ht, htext, hbehind, hclose]
          simp [Source.textItems, Text.joined]
      · rename_i next hcomma
        obtain ⟨⟨others, last⟩, hothers, heq⟩ := Outcomes.map_ok.mp h
        cases heq
        obtain ⟨items, hne, hitems, hnesting, hvalues, hnext⟩ := ih hothers
        refine ⟨⟨before, source, after⟩ :: items, by simp, ⟨⟨hbefore, hvalid, hafter⟩, hitems⟩,
          Nat.max_le.mpr ⟨hdepth, hnesting⟩, ?_, ?_⟩
        · simp [Source.valueItems, hsource, hvalues, Except.bind, Except.map]
        · rw [ht, htext, hbehind, hcomma, hnext]
          cases items with
          | nil => exact absurd rfl hne
          | cons => simp [Source.textItems, Text.joined]
      · cases h

/-- Whatever is read as a key is the text of a key with its colon and the blanks around them. -/
theorem exists_label_of_key {name : Text} (h : Scanner.key (skip t) = .ok (name, rest)) :
    ∃ (key : Spaced Label) (blanks : Text),
      key.Holds (fun key => SpellsString key.written key.name) ∧ AreBlanks blanks ∧
        key.content.name = name ∧ t = key.text Label.written ++ 58 :: (blanks ++ rest) := by
  obtain ⟨before, hbefore, ht⟩ := exists_blanks t
  unfold Scanner.key at h
  split at h
  · rename_i quoted hquote
    obtain ⟨⟨read, behind⟩, hread, h⟩ := Outcomes.bind_ok.mp h
    obtain ⟨written, hspelled, htext⟩ := exists_spelled_of_quotedText hread
    obtain ⟨after, hafter, hbehind⟩ := exists_blanks behind
    simp only at h
    split at h
    · rename_i next hcolon
      cases h
      obtain ⟨blanks, hblanks, hnext⟩ := exists_blanks next
      refine ⟨⟨before, ⟨34 :: written, name⟩, after⟩, blanks, ⟨hbefore, hspelled, hafter⟩, hblanks,
        rfl, ?_⟩
      rw [← hnext, ht, hquote, htext, hbehind, hcolon]
      simp [Spaced.text]
    · cases h
  · cases h

/-- Whatever is read as members is the text of members. -/
theorem exists_members_of_members (hinner : HasSources room inner) {fields : List (Text × Json)}
    (h : members inner fuel (skip t) = .ok (fields, rest)) :
    ∃ sources, sources ≠ [] ∧ Source.ValidMembers sources ∧ Source.depthMembers sources ≤ room ∧
      Source.valueMembers sources = .ok fields ∧
      t = Text.joined [44] (Source.textMembers sources) ++ 125 :: rest := by
  induction fuel generalizing t fields with
  | zero => cases h
  | succ fuel ih =>
      obtain ⟨⟨name, atValue⟩, hname, h⟩ := Outcomes.bind_ok.mp h
      obtain ⟨⟨value, behind⟩, hvalue, h⟩ := Outcomes.bind_ok.mp h
      obtain ⟨key, before, hkey, hbefore, rfl, ht⟩ := exists_label_of_key hname
      obtain ⟨source, hvalid, hdepth, hsource, htext⟩ := hinner _ _ _ hvalue
      obtain ⟨after, hafter, hbehind⟩ := exists_blanks behind
      simp only at h htext
      split at h
      · rename_i hclose
        cases h
        refine ⟨[(key, ⟨before, source, after⟩)], by simp,
          ⟨hkey, ⟨hbefore, hvalid, hafter⟩, trivial⟩, Nat.max_le.mpr ⟨hdepth, Nat.zero_le _⟩,
          ?_, ?_⟩
        · simp [Source.valueMembers, hsource, Except.bind, Except.map]
        · rw [ht, htext, hbehind, hclose]
          simp [Source.textMembers, Text.joined]
      · rename_i next hcomma
        obtain ⟨⟨others, last⟩, hothers, heq⟩ := Outcomes.map_ok.mp h
        cases heq
        obtain ⟨sources, hne, hsources, hnesting, hfields, hnext⟩ := ih hothers
        refine ⟨(key, ⟨before, source, after⟩) :: sources, by simp,
          ⟨hkey, ⟨hbefore, hvalid, hafter⟩, hsources⟩, Nat.max_le.mpr ⟨hdepth, hnesting⟩, ?_, ?_⟩
        · simp [Source.valueMembers, hsource, hfields, Except.bind, Except.map]
        · rw [ht, htext, hbehind, hcomma, hnext]
          cases sources with
          | nil => exact absurd rfl hne
          | cons => simp [Source.textMembers, Text.joined]
      · cases h

/-- Whatever is read as an array has a source. -/
theorem exists_source_of_array (hinner : HasSources room inner) {value : Json}
    (h : array inner fuel t = .ok (value, rest)) :
    ∃ source, SourceOf (room + 1) (91 :: t) value rest source := by
  unfold array at h
  split at h
  · rename_i hclose
    cases h
    obtain ⟨blank, hblank, ht⟩ := exists_blanks t
    refine ⟨.array blank [], ⟨hblank, trivial⟩, Nat.succ_le_succ (Nat.zero_le _), rfl, ?_⟩
    rw [ht, hclose]
    simp [Source.text, Source.textItems, Text.joined]
  · obtain ⟨⟨values, behind⟩, hvalues, heq⟩ := Outcomes.map_ok.mp h
    cases heq
    obtain ⟨items, -, hitems, hdepth, hvalue, ht⟩ := exists_items_of_elements hinner hvalues
    -- the blanks behind the bracket belong to the first item
    refine ⟨.array [] items, ⟨.nil, hitems⟩, Nat.succ_le_succ hdepth, ?_, ?_⟩
    · rw [Source.value, hvalue]
      rfl
    · rw [ht]
      simp [Source.text]

/-- Whatever is read as an object has a source. -/
theorem exists_source_of_object (hinner : HasSources room inner) {value : Json}
    (h : object inner fuel t = .ok (value, rest)) :
    ∃ source, SourceOf (room + 1) (123 :: t) value rest source := by
  unfold object at h
  split at h
  · rename_i hclose
    cases h
    obtain ⟨blank, hblank, ht⟩ := exists_blanks t
    refine ⟨.object blank [], ⟨hblank, trivial⟩, Nat.succ_le_succ (Nat.zero_le _), rfl, ?_⟩
    rw [ht, hclose]
    simp [Source.text, Source.textMembers, Text.joined]
  · obtain ⟨⟨fields, behind⟩, hfields, heq⟩ := Outcomes.map_ok.mp h
    cases heq
    obtain ⟨sources, -, hsources, hdepth, hvalue, ht⟩ := exists_members_of_members hinner hfields
    refine ⟨.object [] sources, ⟨.nil, hsources⟩, Nat.succ_le_succ hdepth, ?_, ?_⟩
    · rw [Source.value, hvalue]
      rfl
    · rw [ht]
      simp [Source.text]

end Containers

/-- Whatever is read as something that is no container has a source. -/
theorem exists_source_of_scalar {room : Nat} {t rest written : Text} {value : Json}
    (h : SpellsScalar written (.ok value)) (ht : t = written ++ rest) :
    ∃ source, SourceOf room t value rest source :=
  ⟨.scalar written (.ok value), h, Nat.zero_le _, rfl, ht⟩

/-- Whatever is read at all has a source, if what containers hold has one. -/
theorem exists_source_of_node {fuel room : Nat} {inner? : Option (Text → Step Json)}
    (hinner : ∀ inner ∈ inner?, ∃ less, room = less + 1 ∧ HasSources less inner) :
    HasSources room (node fuel inner?) := by
  intro t value rest h
  unfold node at h
  split at h
  · obtain ⟨⟨s, behind⟩, hs, heq⟩ := Outcomes.map_ok.mp h
    cases heq
    obtain ⟨written, hspelled, rfl⟩ := exists_spelled_of_quotedText hs
    exact exists_source_of_scalar (.quoted hspelled) rfl
  · split at h
    · obtain ⟨less, rfl, hless⟩ := hinner _ rfl
      exact exists_source_of_array hless h
    · cases h
  · split at h
    · obtain ⟨less, rfl, hless⟩ := hinner _ rfl
      exact exists_source_of_object hless h
    · cases h
  · obtain ⟨written, hspelled, ht⟩ := exists_scalar_of_plain h
    exact exists_source_of_scalar hspelled ht

/-- **Whatever is read has a source** that nests no deeper than it may. -/
theorem exists_source_of_value (fuel room : Nat) : HasSources room (value fuel room) := by
  induction room with
  | zero => exact exists_source_of_node (by simp)
  | succ room ih =>
      refine exists_source_of_node ?_
      rintro inner ⟨⟩
      exact ⟨room, rfl, ih⟩

/-- **Exactly the JSON texts are read**: those that have a value and in which not too many brackets
are open at once. -/
theorem document_ok_iff {t : Text} {value : Json} :
    document t = .ok value ↔ ∃ whole : Spaced Source, whole.Holds Source.Valid ∧
      whole.content.depth ≤ nestingLimit ∧ whole.content.value = .ok value ∧
      t = whole.text Source.text := by
  constructor
  · intro h
    unfold document at h
    split at h
    · cases h
    · obtain ⟨⟨read, behind⟩, hread, h⟩ := Outcomes.bind_ok.mp h
      obtain ⟨source, hvalid, hdepth, hvalue, htext⟩ := exists_source_of_value _ _ _ _ _ hread
      obtain ⟨before, hbefore, ht⟩ := exists_blanks t
      obtain ⟨after, hafter, hbehind⟩ := exists_blanks behind
      simp only at h
      split at h
      · rename_i hend
        cases h
        refine ⟨⟨before, source, after⟩, ⟨hbefore, hvalid, hafter⟩, hdepth, hvalue, ?_⟩
        rw [ht, htext, hbehind, hend, List.append_nil]
        rfl
      · cases h
  · rintro ⟨whole, hvalid, hdepth, hvalue, rfl⟩
    rw [document_text hvalid hdepth, hvalue]

end Scanner

end JsonDecoding
