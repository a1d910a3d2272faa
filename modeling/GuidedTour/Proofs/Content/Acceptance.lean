import GuidedTour.Proofs.Content.Fault
import Mathlib.Data.List.Forall2

/-!
# Documents that are tours

A record spells a section if its keys are four texts, one for each field, either the key that authors use or the
name of the field, and if the value at each is the text of the field (`Content.Spells`). A document is a tour if it
is a mapping or a list, has a record, and all its records spell sections; these are then the sections of the tour,
in order. The first record that spells none is named in the report, by its identifier or by its place
(`Content.sections_of_spelled`). Only an identifier that cannot be written out stands in the way of this.
-/

set_option autoImplicit false

namespace GuidedTour.Content

/-! ## Keys of fields -/

/-- A key that a field goes by: the one that authors use, or its name. -/
def Field.GoesBy (field : Field) (key : Text) : Prop := key = field.written ∨ key = field.name

/-- Every field is listed. -/
theorem Field.mem_all (field : Field) : field ∈ all := by cases field <;> decide

/-- No two fields go by the same key. -/
theorem Field.GoesBy.unique {field other : Field} {key : Text} (h : field.GoesBy key)
    (hother : other.GoesBy key) : field = other := by
  have hapart : ∀ f ∈ all, ∀ g ∈ all, f ≠ g →
      f.written ≠ g.written ∧ f.written ≠ g.name ∧ f.name ≠ g.written ∧ f.name ≠ g.name := by decide
  by_contra hne
  obtain ⟨hww, hwn, hnw, hnn⟩ := hapart field (mem_all field) other (mem_all other) hne
  rcases h with rfl | rfl <;> rcases hother with h | h <;> contradiction

/-! ## Records -/

/-- A value is a record that spells a section. Its keys are texts, as many as there are fields: each field goes by
one of them, and has its text there. -/
inductive Spells : Data.Value → Section → Prop where
  | record {record : Record} {lesson : Section} (key : Field → Text)
      (goesBy : ∀ field : Field, field.GoesBy (key field))
      (has : ∀ field, record.value? (key field) = some (.ofText (field.of lesson)))
      (only : ∀ entry ∈ record, ∃ field, entry.1 = .text (key field)) :
      Spells (.mapping record) lesson

namespace Record

variable {record : Record} {field : Field}

/-- A value that is found under a key is an entry of the record. -/
theorem exists_of_value? {key : Text} {value : Data.Value} (h : record.value? key = some value) :
    (.text key, value) ∈ record := by
  unfold value? at h
  obtain ⟨⟨found, held⟩, hfind, rfl⟩ := Option.map_eq_some_iff.1 h
  have hkey : found = .text key := by simpa using List.find?_some hfind
  rw [← hkey]
  exact List.mem_of_find?_eq_some hfind

/-- A field is read iff what it was given as is a text. -/
theorem text_eq_ok_iff {text : Text} :
    record.text field = .ok text ↔ ∃ key, record.field? field = some (key, .ofText text) := by
  unfold Record.text
  split
  · rename_i hnone
    simp [hnone]
  · rename_i key found hfield
    simp [hfield, Data.Value.ofText, eq_comm]
  · rename_i key value hnot hfield
    constructor
    · intro h
      cases h
    · rintro ⟨key', h⟩
      rw [hfield] at h
      cases h
      exact absurd rfl (hnot _)

/-- A field is found under a key it goes by, with the value there. -/
theorem value?_of_field? {key : Text} {value : Data.Value} (h : record.field? field = some (key, value)) :
    field.GoesBy key ∧ record.value? key = some value := by
  unfold field? at h
  split at h
  · rename_i found hfound
    cases h
    exact ⟨.inl rfl, hfound⟩
  · obtain ⟨found, hfound, he⟩ := Option.map_eq_some_iff.1 h
    cases he
    exact ⟨.inr rfl, hfound⟩

/-- A field is found under the only key of a record that it goes by. -/
theorem field?_of_value? {key : Text} {value : Data.Value} (hkey : field.GoesBy key)
    (hvalue : record.value? key = some value)
    (hnone : key ≠ field.written → record.value? field.written = none) :
    record.field? field = some (key, value) := by
  unfold field?
  by_cases h : key = field.written
  · rw [← h, hvalue]
  · rw [hnone h]
    obtain rfl : key = field.name := hkey.resolve_left h
    dsimp only
    rw [hvalue]
    rfl

/-- A key is used iff some field is found under it. -/
theorem mem_usedKeys_iff {key : Text} :
    key ∈ record.usedKeys ↔ ∃ field value, record.field? field = some (key, value) := by
  simp [usedKeys, Field.mem_all]

/-- A key is not complained about iff it is one that a field is found under. -/
theorem surplus?_eq_none_iff {key : Data.Scalar} :
    record.surplus? key = none ↔ ∃ t ∈ record.usedKeys, key = .text t := by
  cases key <;> simp [surplus?]

/-- A record has no problems iff all fields are read and all keys are used. -/
theorem problems_eq_nil_iff :
    record.problems = [] ↔
      (∀ field, ∃ text, record.text field = .ok text) ∧
        ∀ entry ∈ record, ∃ t ∈ record.usedKeys, entry.1 = .text t := by
  unfold problems
  rw [List.append_eq_nil_iff, List.filterMap_eq_nil_iff, List.filterMap_eq_nil_iff]
  simp only [surplus?_eq_none_iff]
  refine and_congr_left fun _ => ⟨fun h field => ?_, fun h field _ => ?_⟩
  · have hfield := h field field.mem_all
    cases htext : record.text field with
    | ok text => exact ⟨text, rfl⟩
    | error problem => simp [htext] at hfield
  · obtain ⟨text, htext⟩ := h field
    rw [htext]

/-- A record makes a section iff it has no problems, and the section is its fields. -/
theorem section?_eq_ok_iff {lesson : Section} :
    record.section? = .ok lesson ↔
      record.problems = [] ∧ ∀ field, record.textOf field = field.of lesson := by
  unfold section?
  split
  · rename_i hempty
    simp only [List.isEmpty_iff.1 hempty, true_and, Except.ok.injEq]
    constructor
    · rintro rfl field
      cases field <;> rfl
    · intro h
      rw [h .title, h .narrative, h .startingCode, h .expectedOutput]
      rfl
  · rename_i hproblems
    simp only [List.isEmpty_iff] at hproblems
    simp [hproblems]

/-- The text of a field that is read is what is read. -/
theorem textOf_of_ok {text : Text} (h : record.text field = .ok text) : record.textOf field = text := by
  unfold textOf
  rw [h]

/-- A record gives a section if it spells it, and no other does. -/
theorem section?_eq_ok_iff_spells {lesson : Section} :
    record.section? = .ok lesson ↔ Spells (.mapping record) lesson := by
  rw [section?_eq_ok_iff, problems_eq_nil_iff]
  constructor
  · rintro ⟨⟨htexts, hkeys⟩, hof⟩
    have hfound : ∀ field : Field, ∃ key, record.field? field = some (key, .ofText (field.of lesson)) := by
      intro field
      obtain ⟨text, htext⟩ := htexts field
      rw [← hof field, textOf_of_ok htext]
      exact text_eq_ok_iff.1 htext
    choose key hkey using hfound
    refine .record key (fun field => (value?_of_field? (hkey field)).1)
      (fun field => (value?_of_field? (hkey field)).2) ?_
    intro entry hentry
    obtain ⟨t, hused, he⟩ := hkeys entry hentry
    obtain ⟨field, value, hfield⟩ := mem_usedKeys_iff.1 hused
    rw [hkey field] at hfield
    cases hfield
    exact ⟨field, he⟩
  · intro h
    cases h with
    | record key hgoes hhas honly =>
      -- The key that authors use is not there beside the name: it would have to be the key of another field.
      have hfield (field : Field) :
          record.field? field = some (key field, .ofText (field.of lesson)) := by
        refine field?_of_value? (hgoes field) (hhas field) fun hother => ?_
        by_contra hsome
        obtain ⟨value, hvalue⟩ := Option.ne_none_iff_exists'.1 hsome
        obtain ⟨other, he⟩ := honly _ (exists_of_value? hvalue)
        have hkey : field.written = key other := by simpa using he
        have hsame : field = other := Field.GoesBy.unique (.inl rfl) (hkey ▸ hgoes other)
        exact hother (by rw [hsame, ← hkey, hsame])
      have htext (field : Field) : record.text field = .ok (field.of lesson) :=
        text_eq_ok_iff.2 ⟨_, hfield field⟩
      refine ⟨⟨fun field => ⟨_, htext field⟩, ?_⟩, fun field => textOf_of_ok (htext field)⟩
      intro entry hentry
      obtain ⟨field, he⟩ := honly entry hentry
      exact ⟨_, mem_usedKeys_iff.2 ⟨field, _, hfield field⟩, he⟩

end Record

/-- A record without a repeated key that spells a section is made of four entries, in any order. -/
theorem Spells.exists_perm {record : Record} {lesson : Section} (h : Spells (.mapping record) lesson)
    (hdistinct : (record.map Prod.fst).Nodup) :
    ∃ key : Field → Text, (∀ field, Field.GoesBy field (key field)) ∧
      (record.map Prod.fst).Perm (Field.all.map fun field => .text (key field)) := by
  cases h with
  | record key hgoes hhas honly =>
    refine ⟨key, hgoes, (List.perm_ext_iff_of_nodup hdistinct ?_).2 ?_⟩
    · refine List.Nodup.map ?_ (by decide)
      intro field other he
      have hkey : key field = key other := by simpa using he
      exact Field.GoesBy.unique (hgoes field) (hkey ▸ hgoes other)
    · intro k
      simp only [List.mem_map]
      constructor
      · rintro ⟨entry, hentry, rfl⟩
        obtain ⟨field, he⟩ := honly entry hentry
        exact ⟨field, field.mem_all, he.symm⟩
      · rintro ⟨field, -, rfl⟩
        exact ⟨_, Record.exists_of_value? (hhas field), rfl⟩

/-- A record that spells a section, with no key twice, has four entries. -/
theorem Spells.length_eq {record : Record} {lesson : Section} (h : Spells (.mapping record) lesson)
    (hdistinct : (record.map Prod.fst).Nodup) : record.length = 4 := by
  obtain ⟨key, -, hperm⟩ := h.exists_perm hdistinct
  simpa [Field.all] using hperm.length_eq

/-! ## Documents -/

/-- The records of a document in order, each with what messages call it, if that can be written. -/
def called : Data.Value → List (Option Text × Data.Value)
  | .mapping entries =>
    entries.map fun entry => (if entry.1.isWritable then some entry.1.plain else none, entry.2)
  | .list items => items.mapIdx fun i item => (some ('#' :: Text.ofNat (i + 1)), item)
  | _ => []

/-- A record can be called by something and spells a section. -/
def IsGood (record : Option Text × Data.Value) : Prop :=
  record.1 ≠ none ∧ ∃ lesson, Spells record.2 lesson

/-- A document has a record that cannot be called anything, and all records in front of it are good. -/
def IsSpoiled (document : Data.Value) : Prop :=
  ∃ before value after, called document = before ++ (none, value) :: after ∧
    ∀ record ∈ before, IsGood record

/-- The section of a record, given what messages call it. -/
def calledSection (record : Option Text × Data.Value) : Except LoadError Section :=
  match record.1 with
  | none => .error (.fault .unwritableLabel)
  | some words => (sectionCalled words record.2).mapError .content

/-- The records of a document, told with the words for their identifiers. -/
theorem called_of_labelled {document : Data.Value} {records : List (Label × Data.Value)}
    (h : labelled document = .ok records) :
    called document = records.map fun record => (record.1.shown?, record.2) := by
  cases document with
  | mapping entries =>
    cases h
    simp [called, Label.shown?]
  | list items =>
    cases h
    refine List.ext_getElem? fun i => ?_
    simp [called, Label.shown?]
    rfl
  | _ => cases h

/-- A document that is no list and no mapping has no records. -/
theorem called_of_labelled_error {document : Data.Value} {error : ContentError}
    (h : labelled document = .error error) : called document = [] := by
  cases document with
  | mapping entries => cases h
  | list items => cases h
  | _ => rfl

/-- The sections of a document are read record by record; there must be one. -/
theorem sections_of_called {document : Data.Value} {records : List (Label × Data.Value)}
    (h : labelled document = .ok records) :
    sections document = (do
      let lessons ← (called document).mapM calledSection
      if lessons.isEmpty then .error (.content .noSections) else return lessons) := by
  rw [sections_of_labelled h, called_of_labelled h, List.mapM_map]
  rfl

/-- A record is read as a section iff it spells that section. -/
theorem sectionCalled_eq_ok_iff {words : Text} {value : Data.Value} {lesson : Section} :
    sectionCalled words value = .ok lesson ↔ Spells value lesson := by
  cases value with
  | mapping record =>
    rw [← Record.section?_eq_ok_iff_spells, sectionCalled]
    cases Record.section? record <;> simp
  | _ =>
    constructor
    · intro h
      cases h
    · intro h
      cases h

/-- What is said of a record that is no mapping, behind the words for its identifier. -/
theorem message_noRecord (words : Text) (kind : String) :
    (ContentError.noRecord words kind).message =
      "Section ".toList ++ words ++ [':'] ++ (" expected a mapping, got ".toList ++ kind.toList) := by
  have hcut : ": expected a mapping, got ".toList = [':'] ++ " expected a mapping, got ".toList := rfl
  have hmessage : (ContentError.noRecord words kind).message =
      "Section ".toList ++ words ++ ": expected a mapping, got ".toList ++ kind.toList := rfl
  rw [hmessage, hcut]
  simp only [List.append_assoc]

/-- What is said of a record with problems begins with the words for its identifier and their number. -/
theorem message_badRecord (words : Text) (problems : List Problem) :
    (ContentError.badRecord words problems).message =
      "Section ".toList ++ words ++ [':'] ++ (' ' :: Text.ofNat problems.length
        ++ (if problems.length = 1 then " validation error".toList else " validation errors".toList)
        ++ " for TutorialSection".toList) := by
  have hmessage : (ContentError.badRecord words problems).message =
      "Section ".toList ++ words ++ [':', ' '] ++ Text.ofNat problems.length
        ++ (if problems.length = 1 then " validation error".toList else " validation errors".toList)
        ++ " for TutorialSection".toList := rfl
  rw [hmessage]
  simp only [List.append_assoc, List.cons_append, List.nil_append]

/-- The report of a record that spells no section begins with what the record is called. -/
theorem prefix_message {words : Text} {value : Data.Value} {error : ContentError}
    (h : sectionCalled words value = .error error) :
    "Section ".toList ++ words ++ [':'] <+: error.message := by
  cases value with
  | mapping record =>
    rw [sectionCalled] at h
    split at h
    · cases h
    · cases h
      rw [message_badRecord]
      exact List.prefix_append _ _
  | _ =>
    cases h
    rw [message_noRecord]
    exact List.prefix_append _ _

/-- A record is taken iff its identifier can be written out and it spells the section. -/
theorem calledSection_eq_ok_iff {record : Option Text × Data.Value} {lesson : Section} :
    calledSection record = .ok lesson ↔ record.1 ≠ none ∧ Spells record.2 lesson := by
  obtain ⟨words?, value⟩ := record
  cases words? with
  | none => simp [calledSection]
  | some words =>
    have hspells : Spells value lesson ↔ sectionCalled words value = .ok lesson := sectionCalled_eq_ok_iff.symm
    simp only [calledSection, hspells, ne_eq, reduceCtorEq, not_false_eq_true, true_and]
    cases sectionCalled words value <;> simp [Except.mapError]

/-- A record is good iff it is taken as some section. -/
theorem isGood_iff {record : Option Text × Data.Value} :
    IsGood record ↔ ∃ lesson, calledSection record = .ok lesson := by
  simp [IsGood, calledSection_eq_ok_iff]

/-- A list is read if each of its elements is, in order. -/
theorem mapM_eq_ok_iff {α β ε : Type} {read : α → Except ε β} {list : List α} {values : List β} :
    list.mapM read = .ok values ↔ List.Forall₂ (fun a value => read a = .ok value) list values := by
  induction list generalizing values with
  | nil =>
    rw [List.mapM_nil, List.forall₂_nil_left_iff]
    exact ⟨fun h => by cases h; rfl, fun h => by rw [h]; rfl⟩
  | cons head more ih =>
    rw [List.mapM_cons, List.forall₂_cons_left_iff]
    simp only [← ih]
    cases hhead : read head with
    | error error => simp [bind, Except.bind]
    | ok value =>
      cases hmore : more.mapM read with
      | error error => simp [bind, Except.bind]
      | ok rest => simp [bind, Except.bind, pure, Except.pure, eq_comm]

/-- What is read of the records of a document decides what its sections are. -/
theorem sections_eq_of_mapM {document : Data.Value} (hne : called document ≠ []) :
    sections document = (called document).mapM calledSection := by
  cases hlabelled : labelled document with
  | error error => exact absurd (called_of_labelled_error hlabelled) hne
  | ok records =>
    rw [sections_of_called hlabelled]
    cases hread : (called document).mapM calledSection with
    | error error => rfl
    | ok lessons =>
      have hlength := (mapM_eq_ok_iff.1 hread).length_eq
      cases lessons with
      | nil => exact absurd (List.eq_nil_of_length_eq_zero hlength) hne
      | cons lesson more => rfl

/-- A document without a record is reported. -/
theorem exists_error_of_called_eq_nil {document : Data.Value} (h : called document = []) :
    ∃ error, sections document = .error (.content error) := by
  cases hlabelled : labelled document with
  | error error =>
    refine ⟨error, ?_⟩
    rw [sections, hlabelled]
    rfl
  | ok records =>
    refine ⟨.noSections, ?_⟩
    rw [sections_of_called hlabelled, h]
    rfl

/-- Only an identifier that cannot be written out breaks the reading of a record. -/
theorem calledSection_eq_fault_iff {record : Option Text × Data.Value} {fault : LoadFault} :
    calledSection record = .error (.fault fault) ↔ record.1 = none ∧ fault = .unwritableLabel := by
  obtain ⟨words?, value⟩ := record
  cases words? with
  | none => simp [calledSection, eq_comm]
  | some words =>
    simp only [calledSection]
    cases sectionCalled words value <;> simp [Except.mapError]

/-- Records are all taken iff their identifiers can be written out and each spells its section. -/
theorem forall₂_calledSection_iff {records : List (Option Text × Data.Value)} {lessons : List Section} :
    List.Forall₂ (fun record lesson => calledSection record = .ok lesson) records lessons ↔
      (∀ record ∈ records, record.1 ≠ none) ∧ List.Forall₂ Spells (records.map Prod.snd) lessons := by
  simp only [calledSection_eq_ok_iff, List.forall₂_and_left, List.forall₂_map_left_iff]

/-- A document is spoiled iff reading its sections breaks off. -/
theorem isSpoiled_iff {document : Data.Value} :
    IsSpoiled document ↔ ∃ fault, sections document = .error (.fault fault) := by
  constructor
  · rintro ⟨before, value, after, hcalled, hbefore⟩
    have hne : called document ≠ [] := by simp [hcalled]
    have hfault : calledSection (none, value) = .error (.fault .unwritableLabel) :=
      calledSection_eq_fault_iff.2 ⟨rfl, rfl⟩
    refine ⟨.unwritableLabel, ?_⟩
    rw [sections_eq_of_mapM hne, hcalled]
    exact mapM_eq_error (fun record hrecord => isGood_iff.1 (hbefore record hrecord)) hfault
  · rintro ⟨fault, hsections⟩
    have hne : called document ≠ [] := by
      intro hnil
      obtain ⟨error, herror⟩ := exists_error_of_called_eq_nil hnil
      rw [herror] at hsections
      cases hsections
    rw [sections_eq_of_mapM hne] at hsections
    obtain ⟨before, ⟨words?, value⟩, after, hcalled, hbefore, hrecord⟩ := exists_of_mapM_eq_error hsections
    obtain rfl : words? = none := (calledSection_eq_fault_iff.1 hrecord).1
    exact ⟨before, value, after, hcalled, fun record hmem => isGood_iff.2 (hbefore record hmem)⟩

/-- The first record that spells no section is reported, by what it is called. -/
theorem exists_error_of_bad {document value : Data.Value} {before after : List (Option Text × Data.Value)}
    {words : Text} (hcalled : called document = before ++ (some words, value) :: after)
    (hbefore : ∀ record ∈ before, IsGood record) (hbad : ¬∃ lesson, Spells value lesson) :
    ∃ error, sections document = .error (.content error) ∧
      "Section ".toList ++ words ++ [':'] <+: error.message := by
  have hne : called document ≠ [] := by simp [hcalled]
  cases hsection : sectionCalled words value with
  | ok lesson => exact absurd ⟨lesson, sectionCalled_eq_ok_iff.1 hsection⟩ hbad
  | error error =>
    have hrecord : calledSection (some words, value) = .error (.content error) := by
      simp only [calledSection, hsection]
      rfl
    refine ⟨error, ?_, prefix_message hsection⟩
    rw [sections_eq_of_mapM hne, hcalled]
    exact mapM_eq_error (fun record hmem => isGood_iff.1 (hbefore record hmem)) hrecord

/-- A document gives sections exactly if it has a record, all its records can be called something, and they spell
these sections in order. The report of the first record that spells no section begins with what it is called. If
that record, or one in front of it, cannot be called anything, there is a fault in place of the report, and from
every other document that gives no sections comes a report. A record that repeats no key and spells a section has
four entries. -/
theorem sections_iff_spelled (document : Data.Value) :
    (∀ lessons, sections document = .ok lessons ↔
      called document ≠ [] ∧ (∀ record ∈ called document, record.1 ≠ none) ∧
        List.Forall₂ Spells ((called document).map Prod.snd) lessons) ∧
    (∀ before words value after, called document = before ++ (some words, value) :: after →
      (∀ record ∈ before, IsGood record) → (¬∃ lesson, Spells value lesson) →
      ∃ error, sections document = .error (.content error) ∧
        "Section ".toList ++ words ++ [':'] <+: error.message) ∧
    ((∃ fault, sections document = .error (.fault fault)) ↔ IsSpoiled document) ∧
    ((¬∃ lessons, sections document = .ok lessons) → ¬IsSpoiled document →
      ∃ error, sections document = .error (.content error)) ∧
    ∀ record lesson, Spells (.mapping record) lesson → (record.map Prod.fst).Nodup → record.length = 4 := by
  refine ⟨?_, ?_, isSpoiled_iff.symm, ?_, fun record lesson => Spells.length_eq⟩
  · intro lessons
    by_cases hne : called document = []
    · obtain ⟨error, herror⟩ := exists_error_of_called_eq_nil hne
      simp [herror, hne]
    · rw [sections_eq_of_mapM hne, mapM_eq_ok_iff, forall₂_calledSection_iff]
      simp [hne]
  · intro before words value after
    exact exists_error_of_bad
  · intro hnone hsound
    cases hsections : sections document with
    | ok lessons => exact absurd ⟨lessons, hsections⟩ hnone
    | error error =>
      cases error with
      | content error => exact ⟨error, rfl⟩
      | fault fault => exact absurd (isSpoiled_iff.2 ⟨fault, hsections⟩) hsound

/-- A mapping whose only identifier is a number of more digits than can be written out, with a record that spells
a section. It gives neither sections nor a report. -/
theorem not_sections_unwritable :
    let record : Record := [(.text "title".toList, .ofText ['t']), (.text "content".toList, .ofText ['c']),
      (.text "startingCode".toList, .ofText ['s']), (.text "expect".toList, .ofText ['e'])]
    let document : Data.Value := .mapping [(.integer (10 ^ Text.digitLimit), .mapping record)]
    Spells (.mapping record) ⟨['t'], ['c'], ['s'], ['e']⟩ ∧
      ¬((∃ lessons, sections document = .ok lessons) ∨
        ∃ error, sections document = .error (.content error)) := by
  intro record document
  refine ⟨.record Field.written (fun _ => .inl rfl) (fun field => by cases field <;> rfl) ?_, ?_⟩
  · intro entry hentry
    simp only [record, List.mem_cons, List.not_mem_nil, or_false] at hentry
    rcases hentry with rfl | rfl | rfl | rfl
    · exact ⟨.title, rfl⟩
    · exact ⟨.narrative, rfl⟩
    · exact ⟨.startingCode, rfl⟩
    · exact ⟨.expectedOutput, rfl⟩
  · have hunwritable : Data.Scalar.isWritable (.integer (10 ^ Text.digitLimit)) = false := by
      simp [Data.Scalar.isWritable, Int.natAbs_pow]
    have hspoiled : IsSpoiled document :=
      ⟨[], .mapping record, [], by simp [document, called, hunwritable], by simp⟩
    obtain ⟨fault, hfault⟩ := isSpoiled_iff.1 hspoiled
    rw [hfault]
    rintro (⟨lessons, h⟩ | ⟨error, h⟩) <;> cases h

end GuidedTour.Content
