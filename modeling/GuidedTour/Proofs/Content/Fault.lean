import GuidedTour.CommandLine.Launch
import GuidedTour.Proofs.Language.Registry
import GuidedTour.Proofs.Text.Inflow
import GuidedTour.Proofs.Yaml.Building

/-!
# Tours that come to a fault

Loading a tour is answered if it ends with sections or with an error for the author of the tour
(`Content.Answered`). It is answered whatever the path leads to, unless the source has a defect of a few kinds
(`Content.Defect`): a NUL in the path, bytes that are not UTF-8, a spelling or a node of the document that asks for
what cannot be built, or the identifier of a section that cannot be written out. A launch then neither opens the
window nor reports why, which `CommandLine.launch_answered_unless_defect` puts together.
-/

set_option autoImplicit false

namespace GuidedTour

namespace Content

/-! ## Sections -/

/-- A list is read up to the first element that cannot be, and what is wrong with that one is handed on. -/
theorem mapM_eq_error {α β ε : Type} {read : α → Except ε β} {before after : List α} {a : α} {error : ε}
    (hbefore : ∀ b ∈ before, ∃ value, read b = .ok value) (ha : read a = .error error) :
    (before ++ a :: after).mapM read = .error error := by
  induction before with
  | nil =>
    rw [List.nil_append, List.mapM_cons, ha]
    rfl
  | cons b before ih =>
    obtain ⟨value, hvalue⟩ := hbefore b List.mem_cons_self
    have hmore := ih fun b hb => hbefore b (List.mem_cons_of_mem _ hb)
    rw [List.cons_append, List.mapM_cons, hvalue, hmore]
    rfl

/-- What is wrong with a list is what is wrong with its first element that cannot be read. -/
theorem exists_of_mapM_eq_error {α β ε : Type} {read : α → Except ε β} {list : List α} {error : ε}
    (h : list.mapM read = .error error) :
    ∃ before a after, list = before ++ a :: after ∧ (∀ b ∈ before, ∃ value, read b = .ok value) ∧
      read a = .error error := by
  induction list with
  | nil => cases h
  | cons head more ih =>
    rw [List.mapM_cons] at h
    cases hhead : read head with
    | error error' =>
      rw [hhead] at h
      cases h
      exact ⟨[], head, more, rfl, by simp, hhead⟩
    | ok value =>
      have hmore : more.mapM read = .error error := by
        cases hvalues : more.mapM read with
        | error error' =>
          rw [hhead, hvalues] at h
          exact h
        | ok values =>
          rw [hhead, hvalues] at h
          cases h
      obtain ⟨before, a, after, rfl, hbefore, ha⟩ := ih hmore
      refine ⟨head :: before, a, after, rfl, ?_, ha⟩
      intro b hb
      rcases List.mem_cons.1 hb with rfl | hb
      · exact ⟨value, hhead⟩
      · exact hbefore b hb

/-- A section comes to a fault exactly if its label cannot be written out. -/
theorem labelledSection_eq_fault_iff {label : Label} {value : Data.Value} {fault : LoadFault} :
    labelledSection label value = .error (.fault fault) ↔ label.shown? = none ∧ fault = .unwritableLabel := by
  unfold labelledSection
  cases label.shown? with
  | none => simp [eq_comm]
  | some words =>
    dsimp only
    cases sectionCalled words value <;> simp [Except.mapError]

/-- Only an identifier can be a label that cannot be written out. -/
theorem shown?_eq_none_iff {label : Label} :
    label.shown? = none ↔ ∃ key, label = .identifier key ∧ key.isWritable = false := by
  cases label <;> simp [Label.shown?]

/-- A section of a document has an identifier that cannot be written out, and all sections in front of it are good. -/
def SpoiledByIdentifier (document : Data.Value) : Prop :=
  ∃ before key value after, labelled document = .ok (before ++ (.identifier key, value) :: after) ∧
    (∀ record ∈ before, ∃ lesson, labelledSection record.1 record.2 = .ok lesson) ∧ key.isWritable = false

/-- The sections of a document are read from its labelled records, and there must be one. -/
theorem sections_of_labelled {document : Data.Value} {records : List (Label × Data.Value)}
    (h : labelled document = .ok records) :
    sections document = (do
      let lessons ← records.mapM fun record => labelledSection record.1 record.2
      if lessons.isEmpty then .error (.content .noSections) else return lessons) := by
  unfold sections
  rw [h]
  rfl

/-- An identifier that cannot be written out spoils the document. -/
theorem sections_of_spoiled {document : Data.Value} (h : SpoiledByIdentifier document) :
    sections document = .error (.fault .unwritableLabel) := by
  obtain ⟨before, key, value, after, hlabelled, hbefore, hkey⟩ := h
  have hfault : labelledSection (.identifier key) value = .error (.fault .unwritableLabel) :=
    labelledSection_eq_fault_iff.2 ⟨shown?_eq_none_iff.2 ⟨key, rfl, hkey⟩, rfl⟩
  rw [sections_of_labelled hlabelled, mapM_eq_error hbefore hfault]
  rfl

/-- The sections of a document are one at least, an error for its author, or a fault at an identifier. -/
theorem sections_cases (document : Data.Value) :
    (∃ lessons, sections document = .ok lessons ∧ lessons ≠ []) ∨
    (∃ error, sections document = .error (.content error)) ∨
    (sections document = .error (.fault .unwritableLabel) ∧ SpoiledByIdentifier document) := by
  cases hlabelled : labelled document with
  | error error =>
    refine .inr (.inl ⟨error, ?_⟩)
    rw [sections, hlabelled]
    rfl
  | ok records =>
    have hsections := sections_of_labelled hlabelled
    cases hread : records.mapM fun record => labelledSection record.1 record.2 with
    | ok lessons =>
      rw [hread] at hsections
      cases lessons with
      | nil => exact .inr (.inl ⟨_, hsections⟩)
      | cons lesson more => exact .inl ⟨lesson :: more, hsections, List.cons_ne_nil _ _⟩
    | error error =>
      rw [hread] at hsections
      cases error with
      | content error => exact .inr (.inl ⟨error, hsections⟩)
      | fault fault =>
        obtain ⟨before, record, after, rfl, hbefore, hrecord⟩ := exists_of_mapM_eq_error hread
        obtain ⟨hshown, rfl⟩ := labelledSection_eq_fault_iff.1 hrecord
        obtain ⟨key, hkey, hunwritable⟩ := shown?_eq_none_iff.1 hshown
        obtain ⟨label, value⟩ := record
        subst hkey
        exact .inr (.inr ⟨hsections, before, key, value, after, hlabelled, hbefore, hunwritable⟩)

/-! ## Files -/

/-- What a source has wrong with it that loading is not prepared for. -/
inductive Defect (files : Files) (source : Source) : LoadFault → Prop where
  /-- The path holds the character NUL. -/
  | nulInPath {path : Text} : source = .path path → '\x00' ∈ path → Defect files source .nulInPath
  /-- The file is not UTF-8. -/
  | notUtf8 {bytes : Text.Bytes} : source.bytes files = .ok bytes → Text.decode? bytes = none →
      Defect files source .notUtf8
  /-- The text of the file asks for what no reader can take. -/
  | misspelt {bytes : Text.Bytes} {fault : Yaml.Fault} : source.bytes files = .ok bytes →
      Yaml.Misspelt (Yaml.Incoming.ofBytes bytes).text fault → Defect files source (.unbuildable fault)
  /-- A node of the document in the file does not fit its tag. -/
  | misfit {bytes : Text.Bytes} {nodes : Yaml.Nodes} {root : Nat} {fault : Yaml.Fault} :
      source.bytes files = .ok bytes → Yaml.graphOf (.ofBytes bytes) = .ok (some (nodes, root)) →
      Yaml.Misfit nodes fault → Defect files source (.unbuildable fault)
  /-- A section of the document has an identifier that cannot be written out. -/
  | identifier {bytes : Text.Bytes} {document : Data.Value} : source.bytes files = .ok bytes →
      Yaml.valueOf depth bytes = .ok document → SpoiledByIdentifier document →
      Defect files source .unwritableLabel

variable {files : Files} {source : Source} {bytes : Text.Bytes}

/-- Finding the bytes of a source comes to a fault only over a NUL in its path. -/
theorem bytes_eq_fault {fault : LoadFault} (h : source.bytes files = .error (.fault fault)) :
    Defect files source fault := by
  cases source with
  | bundled _ => cases h
  | path path =>
    unfold Source.bytes at h
    dsimp only at h
    split at h
    · rename_i hnul
      cases h
      exact .nulInPath rfl (List.contains_iff_mem.1 hnul)
    · split at h <;> cases h

/-- Reading the document in the bytes of a source comes to a fault only if the source has the defect. -/
theorem documentOf_eq_fault {shown : Text} {fault : LoadFault} (hbytes : source.bytes files = .ok bytes)
    (h : documentOf shown bytes = .error (.fault fault)) : Defect files source fault := by
  unfold documentOf at h
  split at h
  · cases h
  · cases h
  · -- Only broken bytes stop a text in this way, and building never complains of them.
    rename_i hvalue
    cases h
    obtain hwarranted | ⟨_, _, _, hunbuilt⟩ := Yaml.valueOf_error hvalue
    · cases hwarranted with
      | stopped hstop =>
        rcases Yaml.Incoming.stop_cases hstop with hinvalid | ⟨-, hdecode⟩
        · cases hinvalid
        · exact .notUtf8 hbytes hdecode
    · cases hunbuilt
  · rename_i hvalue
    cases h
    obtain hwarranted | ⟨nodes, root, hgraph, hunbuilt⟩ := Yaml.valueOf_error hvalue
    · cases hwarranted with
      | stopped hstop => rcases Yaml.Incoming.stop_cases hstop with hinvalid | ⟨hnot, -⟩ <;> contradiction
      | misspelt hmisspelt => exact .misspelt hbytes hmisspelt
    · cases hunbuilt with
      | misfit hmisfit => exact .misfit hbytes hgraph hmisfit

/-- The document in some bytes is the value of the YAML document there. -/
theorem documentOf_eq_ok_iff {shown : Text} {document : Data.Value} :
    documentOf shown bytes = .ok document ↔ Yaml.valueOf depth bytes = .ok document := by
  unfold documentOf
  split <;> rename_i hvalue <;> simp [hvalue]

/-- Loading is answered by sections, one at least, or by an error for the author of the tour. -/
def Answered (result : Except LoadError (List Section)) : Prop :=
  (∃ lessons, result = .ok lessons ∧ lessons ≠ []) ∨ ∃ error, result = .error (.content error)

/-- What is loaded is made of the document in the bytes of the source. -/
theorem load_of_bytes (hbytes : source.bytes files = .ok bytes) :
    load files source = (documentOf source.shown bytes).bind sections := by
  unfold load
  rw [hbytes]
  rfl

/-- Loading is answered, or else it comes to a fault for which the source has the defect. -/
theorem load_cases (files : Files) (source : Source) :
    Answered (load files source) ∨
      ∃ fault, load files source = .error (.fault fault) ∧ Defect files source fault := by
  cases hbytes : source.bytes files with
  | error error =>
    have hload : load files source = .error error := by
      unfold load
      rw [hbytes]
      rfl
    cases error with
    | content error => exact .inl (.inr ⟨error, hload⟩)
    | fault fault => exact .inr ⟨fault, hload, bytes_eq_fault hbytes⟩
  | ok bytes =>
    have hload := load_of_bytes hbytes
    cases hdocument : documentOf source.shown bytes with
    | error error =>
      rw [hdocument] at hload
      cases error with
      | content error => exact .inl (.inr ⟨error, hload⟩)
      | fault fault => exact .inr ⟨fault, hload, documentOf_eq_fault hbytes hdocument⟩
    | ok document =>
      rw [hdocument] at hload
      obtain ⟨lessons, hlessons, hne⟩ | ⟨error, herror⟩ | ⟨hfault, hspoiled⟩ := sections_cases document
      · exact .inl (.inl ⟨lessons, hload.trans hlessons, hne⟩)
      · exact .inl (.inr ⟨error, hload.trans herror⟩)
      · exact .inr ⟨_, hload.trans hfault, .identifier hbytes (documentOf_eq_ok_iff.1 hdocument) hspoiled⟩

/-! ## Defects that are always met -/

/-- A NUL in the path comes before anything that the path leads to. -/
theorem load_of_nul {path : Text} (h : '\x00' ∈ path) :
    load files (.path path) = .error (.fault .nulInPath) := by
  have hbytes : (Source.path path).bytes files = .error (.fault .nulInPath) := by
    unfold Source.bytes
    exact if_pos (List.contains_iff_mem.2 h)
  unfold load
  rw [hbytes]
  rfl

/-- An identifier that cannot be written out is never passed over. -/
theorem load_of_spoiled {document : Data.Value} (hbytes : source.bytes files = .ok bytes)
    (hvalue : Yaml.valueOf depth bytes = .ok document) (h : SpoiledByIdentifier document) :
    load files source = .error (.fault .unwritableLabel) := by
  rw [load_of_bytes hbytes, documentOf_eq_ok_iff.2 hvalue]
  exact sections_of_spoiled h

/-- Bytes that are broken in the first portion are looked at before anything else. -/
theorem load_of_broken (hbytes : source.bytes files = .ok bytes)
    (h : Text.decodePart? (bytes.take Text.Inflow.leastPortion) = none) :
    load files source = .error (.fault .notUtf8) := by
  have hgraph : Yaml.graphOf (.ofBytes bytes) = .error .notUtf8 := by
    rw [Yaml.Incoming.ofBytes_of_broken h]
    rfl
  have hvalue : Yaml.valueOf depth bytes = .error .notUtf8 := by
    unfold Yaml.valueOf
    rw [hgraph]
    rfl
  have hdocument : documentOf source.shown bytes = .error (.fault .notUtf8) := by
    unfold documentOf
    rw [hvalue]
  rw [load_of_bytes hbytes, hdocument]
  rfl

end Content

/-! ## Launches -/

namespace CommandLine

/-- The language of the tour is registered at every launch. -/
theorem exists_ensure (rules : List (Rule Pattern)) :
    ∃ accepted, Registry.empty.ensure rules = .ok accepted ∧
      accepted.registered.language = ⟨Language.tourId, rules, Theme.ofPairs Theme.standard⟩ := by
  have hfree : (Registry.empty : Registry Pattern).find? Language.tourId = none := rfl
  obtain ⟨logs, hregister⟩ := Registry.register_free (Theme.missing_standard rules) hfree
  exact ⟨_, hregister, rfl⟩

/-- A fault of loading is the end of a launch. -/
theorem ending_of_fault {options : Options} {files : Content.Files} {fault : Content.LoadFault}
    (families : List String) (h : Content.load files options.content = .error (.fault fault)) :
    (launch options files families).ending = .broken fault := by
  obtain ⟨accepted, haccepted, -⟩ := exists_ensure options.rules
  unfold launch
  simp only [haccepted, h]

/-- A launch opens the window of the sections that were loaded, or it reports the error that came of loading and ends
with the status one. Otherwise it comes to a fault, and the source of the tour has the defect. A NUL in the path and an
identifier that cannot be written out always break a launch. -/
theorem launch_answered_unless_defect (options : Options) (files : Content.Files) (families : List String) :
    ((∃ lessons, Content.load files options.content = .ok lessons ∧ lessons ≠ [] ∧
      (launch options files families).ending = .opened (Tour.Window.ofSections
        ⟨Language.tourId, options.rules, Theme.ofPairs Theme.standard⟩ families lessons) ∧
      (launch options files families).ending.status? = some 0) ∨
    (∃ error, Content.load files options.content = .error (.content error) ∧
      (launch options files families).ending = .refused error ∧
      (launch options files families).ending.status? = some 1 ∧
      (launch options files families).logs.getLast? = some (cannotStartLog error)) ∨
    ∃ fault, Content.load files options.content = .error (.fault fault) ∧
      (launch options files families).ending = .broken fault ∧
      Content.Defect files options.content fault) ∧
    (∀ path, options.content = .path path → '\x00' ∈ path →
      (launch options files families).ending = .broken .nulInPath) ∧
    ∀ bytes document, options.content.bytes files = .ok bytes →
      Yaml.valueOf Content.depth bytes = .ok document → Content.SpoiledByIdentifier document →
      (launch options files families).ending = .broken .unwritableLabel := by
  obtain ⟨accepted, haccepted, hlanguage⟩ := exists_ensure options.rules
  refine ⟨?_, fun path hpath hnul => ending_of_fault families ?_, fun bytes document hbytes hvalue hspoiled =>
    ending_of_fault families (Content.load_of_spoiled hbytes hvalue hspoiled)⟩
  · obtain (⟨lessons, hload, hne⟩ | ⟨error, hload⟩) | ⟨fault, hload, hdefect⟩ :=
      Content.load_cases files options.content
    · have hending : (launch options files families).ending = .opened (Tour.Window.ofSections
          ⟨Language.tourId, options.rules, Theme.ofPairs Theme.standard⟩ families lessons) := by
        unfold launch
        simp only [haccepted, hload, openTour, hlanguage]
      exact .inl ⟨lessons, hload, hne, hending, by rw [hending]; rfl⟩
    · have hlaunch : launch options files families =
          ⟨accepted.logs ++ [cannotStartLog error], .refused error⟩ := by
        unfold launch
        simp only [haccepted, hload]
      refine .inr (.inl ⟨error, hload, ?_⟩)
      rw [hlaunch]
      exact ⟨rfl, rfl, List.getLast?_concat⟩
    · exact .inr (.inr ⟨fault, hload, ending_of_fault families hload, hdefect⟩)
  · rw [hpath]
    exact Content.load_of_nul hnul

/-- The tour at a path is a file of one byte that begins no character. Loading it is not answered, and the launch
ends without a status. -/
theorem not_answered_broken :
    ¬Content.Answered (Content.load (fun _ => .ok [0xff]) (.path "tut.yml".toList)) ∧
      (launch { Options.standard "default.yml".toList with content := .path "tut.yml".toList }
        (fun _ => .ok [0xff]) []).ending.status? = none := by
  have hbroken : Text.decodePart? (List.take Text.Inflow.leastPortion [0xff]) = none := by
    rw [Text.Inflow.leastPortion, List.take_succ_cons, List.take_nil, Text.decodePart?]
    rfl
  have hload : Content.load (fun _ => .ok [0xff]) (.path "tut.yml".toList) = .error (.fault .notUtf8) :=
    Content.load_of_broken rfl hbroken
  constructor
  · rw [hload]
    rintro (⟨lessons, h, -⟩ | ⟨error, h⟩) <;> cases h
  · rw [ending_of_fault [] hload]
    rfl

end CommandLine

end GuidedTour
