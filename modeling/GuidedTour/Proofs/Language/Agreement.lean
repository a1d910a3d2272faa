import GuidedTour.Proofs.Language.Registry

/-!
# Agreement with an earlier registration

Colours are given as a list of pairs, in which a later pair overrides an earlier one. What counts of such a list
is the colour it gives to each class (`Theme.SameColours`): the theme that is kept is in the order of the labels
and holds each class once, so two lists give the same theme exactly if they give every class the same colour
(`Theme.ofPairs_eq_iff`). Whoever registers a language under an identifier that is taken gets the earlier
registration if rules and colours agree, and otherwise one of two refusals (`Registry.register_taken`). The
refusal for colours that are missing comes first, and it names their classes in ascending order.
-/

set_option autoImplicit false

namespace GuidedTour

variable {α κ : Type}

/-! ## Themes as maps -/

namespace Theme

/-- Two lists of pairs give every class the same colour, or both give it none. -/
def SameColours (first second : List (TokenClass × Colour)) : Prop :=
  ∀ cls, lastColour? first cls = lastColour? second cls

/-- A list of pairs gives a colour to every class that some rules can produce. -/
def Covers (pairs : List (TokenClass × Colour)) (rules : List (Rule α)) : Prop :=
  ∀ cls ∈ Rule.produced rules, lastColour? pairs cls ≠ none

/-- The theme of a list of pairs depends on the colours of the classes alone, and it tells them. -/
theorem ofPairs_eq_iff {first second : List (TokenClass × Colour)} :
    ofPairs first = ofPairs second ↔ SameColours first second := by
  constructor
  · intro h cls
    rw [← colour?_ofPairs first, ← colour?_ofPairs second, h]
  · intro h
    unfold ofPairs
    congr 1
    funext cls
    rw [h cls]

/-- A class is missing a colour if the rules can give it and the pairs give it none. -/
theorem mem_missing_iff {pairs : List (TokenClass × Colour)} {rules : List (Rule α)} {cls : TokenClass} :
    cls ∈ (ofPairs pairs).missing rules ↔ cls ∈ Rule.produced rules ∧ lastColour? pairs cls = none := by
  simp [missing, colour?_ofPairs]

/-- No class is missing a colour exactly if the pairs cover the rules. -/
theorem missing_eq_nil_iff_covers {pairs : List (TokenClass × Colour)} {rules : List (Rule α)} :
    (ofPairs pairs).missing rules = [] ↔ Covers pairs rules := by
  simp only [List.eq_nil_iff_forall_not_mem, mem_missing_iff, Covers, not_and, ne_eq]

end Theme

/-! ## Names of classes -/

namespace TokenClass

/-- In the order of the labels the names ascend too. -/
theorem ascending_names_byLabel : byLabel.Pairwise fun a b => a.name < b.name := by decide

/-- However classes come, their names are listed in ascending order. -/
theorem ascending_names_listed (classes : List TokenClass) :
    ((listed classes).map name).Pairwise (· < ·) := by
  rw [List.pairwise_map]
  exact ascending_names_byLabel.filter _

/-- The names of some classes are joined with commas. -/
theorem names_eq (classes : List TokenClass) :
    names classes = Text.join [',', ' '] (((listed classes).map name).map String.toList) := by
  rw [names, List.map_map]
  rfl

/-- The classes that are listed are those that were given. -/
theorem mem_listed_iff {classes : List TokenClass} {cls : TokenClass} :
    cls ∈ listed classes ↔ cls ∈ classes := by
  simp [listed, mem_byLabel]

end TokenClass

namespace Registry

/-! ## Registering under an identifier that is taken -/

section

variable {registry : Registry α} {id : Text} {held : Registered α} {rules again : List (Rule α)}
  {pairs changed : List (TokenClass × Colour)}

/-- A language is the one asked for exactly if the rules are the same and every class has the same colour. -/
theorem language_eq_iff (hlanguage : held.language = ⟨id, rules, Theme.ofPairs pairs⟩) :
    held.language = ⟨id, again, Theme.ofPairs changed⟩ ↔ again = rules ∧ Theme.SameColours pairs changed := by
  rw [hlanguage, Language.mk.injEq, Theme.ofPairs_eq_iff]
  constructor
  · rintro ⟨-, rfl, hsame⟩
    exact ⟨rfl, hsame⟩
  · rintro ⟨rfl, hsame⟩
    exact ⟨rfl, rfl, hsame⟩

/-- A refusal for missing colours lists the names of their classes. -/
theorem message_missingColours (id : Text) (pairs : List (TokenClass × Colour)) (rules : List (Rule α)) :
    ∃ names : List String, names.Pairwise (· < ·) ∧
      (∀ name, name ∈ names ↔
        ∃ cls ∈ Rule.produced rules, Theme.lastColour? pairs cls = none ∧ cls.name = name) ∧
      (RegistrationError.missingColours id ((Theme.ofPairs pairs).missing rules)).message =
        "Theme for ".toList ++ Text.quoted id ++ " has no colour for: ".toList
          ++ Text.join [',', ' '] (names.map String.toList) := by
  refine ⟨(TokenClass.listed ((Theme.ofPairs pairs).missing rules)).map TokenClass.name,
    TokenClass.ascending_names_listed _, ?_, ?_⟩
  · intro name
    simp only [List.mem_map, TokenClass.mem_listed_iff, Theme.mem_missing_iff, and_assoc]
  · rw [← TokenClass.names_eq]
    rfl

variable [DecidableEq α] [Matching α κ]

/-- Colours that do not cover the rules are refused first of all. -/
theorem reply_register_incomplete (hincomplete : ¬Theme.Covers changed again) :
    (registry.answer (.register id again changed)).reply =
      .error (.missingColours id ((Theme.ofPairs changed).missing again)) := by
  rw [answer, register_incomplete (mt Theme.missing_eq_nil_iff_covers.1 hincomplete)]
  rfl

/-- The same language again gets the registration that is there. -/
theorem reply_register_again (hfind : registry.find? id = some held)
    (hsame : held.language = ⟨id, again, Theme.ofPairs changed⟩) (hcovers : Theme.Covers changed again) :
    (registry.answer (.register id again changed)).reply = .ok (.registered held) := by
  obtain ⟨logs, hregister⟩ := register_again (Theme.missing_eq_nil_iff_covers.2 hcovers) hfind hsame
  rw [answer, hregister]
  rfl

/-- Another language under a taken identifier is refused. -/
theorem reply_register_conflict (hfind : registry.find? id = some held)
    (hother : held.language ≠ ⟨id, again, Theme.ofPairs changed⟩) (hcovers : Theme.Covers changed again) :
    (registry.answer (.register id again changed)).reply = .error (.conflict id) := by
  rw [answer, register_conflict (Theme.missing_eq_nil_iff_covers.2 hcovers) hfind hother]
  rfl

/-- Under an identifier that is taken, the registration that is there is handed out exactly if the new colours
cover the new rules, the rules are the same in the same order and every class has the same colour. Colours that
do not cover the rules are refused first of all, with the names of the classes that have none, and what else
does not agree is refused as another grammar. -/
theorem register_taken (hfind : registry.find? id = some held)
    (hlanguage : held.language = ⟨id, rules, Theme.ofPairs pairs⟩) (again : List (Rule α))
    (changed : List (TokenClass × Colour)) :
    ((registry.answer (.register id again changed)).reply = .ok (.registered held) ↔
      Theme.Covers changed again ∧ again = rules ∧ Theme.SameColours pairs changed) ∧
    (¬Theme.Covers changed again → ∃ names : List String, ∃ error, names.Pairwise (· < ·) ∧
      (∀ name, name ∈ names ↔
        ∃ cls ∈ Rule.produced again, Theme.lastColour? changed cls = none ∧ cls.name = name) ∧
      (registry.answer (.register id again changed)).reply = .error error ∧
      error.message = "Theme for ".toList ++ Text.quoted id ++ " has no colour for: ".toList
        ++ Text.join [',', ' '] (names.map String.toList)) ∧
    (Theme.Covers changed again → ¬(again = rules ∧ Theme.SameColours pairs changed) →
      ∃ error, (registry.answer (.register id again changed)).reply = .error error ∧
        error.message = "Language ".toList ++ Text.quoted id
          ++ " is already registered with a different grammar".toList) := by
  have hagree : held.language = ⟨id, again, Theme.ofPairs changed⟩ ↔
      again = rules ∧ Theme.SameColours pairs changed := language_eq_iff hlanguage
  refine ⟨⟨?_, ?_⟩, ?_, ?_⟩
  · intro hreply
    by_cases hcovers : Theme.Covers changed again
    · refine ⟨hcovers, hagree.1 ?_⟩
      by_contra hother
      rw [reply_register_conflict hfind hother hcovers] at hreply
      cases hreply
    · rw [reply_register_incomplete hcovers] at hreply
      cases hreply
  · rintro ⟨hcovers, hsame⟩
    exact reply_register_again hfind (hagree.2 hsame) hcovers
  · intro hincomplete
    obtain ⟨names, hascending, hnames, hmessage⟩ := message_missingColours id changed again
    exact ⟨names, _, hascending, hnames, reply_register_incomplete hincomplete, hmessage⟩
  · intro hcovers hother
    exact ⟨_, reply_register_conflict hfind (mt hagree.1 hother) hcovers, rfl⟩

end

/-- The language of the tour is registered again with its colours in the opposite order, in front of which the
colon is given a colour that is overridden. -/
theorem register_taken_reordered :
    let registry := empty.after [.register Language.tourId Rule.standard Theme.standard]
    let changed := (.colon, "#000000") :: Theme.standard.reverse
    registry.find? Language.tourId = some ⟨0, ⟨Language.tourId, Rule.standard, Theme.ofPairs Theme.standard⟩⟩ ∧
      (registry.answer (.register Language.tourId Rule.standard changed)).reply =
        .ok (.registered ⟨0, ⟨Language.tourId, Rule.standard, Theme.ofPairs Theme.standard⟩⟩) := by
  intro registry changed
  have hfind : registry.find? Language.tourId =
      some ⟨0, ⟨Language.tourId, Rule.standard, Theme.ofPairs Theme.standard⟩⟩ := by decide
  have hcolours : Theme.SameColours Theme.standard changed := by
    intro cls
    cases cls <;> rfl
  have hcovers : Theme.Covers changed Rule.standard := by
    intro cls _
    rw [← hcolours]
    cases cls <;> decide
  exact ⟨hfind, (register_taken hfind rfl Rule.standard changed).1.2 ⟨hcovers, rfl, hcolours⟩⟩

end Registry

end GuidedTour
