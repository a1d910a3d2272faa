import GuidedTour.Language.Registry
import Mathlib.Data.List.Induction

/-!
# What a registry keeps

A registry only grows. A request either leaves it as it is, whether it is answered or refused, or it adds one
sound language under an identifier that is free (`Registry.answer_cases`). From this follows that an identifier
keeps the language of its first registration through every run of requests, and that the same registration is
handed out ever after (`Registry.keeps_first_registration`).
-/

set_option autoImplicit false

namespace GuidedTour

variable {α κ : Type}

/-! ## Languages that a registry accepts -/

/-- A theme is in order and colours whatever the rules can produce. -/
structure Language.Sound (language : Language α) : Prop where
  /-- The labels of the theme ascend strictly. -/
  ascending : language.theme.Pairwise fun a b => a.1.label < b.1.label
  /-- No class occurs twice in the theme. -/
  distinct : (language.theme.map Prod.fst).Nodup
  /-- Every class that the rules can give to a token has a colour. -/
  coloured : ∀ cls ∈ Rule.produced language.rules, ∃ colour, language.colour? cls = some colour
  /-- What no rule matches has a colour. -/
  leftOver : ∃ colour, language.colour? .unclassified = some colour

/-- The classes of tokens are those of the rules and that of what is left over. -/
theorem Rule.mem_produced_iff {rules : List (Rule α)} {cls : TokenClass} :
    cls ∈ produced rules ↔ cls = .unclassified ∨ ∃ rule ∈ rules, rule.cls = cls := by
  simp [produced, TokenClass.mem_byLabel]

namespace Theme

/-- The order of the labels is strict. -/
theorem ascending_byLabel : TokenClass.byLabel.Pairwise fun a b => a.label < b.label := by decide

/-- A theme made from pairs is in the order of the labels. -/
theorem ascending_ofPairs (pairs : List (TokenClass × Colour)) :
    (ofPairs pairs).Pairwise fun a b => a.1.label < b.1.label := by
  unfold ofPairs
  rw [List.pairwise_filterMap]
  apply ascending_byLabel.imp
  intro a b hab x hx y hy
  obtain ⟨_, _, rfl⟩ := Option.map_eq_some_iff.1 hx
  obtain ⟨_, _, rfl⟩ := Option.map_eq_some_iff.1 hy
  exact hab

/-- No class is missing a colour exactly if each that the rules can give has one. -/
theorem missing_eq_nil_iff {theme : Theme} {rules : List (Rule α)} :
    theme.missing rules = [] ↔ ∀ cls ∈ Rule.produced rules, ∃ colour, theme.colour? cls = some colour := by
  simp [missing, List.filter_eq_nil_iff, Option.ne_none_iff_exists']

/-- The theme of the tour colours every class. -/
theorem missing_standard (rules : List (Rule α)) : (ofPairs standard).missing rules = [] := by
  rw [missing_eq_nil_iff]
  intro cls _
  cases cls <;> exact ⟨_, rfl⟩

end Theme

/-- A language whose colours are complete is sound. -/
theorem Language.sound_ofPairs {id : Text} {rules : List (Rule α)} {colours : List (TokenClass × Colour)}
    (h : (Theme.ofPairs colours).missing rules = []) :
    Sound ⟨id, rules, Theme.ofPairs colours⟩ := by
  have hascending := Theme.ascending_ofPairs colours
  have hcoloured := Theme.missing_eq_nil_iff.1 h
  refine ⟨hascending, ?_, hcoloured, ?_⟩
  · rw [List.Nodup, List.pairwise_map]
    apply hascending.imp
    intro a b hab he
    rw [he] at hab
    exact String.lt_irrefl _ hab
  · exact hcoloured _ (Rule.mem_produced_iff.2 (.inl rfl))

namespace Registry

/-! ## Identifiers -/

/-- A language that is added at the end is found under its identifier if that was free. -/
theorem find?_concat (languages : List (Language α)) (language : Language α) (id : Text) :
    find? ⟨languages ++ [language]⟩ id =
      (find? ⟨languages⟩ id).or
        (if language.id = id then some ⟨languages.length, language⟩ else none) := by
  unfold find?
  rw [List.zipIdx_append, List.find?_append, Option.map_or]
  congr 1
  by_cases h : language.id = id
  · simp [h]
  · simp [h]

/-- A registration that is found has the identifier, and its number is its place. -/
theorem find?_eq_some {registry : Registry α} {id : Text} {found : Registered α}
    (h : registry.find? id = some found) :
    registry.languages[found.number]? = some found.language ∧ found.language.id = id := by
  obtain ⟨⟨language, number⟩, hfind, rfl⟩ := Option.map_eq_some_iff.1 h
  have hmem := List.mem_of_find?_eq_some hfind
  have hid := List.find?_some hfind
  exact ⟨List.mem_zipIdx_iff_getElem?.1 hmem, by simpa using hid⟩

/-! ## Requests -/

/-- The identifier that a request is about. -/
def Request.id : Request α → Text
  | .register id _ _ => id
  | .ensure _ => Language.tourId
  | .get id => id
  | .isRegistered id => id
  | .grammar id => id
  | .colours id => id
  | .colour id _ => id
  | .tokens id _ => id

/-- The language that a request asks to have registered. A question asks for none. -/
def Request.language? : Request α → Option (Language α)
  | .register id rules pairs => some ⟨id, rules, Theme.ofPairs pairs⟩
  | .ensure rules => some ⟨Language.tourId, rules, Theme.ofPairs Theme.standard⟩
  | _ => none

/-- The language that is asked for has the identifier of the request. -/
theorem Request.id_of_language? {request : Request α} {language : Language α}
    (h : request.language? = some language) : language.id = request.id := by
  cases request with
  | register id rules colours =>
    cases h
    rfl
  | ensure rules =>
    cases h
    rfl
  | _ => cases h

variable [DecidableEq α] [Matching α κ]

/-- A request adds its language to a registry. -/
structure Adds (registry : Registry α) (request : Request α) (language : Language α) : Prop where
  asked : request.language? = some language
  sound : language.Sound
  free : registry.find? language.id = none
  reply : (registry.answer request).reply = .ok (.registered ⟨registry.languages.length, language⟩)
  grown : (registry.answer request).registry = ⟨registry.languages ++ [language]⟩

/-- A request leaves a registry as it is and hands out no registration but one that is there. -/
structure Leaves (registry : Registry α) (request : Request α) : Prop where
  unchanged : (registry.answer request).registry = registry
  reply : ∀ found, (registry.answer request).reply = .ok (.registered found) →
    registry.find? request.id = some found

section

variable {registry : Registry α} {id : Text} {rules : List (Rule α)} {pairs : List (TokenClass × Colour)}

/-- Colours that leave a class out are refused, whatever is registered. -/
theorem register_incomplete (hmissing : (Theme.ofPairs pairs).missing rules ≠ []) :
    registry.register id rules pairs =
      .error (.missingColours id ((Theme.ofPairs pairs).missing rules)) := by
  simp [register, hmissing]

/-- Under a free identifier a complete language is added at the end. -/
theorem register_free (hmissing : (Theme.ofPairs pairs).missing rules = [])
    (hfree : registry.find? id = none) :
    ∃ logs, registry.register id rules pairs =
      .ok ⟨⟨registry.languages.length, ⟨id, rules, Theme.ofPairs pairs⟩⟩,
        ⟨registry.languages ++ [⟨id, rules, Theme.ofPairs pairs⟩]⟩, logs⟩ := by
  simp [register, hmissing, hfree]

/-- The same language again changes nothing and gets the registration that is there. -/
theorem register_again (hmissing : (Theme.ofPairs pairs).missing rules = []) {held : Registered α}
    (hfind : registry.find? id = some held) (hsame : held.language = ⟨id, rules, Theme.ofPairs pairs⟩) :
    ∃ logs, registry.register id rules pairs = .ok ⟨held, registry, logs⟩ := by
  simp [register, hmissing, hfind, hsame]

/-- Another language under a taken identifier is refused. -/
theorem register_conflict (hmissing : (Theme.ofPairs pairs).missing rules = []) {held : Registered α}
    (hfind : registry.find? id = some held) (hother : held.language ≠ ⟨id, rules, Theme.ofPairs pairs⟩) :
    registry.register id rules pairs = .error (.conflict id) := by
  simp [register, hmissing, hfind, hother]

/-- A registration that is refused leaves the registry as it is. -/
theorem leaves_of_register_error {e : RegistrationError} (h : registry.register id rules pairs = .error e) :
    registry.Leaves (.register id rules pairs) := by
  have hanswer : registry.answer (.register id rules pairs) = ⟨.error e, registry, []⟩ := by
    rw [answer, h]
    rfl
  refine ⟨by rw [hanswer], ?_⟩
  intro found hreply
  rw [hanswer] at hreply
  cases hreply

end

/-- A registration leaves the registry as it is or adds its language. -/
theorem answer_register_cases (registry : Registry α) (id : Text) (rules : List (Rule α))
    (pairs : List (TokenClass × Colour)) :
    registry.Leaves (.register id rules pairs) ∨
      registry.Adds (.register id rules pairs) ⟨id, rules, Theme.ofPairs pairs⟩ := by
  by_cases hmissing : (Theme.ofPairs pairs).missing rules = []
  · cases hfind : registry.find? id with
    | none =>
      right
      obtain ⟨logs, hregister⟩ := register_free hmissing hfind
      refine ⟨rfl, Language.sound_ofPairs hmissing, hfind, ?_, ?_⟩
      · rw [answer, hregister]
        rfl
      · rw [answer, hregister]
        rfl
    | some held =>
      left
      by_cases hsame : held.language = ⟨id, rules, Theme.ofPairs pairs⟩
      · obtain ⟨logs, hregister⟩ := register_again hmissing hfind hsame
        refine ⟨by rw [answer, hregister]; rfl, ?_⟩
        intro found hreply
        rw [answer, hregister] at hreply
        cases hreply
        exact hfind
      · exact leaves_of_register_error (register_conflict hmissing hfind hsame)
  · left
    exact leaves_of_register_error (register_incomplete hmissing)

/-- The tour's own request registers its language where the identifier is free, and otherwise hands out what
is there. -/
theorem answer_ensure (registry : Registry α) (rules : List (Rule α)) :
    (∃ held, registry.find? Language.tourId = some held ∧
      registry.answer (.ensure rules) = ⟨.ok (.registered held), registry, []⟩) ∨
    registry.find? Language.tourId = none ∧
      registry.answer (.ensure rules) =
        registry.answer (.register Language.tourId rules Theme.standard) := by
  cases hfind : registry.find? Language.tourId with
  | some held => exact .inl ⟨held, rfl, by simp [answer, ensure, hfind, registering]⟩
  | none => exact .inr ⟨rfl, by simp [answer, ensure, hfind]⟩

/-- A question leaves the registry as it is. -/
theorem leaves_asking {registry : Registry α} {request : Request α} {id : Text} {reply : Registered α → Reply α}
    (hanswer : registry.answer request = asking registry id reply)
    (hreply : ∀ held found, reply held = .registered found →
      registry.find? id = some held → registry.find? request.id = some found) :
    registry.Leaves request := by
  refine ⟨by rw [hanswer]; rfl, ?_⟩
  intro found h
  rw [hanswer] at h
  cases hfind : registry.find? id with
  | none => simp [asking, get, hfind, Except.map] at h
  | some held =>
    simp [asking, get, hfind, Except.map] at h
    exact hreply held found h hfind

/-- A request leaves a registry as it is or adds its language. -/
theorem answer_cases (registry : Registry α) (request : Request α) :
    registry.Leaves request ∨ ∃ language, registry.Adds request language := by
  cases request with
  | register id rules pairs =>
    obtain hleaves | hadds := registry.answer_register_cases id rules pairs
    · exact .inl hleaves
    · exact .inr ⟨_, hadds⟩
  | ensure rules =>
    obtain ⟨held, hfind, hanswer⟩ | ⟨hfree, hanswer⟩ := registry.answer_ensure rules
    · left
      refine ⟨by rw [hanswer], ?_⟩
      intro found hreply
      rw [hanswer] at hreply
      cases hreply
      exact hfind
    · obtain hleaves | hadds := registry.answer_register_cases Language.tourId rules Theme.standard
      · left
        refine ⟨?_, ?_⟩
        · rw [hanswer]
          exact hleaves.unchanged
        · rw [hanswer]
          exact hleaves.reply
      · right
        refine ⟨_, rfl, hadds.sound, hadds.free, ?_, ?_⟩
        · rw [hanswer]
          exact hadds.reply
        · rw [hanswer]
          exact hadds.grown
  | get id =>
    left
    apply leaves_asking rfl
    intro held found he hfind
    cases he
    exact hfind
  | isRegistered id =>
    left
    refine ⟨rfl, ?_⟩
    intro found hreply
    cases hreply
  | _ =>
    left
    apply leaves_asking rfl
    intro held found he
    cases he

/-- A request that is refused leaves the registry as it is. -/
theorem registry_of_error {registry : Registry α} {request : Request α} {e : RegistrationError}
    (h : (registry.answer request).reply = .error e) : (registry.answer request).registry = registry := by
  obtain hleaves | ⟨language, hadds⟩ := registry.answer_cases request
  · exact hleaves.unchanged
  · rw [hadds.reply] at h
    cases h

/-- A request leaves what is known under other identifiers. -/
theorem find?_answer_of_ne {registry : Registry α} {request : Request α} {id : Text} (h : id ≠ request.id) :
    (registry.answer request).registry.find? id = registry.find? id := by
  obtain hleaves | ⟨language, hadds⟩ := registry.answer_cases request
  · rw [hleaves.unchanged]
  · have hne : language.id ≠ id := by
      rw [Request.id_of_language? hadds.asked]
      exact h.symm
    rw [hadds.grown, find?_concat, if_neg hne, Option.or_none]

/-- What is known under an identifier stays known through a request. -/
theorem find?_answer {registry : Registry α} {id : Text} {found : Registered α} (request : Request α)
    (h : registry.find? id = some found) : (registry.answer request).registry.find? id = some found := by
  obtain hleaves | ⟨language, hadds⟩ := registry.answer_cases request
  · rw [hleaves.unchanged]
    exact h
  · rw [hadds.grown, find?_concat, h, Option.some_or]

/-- A language that is added is found under its identifier, at the end of the registry. -/
theorem Adds.find? {registry : Registry α} {request : Request α} {language : Language α}
    (h : registry.Adds request language) :
    (registry.answer request).registry.find? language.id = some ⟨registry.languages.length, language⟩ := by
  rw [h.grown, find?_concat, h.free, if_pos rfl, Option.none_or]

/-- A registration that is handed out is there afterwards. -/
theorem find?_of_reply {registry : Registry α} {request : Request α} {found : Registered α}
    (h : (registry.answer request).reply = .ok (.registered found)) :
    (registry.answer request).registry.find? request.id = some found := by
  obtain hleaves | ⟨language, hadds⟩ := registry.answer_cases request
  · rw [hleaves.unchanged]
    exact hleaves.reply found h
  · rw [hadds.reply] at h
    cases h
    rw [← Request.id_of_language? hadds.asked]
    exact hadds.find?

/-- A language that is coloured completely is accepted under an identifier that is free. -/
theorem exists_reply_register {registry : Registry α} {id : Text} {rules : List (Rule α)}
    {pairs : List (TokenClass × Colour)} (hfree : registry.find? id = none)
    (hmissing : (Theme.ofPairs pairs).missing rules = []) :
    ∃ found, (registry.answer (.register id rules pairs)).reply = .ok (.registered found) := by
  obtain ⟨logs, hregister⟩ := register_free hmissing hfree
  refine ⟨⟨registry.languages.length, ⟨id, rules, Theme.ofPairs pairs⟩⟩, ?_⟩
  rw [answer, hregister]
  rfl

/-- The tour's own request is never refused. -/
theorem exists_reply_ensure (registry : Registry α) (rules : List (Rule α)) :
    ∃ found, (registry.answer (.ensure rules)).reply = .ok (.registered found) := by
  obtain ⟨held, -, hanswer⟩ | ⟨hfree, hanswer⟩ := registry.answer_ensure rules
  · exact ⟨held, by rw [hanswer]⟩
  · rw [hanswer]
    exact exists_reply_register hfree (Theme.missing_standard rules)

/-- A registration is what a registry holds under an identifier: whoever asks for it, or registers it again
with success, gets it. -/
structure Holds (registry : Registry α) (id : Text) (found : Registered α) : Prop where
  held : registry.find? id = some found
  get : (registry.answer (.get id)).reply = .ok (.registered found)
  register : ∀ rules pairs reply,
    (registry.answer (.register id rules pairs)).reply = .ok reply → reply = .registered found
  ensure : id = Language.tourId →
    ∀ rules, (registry.answer (.ensure rules)).reply = .ok (.registered found)

/-- What is known under an identifier is what the registry holds there. -/
theorem holds_of_find? {registry : Registry α} {id : Text} {found : Registered α}
    (h : registry.find? id = some found) : registry.Holds id found := by
  refine ⟨h, ?_, ?_, ?_⟩
  · simp [answer, asking, Registry.get, h, Except.map]
  · intro rules pairs reply hreply
    simp only [answer, Registry.register, h] at hreply
    split at hreply
    · cases hreply
    · split at hreply
      · cases hreply
        rfl
      · cases hreply
  · rintro rfl rules
    simp [answer, Registry.ensure, h, registering]

/-! ## Runs of requests -/

/-- The registry after some requests, one after another. -/
def after (registry : Registry α) (requests : List (Request α)) : Registry α :=
  requests.foldl (fun registry request => (registry.answer request).registry) registry

/-- The last request is answered in the registry after those before it. -/
theorem after_concat (registry : Registry α) (requests : List (Request α)) (request : Request α) :
    registry.after (requests ++ [request]) = ((registry.after requests).answer request).registry := by
  rw [after, List.foldl_append]
  rfl

/-- What is known under an identifier stays known through every run. -/
theorem find?_after {registry : Registry α} {id : Text} {found : Registered α} (requests : List (Request α))
    (h : registry.find? id = some found) : (registry.after requests).find? id = some found := by
  induction requests generalizing registry with
  | nil => exact h
  | cons request more ih => exact ih (find?_answer request h)

/-- The languages of a registry are sound, and each is found under its own identifier, by its place. -/
structure Sound (registry : Registry α) : Prop where
  sound : ∀ language ∈ registry.languages, language.Sound
  keyed : ∀ id found, registry.find? id = some found →
    found.language.id = id ∧ registry.languages[found.number]? = some found.language
  reached : ∀ number language, registry.languages[number]? = some language →
    registry.find? language.id = some ⟨number, language⟩

/-- A request keeps the registry sound. -/
theorem sound_answer {registry : Registry α} (request : Request α) (h : registry.Sound) :
    (registry.answer request).registry.Sound := by
  obtain hleaves | ⟨language, hadds⟩ := registry.answer_cases request
  · rw [hleaves.unchanged]
    exact h
  · refine ⟨?_, ?_, ?_⟩
    · rw [hadds.grown]
      intro other hother
      rcases List.mem_append.1 hother with hother | hother
      · exact h.sound other hother
      · rw [List.mem_singleton.1 hother]
        exact hadds.sound
    · intro id found hfound
      exact (find?_eq_some hfound).symm
    · intro number other hother
      rw [hadds.grown, List.getElem?_append] at hother
      split at hother
      · exact find?_answer request (h.reached number other hother)
      · rename_i hlast
        obtain ⟨hnumber, rfl⟩ : number = registry.languages.length ∧ language = other := by
          rw [List.getElem?_singleton] at hother
          split at hother
          · exact ⟨by omega, Option.some.inj hother⟩
          · cases hother
        rw [hnumber]
        exact hadds.find?

/-- Every run on an empty registry keeps it sound. -/
theorem sound_after (requests : List (Request α)) : (empty.after requests).Sound := by
  induction requests using List.reverseRecOn with
  | nil =>
    refine ⟨?_, ?_, ?_⟩
    · intro language h
      cases h
    · intro id found h
      cases h
    · intro number language h
      cases h
  | append_singleton requests request ih =>
    rw [after_concat]
    exact sound_answer request ih

/-- A registration of a run was made by one of its requests, under an identifier that was free. -/
theorem exists_origin {requests : List (Request α)} {id : Text} {found : Registered α}
    (h : (empty.after requests).find? id = some found) :
    ∃ earlier request later, requests = earlier ++ request :: later ∧
      (empty.after earlier).find? id = none ∧ request.language? = some found.language ∧
      ((empty.after earlier).answer request).reply = .ok (.registered found) := by
  induction requests using List.reverseRecOn with
  | nil => cases h
  | append_singleton requests request ih =>
    cases hbefore : (empty.after requests).find? id with
    | some held =>
      rw [after_concat, find?_answer request hbefore] at h
      cases h
      obtain ⟨earlier, origin, later, rfl, horigin⟩ := ih hbefore
      exact ⟨earlier, origin, later ++ [request], by simp, horigin⟩
    | none =>
      rw [after_concat] at h
      obtain hleaves | ⟨language, hadds⟩ := (empty.after requests).answer_cases request
      · rw [hleaves.unchanged, hbefore] at h
        cases h
      · have hid : language.id = id := by
          by_contra hne
          rw [Request.id_of_language? hadds.asked] at hne
          rw [find?_answer_of_ne (Ne.symm hne), hbefore] at h
          cases h
        have hfound := hadds.find?
        rw [hid, h] at hfound
        cases hfound
        exact ⟨requests, request, [], rfl, hbefore, hadds.asked, hadds.reply⟩

/-- After any run on an empty registry, the languages in it are sound. What it holds under an identifier was
stored by the first registration there that succeeded, and is held after every further run. A refused request
leaves the registry as it is, no request changes what is known under other identifiers than its own, and what
is handed out is held from then on. Under a free identifier no language that is coloured completely is refused,
and the tour's own request never is. -/
theorem keeps_first_registration (requests : List (Request α)) :
    (empty.after requests).Sound ∧
    (∀ id found, (empty.after requests).find? id = some found →
      (∃ earlier request later, requests = earlier ++ request :: later ∧
        (empty.after earlier).find? id = none ∧ request.language? = some found.language ∧
        ((empty.after earlier).answer request).reply = .ok (.registered found)) ∧
      ∀ later, ((empty.after requests).after later).Holds id found) ∧
    (∀ request,
      (∀ e, ((empty.after requests).answer request).reply = .error e →
        ((empty.after requests).answer request).registry = empty.after requests) ∧
      (∀ id, id ≠ request.id →
        ((empty.after requests).answer request).registry.find? id = (empty.after requests).find? id) ∧
      ∀ found, ((empty.after requests).answer request).reply = .ok (.registered found) →
        ((empty.after requests).answer request).registry.find? request.id = some found) ∧
    (∀ id rules pairs, (empty.after requests).find? id = none →
      (Theme.ofPairs pairs).missing rules = [] →
      ∃ found, ((empty.after requests).answer (.register id rules pairs)).reply = .ok (.registered found)) ∧
    ∀ rules, ∃ found, ((empty.after requests).answer (.ensure rules)).reply = .ok (.registered found) := by
  refine ⟨sound_after requests, ?_, ?_, ?_, exists_reply_ensure _⟩
  · intro id found hfound
    refine ⟨exists_origin hfound, ?_⟩
    intro later
    exact holds_of_find? (find?_after later hfound)
  · intro request
    refine ⟨fun e => registry_of_error, fun id => find?_answer_of_ne, fun found => find?_of_reply⟩
  · intro id rules pairs hfree hmissing
    exact exists_reply_register hfree hmissing

end Registry

end GuidedTour
