import GuidedTour.Proofs.Language.Registry
import GuidedTour.Proofs.Token.Tiling
import Mathlib.Data.List.Nodup

/-!
# Colours of tokens

An editor asks for the tokens of a text, for the colours by their labels and for the colour of a class, and all
three are answered from the language that was registered first. The class of a token is one that the rules can
give (`Token.cls_mem_produced`), a registered theme colours all of these, and labels tell classes apart, so that
the colour is found by the label as well as by the class (`Language.lookup_colours`). Together these say that no
token is ever left without its colour (`Registry.tokens_coloured`).
-/

set_option autoImplicit false

namespace GuidedTour

variable {α κ : Type} [Matching α κ]

/-- The class of a token is one of those that the rules can give. -/
theorem Token.cls_mem_produced {rules : List (Rule α)} {source : Text} {token : Token}
    (h : token ∈ stream rules source) : token.cls ∈ Rule.produced rules := by
  have hcls : token.cls ∈ (stream rules source).map cls := List.mem_map_of_mem h
  rw [stream, map_cls_place] at hcls
  obtain ⟨piece, hpiece, hsame⟩ := List.mem_map.1 hcls
  rw [← hsame]
  refine Piece.forall_mem_ofText (P := fun piece => piece.cls ∈ Rule.produced rules) ?_ ?_ (Matching.start α)
    source piece hpiece
  · intro c text
    exact Rule.mem_produced_iff.2 (.inl rfl)
  · intro before text cls n hfirst
    obtain ⟨⟨rule, hrule, hrulecls⟩, -⟩ := Rule.first?_spec hfirst
    exact Rule.mem_produced_iff.2 (.inr ⟨rule, hrule, hrulecls⟩)

/-! ## Colours by label -/

/-- Labels tell classes apart. -/
theorem TokenClass.label_injective : Function.Injective label := by
  intro a b h
  have hfound := ofLabel?_label a
  rw [h, ofLabel?_label b] at hfound
  exact (Option.some.inj hfound).symm

namespace Language

/-- A class has the colour of its label. -/
theorem lookup_colours (language : Language α) (cls : TokenClass) :
    language.colours.lookup cls.label = language.colour? cls := by
  unfold colours colour? Theme.colour?
  induction language.theme with
  | nil => rfl
  | cons pair more ih =>
    obtain ⟨other, colour⟩ := pair
    by_cases h : cls = other
    · simp [h]
    · have hlabel : cls.label ≠ other.label := fun he => h (TokenClass.label_injective he)
      simp only [List.map_cons, List.lookup_cons, beq_eq_false_iff_ne.2 h, beq_eq_false_iff_ne.2 hlabel]
      exact ih

/-- No label has two colours. -/
theorem nodup_labels {language : Language α} (h : language.Sound) :
    (language.colours.map Prod.fst).Nodup := by
  have hlabels : language.colours.map Prod.fst = (language.theme.map Prod.fst).map TokenClass.label := by
    simp [colours]
  rw [hlabels]
  exact List.Nodup.map TokenClass.label_injective h.distinct

end Language

namespace Registry

/-- The colour that a request gives to a class. A question gives none. -/
def Request.colour? : Request α → TokenClass → Option Colour
  | .register _ _ pairs, cls => Theme.lastColour? pairs cls
  | .ensure _, cls => Theme.lastColour? Theme.standard cls
  | _, _ => none

/-- A language has the colours that the request for its registration gives. -/
theorem Request.colour?_of_language? {request : Request α} {language : Language α}
    (h : request.language? = some language) (cls : TokenClass) :
    request.colour? cls = language.colour? cls := by
  cases request with
  | register id rules pairs =>
    cases h
    exact (Theme.colour?_ofPairs pairs cls).symm
  | ensure rules =>
    cases h
    exact (Theme.colour?_ofPairs Theme.standard cls).symm
  | _ => cases h

/-- A question about a language that is registered is answered. -/
theorem reply_asking {registry : Registry α} {id : Text} {held : Registered α} (reply : Registered α → Reply α)
    (h : registry.find? id = some held) : (asking registry id reply).reply = .ok (reply held) := by
  unfold asking Registry.get
  rw [h]
  rfl

variable [DecidableEq α]

/-- A language that is registered in a run is sound. -/
theorem sound_of_find? {requests : List (Request α)} {id : Text} {held : Registered α}
    (h : (empty.after requests).find? id = some held) : held.language.Sound := by
  have hsound := sound_after requests
  exact hsound.sound _ (List.mem_of_getElem? (hsound.keyed id held h).2)

/-- After any run on an empty registry, the tokens of any text in a registered language have classes that its
rules can give. The label of each is one of the labels with a colour, no label has two of them, and it is the
colour of the class and the one that the first successful registration gave to the class. -/
theorem tokens_coloured {requests : List (Request α)} {id : Text}
    (h : (empty.after requests).isRegistered id = true) (source : Text) :
    ∃ held tokens labels, (empty.after requests).find? id = some held ∧
      ((empty.after requests).answer (.tokens id source)).reply = .ok (.tokens tokens) ∧
      ((empty.after requests).answer (.colours id)).reply = .ok (.colours labels) ∧
      (labels.map Prod.fst).Nodup ∧
      ∃ earlier request later, requests = earlier ++ request :: later ∧
        (empty.after earlier).find? id = none ∧
        ((empty.after earlier).answer request).reply = .ok (.registered held) ∧
        ∀ token ∈ tokens, token.cls ∈ Rule.produced held.language.rules ∧
          ∃ colour, labels.lookup token.cls.label = some colour ∧
            ((empty.after requests).answer (.colour id token.cls)).reply = .ok (.colour (some colour)) ∧
            request.colour? token.cls = some colour := by
  obtain ⟨held, hheld⟩ := Option.isSome_iff_exists.1 h
  have hsound := sound_of_find? hheld
  obtain ⟨earlier, request, later, hrun, hfree, hasked, hreply⟩ := exists_origin hheld
  refine ⟨held, held.language.tokens source, held.language.colours, hheld, reply_asking _ hheld,
    reply_asking _ hheld, Language.nodup_labels hsound, earlier, request, later, hrun, hfree, hreply, ?_⟩
  intro token htoken
  have hproduced : token.cls ∈ Rule.produced held.language.rules := Token.cls_mem_produced htoken
  obtain ⟨colour, hcolour⟩ := hsound.coloured token.cls hproduced
  refine ⟨hproduced, colour, ?_, ?_, ?_⟩
  · rw [Language.lookup_colours, hcolour]
  · rw [← hcolour]
    exact reply_asking _ hheld
  · rw [Request.colour?_of_language? hasked, hcolour]

/-- A registration without colours is refused, the next one takes pipes for keywords, and a third one comes too
late. The pipe of a text is then a keyword and has the colour that the second one gave to keywords. -/
theorem tokens_coloured_relabelled :
    let requests : List (Request Pattern) :=
      [.register ['p'] [⟨.pipe, .keyword⟩] [],
       .register ['p'] [⟨.pipe, .keyword⟩] [(.unclassified, "#cdd6f4"), (.keyword, "#00CED1")],
       .register ['p'] [⟨.pipe, .pipe⟩] [(.unclassified, "#cdd6f4"), (.pipe, "#98FB98")]]
    (empty.after requests).isRegistered ['p'] = true ∧
      ((empty.after requests).answer (.tokens ['p'] ['|'])).reply =
        .ok (.tokens [⟨.keyword, ['|'], 0, 1, 1, 1⟩]) ∧
      ∃ labels, ((empty.after requests).answer (.colours ['p'])).reply = .ok (.colours labels) ∧
        labels.lookup TokenClass.keyword.label = some "#00CED1" := by
  intro requests
  have hregistered : (empty.after requests).isRegistered ['p'] = true := by decide
  have hpipe : Rule.first? [⟨Pattern.pipe, TokenClass.keyword⟩] none ['|'] = some (.keyword, 1) := rfl
  have hstream : Token.stream [⟨Pattern.pipe, .keyword⟩] ['|'] = [⟨.keyword, ['|'], 0, 1, 1, 1⟩] := by
    rw [Token.stream_eq, Piece.ofText]
    split
    · rename_i hnone
      rw [hpipe] at hnone
      cases hnone
    · rename_i cls n hsome
      rw [hpipe] at hsome
      cases hsome
      rw [List.drop_succ_cons, List.drop_zero, Piece.ofText]
      rfl
  obtain ⟨held, tokens, labels, hheld, htokens, hlabels, -, _, _, _, -, -, -, hcoloured⟩ :=
    tokens_coloured hregistered ['|']
  have hrules : held.language.rules = [⟨.pipe, .keyword⟩] := by
    cases hheld
    rfl
  have hall : ((empty.after requests).answer (.tokens ['p'] ['|'])).reply =
      .ok (.tokens [⟨.keyword, ['|'], 0, 1, 1, 1⟩]) := by
    rw [← hstream, ← hrules]
    exact reply_asking _ hheld
  rw [hall] at htokens
  cases htokens
  obtain ⟨-, colour, hlookup, hcolour, -⟩ := hcoloured _ List.mem_cons_self
  -- The colour of keywords is asked for as well, and the answer to that is computed.
  have hkeyword : some "#00CED1" = some colour := Reply.colour.inj (Except.ok.inj hcolour)
  cases hkeyword
  exact ⟨hregistered, hall, labels, hlabels, hlookup⟩

end Registry

end GuidedTour
