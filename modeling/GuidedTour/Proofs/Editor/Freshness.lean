import GuidedTour.Editor.Basic
import GuidedTour.Proofs.Language.Colour
import GuidedTour.Proofs.Token.Span

/-!
# Fresh colours

The colours of an editor are fresh when its tags are on the tokens of its text, each on the characters of
one, and on nothing else. They need not be while a timer is running. As soon as none is, they are
(`CodeEditor.fresh_after`), in whatever order the text was changed, set from outside and coloured before.

What carries this through a run is `CodeEditor.Steady`: an editor is between two steps, so that no change of
its text is left untold, and its tags are those of its tokens or a timer is running. The timer that the editor
has in mind is of no account: where one is stopped, another one is started. That colouring takes all old tags
off needs a theme with a colour for every class that a token can have.
-/

set_option autoImplicit false

namespace GuidedTour

variable {α κ : Type}

/-! ## Tags of tokens -/

namespace Token

/-- A tag is on a character of a source: its addresses are those of two offsets of the source, and the character
lies between them. -/
def Tag.Covers (wide : Bool) (source : Text) (tag : Tag) (offset : Nat) : Prop :=
  ∃ first last, first ≤ offset ∧ offset < last ∧ last ≤ source.length ∧
    tag.start = addressAt wide source first ∧ tag.stop = addressAt wide source last

/-- The tags of the tokens of a text run between the addresses of their ends. -/
theorem mem_tags_iff [Matching α κ] {wide : Bool} {rules : List (Rule α)} {source : Text} {tag : Tag} :
    tag ∈ tags wide source (stream rules source) ↔ ∃ token ∈ stream rules source,
      tag = ⟨token.cls, addressAt wide source token.start, addressAt wide source token.stop⟩ := by
  unfold tags
  rw [List.mem_map]
  apply exists_congr
  intro token
  apply and_congr_right
  intro htoken
  rw [span_eq htoken]
  exact eq_comm

/-- The tag of a token is on the characters of the token. -/
theorem covers_iff [Matching α κ] {wide : Bool} {rules : List (Rule α)} {source : Text} {token : Token}
    (h : token ∈ stream rules source) (offset : Nat) :
    Tag.Covers wide source
        ⟨token.cls, addressAt wide source token.start, addressAt wide source token.stop⟩ offset ↔
      token.start ≤ offset ∧ offset < token.stop := by
  obtain ⟨-, hlt, hle⟩ := (tilesFrom_stream rules source).bounds.2 token h
  constructor
  · rintro ⟨first, last, hfirst, hlast, hend, hstart, hstop⟩
    have hs : token.start = first := addressAt_inj (by omega) (by omega) hstart
    have ht : token.stop = last := addressAt_inj hle hend hstop
    omega
  · rintro ⟨hfirst, hlast⟩
    exact ⟨token.start, token.stop, hfirst, hlast, hle, rfl, rfl⟩

end Token

namespace Editor

/-! ## Changes of a buffer -/

namespace Buffer

/-- What became of a buffer tells by its mark whether the text was changed: without the mark the text is
what it was, and there was no mark before. -/
def Tells (b b' : Buffer) : Prop := b'.modified = false → b.modified = false ∧ b'.text = b.text

/-- A buffer to which nothing happens tells. -/
theorem Tells.refl (b : Buffer) : b.Tells b := fun h => ⟨h, rfl⟩

/-- What happens one after the other is told if each is. -/
theorem Tells.trans {a b c : Buffer} (hab : a.Tells b) (hbc : b.Tells c) : a.Tells c := by
  intro h
  obtain ⟨hb, hc⟩ := hbc h
  obtain ⟨ha, hsame⟩ := hab hb
  exact ⟨ha, hc.trans hsame⟩

/-- Moving the cursor does not touch the text. -/
theorem tells_jump (b : Buffer) (offset : Nat) : b.Tells (b.jump offset) :=
  fun h => ⟨h, List.take_append_drop offset b.text⟩

/-- Moving the cursor while dropping the selection does not touch the text. -/
theorem tells_moveTo (b : Buffer) (offset : Nat) : b.Tells (b.moveTo offset) := b.tells_jump offset

/-- Selecting does not touch the text. -/
theorem tells_select (b : Buffer) (start stop : Nat) : b.Tells (b.select start stop) :=
  b.tells_jump (min stop b.text.length)

/-- Inserting tells, unless nothing is inserted. -/
theorem tells_insert (b : Buffer) (text : Text) : b.Tells (b.insert text) := by
  unfold insert
  split
  · exact .refl b
  · intro h
    cases h

/-- Deleting tells, unless nothing is deleted. -/
theorem tells_delete (b : Buffer) (start stop : Nat) : b.Tells (b.delete start stop) := by
  dsimp only [delete]
  split
  · intro h
    cases h
  · intro h
    exact ⟨h, rfl⟩

/-- Deleting what is selected tells. -/
theorem tells_deleteSelected (b : Buffer) : b.Tells b.deleteSelected := by
  unfold deleteSelected
  split
  · exact b.tells_delete _ _
  · exact .refl b

/-- Deleting backwards tells. -/
theorem tells_backspace (b : Buffer) : b.Tells b.backspace := by
  unfold backspace
  split
  · exact b.tells_delete _ _
  · split
    · exact .refl b
    · exact b.tells_delete _ _

/-- Typing tells, whatever is selected. -/
theorem tells_type (b : Buffer) (text : Text) : b.Tells (b.type text) :=
  b.tells_deleteSelected.trans (b.deleteSelected.tells_insert text)

end Buffer

namespace CodeEditor

/-- A key that closes automatically changes the buffer only. -/
theorem tells_closeKey? {e e' : CodeEditor α} {typed : Text} (h : e.closeKey? typed = some e') :
    ∃ buffer, e' = { e with buffer } ∧ e.buffer.Tells buffer := by
  obtain ⟨edit, -, rfl⟩ := Option.map_eq_some_iff.1 h
  refine ⟨_, rfl, ?_⟩
  apply Buffer.Tells.trans _ (Buffer.tells_jump _ _)
  apply Buffer.Tells.trans _ (Buffer.tells_insert _ _)
  split
  · exact .refl _
  · exact e.buffer.tells_deleteSelected

variable [Matching α κ]

/-! ## Timers that run out -/

/-- A timer that runs out is running no longer, and the others are. -/
theorem timers_expire (e : CodeEditor α) (number : Nat) :
    (e.expire number).timers = e.timers.filter (·.number != number) := by
  unfold expire
  split
  · rfl
  · rename_i hnone
    symm
    rw [List.filter_eq_self]
    intro timer htimer
    rw [bne_iff_ne]
    intro hsame
    apply hnone
    exact List.any_eq_true.2 ⟨timer, htimer, beq_iff_eq.2 hsame⟩

/-- A timer that runs out leaves the buffer. -/
theorem buffer_expire (e : CodeEditor α) (number : Nat) : (e.expire number).buffer = e.buffer := by
  unfold expire
  split <;> rfl

/-- Timers that run out leave the buffer. -/
theorem buffer_tick (e : CodeEditor α) : e.tick.buffer = e.buffer := by
  unfold tick
  generalize e.timers = timers
  induction timers generalizing e with
  | nil => rfl
  | cons timer more ih => exact (ih _).trans (e.buffer_expire timer.number)

/-- When every timer that is running has run out, none is left. -/
theorem timers_foldl_expire {timers : List Timer} {e : CodeEditor α} (h : e.timers ⊆ timers) :
    (timers.foldl (fun e timer => e.expire timer.number) e).timers = [] := by
  induction timers generalizing e with
  | nil => exact List.subset_nil.1 h
  | cons timer more ih =>
    apply ih
    intro other hother
    rw [timers_expire, List.mem_filter] at hother
    obtain ⟨hrunning, hne⟩ := hother
    rcases List.mem_cons.1 (h hrunning) with rfl | hmore
    · exact absurd rfl (bne_iff_ne.1 hne)
    · exact hmore

/-- Once all timers have run out none is running. -/
theorem timers_tick (e : CodeEditor α) : e.tick.timers = [] := timers_foldl_expire (List.Subset.refl e.timers)

/-! ## What a step keeps -/

/-- The tags of the tokens of the text. -/
def tokenTags (e : CodeEditor α) : List Token.Tag :=
  Token.tags e.wide e.source (e.language.tokens e.source)

/-- An editor of a language whose tags all have a colour in the theme. -/
structure Themed (e : CodeEditor α) (language : Language α) : Prop where
  shown : e.language = language
  coloured : ∀ tag ∈ e.tags, ∃ colour, language.colour? tag.cls = some colour

/-- Besides, the tags are those of the tokens, unless a timer is running or a change of the text is yet to
be told. -/
structure Kept (e : CodeEditor α) (language : Language α) : Prop extends e.Themed language where
  current : e.timers = [] → e.buffer.modified = false → e.tags = e.tokenTags

/-- An editor between two steps: no change of its text is yet to be told. -/
structure Steady (e : CodeEditor α) (language : Language α) : Prop extends e.Kept language where
  settled : e.buffer.modified = false

/-- A theme that colours what its rules can produce lets no old tag survive. -/
theorem Themed.tags_highlight {language : Language α} {e : CodeEditor α} (h : e.Themed language) :
    e.highlight.tags = e.tokenTags := by
  have hold : (e.tags.filter fun tag => (e.language.colour? tag.cls).isNone) = [] := by
    rw [List.filter_eq_nil_iff]
    intro tag htag
    obtain ⟨colour, hcolour⟩ := h.coloured tag htag
    rw [h.shown, hcolour]
    exact Bool.false_ne_true
  unfold highlight
  rw [hold]
  rfl

/-- The classes of the tokens have colours if what the rules can produce has. -/
theorem coloured_tokenTags {language : Language α} (hsound : language.Sound) {e : CodeEditor α}
    (h : e.language = language) :
    ∀ tag ∈ e.tokenTags, ∃ colour, language.colour? tag.cls = some colour := by
  intro tag htag
  obtain ⟨token, htoken, rfl⟩ := Token.mem_tags_iff.1 htag
  rw [h] at htoken
  exact hsound.coloured _ (Token.cls_mem_produced htoken)

/-- Colouring makes the tags those of the tokens, whatever they were before. -/
theorem Themed.highlight {language : Language α} (hsound : language.Sound) {e : CodeEditor α}
    (h : e.Themed language) : e.highlight.Kept language := by
  refine ⟨⟨h.shown, ?_⟩, ?_⟩
  · rw [h.tags_highlight]
    exact coloured_tokenTags hsound h.shown
  · intro _ _
    exact h.tags_highlight

/-- A timer that runs out keeps the tags right: all is coloured anew, or nothing is done. -/
theorem Kept.expire {language : Language α} (hsound : language.Sound) {e : CodeEditor α}
    (h : e.Kept language) (number : Nat) : (e.expire number).Kept language := by
  unfold CodeEditor.expire
  split
  · exact Themed.highlight hsound ⟨h.shown, h.coloured⟩
  · exact h

/-- Timers that run out keep the tags right, by induction over them. -/
theorem Kept.tick {language : Language α} (hsound : language.Sound) {e : CodeEditor α}
    (h : e.Kept language) : e.tick.Kept language := by
  unfold CodeEditor.tick
  generalize e.timers = timers
  induction timers generalizing e with
  | nil => exact h
  | cons timer more ih => exact ih (h.expire hsound timer.number)

/-- What happens in the buffer leaves the tags, and what it changes is yet to be told. -/
theorem Kept.withBuffer {language : Language α} {e : CodeEditor α} (h : e.Kept language) {buffer : Buffer}
    (htells : e.buffer.Tells buffer) : ({ e with buffer } : CodeEditor α).Kept language := by
  refine ⟨⟨h.shown, h.coloured⟩, ?_⟩
  intro htimers hsettled
  obtain ⟨hbefore, htext⟩ := htells hsettled
  have hcurrent := h.current htimers hbefore
  unfold tokenTags source at hcurrent ⊢
  rw [htext]
  exact hcurrent

/-- Whatever is done to an editor keeps its tags right. -/
theorem Kept.act {language : Language α} (hsound : language.Sound) {e : CodeEditor α}
    (h : e.Kept language) (s : Step) : (e.act s).1.Kept language := by
  cases s with
  | key typed =>
    dsimp only [CodeEditor.act]
    cases hclosed : e.closeKey? typed with
    | some closed =>
      obtain ⟨buffer, rfl, htells⟩ := tells_closeKey? hclosed
      exact h.withBuffer htells
    | none =>
      apply h.withBuffer
      split
      · exact .refl _
      · exact e.buffer.tells_type typed
  | cursor offset => exact h.withBuffer (e.buffer.tells_moveTo offset)
  | select start stop => exact h.withBuffer (e.buffer.tells_select start stop)
  | backspace => exact h.withBuffer e.buffer.tells_backspace
  | setSource source => exact Themed.highlight hsound ⟨h.shown, h.coloured⟩
  | expire number => exact h.expire hsound number
  | tick => exact h.tick hsound

/-- When colouring is put off, a timer is running. -/
theorem Kept.postpone {language : Language α} {e : CodeEditor α} (h : e.Kept language) :
    e.postpone.Steady language := by
  refine ⟨⟨⟨h.shown, h.coloured⟩, ?_⟩, rfl⟩
  intro htimers
  exact absurd htimers (List.append_ne_nil_of_right_ne_nil _ (List.cons_ne_nil _ _))

/-- A step leaves an editor between two steps: what was changed has been told. -/
theorem Kept.step {language : Language α} (hsound : language.Sound) {e : CodeEditor α}
    (h : e.Kept language) (s : Step) : (e.step s).1.Steady language := by
  have hact := h.act hsound s
  dsimp only [CodeEditor.step]
  split
  · exact hact.postpone
  · rename_i hsettled
    exact ⟨hact, eq_false_of_ne_true hsettled⟩

/-! ## Runs of steps -/

/-- The editor after some steps, one after another. -/
def after (e : CodeEditor α) (steps : List Step) : CodeEditor α := steps.foldl (fun e s => (e.step s).1) e

/-- One step more is the step after the others. -/
theorem after_concat (e : CodeEditor α) (steps : List Step) (s : Step) :
    e.after (steps ++ [s]) = ((e.after steps).step s).1 := List.foldl_append

/-- Between two steps there is nothing to tell, and the timers that run out do not bring it. -/
theorem step_tick {e : CodeEditor α} (hsettled : e.buffer.modified = false) : (e.step .tick).1 = e.tick := by
  have hstill : e.tick.buffer.modified = false := by
    rw [buffer_tick]
    exact hsettled
  simp [CodeEditor.step, act, hstill]

/-- A run leaves an editor between two steps, by induction over its steps. -/
theorem Steady.after {language : Language α} (hsound : language.Sound) {e : CodeEditor α}
    (h : e.Steady language) (steps : List Step) : (e.after steps).Steady language := by
  induction steps generalizing e with
  | nil => exact h
  | cons s more ih => exact ih (h.toKept.step hsound s)

/-- An empty editor has no tags, as there are no tokens. -/
theorem steady_ofLanguage (language : Language α) (wide : Bool) :
    ({ ofLanguage language with wide } : CodeEditor α).Steady language := by
  refine ⟨⟨⟨rfl, ?_⟩, ?_⟩, rfl⟩
  · intro tag htag
    cases htag
  · intro _ _
    simp [tokenTags, source, ofLanguage, Buffer.text, Buffer.empty, Language.tokens, Token.stream,
      Piece.ofText, Token.place, Token.tags]

/-! ## Fresh colours -/

/-- A character of the text carries a label. -/
def Carries (e : CodeEditor α) (label : String) (offset : Nat) : Prop :=
  ∃ tag ∈ e.tags, tag.cls.label = label ∧ tag.Covers e.wide e.source offset

/-- The tags of an editor are on some tokens of its text. -/
structure Fresh (e : CodeEditor α) (tokens : List Token) : Prop where
  /-- A label is on the characters of the tokens of its class, and on no others. -/
  carries : ∀ label offset, e.Carries label offset ↔
    ∃ token ∈ tokens, token.cls.label = label ∧ token.start ≤ offset ∧ offset < token.stop
  /-- Every character carries one label. -/
  unique : ∀ offset < e.source.length, ∃! label, e.Carries label offset
  /-- Every tag is on the characters of a token of its class. -/
  standing : ∀ tag ∈ e.tags, ∃ token ∈ tokens, tag.cls = token.cls ∧
    ∀ offset, tag.Covers e.wide e.source offset ↔ token.start ≤ offset ∧ offset < token.stop

/-- If the tags are those of the tokens, a label is on the characters of the tokens of its class. -/
theorem carries_iff {e : CodeEditor α} (h : e.tags = e.tokenTags) {label : String} {offset : Nat} :
    e.Carries label offset ↔ ∃ token ∈ e.language.tokens e.source,
      token.cls.label = label ∧ token.start ≤ offset ∧ offset < token.stop := by
  unfold Carries
  rw [h]
  constructor
  · rintro ⟨tag, htag, hlabel, hcovers⟩
    obtain ⟨token, htoken, rfl⟩ := Token.mem_tags_iff.1 htag
    exact ⟨token, htoken, hlabel, (Token.covers_iff htoken offset).1 hcovers⟩
  · rintro ⟨token, htoken, hlabel, hspan⟩
    exact ⟨_, Token.mem_tags_iff.2 ⟨token, htoken, rfl⟩, hlabel, (Token.covers_iff htoken offset).2 hspan⟩

/-- If the tags are those of the tokens, they are on the tokens, which tile the text. -/
theorem fresh_of_tags {e : CodeEditor α} (h : e.tags = e.tokenTags) :
    e.Fresh (e.language.tokens e.source) := by
  refine ⟨fun label offset => carries_iff h, ?_, ?_⟩
  · intro offset hoffset
    obtain ⟨token, htoken, hspan, honly⟩ :=
      (Token.tilesFrom_stream e.language.rules e.source).existsUnique (Nat.zero_le offset) hoffset
    refine ⟨token.cls.label, (carries_iff h).2 ⟨token, htoken, rfl, hspan⟩, ?_⟩
    intro label hlabel
    obtain ⟨other, hother, rfl, hfrom, hto⟩ := (carries_iff h).1 hlabel
    rw [honly other hother hfrom hto]
  · intro tag htag
    rw [h] at htag
    obtain ⟨token, htoken, rfl⟩ := Token.mem_tags_iff.1 htag
    exact ⟨token, htoken, rfl, Token.covers_iff htoken⟩

/-- An editor that a registry gives is the empty one of a registered language. -/
theorem exists_of_ofRegistry {registry : Registry α} {id : Text} {e : CodeEditor α}
    (h : ofRegistry registry id = .ok e) :
    ∃ found, registry.find? id = some found ∧ e = ofLanguage found.language := by
  unfold ofRegistry Registry.get at h
  cases hfind : registry.find? id with
  | none =>
    rw [hfind] at h
    cases h
  | some found =>
    rw [hfind] at h
    cases h
    exact ⟨found, rfl, rfl⟩

/-- Whatever is done to an editor of a registered language, whenever no timer is running its tags are on the
tokens that the registry finds in its text, however much the registry is asked in the meantime, and letting the
timers run out brings this about. The columns may be wide or not. -/
theorem fresh_after [DecidableEq α] {requests : List (Registry.Request α)} {id : Text} {e : CodeEditor α}
    (h : ofRegistry (Registry.empty.after requests) id = .ok e) (wide : Bool) (steps : List Step) :
    ((({ e with wide }).after steps).timers = [] → ∀ later,
      ∃ tokens, (((Registry.empty.after requests).after later).answer
          (.tokens id (({ e with wide }).after steps).source)).reply = .ok (.tokens tokens) ∧
        (({ e with wide }).after steps).Fresh tokens) ∧
    (({ e with wide }).after (steps ++ [Step.tick])).timers = [] := by
  obtain ⟨found, hfind, rfl⟩ := exists_of_ofRegistry h
  have hreached := (Registry.sound_after requests).keyed id found hfind
  have hsound := (Registry.sound_after requests).sound found.language (List.mem_of_getElem? hreached.2)
  have hsteady := (steady_ofLanguage found.language wide).after hsound steps
  constructor
  · intro htimers later
    have hfresh := fresh_of_tags (hsteady.current htimers hsteady.settled)
    refine ⟨_, ?_, hfresh⟩
    rw [hsteady.shown]
    simp [Registry.answer, Registry.asking, Registry.get, Registry.find?_after later hfind, Except.map]
  · rw [after_concat, step_tick hsteady.settled]
    exact timers_tick _

/-- The empty editor of the tour's own language. -/
def ofTour : CodeEditor Pattern := ofLanguage ⟨Language.tourId, Rule.standard, Theme.ofPairs Theme.standard⟩

/-- The text is set while the timer of a key is running, and the timer of a further key overtakes that one. -/
def overtaking : List Step := [.key ['5'], .setSource ['7'], .key ['('], .expire 1, .expire 0]

/-- Colours are fresh once both timers have run out, though the later one did so first. -/
theorem fresh_after_overtaking :
    ofRegistry (Registry.empty.after [.ensure Rule.standard]) Language.tourId = .ok ofTour ∧
    (ofTour.after overtaking).timers = [] ∧
    (ofTour.after overtaking).source = ['7', '(', ')'] ∧
    ∀ offset < 3, ∃! label, (ofTour.after overtaking).Carries label offset := by
  have hregistered : ofRegistry (Registry.empty.after [.ensure Rule.standard]) Language.tourId =
      .ok ofTour := rfl
  have htimers : (ofTour.after overtaking).timers = [] := rfl
  have hsource : (ofTour.after overtaking).source = ['7', '(', ')'] := rfl
  obtain ⟨hfresh, -⟩ := fresh_after hregistered wideColumns overtaking
  obtain ⟨tokens, -, hfresh⟩ := hfresh htimers []
  refine ⟨hregistered, htimers, hsource, ?_⟩
  intro offset hoffset
  apply hfresh.unique
  exact hoffset

end CodeEditor

end Editor

end GuidedTour
