import Mathlib
import GuidedTour.Proofs.Yaml.Lexing
import GuidedTour.Yaml.Node.Graph

/-!
# What reading a text into nodes can fail with

Fetching tokens and reading nodes look at the text only through the steps of the cursor and add no failures of
their own but that the text is no document. So the nodes of a text are read, or reading fails with what the text
warrants (`Yaml.warranted_of_graphOf`).

The triples go up from one step to the next: `Lex.Safe` for the characters, `Scan.Safe` for the tokens, `Read.Safe`
for the nodes, each saying that the cursor inside keeps to the text.
-/

set_option autoImplicit false
set_option mvcgen.warning false

open Std.Do

namespace GuidedTour.Yaml

variable {incoming : Incoming}

/-! ## Tokens -/

namespace Scan

/-- A step of fetching tokens keeps to the text and fails only with what the text warrants. -/
abbrev Safe {α : Type} (incoming : Incoming) (step : Scan α) : Prop :=
  ⦃fun s => ⌜s.cursor.Within incoming⌝⦄ step
  ⦃post⟨fun _ s => ⌜s.cursor.Within incoming⌝, fun error => ⌜Warranted incoming error⌝⟩⦄

/-- A step through the characters moves only the cursor. -/
@[spec]
theorem lex_spec {α : Type} (step : Lex α) {Q : PostCond α (.arg Scanner (.except Error .pure))} :
    ⦃fun s => wp⟦step⟧ (fun a cursor => Q.1 a { s with cursor }, Q.2) s.cursor⦄ lex step ⦃Q⦄ := by
  intro s h
  change (wp⟦step s.cursor⟧ _).down at h
  change (wp⟦lex step s⟧ _).down
  unfold lex
  cases hrun : step s.cursor with
  | error error =>
    rw [hrun] at h
    exact h
  | ok result =>
    rw [hrun] at h
    exact h

/-- Looking only where a condition holds is as safe as the look. -/
@[spec]
theorem safe_provided (condition : Bool) {look : Lex Bool} (h : Lex.Safe incoming look) :
    Safe incoming (provided condition look) := by
  mvcgen [provided, h]

/-- Adding a token and passing its mark is safe. -/
@[spec]
theorem safe_pushMark (token : Token) (length : Nat) : Safe incoming (pushMark token length) := by
  mvcgen [pushMark, push]

/-- Forgetting stale keys is safe: at a required one the step gives up. -/
@[spec]
theorem safe_dropStaleKeys : Safe incoming dropStaleKeys := by
  mvcgen [dropStaleKeys]

/-- Forgetting a key is safe: at a required one the step gives up. -/
@[spec]
theorem safe_dropKey : Safe incoming dropKey := by
  mvcgen [dropKey]

/-- Noting a key is safe. -/
@[spec]
theorem safe_saveKey : Safe incoming saveKey := by
  mvcgen [saveKey]

/-- Passing what separates tokens is safe, by induction over its lines. -/
@[spec]
theorem safe_blanks (fuel : Nat) (broken : Bool) : Lex.Safe incoming (blanks fuel broken) := by
  induction fuel generalizing broken with
  | zero => mvcgen [blanks]
  | succ fuel ih => mvcgen [blanks, ih]

/-- Going to the next token is safe. -/
@[spec]
theorem safe_toNext : Safe incoming toNext := by
  mvcgen [toNext]

/-- Closing block collections does not move the place. -/
theorem within_unwound {s : Scanner} (h : s.cursor.Within incoming) (column : Int) :
    (s.unwound column).cursor.Within incoming := by
  unfold Scanner.unwound
  dsimp only
  split
  · exact h
  · split <;> exact h

/-- Opening a block collection does not move the place. -/
theorem within_indented? {s s' : Scanner} (h : s.cursor.Within incoming) {column : Nat}
    (hs : s.indented? column = some s') : s'.cursor.Within incoming := by
  unfold Scanner.indented? at hs
  split at hs
  · cases hs
    exact h
  · cases hs

/-- Putting the tokens of a key in their place does not move the place of reading. -/
theorem within_keyed {s : Scanner} (h : s.cursor.Within incoming) (key : SimpleKey) :
    (Scanner.keyed s key).cursor.Within incoming := by
  have hinsert : (s.withoutKey.insert key.number .key).cursor.Within incoming := h
  unfold Scanner.keyed
  dsimp only
  split
  · exact hinsert
  · split
    · rename_i s' hindented
      have hindented' : s'.cursor.Within incoming := within_indented? hinsert hindented
      exact hindented'
    · exact hinsert

/-- Closing all block collections is safe. -/
@[spec]
theorem safe_closeAll : Safe incoming closeAll := by
  mvcgen [closeAll, allowKey]
  rename_i h moved
  exact within_unwound h _

/-- Reading a line that begins or ends a document is safe. -/
@[spec]
theorem safe_documentMark (token : Token) : Safe incoming (documentMark token) := by
  mvcgen [documentMark]

/-- Fetching a directive is safe. -/
@[spec]
theorem safe_directive : Safe incoming directive := by
  mvcgen [directive, push]

/-- Opening a flow collection is safe. -/
@[spec]
theorem safe_openFlow (token : Token) : Safe incoming (openFlow token) := by
  mvcgen [openFlow]

/-- Closing a flow collection is safe. -/
@[spec]
theorem safe_closeFlow (token : Token) : Safe incoming (closeFlow token) := by
  mvcgen [closeFlow]

/-- Fetching a comma is safe. -/
@[spec]
theorem safe_flowEntry : Safe incoming flowEntry := by
  mvcgen [flowEntry, allowKey]

/-- Opening a block collection where a column asks for it is safe. -/
@[spec]
theorem safe_opening (token : Token) : Safe incoming (opening token) := by
  mvcgen [opening, push]
  rename_i h _ _ s' hindented _
  have hindented' : s'.cursor.Within incoming := within_indented? h hindented
  exact hindented'

/-- Fetching the hyphen of an entry is safe. -/
@[spec]
theorem safe_blockEntry : Safe incoming blockEntry := by
  mvcgen [blockEntry, allowKey]

/-- Allowing a key is safe. -/
@[spec]
theorem safe_allowKeyInBlock : Safe incoming allowKeyInBlock := by
  mvcgen [allowKeyInBlock, allowKey]

/-- Fetching a question mark is safe. -/
@[spec]
theorem safe_complexKey : Safe incoming complexKey := by
  mvcgen [complexKey]

/-- Fetching a colon is safe. -/
@[spec]
theorem safe_value : Safe incoming value := by
  mvcgen [value, allowKey]
  rename_i h _ key _ _ _
  exact within_keyed h key

/-- Fetching a token that may begin a key is as safe as reading it. -/
@[spec]
theorem safe_keyed {read : Lex Token} (h : Lex.Safe incoming read) : Safe incoming (keyed read) := by
  mvcgen [keyed, allowKey, push, h]

/-- Fetching a block scalar is safe. -/
@[spec]
theorem safe_blockScalar (folded : Bool) : Safe incoming (blockScalar folded) := by
  mvcgen [blockScalar, allowKey, push]

/-- Fetching a plain scalar is safe. -/
@[spec]
theorem safe_plainScalar : Safe incoming plainScalar := by
  mvcgen [plainScalar, allowKey, push]

/-- Asking whether a plain scalar begins is safe. -/
@[spec]
theorem safe_beginsPlain (inFlow : Bool) (c : Char) : Lex.Safe incoming (beginsPlain inFlow c) := by
  mvcgen [beginsPlain]

/-- Asking whether an indicator stands alone is safe. -/
@[spec]
theorem safe_standsAlone (inFlow : Bool) : Lex.Safe incoming (standsAlone inFlow) := by
  mvcgen [standsAlone]

/-- Fetching the token that begins with a character is safe, whichever it is. -/
@[spec]
theorem safe_fetch (c : Char) : Safe incoming (fetch c) := by
  mvcgen [fetch]

/-- Closing what is open at the end of the text is safe. -/
@[spec]
theorem safe_finish : Safe incoming finish := by
  mvcgen [finish]
  rename_i h moved
  exact within_unwound h _

/-- Fetching what comes next is safe. -/
@[spec]
theorem safe_fetchNext : Safe incoming fetchNext := by
  mvcgen [fetchNext]
  rename_i h moved
  exact within_unwound h _

/-- Fetching tokens within an amount of fuel is safe, by induction over it. -/
@[spec]
theorem safe_settleWithin (fuel : Nat) : Safe incoming (settleWithin fuel) := by
  induction fuel with
  | zero => mvcgen [settleWithin]
  | succ fuel ih => mvcgen [settleWithin, ih]

/-- Settling the next token is safe. -/
@[spec]
theorem safe_settle : Safe incoming settle := by
  mvcgen [settle]

end Scan

/-! ## Nodes -/

namespace Read

/-- A step of reading nodes keeps to the text and fails only with what the text warrants. -/
abbrev Safe {α : Type} (incoming : Incoming) (step : Read α) : Prop :=
  ⦃fun s => ⌜s.scanner.cursor.Within incoming⌝⦄ step
  ⦃post⟨fun _ s => ⌜s.scanner.cursor.Within incoming⌝, fun error => ⌜Warranted incoming error⌝⟩⦄

/-- Settling the next token, told of one state. -/
@[spec]
theorem settle_spec {s : Scanner} (h : s.cursor.Within incoming) :
    ⦃⌜True⌝⦄ (Scan.settle s : Except Error (Unit × Scanner))
    ⦃post⟨fun result => ⌜result.2.cursor.Within incoming⌝, fun error => ⌜Warranted incoming error⌝⟩⦄ := by
  intro _
  exact Scan.safe_settle s h

/-- Looking at the next token is safe. -/
@[spec]
theorem safe_peek : Safe incoming peek := by
  mvcgen [peek]

/-- Passing a token is safe. -/
@[spec]
theorem safe_pass : Safe incoming pass := by
  mvcgen [pass]

/-- Asking for the next token is safe. -/
@[spec]
theorem safe_sees (tokens : List Token) : Safe incoming (sees tokens) := by
  mvcgen [sees]

/-- Passing a given token where it is next is safe. -/
@[spec]
theorem safe_accept (token : Token) : Safe incoming (accept token) := by
  mvcgen [accept]

/-- Asking whether an entry follows is safe. -/
@[spec]
theorem safe_entryFollows (isFirst : Bool) : Safe incoming (entryFollows isFirst) := by
  mvcgen [entryFollows]

/-- Adding a node is safe. -/
@[spec]
theorem safe_add (node : Node) : Safe incoming (add node) := by
  mvcgen [add]

/-- Giving a node its parts is safe. -/
@[spec]
theorem safe_setBody (n : Nat) (body : Body) : Safe incoming (setBody n body) := by
  mvcgen [setBody]

/-- Adding the empty scalar is safe. -/
@[spec]
theorem safe_empty : Safe incoming empty := by
  mvcgen [empty]

/-- Looking up the address of a tag is safe: at an unknown handle the step gives up. -/
@[spec]
theorem safe_address (handle : Option Text) (suffix : Text) : Safe incoming (address handle suffix) := by
  mvcgen [address]

/-- Reading anchor and tag is safe. -/
@[spec]
theorem safe_properties : Safe incoming properties := by
  mvcgen [properties]

/-- Naming a node is safe: at a name that is taken the step gives up. -/
@[spec]
theorem safe_nameNode (anchor : Option Text) (n : Nat) : Safe incoming (nameNode anchor n) := by
  mvcgen [nameNode]

/-- Adding a node without content is safe. -/
@[spec]
theorem safe_bare (anchor tag : Option Text) : Safe incoming (bare anchor tag) := by
  mvcgen [bare]

/-- The steps that read nodes within an amount of fuel are safe. -/
structure SafeWithin (incoming : Incoming) (fuel : Nat) : Prop where
  node : ∀ inBlock unindented, Safe incoming (node inBlock unindented fuel)
  nodeUnless : ∀ stops inBlock unindented, Safe incoming (nodeUnless stops inBlock unindented fuel)
  blockItems : Safe incoming (blockItems fuel)
  unindentedItems : Safe incoming (unindentedItems fuel)
  blockPairs : Safe incoming (blockPairs fuel)
  flowItems : ∀ isFirst, Safe incoming (flowItems isFirst fuel)
  flowPairs : ∀ isFirst, Safe incoming (flowPairs isFirst fuel)

/-- Without fuel every step gives up. -/
theorem safeWithin_zero : SafeWithin incoming 0 := by
  constructor
  case node =>
    intro inBlock unindented
    mvcgen [node]
  case nodeUnless =>
    intro stops inBlock unindented
    mvcgen [nodeUnless]
  case blockItems => mvcgen [blockItems]
  case unindentedItems => mvcgen [unindentedItems]
  case blockPairs => mvcgen [blockPairs]
  case flowItems =>
    intro isFirst
    mvcgen [flowItems]
  case flowPairs =>
    intro isFirst
    mvcgen [flowPairs]

/-- One more unit of fuel keeps the steps safe, each by those that it calls. -/
theorem safeWithin_succ {fuel : Nat} (h : SafeWithin incoming fuel) : SafeWithin incoming (fuel + 1) := by
  obtain ⟨hnode, hnodeUnless, hblockItems, hunindentedItems, hblockPairs, hflowItems, hflowPairs⟩ := h
  constructor
  case node =>
    intro inBlock unindented
    mvcgen [node, hunindentedItems, hflowItems, hflowPairs, hblockItems, hblockPairs]
  case nodeUnless =>
    intro stops inBlock unindented
    mvcgen [nodeUnless, hnode]
  case blockItems => mvcgen [blockItems, hnodeUnless, hblockItems]
  case unindentedItems => mvcgen [unindentedItems, hnodeUnless, hunindentedItems]
  case blockPairs => mvcgen [blockPairs, hnodeUnless, hblockPairs]
  case flowItems =>
    intro isFirst
    mvcgen [flowItems, hnode, hnodeUnless, hflowItems]
  case flowPairs =>
    intro isFirst
    mvcgen [flowPairs, hnode, hnodeUnless, hflowPairs]

/-- The steps that read nodes call each other with less fuel, so they are safe together. -/
theorem safeWithin (fuel : Nat) : SafeWithin incoming fuel := by
  induction fuel with
  | zero => exact safeWithin_zero
  | succ fuel ih => exact safeWithin_succ ih

/-- Reading a node is safe. -/
@[spec]
theorem safe_node (inBlock unindented : Bool) (fuel : Nat) : Safe incoming (node inBlock unindented fuel) :=
  (safeWithin fuel).node inBlock unindented

/-! ## Documents -/

/-- Reading the directives of a document is safe, by induction over them. -/
@[spec]
theorem safe_directives (versioned : Bool) (fuel : Nat) : Safe incoming (directives versioned fuel) := by
  induction fuel generalizing versioned with
  | zero => mvcgen [directives]
  | succ fuel ih => mvcgen [directives, ih]

/-- Passing the ends of documents is safe, by induction over them. -/
@[spec]
theorem safe_documentEnds (fuel : Nat) : Safe incoming (documentEnds fuel) := by
  induction fuel with
  | zero => mvcgen [documentEnds]
  | succ fuel ih => mvcgen [documentEnds, ih]

/-- Asking for a directive is safe. -/
@[spec]
theorem safe_seesDirective : Safe incoming seesDirective := by
  mvcgen [seesDirective]

/-- Reading the one document of a text is safe. -/
@[spec]
theorem safe_document (fuel : Nat) : Safe incoming (document fuel) := by
  mvcgen [document]

end Read

/-- Reading a text into nodes fails only with what the text warrants. -/
theorem warranted_of_graphOf {error : Error} (h : graphOf incoming = .error error) :
    Warranted incoming error := by
  unfold graphOf at h
  dsimp only at h
  cases hrun : (Read.document (16 * incoming.text.length + 16)).run ⟨.start incoming, #[], [], []⟩ with
  | error error' =>
    rw [hrun] at h
    cases h
    exact error_of_run (Read.safe_document _) (Cursor.within_start incoming) hrun
  | ok result =>
    rw [hrun] at h
    cases h

end GuidedTour.Yaml
