import GuidedTour.CommandLine.Options
import Mathlib.Data.List.Basic

/-!
# What arguments ask for

Arguments are read in items from left to right: the option for the interpreter together with the argument behind it, an
option that stands alone, or a path (`Item`). Reading an item changes the options by what the item asks for and goes on
with the arguments behind it (`Options.extend_item`), so what a list of items asks for can be told without reading it
(`Options.asked`). Where no item begins, the argument there is an unknown option (`Options.extend_stuck`).

Any arguments are items up to their end or up to a place where no item begins (`exists_items`). Hence
`Options.parse_items`: which arguments can be read, what they ask for, and which argument is reported otherwise.
-/

set_option autoImplicit false

namespace GuidedTour.CommandLine

/-- What one argument asks for, or two together. A path does not begin with two hyphens. -/
inductive Item where
  | interpreter (value : Text)
  | legacyRules
  | verbose
  | content (path : Text) (plain : ¬['-', '-'] <+: path)

/-- What an item is about. -/
inductive Item.Kind where
  | interpreter | legacyRules | verbose | content
deriving DecidableEq

namespace Item

/-- The arguments of an item. -/
def arguments : Item → List Text
  | interpreter value => ["--interpreter".toList, value]
  | legacyRules => ["--legacy-lexer".toList]
  | verbose => ["--verbose".toList]
  | content path _ => [path]

/-- What an item is about. -/
def kind : Item → Kind
  | interpreter _ => .interpreter
  | legacyRules => .legacyRules
  | verbose => .verbose
  | content _ _ => .content

/-- The name of the interpreter that an item asks for. -/
def interpreter? : Item → Option Text
  | interpreter value => some value
  | _ => none

/-- The path that an item asks for. -/
def path? : Item → Option Text
  | content path _ => some path
  | _ => none

/-- The options after an item. -/
def apply (options : Options) : Item → Options
  | interpreter value => { options with interpreter := value }
  | legacyRules => { options with legacyRules := true }
  | verbose => { options with verbose := true }
  | content path _ => { options with content := .path path }

/-- Items of different kinds ask for different things. -/
theorem apply_comm {first second : Item} (h : first.kind ≠ second.kind) (options : Options) :
    second.apply (first.apply options) = first.apply (second.apply options) := by
  cases first <;> cases second <;> first | rfl | exact absurd rfl h

end Item

/-- No item begins here. -/
def Stuck (argument : Text) (rest : List Text) : Prop := ∀ item : Item, ¬item.arguments <+: argument :: rest

/-- An argument at which no item begins looks like an option. -/
theorem Stuck.hyphens {argument : Text} {rest : List Text} (h : Stuck argument rest) : ['-', '-'] <+: argument := by
  by_contra hplain
  exact h (.content argument hplain) (List.prefix_append [argument] rest)

/-- The option for the interpreter needs an argument behind it. -/
theorem stuck_interpreter : Stuck "--interpreter".toList [] := by
  intro item hbegins
  cases item with
  | interpreter value => exact absurd hbegins.length_le (Nat.not_succ_le_self 1)
  | legacyRules => exact absurd (List.cons_prefix_cons.1 hbegins).1 (by decide)
  | verbose => exact absurd (List.cons_prefix_cons.1 hbegins).1 (by decide)
  | content path plain =>
    have hpath : path = "--interpreter".toList := (List.cons_prefix_cons.1 hbegins).1
    exact plain (hpath ▸ by decide)

/-- Arguments are items up to their end or up to a place where no item begins. -/
theorem exists_items (arguments : List Text) :
    ∃ items : List Item, arguments = items.flatMap Item.arguments ∨
      ∃ argument rest, arguments = items.flatMap Item.arguments ++ argument :: rest ∧ Stuck argument rest := by
  induction hlength : arguments.length using Nat.strongRecOn generalizing arguments with
  | ind length ih =>
    cases arguments with
    | nil => exact ⟨[], .inl rfl⟩
    | cons argument rest =>
      by_cases hstuck : Stuck argument rest
      · exact ⟨[], .inr ⟨argument, rest, rfl, hstuck⟩⟩
      -- An item begins here, and what is behind it is shorter.
      obtain ⟨item, left, hleft⟩ : ∃ item : Item, item.arguments <+: argument :: rest := by
        simpa [Stuck] using hstuck
      have hpos : 0 < item.arguments.length := by cases item <;> exact Nat.succ_pos _
      have hshorter : left.length < length := by
        rw [← hlength, ← hleft, List.length_append]
        omega
      obtain ⟨items, hitems | ⟨argument', rest', hitems, hstuck'⟩⟩ := ih left.length hshorter left rfl
      · exact ⟨item :: items, .inl (by rw [← hleft, hitems, List.flatMap_cons])⟩
      · refine ⟨item :: items, .inr ⟨argument', rest', ?_, hstuck'⟩⟩
        rw [← hleft, hitems, List.flatMap_cons, List.append_assoc]

namespace Options

/-- The options after some items: the last path and the last name of an interpreter count, an option that stands alone
counts wherever it stands, and the rest stays. -/
def asked (options : Options) (items : List Item) : Options where
  content := ((items.filterMap Item.path?).getLast?.map Content.Source.path).getD options.content
  interpreter := (items.filterMap Item.interpreter?).getLast?.getD options.interpreter
  legacyRules := options.legacyRules || items.any (·.kind = .legacyRules)
  verbose := options.verbose || items.any (·.kind = .verbose)

/-- What the first item asks for is changed by what the items behind it ask for. -/
theorem asked_cons (options : Options) (item : Item) (items : List Item) :
    options.asked (item :: items) = (item.apply options).asked items := by
  cases item with
  | interpreter value => simp [asked, Item.apply, Item.path?, Item.interpreter?, Item.kind, List.getLast?_cons]
  | legacyRules => simp [asked, Item.apply, Item.path?, Item.interpreter?, Item.kind]
  | verbose => simp [asked, Item.apply, Item.path?, Item.interpreter?, Item.kind]
  | content path plain =>
    have hpath : ((.content path plain :: items).filterMap Item.path?).getLast? =
        some ((items.filterMap Item.path?).getLast?.getD path) := List.getLast?_cons
    simp only [asked, hpath]
    cases (items.filterMap Item.path?).getLast? <;> rfl

/-- An argument is read alone unless it is the option for the interpreter with a value behind it. -/
theorem extend_cons {options : Options} {argument : Text} {rest : List Text}
    (h : argument ≠ interpreterFlag ∨ rest = []) :
    options.extend (argument :: rest) = options.alone argument >>= fun options => options.extend rest := by
  cases rest with
  | nil =>
    rw [extend]
    cases options.alone argument <;> rfl
  | cons value more => rw [extend, if_neg (h.resolve_right (List.cons_ne_nil value more))]

/-- An item is read as what it asks for. -/
theorem extend_item (options : Options) (item : Item) (rest : List Text) :
    options.extend (item.arguments ++ rest) = (item.apply options).extend rest := by
  cases item with
  | interpreter value => exact if_pos rfl
  | legacyRules => exact extend_cons (.inl (show legacyFlag ≠ interpreterFlag by decide))
  | verbose => exact extend_cons (.inl (show verboseFlag ≠ interpreterFlag by decide))
  | content path plain =>
    have hflag {flag : Text} (hflag : ['-', '-'] <+: flag) : path ≠ flag := by
      rintro rfl
      exact plain hflag
    have hlooks : looksLikeOption path = false := by
      rw [Bool.eq_false_iff]
      exact fun hlooks => plain (List.isPrefixOf_iff_prefix.1 hlooks)
    have halone : options.alone path = .ok { options with content := .path path } := by
      rw [alone, if_neg (hflag (by decide)), if_neg (hflag (by decide)), hlooks]
      rfl
    rw [Item.arguments, List.singleton_append, extend_cons (.inl (hflag (by decide))), halone]
    rfl

/-- Some items are read as what they ask for, one after another. -/
theorem extend_items (options : Options) (items : List Item) (rest : List Text) :
    options.extend (items.flatMap Item.arguments ++ rest) = (options.asked items).extend rest := by
  induction items generalizing options with
  | nil => simp [asked]
  | cons item items ih => rw [List.flatMap_cons, List.append_assoc, extend_item, ih, asked_cons]

/-- Where no item begins, the argument is an unknown option. -/
theorem extend_stuck {argument : Text} {rest : List Text} (h : Stuck argument rest) (options : Options) :
    options.extend (argument :: rest) = .error ⟨argument⟩ := by
  have hlegacy : argument ≠ legacyFlag := by
    rintro rfl
    exact h .legacyRules (List.prefix_append [legacyFlag] rest)
  have hverbose : argument ≠ verboseFlag := by
    rintro rfl
    exact h .verbose (List.prefix_append [verboseFlag] rest)
  have hinterpreter : argument ≠ interpreterFlag ∨ rest = [] := by
    cases rest with
    | nil => exact .inr rfl
    | cons value more =>
      refine .inl ?_
      rintro rfl
      exact h (.interpreter value) (List.prefix_append [interpreterFlag, value] more)
  have halone : options.alone argument = .error ⟨argument⟩ := by
    have hlooks : looksLikeOption argument = true := List.isPrefixOf_iff_prefix.2 h.hyphens
    rw [alone, if_neg hlegacy, if_neg hverbose, if_pos hlooks]
  rw [extend_cons hinterpreter, halone]
  rfl

/-- Arguments can be read if and only if they are items, and then they ask for what the items ask for. Otherwise items
lead up to the unknown option that is reported: an argument with two hyphens at which no item begins, such as the option
for the interpreter at the very end. Neighbouring items of different kinds may change places. All this holds wherever
the document that comes with the program lies. -/
theorem parse_items (installed : Text) :
    (∀ arguments options, parse installed arguments = .ok options ↔
      ∃ items : List Item, arguments = items.flatMap Item.arguments ∧ options = (standard installed).asked items) ∧
    (∀ arguments unknown, parse installed arguments = .error unknown ↔
      ∃ (items : List Item) (rest : List Text),
        arguments = items.flatMap Item.arguments ++ unknown.argument :: rest ∧
        ['-', '-'] <+: unknown.argument ∧ ∀ item : Item, ¬item.arguments <+: unknown.argument :: rest) ∧
    (∀ unknown : UnknownOption, unknown.message = "Unknown option: ".toList ++ unknown.argument) ∧
    (∀ items : List Item, parse installed (items.flatMap Item.arguments ++ ["--interpreter".toList]) =
      .error ⟨"--interpreter".toList⟩) ∧
    ∀ (items : List Item) (first second : Item) (rest : List Text), first.kind ≠ second.kind →
      parse installed (items.flatMap Item.arguments ++ (first.arguments ++ (second.arguments ++ rest))) =
        parse installed (items.flatMap Item.arguments ++ (second.arguments ++ (first.arguments ++ rest))) := by
  have hitems (items : List Item) :
      parse installed (items.flatMap Item.arguments) = .ok ((standard installed).asked items) := by
    have hread := extend_items (standard installed) items []
    rwa [List.append_nil] at hread
  have hstuck {items : List Item} {argument : Text} {rest : List Text} (h : Stuck argument rest) :
      parse installed (items.flatMap Item.arguments ++ argument :: rest) = .error ⟨argument⟩ := by
    rw [parse, extend_items, extend_stuck h]
  refine ⟨fun arguments options => ⟨fun h => ?_, ?_⟩, fun arguments unknown => ⟨fun h => ?_, ?_⟩, fun _ => rfl,
    fun items => hstuck stuck_interpreter, fun items first second rest hkinds => ?_⟩
  · obtain ⟨items, rfl | ⟨argument, rest, rfl, hbegins⟩⟩ := exists_items arguments
    · rw [hitems] at h
      exact ⟨items, rfl, (Except.ok.inj h).symm⟩
    · rw [hstuck hbegins] at h
      cases h
  · rintro ⟨items, rfl, rfl⟩
    exact hitems items
  · obtain ⟨items, rfl | ⟨argument, rest, rfl, hbegins⟩⟩ := exists_items arguments
    · rw [hitems] at h
      cases h
    · rw [hstuck hbegins] at h
      cases h
      exact ⟨items, rest, rfl, hbegins.hyphens, hbegins⟩
  · rintro ⟨items, rest, rfl, -, hbegins⟩
    exact hstuck hbegins
  · rw [parse, parse, extend_items, extend_items, extend_item, extend_item, extend_item, extend_item,
      Item.apply_comm hkinds]

/-- The value of the option for the interpreter may look like an option, also like the option itself. Behind such a
value a path and an option may change places, whether or not the arguments can be read to their end. -/
theorem parse_items_reordered :
    (∀ path : ¬['-', '-'] <+: "tour.yml".toList, (Item.content "tour.yml".toList path).kind ≠ Item.verbose.kind) ∧
    parse "default.yml".toList
        ["--interpreter".toList, "--verbose".toList, "tour.yml".toList, "--verbose".toList, "--fast".toList] =
      parse "default.yml".toList
        ["--interpreter".toList, "--verbose".toList, "--verbose".toList, "tour.yml".toList, "--fast".toList] ∧
    parse "default.yml".toList
        ["--interpreter".toList, "--interpreter".toList, "tour.yml".toList, "--verbose".toList] =
      .ok ⟨.path "tour.yml".toList, "--interpreter".toList, false, true⟩ := by
  obtain ⟨hok, -, -, -, hswap⟩ := parse_items "default.yml".toList
  have hplain : ¬['-', '-'] <+: "tour.yml".toList := by decide
  let tour := Item.content "tour.yml".toList hplain
  have hkinds : tour.kind ≠ Item.verbose.kind := show Item.Kind.content ≠ Item.Kind.verbose by decide
  refine ⟨fun _ => hkinds, ?_, ?_⟩
  · exact hswap [.interpreter "--verbose".toList] tour .verbose ["--fast".toList] hkinds
  · exact (hok _ _).2 ⟨[.interpreter "--interpreter".toList, tour, .verbose], rfl, rfl⟩

end Options

end GuidedTour.CommandLine
