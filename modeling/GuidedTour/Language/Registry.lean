import GuidedTour.Language.Basic
import GuidedTour.Log
import GuidedTour.Text.Quoted

/-!
# The registry of languages

A language is registered once under its identifier. Registering the same language again gives the first
registration back, and a different one under the same identifier is refused. Registrations are numbered,
so that it can be said that two answers are the same registration and not merely equal.
-/

set_option autoImplicit false

namespace GuidedTour

/-- Why a registry refuses. -/
inductive RegistrationError where
  /-- The theme leaves tokens of these classes without a colour. -/
  | missingColours (id : Text) (classes : List TokenClass)
  /-- Another language has the identifier. -/
  | conflict (id : Text)
  /-- No language has the identifier. -/
  | unknown (id : Text)
deriving DecidableEq, Repr

/-- The report of a refusal. -/
def RegistrationError.message : RegistrationError → Text
  | missingColours id classes =>
    "Theme for ".toList ++ Text.quoted id ++ " has no colour for: ".toList
      ++ TokenClass.names classes
  | conflict id =>
    "Language ".toList ++ Text.quoted id
      ++ " is already registered with a different grammar".toList
  | unknown id => "Language ".toList ++ Text.quoted id ++ " is not registered".toList

/-- A registration: its number among all registrations, and the language. -/
structure Registered (α : Type) where
  number : Nat
  language : Language α
deriving DecidableEq, Repr, Inhabited

/-- The languages that are registered, in the order of their registration. -/
structure Registry (α : Type) where
  languages : List (Language α)
deriving DecidableEq, Repr, Inhabited

namespace Registry

variable {α κ : Type}

/-- The registry without a language. -/
def empty : Registry α := ⟨[]⟩

/-- The registration under an identifier. -/
def find? (registry : Registry α) (id : Text) : Option (Registered α) :=
  (registry.languages.zipIdx.find? (·.1.id == id)).map fun found => ⟨found.2, found.1⟩

/-- Whether an identifier is taken. -/
def isRegistered (registry : Registry α) (id : Text) : Bool := (registry.find? id).isSome

/-- The registration under an identifier, or the refusal. -/
def get (registry : Registry α) (id : Text) : Except RegistrationError (Registered α) :=
  match registry.find? id with
  | some registered => .ok registered
  | none => .error (.unknown id)

/-- What a successful registration gives: the registration, the registry after it, and its report. -/
structure Accepted (α : Type) where
  registered : Registered α
  registry : Registry α
  logs : List LogLine
deriving Repr, Inhabited

/-- Registers rules and colours under an identifier. Colours for every class that the rules can produce
come first, then the agreement with an earlier registration. -/
def register [DecidableEq α] (registry : Registry α) (id : Text) (rules : List (Rule α))
    (colours : List (TokenClass × Colour)) : Except RegistrationError (Accepted α) :=
  let language : Language α := ⟨id, rules, Theme.ofPairs colours⟩
  let missing := language.theme.missing rules
  if !missing.isEmpty then .error (.missingColours id missing)
  else
    match registry.find? id with
    | some existing =>
      if existing.language = language then
        .ok ⟨existing, registry, [⟨.debug, .highlighting,
          "Language ".toList ++ Text.quoted id ++ " already registered".toList⟩]⟩
      else .error (.conflict id)
    | none =>
      .ok ⟨⟨registry.languages.length, language⟩, ⟨registry.languages ++ [language]⟩,
        [⟨.info, .highlighting, "Registered language ".toList ++ Text.quoted id
          ++ [' ', '('] ++ Text.ofNat rules.length ++ " rules)".toList⟩]⟩

/-- Registers the language of the tour unless its identifier is taken already. -/
def ensure [DecidableEq α] (registry : Registry α) (rules : List (Rule α)) : Except RegistrationError (Accepted α) :=
  match registry.find? Language.tourId with
  | some existing => .ok ⟨existing, registry, []⟩
  | none => registry.register Language.tourId rules Theme.standard

/-! ## Requests -/

/-- What a registry can be asked. -/
inductive Request (α : Type) where
  | register (id : Text) (rules : List (Rule α)) (colours : List (TokenClass × Colour))
  | ensure (rules : List (Rule α))
  | get (id : Text)
  | isRegistered (id : Text)
  | grammar (id : Text)
  | colours (id : Text)
  | colour (id : Text) (cls : TokenClass)
  | tokens (id : Text) (source : Text)
deriving Repr

/-- What a registry answers. -/
inductive Reply (α : Type) where
  | registered (registered : Registered α)
  | truth (value : Bool)
  | grammar (pairs : List (α × String))
  | colours (pairs : List (String × Colour))
  | colour (colour? : Option Colour)
  | tokens (tokens : List Token)
deriving Repr

/-- An answer or a refusal, with the registry after it and the report. -/
structure Step (α : Type) where
  reply : Except RegistrationError (Reply α)
  registry : Registry α
  logs : List LogLine

/-- The step of a registration. A refusal leaves the registry as it was. -/
def registering (registry : Registry α) : Except RegistrationError (Accepted α) → Step α
  | .ok accepted => ⟨.ok (.registered accepted.registered), accepted.registry, accepted.logs⟩
  | .error e => ⟨.error e, registry, []⟩

/-- The step of a question about the language under an identifier. -/
def asking (registry : Registry α) (id : Text) (reply : Registered α → Reply α) : Step α :=
  ⟨(registry.get id).map reply, registry, []⟩

/-- What a registry does with a request. -/
def answer [DecidableEq α] [Matching α κ] (registry : Registry α) : Request α → Step α
  | .register id rules colours => registering registry (registry.register id rules colours)
  | .ensure rules => registering registry (registry.ensure rules)
  | .get id => asking registry id .registered
  | .isRegistered id => ⟨.ok (.truth (registry.isRegistered id)), registry, []⟩
  | .grammar id => asking registry id fun r => .grammar r.language.grammar
  | .colours id => asking registry id fun r => .colours r.language.colours
  | .colour id cls => asking registry id fun r => .colour (r.language.colour? cls)
  | .tokens id source => asking registry id fun r => .tokens (r.language.tokens source)

end Registry

end GuidedTour
