import GuidedTour.Text.LineEnds
import GuidedTour.Text.Utf8

/-!
# Text that comes in piece by piece

The text in some bytes is asked for in pieces, and the bytes are read in portions as far as a piece needs
them. A portion may end inside a character or between the two halves of a line end; what is unfinished
waits for the next one. So broken bytes behind the last portion that was needed are never seen.
-/

set_option autoImplicit false

namespace GuidedTour.Text

/-- The characters in some bytes up to the last one that is complete, and the bytes that begin another.
There is nothing for bytes with a broken stretch in them. -/
def decodePart? : Bytes → Option (Text × Bytes)
  | [] => some ([], [])
  | b :: rest =>
    match (firstOf b rest).1 with
    | some c => (decodePart? (rest.drop (firstOf b rest).2)).map fun part => (c :: part.1, part.2)
    | none =>
      if (lead? b.toNat).isSome ∧ (firstOf b rest).2 = rest.length then some ([], b :: rest) else none
termination_by bytes => bytes.length
decreasing_by simp only [List.length_drop, List.length_cons]; omega

/-- A text that comes in from bytes. -/
structure Inflow where
  /-- The bytes that have not been read. -/
  bytes : Bytes
  /-- The bytes at the end of the last portion that only begin a character. -/
  begun : Bytes
  /-- Whether a carriage return was the last character and waits for the next one. -/
  returned : Bool
  /-- The text that has been read and not been asked for. -/
  ready : Text
  /-- The number of bytes in the last portion. -/
  lastSize : Nat
  /-- The number of characters that came of it. -/
  lastLength : Nat
  /-- Whether the end of the bytes has been seen. -/
  ended : Bool
deriving Repr, Inhabited

namespace Inflow

/-- The text in some bytes before any of it has been asked for. -/
def start (bytes : Bytes) : Inflow := ⟨bytes, [], false, [], 0, 0, false⟩

/-- The least number of bytes in a portion. -/
def leastPortion : Nat := 8192

/-- How many bytes are read when some characters are wanted: as many as the last portion needed for that
many characters, or the least number. -/
def portion (s : Inflow) (wanted : Nat) : Nat :=
  leastPortion.max (if s.lastLength = 0 then 0 else s.lastSize * wanted / s.lastLength)

/-- Reads a portion, for want of some characters. A portion without bytes is the end, where nothing must be
unfinished but a line end. There is nothing for broken bytes. -/
def readPortion (s : Inflow) (wanted : Nat) : Option Inflow :=
  let taken := s.bytes.take (s.portion wanted)
  match decodePart? (s.begun ++ taken) with
  | none => none
  | some (text, begun) =>
    if taken.isEmpty && !begun.isEmpty then none
    else
      let text := if s.returned && (!text.isEmpty || taken.isEmpty) then '\r' :: text else text
      let halved := text.getLast? == some '\r' && !taken.isEmpty
      let text := unifyLineEnds (if halved then text.dropLast else text)
      some ⟨s.bytes.drop taken.length, begun, halved || (s.returned && text.isEmpty && !taken.isEmpty),
        s.ready ++ text, taken.length, text.length, taken.isEmpty⟩

/-- Reads portions until some characters are ready or the bytes end. All portions but the last two bring
characters, so as much fuel as characters and two more lasts. -/
def readUntil (count : Nat) : Nat → Inflow → Option Inflow
  | 0, s => some s
  | fuel + 1, s =>
    if s.ended || count ≤ s.ready.length then some s
    else (s.readPortion (count - s.ready.length)).bind (readUntil count fuel)

/-- The next piece of the text, which is shorter than asked for only at the end, and what is left. There is
nothing if bytes that it needs are broken. -/
def piece? (s : Inflow) (count : Nat) : Option (Text × Inflow) :=
  (readUntil count (count + 2) s).map fun s =>
    (s.ready.take count, { s with ready := s.ready.drop count })

end Inflow

end GuidedTour.Text
