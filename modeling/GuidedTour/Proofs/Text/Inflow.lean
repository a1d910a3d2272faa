import GuidedTour.Yaml.Incoming
import Mathlib.Data.List.Basic

/-!
# Broken bytes

A text that comes in piece by piece stops at broken bytes. Since a portion may end inside a character, bytes that
only begin one are kept for the next portion. This loses nothing: reading fails only on bytes that are not UTF-8 as
a whole (`Yaml.Incoming.stop_cases`), wherever the portions and the pages end.

The invariant is that the characters of all bytes are those read so far and those of the bytes that are left, the
begun ones in front (`Text.Inflow.From`).
-/

set_option autoImplicit false

namespace GuidedTour

namespace Text

/-- Bytes with a piece that is no character are not UTF-8. -/
theorem decode?_eq_none_of_mem {bytes : Bytes} (h : none ∈ characters bytes) : decode? bytes = none := by
  unfold decode?
  generalize characters bytes = found at h
  induction found with
  | nil => cases h
  | cons c more ih =>
    cases c with
    | none => rfl
    | some c =>
      have hmore : more.mapM id = none := ih (by simpa using h)
      rw [List.mapM_cons, hmore]
      rfl

/-! ## Characters across the end of a portion -/

/-- No more bytes follow a first one than there are. -/
theorem followers_le (code n low high : Nat) (rest : Bytes) :
    (followers code n low high rest).2 ≤ rest.length := by
  fun_induction followers code n low high rest with
  | case1 => exact Nat.zero_le _
  | case2 => exact Nat.zero_le _
  | case3 code n low high b rest h next ih => exact Nat.succ_le_succ ih
  | case4 => exact Nat.zero_le _

/-- Following bytes are the same whatever comes behind, unless they are fit to follow up to the last. -/
theorem followers_append (code n low high : Nat) (rest more : Bytes)
    (h : (followers code n low high rest).1 = none → (followers code n low high rest).2 ≠ rest.length) :
    followers code n low high (rest ++ more) = followers code n low high rest := by
  fun_induction followers code n low high rest with
  | case1 => rfl
  | case2 => exact absurd rfl (h rfl)
  | case3 code n low high b rest hfit next ih =>
    have hnext : followers (code * 0x40 + (b.toNat - 0x80)) n 0x80 0xbf (rest ++ more) = next := by
      apply ih
      intro hnone hlength
      exact h hnone (congrArg (· + 1) hlength)
    rw [List.cons_append, followers, if_pos hfit, hnext]
  | case4 code n low high b rest hfit => rw [List.cons_append, followers, if_neg hfit]

/-- A first character that is complete stays the same with more bytes behind. -/
theorem firstOf_append (b : UInt8) (rest more : Bytes)
    (h : (firstOf b rest).1 = none → (lead? b.toNat).isSome → (firstOf b rest).2 ≠ rest.length) :
    firstOf b (rest ++ more) = firstOf b rest := by
  unfold firstOf at h ⊢
  cases hlead : lead? b.toNat with
  | none => rfl
  | some lead =>
    rw [hlead] at h
    have hfollowers := followers_append lead.bits lead.following lead.low lead.high rest more
      fun hnone => h (congrArg (Option.map Char.ofNat) hnone) rfl
    dsimp only
    rw [hfollowers]

/-- Behind a first byte no more are passed than there are. -/
theorem firstOf_le (b : UInt8) (rest : Bytes) : (firstOf b rest).2 ≤ rest.length := by
  unfold firstOf
  split
  · exact Nat.zero_le _
  · exact followers_le _ _ _ _ _

/-- Characters are read one after the other, each behind the bytes of the one before. -/
theorem characters_cons (b : UInt8) (rest : Bytes) :
    characters (b :: rest) = (firstOf b rest).1 :: characters (rest.drop (firstOf b rest).2) := by
  rw [characters]

/-- The characters in a portion and the bytes at its end that begin another stand for the portion, whatever comes
behind it. -/
theorem characters_of_decodePart? {bytes begun : Bytes} {text : Text}
    (h : decodePart? bytes = some (text, begun)) (more : Bytes) :
    characters (bytes ++ more) = text.map some ++ characters (begun ++ more) := by
  fun_induction decodePart? bytes generalizing text with
  | case1 =>
    cases h
    rfl
  | case2 b rest c hc ih =>
    obtain ⟨⟨behind, left⟩, hpart, heq⟩ := Option.map_eq_some_iff.1 h
    cases heq
    have hfirst := firstOf_append b rest more fun hnone => by rw [hc] at hnone; cases hnone
    have hdrop : (rest ++ more).drop (firstOf b rest).2 = rest.drop (firstOf b rest).2 ++ more :=
      List.drop_append_of_le_length (firstOf_le b rest)
    rw [List.cons_append, characters_cons, hfirst, hc, hdrop, ih hpart]
    rfl
  | case3 b rest hnone hbegins =>
    cases h
    rfl
  | case4 => cases h

/-- A portion that is broken is broken whatever comes behind it. -/
theorem none_mem_of_decodePart? {bytes : Bytes} (h : decodePart? bytes = none) (more : Bytes) :
    none ∈ characters (bytes ++ more) := by
  fun_induction decodePart? bytes with
  | case1 => cases h
  | case2 b rest c hc ih =>
    have hfirst := firstOf_append b rest more fun hnone => by rw [hc] at hnone; cases hnone
    have hdrop : (rest ++ more).drop (firstOf b rest).2 = rest.drop (firstOf b rest).2 ++ more :=
      List.drop_append_of_le_length (firstOf_le b rest)
    rw [List.cons_append, characters_cons, hfirst, hdrop]
    exact List.mem_cons_of_mem _ (ih (Option.map_eq_none_iff.1 h))
  | case3 => cases h
  | case4 b rest hnone hbroken =>
    have hfirst := firstOf_append b rest more fun _ hlead hlength => hbroken ⟨hlead, hlength⟩
    rw [List.cons_append, characters_cons, hfirst, hnone]
    exact List.mem_cons_self

/-- Bytes that only begin a character are broken if nothing comes behind them. -/
theorem none_mem_of_begun {bytes begun : Bytes} {text : Text} (h : decodePart? bytes = some (text, begun))
    (hbegun : begun ≠ []) : none ∈ characters begun := by
  fun_induction decodePart? bytes generalizing text with
  | case1 =>
    cases h
    exact absurd rfl hbegun
  | case2 b rest c hc ih =>
    obtain ⟨⟨behind, left⟩, hpart, heq⟩ := Option.map_eq_some_iff.1 h
    cases heq
    exact ih hpart
  | case3 b rest hnone hbegins =>
    cases h
    rw [characters_cons, hnone]
    exact List.mem_cons_self
  | case4 => cases h

/-! ## Portions and pieces -/

namespace Inflow

/-- A text on its way in from some bytes: their characters are those that have been read and those of the bytes
that are left. -/
def From (bytes : Bytes) (s : Inflow) : Prop :=
  ∃ read : Text, characters bytes = read.map some ++ characters (s.begun ++ s.bytes)

/-- Nothing has come in at the start. -/
theorem from_start (bytes : Bytes) : From bytes (start bytes) := ⟨[], rfl⟩

variable {bytes : Bytes} {s s' : Inflow} {n : Nat}

/-- A portion is never empty. -/
theorem portion_pos (s : Inflow) (n : Nat) : 0 < s.portion n :=
  Nat.lt_of_lt_of_le (by decide) (Nat.le_max_left leastPortion _)

/-- The begun bytes and a portion stand in front of the bytes behind the portion. -/
theorem begun_append_bytes (s : Inflow) (n : Nat) :
    s.begun ++ s.bytes =
      (s.begun ++ s.bytes.take (s.portion n)) ++ s.bytes.drop (s.bytes.take (s.portion n)).length := by
  rw [List.append_assoc, List.prefix_iff_eq_append.1 (List.take_prefix (s.portion n) s.bytes)]

/-- What has come in is still of the bytes after a portion more. -/
theorem From.readPortion (h : From bytes s) (hs : s.readPortion n = some s') : From bytes s' := by
  obtain ⟨read, hread⟩ := h
  unfold Inflow.readPortion at hs
  dsimp only at hs
  split at hs
  · cases hs
  · rename_i text begun hpart
    split at hs
    · cases hs
    · cases hs
      refine ⟨read ++ text, ?_⟩
      rw [hread, begun_append_bytes s n, characters_of_decodePart? hpart, List.map_append, List.append_assoc]

/-- If a portion cannot be decoded, the bytes hold a piece that is no character. -/
theorem From.broken (h : From bytes s) (hs : s.readPortion n = none) : none ∈ characters bytes := by
  obtain ⟨read, hread⟩ := h
  rw [hread, begun_append_bytes s n]
  apply List.mem_append_right
  unfold Inflow.readPortion at hs
  dsimp only at hs
  split at hs
  · rename_i hpart
    exact none_mem_of_decodePart? hpart _
  · rename_i text begun hpart
    split at hs
    · rename_i hend
      rw [Bool.and_eq_true, Bool.not_eq_true', List.isEmpty_iff, List.isEmpty_eq_false_iff] at hend
      have hbytes : s.bytes = [] :=
        (List.take_eq_nil_iff.1 hend.1).resolve_left (Nat.ne_of_gt (portion_pos s n))
      rw [characters_of_decodePart? hpart, hbytes, List.drop_nil, List.append_nil]
      exact List.mem_append_right _ (none_mem_of_begun hpart hend.2)
    · cases hs

/-- Reading portions until there are enough characters keeps to the bytes, by induction over the fuel. -/
theorem From.readUntil {fuel : Nat} (h : From bytes s) :
    (∀ s', Inflow.readUntil n fuel s = some s' → From bytes s') ∧
      (Inflow.readUntil n fuel s = none → none ∈ characters bytes) := by
  induction fuel generalizing s with
  | zero =>
    refine ⟨?_, nofun⟩
    rintro s' hs
    cases hs
    exact h
  | succ fuel ih =>
    unfold Inflow.readUntil
    split
    · refine ⟨?_, nofun⟩
      rintro s' hs
      cases hs
      exact h
    · cases hportion : s.readPortion (n - s.ready.length) with
      | none => exact ⟨nofun, fun _ => h.broken hportion⟩
      | some next => exact ih (h.readPortion hportion)

/-- What has come in is still of the bytes after a piece is taken. -/
theorem From.piece? (h : From bytes s) {text : Text} (hs : s.piece? n = some (text, s')) : From bytes s' := by
  obtain ⟨next, hnext, heq⟩ := Option.map_eq_some_iff.1 hs
  cases heq
  exact h.readUntil.1 next hnext

/-- If no piece can be had, the bytes hold a piece that is no character. -/
theorem From.broken_piece (h : From bytes s) (hs : s.piece? n = none) : none ∈ characters bytes :=
  h.readUntil.2 (Option.map_eq_none_iff.1 hs)

end Inflow

end Text

namespace Yaml.Incoming

open Text

/-- What can stop a text from some bytes: a character that has no place in YAML, or that the bytes are not
UTF-8. -/
def Stopped (bytes : Bytes) (incoming : Incoming) : Prop :=
  ∀ error, incoming.stop = some error → error = .invalid ∨ (error = .notUtf8 ∧ none ∈ characters bytes)

/-- A page in front of what stops so is stopped so as well. -/
theorem Stopped.page {bytes : Bytes} {text : Text} {more : Incoming} (h : Stopped bytes more) :
    Stopped bytes (page text more) := by
  unfold Incoming.page
  split
  · exact h
  · intro error hstop
    exact .inl (Option.some.inj hstop).symm

/-- Pages of the bytes stop at what is no character, or at one that is not allowed. -/
theorem stopped_pages {bytes : Bytes} (fuel : Nat) {s : Inflow} (h : s.From bytes) :
    Stopped bytes (pages fuel s) := by
  induction fuel generalizing s with
  | zero => exact nofun
  | succ fuel ih =>
    unfold pages
    split
    · rename_i hpiece
      intro error hstop
      exact .inr ⟨(Option.some.inj hstop).symm, h.broken_piece hpiece⟩
    · exact nofun
    · rename_i hpiece
      exact (ih (h.piece? hpiece)).page

/-- What comes in of bytes stops at what is no character, or at one that is not allowed. -/
theorem stopped_ofBytes (bytes : Bytes) : Stopped bytes (ofBytes bytes) := by
  have hstart := Inflow.from_start bytes
  have hnot : none ∈ characters bytes → Stopped bytes ⟨[], some .notUtf8⟩ :=
    fun hbroken error hstop => .inr ⟨(Option.some.inj hstop).symm, hbroken⟩
  unfold ofBytes
  cases hfirst : (Inflow.start bytes).piece? pageLength with
  | none => exact hnot (hstart.broken_piece hfirst)
  | some found =>
    obtain ⟨first, s⟩ := found
    have hs := hstart.piece? hfirst
    cases hsecond : s.piece? pageLength with
    | none =>
      have hbroken := hnot (hs.broken_piece hsecond)
      simpa [hsecond] using hbroken
    | some found =>
      obtain ⟨second, s'⟩ := found
      have hpages : Stopped bytes (page (first ++ second) (pages bytes.length s')) :=
        (stopped_pages bytes.length (hs.piece? hsecond)).page
      simpa [hsecond] using hpages

/-- A text is stopped only by a character that has no place in YAML or by bytes that are not UTF-8. -/
theorem stop_cases {bytes : Bytes} {error : Error} (h : (ofBytes bytes).stop = some error) :
    error = .invalid ∨ (error = .notUtf8 ∧ decode? bytes = none) := by
  rcases stopped_ofBytes bytes error h with hinvalid | ⟨hnot, hbroken⟩
  · exact .inl hinvalid
  · exact .inr ⟨hnot, decode?_eq_none_of_mem hbroken⟩

/-- Bytes that are broken in the first portion do not come in at all. -/
theorem ofBytes_of_broken {bytes : Bytes} (h : decodePart? (bytes.take Inflow.leastPortion) = none) :
    ofBytes bytes = ⟨[], some .notUtf8⟩ := by
  have hportion : (Inflow.start bytes).readPortion pageLength = none := by
    have hsize : (Inflow.start bytes).portion pageLength = Inflow.leastPortion := rfl
    unfold Inflow.readPortion
    rw [hsize]
    dsimp only [Inflow.start]
    rw [List.nil_append, h]
  have hpiece : (Inflow.start bytes).piece? pageLength = none := by
    have hunread : ((Inflow.start bytes).ended ||
        decide (pageLength ≤ (Inflow.start bytes).ready.length)) = false := rfl
    have hwanted : pageLength - (Inflow.start bytes).ready.length = pageLength := rfl
    unfold Inflow.piece?
    rw [Inflow.readUntil, if_neg (ne_true_of_eq_false hunread), hwanted, hportion]
    rfl
  unfold ofBytes
  rw [hpiece]
  rfl

end Yaml.Incoming

end GuidedTour
