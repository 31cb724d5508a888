import Mathlib.Data.List.Forall2
import MixedInteger.Proofs.Spaced

/-!
# Endings of lines

A carriage return before a line feed is part of the ending of a line, and as a blank it is
no part of a word either.  A text has the same lines, up to blanks at their ends, whether
its lines end with a line feed alone or with a carriage return before it.
-/

namespace MixedInteger.Text

/-- The text with a line feed alone for every pair of a carriage return and a line feed. -/
def unreturned : List Char → List Char
  | [] => []
  | '\r' :: '\n' :: rest => '\n' :: unreturned rest
  | c :: rest => c :: unreturned rest

/-! ## Pieces between line feeds -/

/-- Pieces of a text, and the same pieces with a carriage return after some but the last. -/
inductive Returned : List (List Char) → List (List Char) → Prop where
  | last (piece : List Char) : Returned [piece] [piece]
  | same (piece : List Char) {pieces others : List (List Char)} (rest : Returned pieces others) :
      Returned (piece :: pieces) (piece :: others)
  | returned (piece : List Char) {pieces others : List (List Char)}
      (rest : Returned pieces others) : Returned (piece :: pieces) ((piece ++ ['\r']) :: others)

namespace Returned

variable {pieces others : List (List Char)}

theorem ne_nil (returned : Returned pieces others) : pieces ≠ [] ∧ others ≠ [] := by
  cases returned <;> exact ⟨nofun, nofun⟩

/-- Another character at the front is in the first piece of both. -/
theorem modifyHead (c : Char) (returned : Returned pieces others) :
    Returned (pieces.modifyHead (c :: ·)) (others.modifyHead (c :: ·)) := by
  cases returned with
  | last piece => exact .last _
  | same piece rest => exact .same _ rest
  | returned piece rest => exact .returned (c :: piece) rest

/-- The lines of the pieces are the same but for a carriage return at the end. -/
theorem lines (returned : Returned pieces others) :
    List.Forall₂ (fun line other => line = other ∨ line = withoutReturn other)
      (linesOfPieces pieces) (linesOfPieces others) := by
  induction returned with
  | last piece => exact List.forall₂_same.mpr fun _ _ => .inl rfl
  | same piece rest ih =>
      rw [linesOfPieces_cons rest.ne_nil.1, linesOfPieces_cons rest.ne_nil.2]
      exact .cons (.inl rfl) ih
  | returned piece rest ih =>
      rw [linesOfPieces_cons rest.ne_nil.1, linesOfPieces_cons rest.ne_nil.2]
      refine .cons (.inr ?_) ih
      have taken : withoutReturn (piece ++ ['\r']) = piece := by
        rw [withoutReturn, if_pos List.getLast?_concat, List.dropLast_concat]
      rw [taken]

end Returned

theorem returned_unreturned (text : List Char) :
    Returned ((unreturned text).splitOnP (· == '\n')) (text.splitOnP (· == '\n')) := by
  induction text using unreturned.induct with
  | case1 => exact .last []
  | case2 rest ih => exact .returned [] ih
  | case3 c rest apart ih =>
      rw [unreturned, List.splitOnP_cons_eq_if_modifyHead, List.splitOnP_cons_eq_if_modifyHead]
      · by_cases feed : (c == '\n') = true
        · rw [if_pos feed, if_pos feed]
          exact .same [] ih
        · rw [if_neg feed, if_neg feed]
          exact ih.modifyHead c
      · exact apart

/-! ## Blanks at the end of a line -/

/-- A blank at the end is in no word. -/
theorem words_concat {c : Char} (blank : isBlank c = true) (line : List Char) :
    words (line ++ [c]) = words line := by
  unfold words
  rw [List.splitOnP_append_cons line [] blank, List.filter_append]
  exact List.append_nil _

theorem trimmed_concat {c : Char} (blank : isBlank c = true) (line : List Char) :
    trimmed (line ++ [c]) = trimmed line := by
  unfold trimmed
  rw [List.dropWhile_append]
  split
  case isTrue empty =>
      rw [List.isEmpty_iff.mp empty, List.dropWhile_cons_of_pos blank]
      rfl
  case isFalse => rw [List.reverse_append, List.reverse_singleton, List.singleton_append,
      List.dropWhile_cons_of_pos blank]

theorem withoutReturn_cases (line : List Char) :
    withoutReturn line = line ∨ line = withoutReturn line ++ ['\r'] := by
  unfold withoutReturn
  split
  case isTrue last => exact .inr (List.dropLast_append_getLast? _ last).symm
  case isFalse => exact .inl rfl

/-- What is computed from a line up to a blank at its end does not see its carriage return. -/
theorem withoutReturn_unseen {α : Type} {f : List Char → α}
    (unseen : ∀ line, f (line ++ ['\r']) = f line) (line : List Char) :
    f (withoutReturn line) = f line := by
  rcases withoutReturn_cases line with same | longer
  · rw [same]
  · exact (unseen _).symm.trans (congrArg f longer.symm)

/-- Nor does what is computed from the lines of a text see which ending they have. -/
theorem map_lines_unreturned {α : Type} {f : List Char → α}
    (unseen : ∀ line, f (line ++ ['\r']) = f line) (text : List Char) :
    (lines (unreturned text)).map f = (lines text).map f := by
  rw [← List.forall₂_eq_eq_eq, List.forall₂_map_left_iff, List.forall₂_map_right_iff]
  refine (returned_unreturned text).lines.imp fun line other related => ?_
  rcases related with rfl | rfl
  · rfl
  · exact withoutReturn_unseen unseen other

end MixedInteger.Text
