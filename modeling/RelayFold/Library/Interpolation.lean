import Mathlib.Data.List.Basic
import Mathlib.Tactic.Common

/-! Texts with interpolated expressions: a marker and an opening bracket start
one, and a doubled marker takes this meaning away. -/
namespace Interpolation

inductive Piece (α : Type) where
  | unit (a : α)
  | escaped
  | expression (body : List α)
  /-- An expression that is not closed ends the text. -/
  | unterminated (body : List α)

section Reading

variable {α : Type} (marker opening closing : α)

/-- The pieces that a text consists of, from the left. -/
inductive Reads : List α → List (Piece α) → Prop
  | nil : Reads [] []
  | escaped {rest : List α} {pieces : List (Piece α)} (h : Reads rest pieces) :
      Reads (marker :: marker :: opening :: rest) (.escaped :: pieces)
  | expression {body rest : List α} {pieces : List (Piece α)} (hBody : closing ∉ body)
      (h : Reads rest pieces) :
      Reads (marker :: opening :: (body ++ closing :: rest)) (.expression body :: pieces)
  | unterminated {body : List α} (hBody : closing ∉ body) :
      Reads (marker :: opening :: body) [.unterminated body]
  | unit {a : α} {rest : List α} {pieces : List (Piece α)}
      (hEscaped : ¬[marker, marker, opening] <+: a :: rest)
      (hExpression : ¬[marker, opening] <+: a :: rest) (h : Reads rest pieces) :
      Reads (a :: rest) (.unit a :: pieces)

variable {marker opening closing}

variable (marker opening closing) in

/-- Every text is read as some sequence of pieces; what no rule covers is taken
literally. -/
theorem Reads.total [DecidableEq α] (text : List α) :
    ∃ pieces, Reads marker opening closing text pieces := by
  induction hLength : text.length using Nat.strongRecOn generalizing text with
  | _ n ih =>
      cases text with
      | nil => exact ⟨_, .nil⟩
      | cons a rest =>
          rw [List.length_cons] at hLength
          by_cases hEscaped : [marker, marker, opening] <+: a :: rest
          · obtain ⟨tail, hSplit⟩ := hEscaped
            rw [← hSplit]
            simp only [List.cons_append, List.nil_append] at hSplit ⊢
            have hShort := congrArg List.length hSplit
            simp only [List.length_cons] at hShort
            obtain ⟨pieces, h⟩ := ih tail.length (by omega) tail rfl
            exact ⟨_, .escaped h⟩
          by_cases hExpression : [marker, opening] <+: a :: rest
          · obtain ⟨tail, hSplit⟩ := hExpression
            rw [← hSplit]
            simp only [List.cons_append, List.nil_append] at hSplit ⊢
            have hShort := congrArg List.length hSplit
            simp only [List.length_cons] at hShort
            by_cases hClosed : closing ∈ tail
            · obtain ⟨body, after, rfl, hBody⟩ := List.eq_append_cons_of_mem hClosed
              simp only [List.length_append, List.length_cons] at hShort
              obtain ⟨pieces, h⟩ := ih after.length (by omega) after rfl
              exact ⟨_, .expression hBody h⟩
            · exact ⟨_, .unterminated hClosed⟩
          · obtain ⟨pieces, h⟩ := ih rest.length (by omega) rest rfl
            exact ⟨_, .unit hEscaped hExpression h⟩

end Reading

section Escaping

variable {α : Type} [DecidableEq α] (marker opening : α)

/-- Every start of an expression gets a second marker. -/
def escapeAll : List α → List α
  | [] => []
  | [a] => [a]
  | a :: b :: rest =>
      if a = marker ∧ b = opening then marker :: marker :: opening :: escapeAll rest
      else a :: escapeAll (b :: rest)

/-- What a piece without an expression stands for. -/
def Piece.text : Piece α → List α
  | .unit a => [a]
  | .escaped => [marker, opening]
  | .expression _ => []
  | .unterminated _ => []

def Piece.Literal : Piece α → Prop
  | .unit _ => True
  | .escaped => True
  | .expression _ => False
  | .unterminated _ => False

variable {marker opening} {closing : α}

variable (marker opening) in

theorem head?_escapeAll (text : List α) : (escapeAll marker opening text).head? = text.head? := by
  fun_cases escapeAll marker opening text with
  | case1 => rfl
  | case2 a => rfl
  | case3 a b rest h => rw [List.head?_cons, h.1, List.head?_cons]
  | case4 a b rest h => rfl

/-- No opening survives the escaping at the front of a text. -/
theorem not_prefix_escapeAll (hNe : marker ≠ opening) (text : List α) :
    ¬[marker, opening] <+: escapeAll marker opening text := by
  fun_cases escapeAll marker opening text with
  | case1 | case2 => exact fun h => absurd h.length_le (by simp)
  | case3 a b rest h =>
      rw [List.cons_prefix_cons, List.cons_prefix_cons]
      exact fun hPrefix => hNe hPrefix.2.1.symm
  | case4 a b rest h =>
      rw [List.cons_prefix_cons]
      rintro ⟨hFirst, tail, hTail⟩
      have hHead := head?_escapeAll marker opening (b :: rest)
      rw [← hTail] at hHead
      exact h ⟨hFirst.symm, (Option.some.inj hHead).symm⟩

variable (closing) in
/-- An escaped text has no expressions, and stands for the text itself. -/
theorem reads_escapeAll (hNe : marker ≠ opening) (text : List α) :
    ∃ pieces, Reads marker opening closing (escapeAll marker opening text) pieces ∧
      (∀ piece ∈ pieces, piece.Literal) ∧
      pieces.flatMap (Piece.text marker opening) = text := by
  fun_induction escapeAll marker opening text with
  | case1 => exact ⟨[], .nil, by simp, rfl⟩
  | case2 a =>
      refine ⟨[.unit a], .unit (fun h => ?_) (fun h => ?_) .nil, by simp [Piece.Literal], rfl⟩
      · exact absurd h.length_le (by simp)
      · exact absurd h.length_le (by simp)
  | case3 a b rest h ih =>
      obtain ⟨pieces, hReads, hLiteral, hText⟩ := ih
      refine ⟨.escaped :: pieces, .escaped hReads, List.forall_mem_cons.mpr ⟨trivial, hLiteral⟩, ?_⟩
      rw [List.flatMap_cons, hText, h.1, h.2]
      rfl
  | case4 a b rest h ih =>
      obtain ⟨pieces, hReads, hLiteral, hText⟩ := ih
      refine ⟨.unit a :: pieces, .unit ?_ ?_ hReads, List.forall_mem_cons.mpr ⟨trivial, hLiteral⟩,
        ?_⟩
      · rw [List.cons_prefix_cons]
        exact fun hPrefix => not_prefix_escapeAll hNe _ hPrefix.2
      · rw [List.cons_prefix_cons]
        rintro ⟨hFirst, tail, hTail⟩
        have hHead := head?_escapeAll marker opening (b :: rest)
        rw [← hTail] at hHead
        exact h ⟨hFirst.symm, (Option.some.inj hHead).symm⟩
      · rw [List.flatMap_cons, hText]
        rfl

end Escaping

end Interpolation
