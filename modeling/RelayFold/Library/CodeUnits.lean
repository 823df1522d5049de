import Mathlib.Data.List.DropRight
import Mathlib.Tactic.Common

/-! Texts as JavaScript has them: sequences of UTF-16 code units. -/
namespace CodeUnits

abbrev Text := List UInt16

/-- The code unit of a character of the basic plane. -/
def unit (c : Char) : UInt16 := UInt16.ofNat c.toNat

/-- Characters beyond the basic plane take two code units. -/
def encode (c : Char) : Text :=
  if c.toNat < 0x10000 then [unit c]
  else
    let offset := c.toNat - 0x10000
    [UInt16.ofNat (0xD800 + offset / 0x400), UInt16.ofNat (0xDC00 + offset % 0x400)]

def ofString (s : String) : Text := s.toList.flatMap encode

/-- The characters that `trim` removes and `\s` matches: white space and line
terminators. -/
def isSpace (c : UInt16) : Bool :=
  (9 ≤ c && c ≤ 13) || c = 0x20 || c = 0xA0 || c = 0x1680 || (0x2000 ≤ c && c ≤ 0x200A) ||
    c = 0x2028 || c = 0x2029 || c = 0x202F || c = 0x205F || c = 0x3000 || c = 0xFEFF

def trimStart (text : Text) : Text := text.dropWhile isSpace

def trimEnd (text : Text) : Text := text.rdropWhile isSpace

def trim (text : Text) : Text := trimEnd (trimStart text)

theorem forall_of_all {α : Type} {items : List α} {p : α → Prop} [DecidablePred p]
    (h : items.all (fun a => decide (p a)) = true) : ∀ a ∈ items, p a :=
  fun a hMem => of_decide_eq_true (List.all_eq_true.mp h a hMem)

def Blank (text : Text) : Prop := ∀ c ∈ text, isSpace c = true

/-- A text that neither starts nor ends with a space. -/
structure Tight (text : Text) : Prop where
  nonempty : text ≠ []
  head : ∀ c ∈ text.head?, isSpace c = false
  last : ∀ c ∈ text.getLast?, isSpace c = false

/-- Blanks in front of a text make no difference to the trimmed text. -/
theorem trimStart_blank {blanks : Text} (h : Blank blanks) (text : Text) :
    trimStart (blanks ++ text) = trimStart text := by
  rw [trimStart, List.dropWhile_append_of_pos h, trimStart]

theorem trimEnd_blank {blanks : Text} (h : Blank blanks) (text : Text) :
    trimEnd (text ++ blanks) = trimEnd text := by
  unfold trimEnd List.rdropWhile
  rw [List.reverse_append, List.dropWhile_append_of_pos fun c hMem => h c (List.mem_reverse.mp hMem)]

/-- A text that begins with something else than a blank is not cut at the
front. -/
theorem trimStart_tight {text : Text} (h : Tight text) (rest : Text) :
    trimStart (text ++ rest) = text ++ rest := by
  obtain ⟨c, tail, rfl⟩ := List.exists_cons_of_ne_nil h.nonempty
  rw [trimStart, List.cons_append, List.dropWhile_cons_of_neg (by rw [h.head c rfl]; simp)]

theorem trimEnd_tight {text : Text} (h : Tight text) : trimEnd text = text := by
  rw [trimEnd, List.rdropWhile_eq_self_iff]
  intro hNonempty
  rw [h.last _ (List.getLast?_eq_some_getLast hNonempty)]
  simp

/-- Trimming removes the blanks around a tight text, and no more. -/
theorem trim_around {before after text : Text} (hBefore : Blank before) (hAfter : Blank after)
    (h : Tight text) : trim (before ++ text ++ after) = text := by
  rw [trim, List.append_assoc, trimStart_blank hBefore, trimStart_tight h, trimEnd_blank hAfter,
    trimEnd_tight h]

/-- What trimming leaves, and what it takes away. -/
theorem trim_split (text : Text) : ∃ before after, Blank before ∧ Blank after ∧
    text = before ++ trim text ++ after ∧ (trim text = [] ∨ Tight (trim text)) := by
  refine ⟨text.takeWhile isSpace, (trimStart text).rtakeWhile isSpace,
    fun c hMem => List.mem_takeWhile_imp hMem, fun c hMem => List.mem_rtakeWhile_imp hMem, ?_, ?_⟩
  · rw [List.append_assoc, trim, trimEnd, List.rdropWhile_append_rtakeWhile, trimStart,
      List.takeWhile_append_dropWhile]
  · by_cases hEmpty : trim text = []
    · exact .inl hEmpty
    · refine .inr ⟨hEmpty, fun c hHead => ?_, fun c hLast => ?_⟩
      · obtain ⟨rest, hRest⟩ := List.rdropWhile_prefix isSpace (l := trimStart text)
        have hFirst : (trimStart text).head? = some c := by
          rw [← hRest]
          exact List.mem_head?_append_of_mem_head? hHead
        have hNot := List.head?_dropWhile_not isSpace text
        rw [← trimStart, hFirst] at hNot
        simpa using hNot
      · have hNot := List.rdropWhile_last_not isSpace (trimStart text) hEmpty
        have hLastEq := List.getLast?_eq_some_getLast hEmpty
        rw [Option.mem_def.mp hLast, Option.some.injEq] at hLastEq
        rw [hLastEq]
        exact Bool.not_eq_true _ ▸ hNot

theorem trim_tight {text : Text} (h : Tight text) : trim text = text := by
  have hNone : Blank [] := fun _ hMem => by cases hMem
  simpa using trim_around hNone hNone h

/-- What is not in the first part of a text is looked for in the rest. -/
theorem idxOf?_append {front rest : Text} {c : UInt16} (h : c ∉ front) :
    (front ++ rest).idxOf? c = (rest.idxOf? c).map (· + front.length) := by
  induction front with
  | nil =>
      cases hIndex : rest.idxOf? c <;> simp [hIndex]
  | cons d front ih =>
      rw [List.mem_cons, not_or] at h
      rw [List.cons_append, List.idxOf?_cons, ih h.2]
      cases hIndex : rest.idxOf? c <;> simp [Ne.symm h.1, Nat.add_assoc]

/-- A unit that does not occur before is found at the position where it
stands. -/
theorem idxOf?_append_cons {front rest : Text} {c : UInt16} (h : c ∉ front) :
    (front ++ c :: rest).idxOf? c = some front.length := by
  rw [idxOf?_append h, List.idxOf?_cons]
  simp

end CodeUnits
