import RelayFold.Library.CodeUnits

/-! The tokens of JSON texts: blanks, strings and numbers. -/
namespace JsonText

open CodeUnits

/-- How numbers are read from their tokens, and how they are written. -/
structure NumberFormat (Number : Type) where
  read : Text → Number
  write : Number → Text

/-- Numbers as their tokens. -/
def tokenFormat : NumberFormat Text := ⟨id, id⟩

/-- The white space of the grammar. `trim` removes more than this. -/
def isBlank (c : UInt16) : Bool := c = 0x20 || c = 0x09 || c = 0x0A || c = 0x0D

abbrev Blanks (text : Text) : Prop := ∀ c ∈ text, isBlank c = true

def skipBlanks (text : Text) : Text := text.dropWhile isBlank

theorem skipBlanks_append {blanks : Text} (h : Blanks blanks) {c : UInt16} {rest : Text}
    (hNext : isBlank c = false) : skipBlanks (blanks ++ c :: rest) = c :: rest := by
  rw [skipBlanks, List.dropWhile_append_of_pos h, List.dropWhile_cons_of_neg (by simp [hNext])]

theorem skipBlanks_blanks {blanks : Text} (h : Blanks blanks) : skipBlanks blanks = [] :=
  List.dropWhile_eq_nil_iff.mpr h

/-- Every text is its leading blanks and what skipping leaves. -/
theorem skipBlanks_split (text : Text) :
    ∃ blanks, Blanks blanks ∧ text = blanks ++ skipBlanks text ∧
      ∀ c ∈ (skipBlanks text).head?, isBlank c = false := by
  refine ⟨text.takeWhile isBlank, fun c hMem => List.mem_takeWhile_imp hMem,
    List.takeWhile_append_dropWhile.symm, fun c hHead => ?_⟩
  have hNot := List.head?_dropWhile_not isBlank text
  rw [skipBlanks] at hHead
  rw [Option.mem_def.mp hHead] at hNot
  simpa using hNot

/-! ### Strings -/

def hexDigit? (c : UInt16) : Option UInt16 :=
  if unit '0' ≤ c ∧ c ≤ unit '9' then some (c - unit '0')
  else if unit 'a' ≤ c ∧ c ≤ unit 'f' then some (c - unit 'a' + 10)
  else if unit 'A' ≤ c ∧ c ≤ unit 'F' then some (c - unit 'A' + 10)
  else none

def hexUnit? (a b c d : UInt16) : Option UInt16 := do
  let a ← hexDigit? a
  let b ← hexDigit? b
  let c ← hexDigit? c
  let d ← hexDigit? d
  return ((a * 16 + b) * 16 + c) * 16 + d

def shortEscapes : List (UInt16 × UInt16) :=
  [(unit '"', unit '"'), (unit '\\', unit '\\'), (unit '/', unit '/'), (unit 'b', 0x08),
    (unit 'f', 0x0C), (unit 'n', 0x0A), (unit 'r', 0x0D), (unit 't', 0x09)]

/-- The rest of a string after its opening quote. -/
def readString : Text → Option (Text × Text)
  | [] => none
  | c :: rest =>
      if c = unit '"' then some ([], rest)
      else if c = unit '\\' then
        match rest with
        | [] => none
        | e :: rest =>
            if e = unit 'u' then
              match rest with
              | a :: b :: c :: d :: rest => do
                  let value ← hexUnit? a b c d
                  let (text, rest) ← readString rest
                  return (value :: text, rest)
              | _ => none
            else do
              let value ← shortEscapes.lookup e
              let (text, rest) ← readString rest
              return (value :: text, rest)
      else if c < 0x20 then none
      else do
        let (text, rest) ← readString rest
        return (c :: text, rest)

/-- The texts between the quotes that stand for a string. -/
inductive Escaped : Text → Text → Prop
  | nil : Escaped [] []
  | plain {c : UInt16} {text body : Text} (hQuote : c ≠ unit '"') (hEscape : c ≠ unit '\\')
      (hControl : ¬c < 0x20) (h : Escaped text body) : Escaped (c :: text) (c :: body)
  | short {e value : UInt16} {text body : Text} (hNotHex : e ≠ unit 'u')
      (hEscape : shortEscapes.lookup e = some value) (h : Escaped text body) :
      Escaped (value :: text) (unit '\\' :: e :: body)
  | hex {a b c d value : UInt16} {text body : Text} (hValue : hexUnit? a b c d = some value)
      (h : Escaped text body) :
      Escaped (value :: text) (unit '\\' :: unit 'u' :: a :: b :: c :: d :: body)

/-- The equation of the reader, in one piece. -/
theorem readString_cons (c : UInt16) (rest : Text) :
    readString (c :: rest) = if c = unit '"' then some ([], rest)
      else if c = unit '\\' then
        match rest with
        | [] => none
        | e :: rest =>
            if e = unit 'u' then
              match rest with
              | a :: b :: c :: d :: rest => do
                  let value ← hexUnit? a b c d
                  let (text, rest) ← readString rest
                  return (value :: text, rest)
              | _ => none
            else do
              let value ← shortEscapes.lookup e
              let (text, rest) ← readString rest
              return (value :: text, rest)
      else if c < 0x20 then none
      else do
        let (text, rest) ← readString rest
        return (c :: text, rest) := by
  rw [readString.eq_def]
  rfl

/-- A string is read back from every way of escaping it, up to the closing
quotation mark. -/
theorem Escaped.readString {text body : Text} (h : Escaped text body) (rest : Text) :
    readString (body ++ unit '"' :: rest) = some (text, rest) := by
  induction h with
  | nil => rw [List.nil_append, readString_cons, if_pos rfl]
  | plain hQuote hEscape hControl _ ih =>
      rw [List.cons_append, readString_cons, if_neg hQuote, if_neg hEscape, if_neg hControl, ih]
      rfl
  | short hNotHex hEscape _ ih =>
      rw [List.cons_append, List.cons_append, readString_cons, if_neg (by decide), if_pos rfl]
      dsimp only
      rw [if_neg hNotHex, hEscape, ih]
      rfl
  | hex hValue _ ih =>
      simp only [List.cons_append]
      rw [readString_cons, if_neg (by decide), if_pos rfl]
      dsimp only
      rw [if_pos rfl, hValue, ih]
      rfl

/-- The reader of strings is exact: it accepts the escaped texts that are
closed, and nothing else. -/
theorem readString_iff {input text rest : Text} :
    readString input = some (text, rest) ↔
      ∃ body, Escaped text body ∧ input = body ++ unit '"' :: rest := by
  constructor
  · intro h
    fun_induction readString input generalizing text rest with
    | case1 | case3 | case5 | case7 => cases h
    | case2 =>
        cases h
        exact ⟨[], .nil, rfl⟩
    | case4 a b c d more _ ih =>
        obtain ⟨value, hValue, h⟩ := Option.bind_eq_some_iff.mp h
        obtain ⟨⟨tail, left⟩, hTail, h⟩ := Option.bind_eq_some_iff.mp h
        cases h
        obtain ⟨body, hBody, rfl⟩ := ih hTail
        exact ⟨_, .hex hValue hBody, rfl⟩
    | case6 e more hNotHex _ ih =>
        obtain ⟨value, hValue, h⟩ := Option.bind_eq_some_iff.mp h
        obtain ⟨⟨tail, left⟩, hTail, h⟩ := Option.bind_eq_some_iff.mp h
        cases h
        obtain ⟨body, hBody, rfl⟩ := ih hTail
        exact ⟨_, .short hNotHex hValue hBody, rfl⟩
    | case8 c more hQuote hEscape hControl ih =>
        obtain ⟨⟨tail, left⟩, hTail, h⟩ := Option.bind_eq_some_iff.mp h
        cases h
        obtain ⟨body, hBody, rfl⟩ := ih hTail
        exact ⟨_, .plain hQuote hEscape hControl hBody, rfl⟩
  · rintro ⟨body, hBody, rfl⟩
    exact hBody.readString rest

/-! ### Numbers -/

def isDigit (c : UInt16) : Bool := unit '0' ≤ c && c ≤ unit '9'

def isDigits (text : Text) : Bool := text ≠ [] && text.all isDigit

def isExponent : Text → Bool
  | [] => true
  | e :: rest => (e = unit 'e' || e = unit 'E') && match rest with
    | [] => false
    | sign :: digits =>
        if sign = unit '+' ∨ sign = unit '-' then isDigits digits else isDigits rest

/-- What may follow the integer part of a number. -/
def isFraction : Text → Bool
  | [] => true
  | c :: rest =>
      if c = unit '.' then isDigits (rest.takeWhile isDigit) && isExponent (rest.dropWhile isDigit)
      else isExponent (c :: rest)

def isUnsigned (text : Text) : Bool :=
  let integer := text.takeWhile isDigit
  (integer = [unit '0'] || isDigits integer && integer.head? ≠ some (unit '0')) &&
    isFraction (text.dropWhile isDigit)

def isNumber : Text → Bool
  | [] => false
  | c :: rest => if c = unit '-' then isUnsigned rest else isUnsigned (c :: rest)

def isNumberUnit (c : UInt16) : Bool :=
  isDigit c || c = unit '-' || c = unit '+' || c = unit '.' || c = unit 'e' || c = unit 'E'

/-- No number goes on after a blank, a comma or a bracket, so that a token can
be taken as far as the code units of numbers go. -/
def readNumber {Number : Type} (format : NumberFormat Number) (text : Text) :
    Option (Number × Text) :=
  let token := text.takeWhile isNumberUnit
  if isNumber token then some (format.read token, text.dropWhile isNumberUnit) else none

theorem isNumberUnit_of_isDigit {c : UInt16} (h : isDigit c = true) : isNumberUnit c = true := by
  simp [isNumberUnit, h]

theorem isDigits_units {text : Text} (h : isDigits text = true) :
    ∀ c ∈ text, isNumberUnit c = true := by
  intro c hMem
  have hAll : text.all isDigit = true := (Bool.and_eq_true_iff.mp h).2
  exact isNumberUnit_of_isDigit (List.all_eq_true.mp hAll c hMem)

/-- An exponent consists of units that a number may hold. -/
theorem isExponent_units {text : Text} (h : isExponent text = true) :
    ∀ c ∈ text, isNumberUnit c = true := by
  rcases text with _ | ⟨e, _ | ⟨sign, digits⟩⟩
  · simp
  · simp [isExponent] at h
  · rw [isExponent, Bool.and_eq_true, Bool.or_eq_true, decide_eq_true_eq, decide_eq_true_eq] at h
    obtain ⟨hMark, h⟩ := h
    have hFirst : isNumberUnit e = true := by
      rcases hMark with rfl | rfl <;> decide
    refine List.forall_mem_cons.mpr ⟨hFirst, ?_⟩
    split at h
    · rename_i hSign
      have hSecond : isNumberUnit sign = true := by
        rcases hSign with rfl | rfl <;> decide
      exact List.forall_mem_cons.mpr ⟨hSecond, isDigits_units h⟩
    · exact isDigits_units h

/-- So does a fraction. -/
theorem isFraction_units {text : Text} (h : isFraction text = true) :
    ∀ c ∈ text, isNumberUnit c = true := by
  rcases text with _ | ⟨c, rest⟩
  · simp
  · rw [isFraction] at h
    split at h
    · rename_i hPoint
      obtain ⟨hDigits, hExponent⟩ := Bool.and_eq_true_iff.mp h
      rw [← List.takeWhile_append_dropWhile (p := isDigit) (l := rest)]
      refine List.forall_mem_cons.mpr ⟨by rw [hPoint]; decide, List.forall_mem_append.mpr
        ⟨isDigits_units hDigits, isExponent_units hExponent⟩⟩
    · exact isExponent_units h

theorem isUnsigned_units {text : Text} (h : isUnsigned text = true) :
    ∀ c ∈ text, isNumberUnit c = true := by
  obtain ⟨_, hFraction⟩ := Bool.and_eq_true_iff.mp h
  rw [← List.takeWhile_append_dropWhile (p := isDigit) (l := text)]
  exact List.forall_mem_append.mpr ⟨fun c hMem =>
    isNumberUnit_of_isDigit (List.mem_takeWhile_imp hMem), isFraction_units hFraction⟩

/-- A number is therefore read as far as such units reach; the reader need not
look further ahead. -/
theorem isNumber_units {text : Text} (h : isNumber text = true) :
    ∀ c ∈ text, isNumberUnit c = true := by
  rcases text with _ | ⟨c, rest⟩
  · cases h
  · rw [isNumber] at h
    split at h
    · rename_i hSign
      exact List.forall_mem_cons.mpr ⟨by rw [hSign]; decide, isUnsigned_units h⟩
    · exact isUnsigned_units h

/-- A text on which no number goes on. -/
def EndsNumber (rest : Text) : Prop := ∀ c ∈ rest.head?, isNumberUnit c = false

/-- The reader of numbers is exact: it takes a number up to the first unit that
could not continue one. -/
theorem readNumber_iff {Number : Type} {format : NumberFormat Number} {input rest : Text}
    {value : Number} :
    readNumber format input = some (value, rest) ↔
      ∃ token, isNumber token = true ∧ format.read token = value ∧ EndsNumber rest ∧
        input = token ++ rest := by
  unfold readNumber
  dsimp only
  constructor
  · intro h
    split at h
    · rename_i hNumber
      cases h
      refine ⟨_, hNumber, rfl, fun c hHead => ?_, List.takeWhile_append_dropWhile.symm⟩
      have hNot := List.head?_dropWhile_not isNumberUnit input
      rw [Option.mem_def.mp hHead] at hNot
      simpa using hNot
    · cases h
  · rintro ⟨token, hNumber, rfl, hEnds, rfl⟩
    have hUnits := isNumber_units hNumber
    have hTake : rest.takeWhile isNumberUnit = [] := by
      cases rest with
      | nil => rfl
      | cons c rest => exact List.takeWhile_cons_of_neg (by simp [hEnds c rfl])
    have hDrop : rest.dropWhile isNumberUnit = rest := by
      cases rest with
      | nil => rfl
      | cons c rest => exact List.dropWhile_cons_of_neg (by simp [hEnds c rfl])
    rw [List.takeWhile_append_of_pos hUnits, List.dropWhile_append_of_pos hUnits, hTake, hDrop,
      List.append_nil, if_pos hNumber]

end JsonText
