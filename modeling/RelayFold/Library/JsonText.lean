import RelayFold.Library.JsonTokens

/-! `JSON.parse`: a reader of JSON texts, and the grammar that it accepts. -/
namespace JsonText

open CodeUnits

inductive Value (Number : Type) where
  | null
  | bool (value : Bool)
  | number (value : Number)
  | string (text : Text)
  | array (items : List (Value Number))
  | object (members : List (Text × Value Number))

/-! ### Lists -/

/-- The text after the next code unit that is not blank, if it is the expected
one. -/
def expect (expected : UInt16) (text : Text) : Option Text :=
  match skipBlanks text with
  | [] => none
  | c :: rest => if c = expected then some rest else none

/-- A fixed unit is read after any number of blanks. -/
theorem expect_iff {expected : UInt16} (hExpected : isBlank expected = false) {text rest : Text} :
    expect expected text = some rest ↔
      ∃ blanks, Blanks blanks ∧ text = blanks ++ expected :: rest := by
  constructor
  · intro h
    obtain ⟨blanks, hBlanks, hSplit, _⟩ := skipBlanks_split text
    rw [expect] at h
    split at h
    · cases h
    · rename_i c tail hSkip
      split at h
      · rename_i hSame
        cases h
        exact ⟨blanks, hBlanks, by rw [← hSame, ← hSkip]; exact hSplit⟩
      · cases h
  · rintro ⟨blanks, hBlanks, rfl⟩
    rw [expect, skipBlanks_append hBlanks hExpected]
    exact if_pos rfl

theorem expect_other {expected c : UInt16} {blanks rest : Text} (hBlanks : Blanks blanks)
    (hNext : isBlank c = false) (hOther : c ≠ expected) :
    expect expected (blanks ++ c :: rest) = none := by
  rw [expect, skipBlanks_append hBlanks hNext]
  exact if_neg hOther

section Lists

variable {α : Type}

abbrev Reader (α : Type) := Text → Option (α × Text)

def readItems (read : Reader α) (close : UInt16) : Nat → Reader (List α)
  | 0, _ => none
  | fuel + 1, text => do
      let (item, rest) ← read text
      match expect close rest with
      | some rest => return ([item], rest)
      | none =>
          let rest ← expect (unit ',') rest
          let (items, rest) ← readItems read close fuel rest
          return (item :: items, rest)

/-- The rest of an array or object after its opening bracket. -/
def readList (read : Reader α) (close : UInt16) (text : Text) : Option (List α × Text) :=
  match expect close text with
  | some rest => some ([], rest)
  | none => readItems read close text.length text

/-- A reader takes blanks and then a token of the value. The token cannot be
taken further where the value ends. -/
structure Accepts (read : Reader α) (Token : α → Text → Prop) (Ends : α → Text → Prop) :
    Prop where
  iff : ∀ text value rest, read text = some (value, rest) ↔ ∃ blanks token, Blanks blanks ∧
    Token value token ∧ Ends value rest ∧ text = blanks ++ token ++ rest
  head : ∀ value token, Token value token → ∃ c tail, token = c :: tail ∧ isBlank c = false ∧
    c ≠ unit ']' ∧ c ≠ unit '}'
  ends : ∀ value blanks c rest, Blanks blanks → c ∈ [unit ',', unit ']', unit '}'] →
    Ends value (blanks ++ c :: rest)

/-- At least one item, with commas between the items. -/
inductive ItemsText (Token : α → Text → Prop) : List α → Text → Prop
  | last {item : α} {before token after : Text} (hBefore : Blanks before)
      (hToken : Token item token) (hAfter : Blanks after) :
      ItemsText Token [item] (before ++ token ++ after)
  | next {item : α} {items : List α} {before token after more : Text} (hBefore : Blanks before)
      (hToken : Token item token) (hAfter : Blanks after) (h : ItemsText Token items more) :
      ItemsText Token (item :: items) (before ++ token ++ after ++ unit ',' :: more)

/-- What stands between the brackets. -/
def ListText (Token : α → Text → Prop) (items : List α) (inner : Text) : Prop :=
  items = [] ∧ Blanks inner ∨ ItemsText Token items inner

variable {read : Reader α} {Token : α → Text → Prop} {Ends : α → Text → Prop} {close : UInt16}

/-- The first item does not look like the end of the list. -/
theorem ItemsText.head (h : Accepts read Token Ends) {items : List α} {inner : Text}
    (hItems : ItemsText Token items inner) : ∃ before c tail, Blanks before ∧
      inner = before ++ c :: tail ∧ isBlank c = false ∧ c ≠ unit ']' ∧ c ≠ unit '}' := by
  cases hItems with
  | @last item before token after hBefore hToken hAfter =>
      obtain ⟨c, tail, rfl, hNext⟩ := h.head _ _ hToken
      exact ⟨before, c, tail ++ after, hBefore, by simp, hNext⟩
  | @next item items before token after more hBefore hToken hAfter _ =>
      obtain ⟨c, tail, rfl, hNext⟩ := h.head _ _ hToken
      exact ⟨before, c, tail ++ after ++ unit ',' :: more, hBefore, by simp, hNext⟩

/-- The items of a list are read exactly where the text is made of them,
separated by commas, and closed. Fuel for the length of the text is enough. -/
theorem readItems_iff (h : Accepts read Token Ends) (hClose : close = unit ']' ∨ close = unit '}')
    {fuel : Nat} {text rest : Text} {items : List α} (hFuel : text.length ≤ fuel) :
    readItems read close fuel text = some (items, rest) ↔
      ∃ inner, ItemsText Token items inner ∧ text = inner ++ close :: rest := by
  have hCloseBlank : isBlank close = false := by
    rcases hClose with rfl | rfl <;> decide
  have hComma : unit ',' ≠ close := by
    rcases hClose with rfl | rfl <;> decide
  have hCloseMem : close ∈ [unit ',', unit ']', unit '}'] := by
    rcases hClose with rfl | rfl <;> decide
  constructor
  · intro hRead
    induction fuel generalizing text items with
    | zero => cases hRead
    | succ fuel ih =>
        obtain ⟨⟨item, after⟩, hItem, hMore⟩ := Option.bind_eq_some_iff.mp hRead
        obtain ⟨before, token, hBefore, hToken, _, rfl⟩ := (h.iff _ _ _).mp hItem
        dsimp only at hMore
        split at hMore
        · rename_i left hExpect
          cases hMore
          obtain ⟨blanks, hBlanks, rfl⟩ := (expect_iff hCloseBlank).mp hExpect
          exact ⟨_, .last hBefore hToken hBlanks, by simp⟩
        · obtain ⟨left, hExpect, hMore⟩ := Option.bind_eq_some_iff.mp hMore
          obtain ⟨⟨others, final⟩, hOthers, hMore⟩ := Option.bind_eq_some_iff.mp hMore
          cases hMore
          obtain ⟨blanks, hBlanks, rfl⟩ := (expect_iff (by decide)).mp hExpect
          simp only [List.length_append, List.length_cons] at hFuel
          obtain ⟨inner, hInner, rfl⟩ := ih (by omega) hOthers
          exact ⟨_, .next hBefore hToken hBlanks hInner, by simp⟩
  · rintro ⟨inner, hItems, rfl⟩
    induction hItems generalizing fuel with
    | @last item before token after hBefore hToken hAfter =>
        cases fuel with
        | zero => simp at hFuel
        | succ fuel =>
            have hItem := (h.iff (before ++ token ++ after ++ close :: rest) item _).mpr
              ⟨before, token, hBefore, hToken, h.ends item after close rest hAfter hCloseMem,
                by simp⟩
            refine Option.bind_eq_some_iff.mpr ⟨_, hItem, ?_⟩
            dsimp only
            rw [(expect_iff hCloseBlank).mpr ⟨after, hAfter, rfl⟩]
            rfl
    | @next item items before token after more hBefore hToken hAfter _ ih =>
        cases fuel with
        | zero => simp at hFuel
        | succ fuel =>
            have hItem := (h.iff (before ++ token ++ after ++ unit ',' :: more ++ close :: rest)
              item (after ++ unit ',' :: (more ++ close :: rest))).mpr
              ⟨before, token, hBefore, hToken, h.ends item after _ _ hAfter (by decide), by simp⟩
            have hOther : expect close (after ++ unit ',' :: (more ++ close :: rest)) = none :=
              expect_other hAfter (by decide) hComma
            have hExpect : expect (unit ',') (after ++ unit ',' :: (more ++ close :: rest)) =
                some (more ++ close :: rest) :=
              (expect_iff (by decide)).mpr ⟨after, hAfter, rfl⟩
            refine Option.bind_eq_some_iff.mpr ⟨_, hItem, ?_⟩
            dsimp only
            rw [hOther]
            refine Option.bind_eq_some_iff.mpr ⟨_, hExpect, Option.bind_eq_some_iff.mpr
              ⟨_, ih ?_, rfl⟩⟩
            simp only [List.length_append, List.length_cons] at hFuel ⊢
            omega

/-- A list is read in the same sense; it may be empty. -/
theorem readList_iff (h : Accepts read Token Ends) (hClose : close = unit ']' ∨ close = unit '}')
    {text rest : Text} {items : List α} :
    readList read close text = some (items, rest) ↔
      ∃ inner, ListText Token items inner ∧ text = inner ++ close :: rest := by
  have hCloseBlank : isBlank close = false := by
    rcases hClose with rfl | rfl <;> decide
  unfold readList
  constructor
  · intro hRead
    split at hRead
    · rename_i left hExpect
      cases hRead
      obtain ⟨blanks, hBlanks, rfl⟩ := (expect_iff hCloseBlank).mp hExpect
      exact ⟨blanks, .inl ⟨rfl, hBlanks⟩, rfl⟩
    · obtain ⟨inner, hItems, rfl⟩ := (readItems_iff h hClose le_rfl).mp hRead
      exact ⟨inner, .inr hItems, rfl⟩
  · rintro ⟨inner, ⟨rfl, hBlanks⟩ | hItems, rfl⟩
    · rw [(expect_iff hCloseBlank).mpr ⟨inner, hBlanks, rfl⟩]
    · have hOther : expect close (inner ++ close :: rest) = none := by
        obtain ⟨before, c, tail, hBefore, rfl, hBlank, hSquare, hCurly⟩ := hItems.head h
        rw [List.append_assoc, List.cons_append]
        refine expect_other hBefore hBlank ?_
        rcases hClose with rfl | rfl
        · exact hSquare
        · exact hCurly
      rw [hOther]
      exact (readItems_iff h hClose le_rfl).mpr ⟨inner, hItems, rfl⟩

end Lists

/-! ### Values -/

section Values

variable {Number : Type}

/-- A later member replaces an earlier one of its name. -/
def assign (members : List (Text × Value Number)) (member : Text × Value Number) :
    List (Text × Value Number) :=
  match members with
  | [] => [member]
  | first :: rest =>
      if first.1 = member.1 then member :: rest else first :: assign rest member

def readMember (read : Reader (Value Number)) : Reader (Text × Value Number) := fun text => do
  let rest ← expect (unit '"') text
  let (name, rest) ← readString rest
  let rest ← expect (unit ':') rest
  let (value, rest) ← read rest
  return ((name, value), rest)

def readWord (word text : Text) : Option Text :=
  if word.isPrefixOf text then some (text.drop word.length) else none

/-- A word such as null is read if the text begins with it. -/
theorem readWord_iff {word text rest : Text} :
    readWord word text = some rest ↔ text = word ++ rest := by
  unfold readWord
  constructor
  · intro h
    split at h
    · rename_i hPrefix
      obtain ⟨tail, rfl⟩ := List.isPrefixOf_iff_prefix.mp hPrefix
      cases h
      rw [List.drop_left]
    · cases h
  · rintro rfl
    rw [if_pos (List.isPrefixOf_iff_prefix.mpr (List.prefix_append _ _)), List.drop_left]

variable (format : NumberFormat Number)

/-- The value whose first code unit is given. -/
def readFrom (nested : Reader (Value Number)) (c : UInt16) : Reader (Value Number) := fun rest =>
  if c = unit '\x7b' then do
    let (members, rest) ← readList (readMember nested) (unit '\x7d') rest
    return (.object (members.foldl assign []), rest)
  else if c = unit '[' then do
    let (items, rest) ← readList nested (unit ']') rest
    return (.array items, rest)
  else if c = unit '"' then do
    let (text, rest) ← readString rest
    return (.string text, rest)
  else if c = unit 'n' then do
    return (.null, ← readWord (ofString "ull") rest)
  else if c = unit 't' then do
    return (.bool true, ← readWord (ofString "rue") rest)
  else if c = unit 'f' then do
    return (.bool false, ← readWord (ofString "alse") rest)
  else do
    let (value, rest) ← readNumber format (c :: rest)
    return (.number value, rest)

/-- The value at the front of a text, nested at most as deep as given. -/
def readValue : Nat → Reader (Value Number)
  | 0, _ => none
  | depth + 1, text =>
      match skipBlanks text with
      | [] => none
      | c :: rest => readFrom format (readValue depth) c rest

/-- `JSON.parse`, which throws where there is no value. -/
def parse (text : Text) : Option (Value Number) :=
  match readValue format text.length text with
  | some (value, rest) => if skipBlanks rest = [] then some value else none
  | none => none

/-! ### The grammar -/

def MemberText (Nested : Value Number → Text → Prop) (member : Text × Value Number)
    (token : Text) : Prop :=
  ∃ body blanks before nested, Escaped member.1 body ∧ Blanks blanks ∧ Blanks before ∧
    Nested member.2 nested ∧
    token = unit '"' :: (body ++ unit '"' :: (blanks ++ unit ':' :: (before ++ nested)))

/-- The tokens of a value, given those of the values in it. -/
def ValueToken (Nested : Value Number → Text → Prop) : Value Number → Text → Prop
  | .null, token => token = ofString "null"
  | .bool true, token => token = ofString "true"
  | .bool false, token => token = ofString "false"
  | .number value, token => isNumber token = true ∧ format.read token = value
  | .string text, token => ∃ body, Escaped text body ∧ token = unit '"' :: (body ++ [unit '"'])
  | .array items, token =>
      ∃ inner, ListText Nested items inner ∧ token = unit '[' :: (inner ++ [unit ']'])
  | .object members, token => ∃ listed inner, ListText (MemberText Nested) listed inner ∧
      members = listed.foldl assign [] ∧ token = unit '\x7b' :: (inner ++ [unit '\x7d'])

def ValueText : Nat → Value Number → Text → Prop
  | 0 => fun _ _ => False
  | depth + 1 => ValueToken format (ValueText depth)

/-- Only a number could go on. -/
def Ends (value : Value Number) (rest : Text) : Prop :=
  ∀ number, value = .number number → EndsNumber rest

variable {format}

/-- Where the reader of values is exact, so is the reader of a member with its
key. -/
theorem readMember_accepts {read : Reader (Value Number)} {Nested : Value Number → Text → Prop}
    (h : Accepts read Nested Ends) :
    Accepts (readMember read) (MemberText Nested) (fun member => Ends member.2) where
  iff := by
    intro text member rest
    constructor
    · intro hRead
      obtain ⟨_, hQuote, hRead⟩ := Option.bind_eq_some_iff.mp hRead
      obtain ⟨⟨name, _⟩, hName, hRead⟩ := Option.bind_eq_some_iff.mp hRead
      obtain ⟨_, hColon, hRead⟩ := Option.bind_eq_some_iff.mp hRead
      obtain ⟨⟨value, left⟩, hValue, hRead⟩ := Option.bind_eq_some_iff.mp hRead
      cases hRead
      obtain ⟨blanks, hBlanks, rfl⟩ := (expect_iff (by decide)).mp hQuote
      obtain ⟨body, hBody, rfl⟩ := readString_iff.mp hName
      obtain ⟨between, hBetween, rfl⟩ := (expect_iff (by decide)).mp hColon
      obtain ⟨before, nested, hBefore, hNested, hEnds, rfl⟩ := (h.iff _ _ _).mp hValue
      exact ⟨blanks, _, hBlanks, ⟨body, between, before, nested, hBody, hBetween, hBefore,
        hNested, rfl⟩, hEnds, by simp⟩
    · rintro ⟨blanks, token, hBlanks, ⟨body, between, before, nested, hBody, hBetween, hBefore,
        hNested, rfl⟩, hEnds, rfl⟩
      refine Option.bind_eq_some_iff.mpr ⟨_, (expect_iff (by decide)).mpr ⟨blanks, hBlanks, ?_⟩,
        Option.bind_eq_some_iff.mpr ⟨_, readString_iff.mpr ⟨body, hBody, rfl⟩,
          Option.bind_eq_some_iff.mpr ⟨_, (expect_iff (by decide)).mpr ⟨between, hBetween, rfl⟩,
            Option.bind_eq_some_iff.mpr ⟨(member.2, rest), (h.iff _ _ _).mpr
              ⟨before, nested, hBefore, hNested, hEnds, rfl⟩, rfl⟩⟩⟩⟩
      simp
  head := by
    rintro member token ⟨body, between, before, nested, _, _, _, _, rfl⟩
    exact ⟨_, _, rfl, by decide, by decide, by decide⟩
  ends := fun member => h.ends member.2

theorem isNumberUnit_of_isBlank {c : UInt16} (h : isBlank c = true) : isNumberUnit c = false := by
  simp only [isBlank, Bool.or_eq_true, decide_eq_true_eq] at h
  rcases h with ((rfl | rfl) | rfl) | rfl <;> decide

/-- Blanks end a number, and so does what follows them as long as it could not
continue one. This is the case where the blanks are empty. -/
theorem endsNumber_blanks {blanks rest : Text} {c : UInt16} (hBlanks : Blanks blanks)
    (hNext : isNumberUnit c = false) : EndsNumber (blanks ++ c :: rest) := by
  intro first hFirst
  rcases blanks with _ | ⟨blank, blanks⟩
  · cases hFirst
    exact hNext
  · cases hFirst
    exact isNumberUnit_of_isBlank (hBlanks first List.mem_cons_self)

/-- The first code unit of a number starts no other value. -/
theorem number_first {c : UInt16} {tail : Text} (h : isNumber (c :: tail) = true) :
    ∀ other ∈ [unit '\x7b', unit '[', unit '"', unit 'n', unit 't', unit 'f'], c ≠ other := by
  rintro other hOther rfl
  have hUnit := isNumber_units h c List.mem_cons_self
  have hNone : ∀ d ∈ [unit '\x7b', unit '[', unit '"', unit 'n', unit 't', unit 'f'],
      isNumberUnit d = false := forall_of_all (by decide)
  rw [hNone c hOther] at hUnit
  cases hUnit

/-- The code units that a value may start with. -/
def startsValue (c : UInt16) : Bool :=
  c ∈ [unit '\x7b', unit '[', unit '"', unit 'n', unit 't', unit 'f', unit '-'] || isDigit c

/-- A number starts a value: its first unit says so. -/
theorem isNumber_first {c : UInt16} {tail : Text} (h : isNumber (c :: tail) = true) :
    startsValue c = true := by
  by_cases hSign : c = unit '-'
  · rw [hSign]
    decide
  · rw [isNumber, if_neg hSign] at h
    by_cases hDigit : isDigit c = true
    · rw [startsValue, hDigit, Bool.or_true]
    · rw [isUnsigned, List.takeWhile_cons_of_neg hDigit] at h
      cases h

/-- The unit at the start of a value is no blank and closes nothing. -/
theorem startsValue_other {c : UInt16} (h : startsValue c = true) :
    isBlank c = false ∧ c ≠ unit ']' ∧ c ≠ unit '\x7d' := by
  rw [startsValue, Bool.or_eq_true, decide_eq_true_eq] at h
  rcases h with hMem | hDigit
  · have hAll : ∀ d ∈ [unit '\x7b', unit '[', unit '"', unit 'n', unit 't', unit 'f', unit '-'],
        isBlank d = false ∧ d ≠ unit ']' ∧ d ≠ unit '\x7d' := forall_of_all (by decide)
    exact hAll c hMem
  · have hUnit := isNumberUnit_of_isDigit hDigit
    refine ⟨?_, ?_, ?_⟩
    · by_contra hBlank
      rw [isNumberUnit_of_isBlank (Bool.not_eq_false _ ▸ hBlank)] at hUnit
      cases hUnit
    · rintro rfl
      exact absurd hUnit (by decide)
    · rintro rfl
      exact absurd hUnit (by decide)

/-- Every value has a first unit that can start one. -/
theorem ValueToken.first {Nested : Value Number → Text → Prop} {value : Value Number}
    {token : Text} (h : ValueToken format Nested value token) :
    ∃ c tail, token = c :: tail ∧ startsValue c = true := by
  match value with
  | .null | .bool true | .bool false =>
      cases h
      exact ⟨_, _, rfl, by decide⟩
  | .number _ =>
      rcases token with _ | ⟨c, tail⟩
      · cases h.1
      · exact ⟨c, tail, rfl, isNumber_first h.1⟩
  | .string _ =>
      obtain ⟨body, _, rfl⟩ := h
      exact ⟨_, _, rfl, by decide⟩
  | .array _ =>
      obtain ⟨inner, _, rfl⟩ := h
      exact ⟨_, _, rfl, by decide⟩
  | .object _ =>
      obtain ⟨_, inner, _, _, rfl⟩ := h
      exact ⟨_, _, rfl, by decide⟩

/-- It is no blank and no closing bracket, so an item is never mistaken for the
end of its list. -/
theorem ValueToken.head {Nested : Value Number → Text → Prop} {value : Value Number} {token : Text}
    (h : ValueToken format Nested value token) : ∃ c tail, token = c :: tail ∧
      isBlank c = false ∧ c ≠ unit ']' ∧ c ≠ unit '\x7d' := by
  obtain ⟨c, tail, hSplit, hStarts⟩ := h.first
  exact ⟨c, tail, hSplit, startsValue_other hStarts⟩

theorem readWord_value {word rest left : Text} {value result : Value Number}
    (h : (do return (value, ← readWord word rest)) = some (result, left)) :
    result = value ∧ rest = word ++ left := by
  obtain ⟨_, hWord, h⟩ := Option.bind_eq_some_iff.mp h
  cases h
  exact ⟨rfl, readWord_iff.mp hWord⟩

/-- With an exact reader for what is nested, a value is read exactly from its
texts. The first unit decides which kind it is. -/
theorem readFrom_iff {nested : Reader (Value Number)} {Nested : Value Number → Text → Prop}
    (h : Accepts nested Nested Ends) {c : UInt16} {rest left : Text} {value : Value Number} :
    readFrom format nested c rest = some (value, left) ↔
      ∃ tail, ValueToken format Nested value (c :: tail) ∧ Ends value left ∧
        rest = tail ++ left := by
  constructor
  · intro hRead
    unfold readFrom at hRead
    split at hRead
    · rename_i hFirst
      obtain ⟨⟨listed, _⟩, hList, hRead⟩ := Option.bind_eq_some_iff.mp hRead
      cases hRead
      obtain ⟨inner, hInner, rfl⟩ := (readList_iff (readMember_accepts h) (.inr rfl)).mp hList
      exact ⟨inner ++ [unit '\x7d'], ⟨listed, inner, hInner, rfl, by rw [hFirst]⟩,
        fun _ hNumber => (by cases hNumber), by simp⟩
    split at hRead
    · rename_i hFirst
      obtain ⟨⟨items, _⟩, hList, hRead⟩ := Option.bind_eq_some_iff.mp hRead
      cases hRead
      obtain ⟨inner, hInner, rfl⟩ := (readList_iff h (.inl rfl)).mp hList
      exact ⟨inner ++ [unit ']'], ⟨inner, hInner, by rw [hFirst]⟩,
        fun _ hNumber => (by cases hNumber), by simp⟩
    split at hRead
    · rename_i hFirst
      obtain ⟨⟨text, _⟩, hString, hRead⟩ := Option.bind_eq_some_iff.mp hRead
      cases hRead
      obtain ⟨body, hBody, rfl⟩ := readString_iff.mp hString
      exact ⟨body ++ [unit '"'], ⟨body, hBody, by rw [hFirst]⟩,
        fun _ hNumber => (by cases hNumber), by simp⟩
    split at hRead
    · rename_i hFirst
      obtain ⟨rfl, hRest⟩ := readWord_value hRead
      exact ⟨_, congrArg (· :: _) hFirst, fun _ hNumber => (by cases hNumber), hRest⟩
    split at hRead
    · rename_i hFirst
      obtain ⟨rfl, hRest⟩ := readWord_value hRead
      exact ⟨_, congrArg (· :: _) hFirst, fun _ hNumber => (by cases hNumber), hRest⟩
    split at hRead
    · rename_i hFirst
      obtain ⟨rfl, hRest⟩ := readWord_value hRead
      exact ⟨_, congrArg (· :: _) hFirst, fun _ hNumber => (by cases hNumber), hRest⟩
    · obtain ⟨⟨number, _⟩, hNumber, hRead⟩ := Option.bind_eq_some_iff.mp hRead
      cases hRead
      obtain ⟨token, hToken, hValue, hEnds, hSplit⟩ := readNumber_iff.mp hNumber
      rcases token with _ | ⟨d, tail⟩
      · cases hToken
      · obtain ⟨rfl, rfl⟩ := List.cons_eq_cons.mp hSplit
        exact ⟨tail, ⟨hToken, hValue⟩, fun _ _ => hEnds, rfl⟩
  · rintro ⟨tail, hToken, hEnds, rfl⟩
    unfold readFrom
    match value with
    | .null =>
        obtain ⟨rfl, rfl⟩ := List.cons_eq_cons.mp hToken
        rw [if_neg (by decide), if_neg (by decide), if_neg (by decide), if_pos (by decide)]
        exact Option.bind_eq_some_iff.mpr ⟨left, readWord_iff.mpr rfl, rfl⟩
    | .bool true =>
        obtain ⟨rfl, rfl⟩ := List.cons_eq_cons.mp hToken
        rw [if_neg (by decide), if_neg (by decide), if_neg (by decide), if_neg (by decide),
          if_pos (by decide)]
        exact Option.bind_eq_some_iff.mpr ⟨left, readWord_iff.mpr rfl, rfl⟩
    | .bool false =>
        obtain ⟨rfl, rfl⟩ := List.cons_eq_cons.mp hToken
        rw [if_neg (by decide), if_neg (by decide), if_neg (by decide), if_neg (by decide),
          if_neg (by decide), if_pos (by decide)]
        exact Option.bind_eq_some_iff.mpr ⟨left, readWord_iff.mpr rfl, rfl⟩
    | .number number =>
        have hOther := number_first hToken.1
        rw [if_neg (hOther _ (by simp)), if_neg (hOther _ (by simp)), if_neg (hOther _ (by simp)),
          if_neg (hOther _ (by simp)), if_neg (hOther _ (by simp)), if_neg (hOther _ (by simp))]
        exact Option.bind_eq_some_iff.mpr ⟨(number, left), readNumber_iff.mpr
          ⟨c :: tail, hToken.1, hToken.2, hEnds number rfl, rfl⟩, rfl⟩
    | .string text =>
        obtain ⟨body, hBody, hSplit⟩ := hToken
        obtain ⟨rfl, rfl⟩ := List.cons_eq_cons.mp hSplit
        rw [if_neg (by decide), if_neg (by decide), if_pos rfl]
        exact Option.bind_eq_some_iff.mpr ⟨(text, left), readString_iff.mpr
          ⟨body, hBody, by simp⟩, rfl⟩
    | .array items =>
        obtain ⟨inner, hInner, hSplit⟩ := hToken
        obtain ⟨rfl, rfl⟩ := List.cons_eq_cons.mp hSplit
        rw [if_neg (by decide), if_pos rfl]
        exact Option.bind_eq_some_iff.mpr ⟨(items, left), (readList_iff h (.inl rfl)).mpr
          ⟨inner, hInner, by simp⟩, rfl⟩
    | .object members =>
        obtain ⟨listed, inner, hInner, rfl, hSplit⟩ := hToken
        obtain ⟨rfl, rfl⟩ := List.cons_eq_cons.mp hSplit
        rw [if_pos rfl]
        exact Option.bind_eq_some_iff.mpr ⟨(listed, left),
          (readList_iff (readMember_accepts h) (.inr rfl)).mpr ⟨inner, hInner, by simp⟩, rfl⟩

/-- The reader accepts the grammar, and returns the values that it gives the
texts. -/
theorem readValue_accepts (depth : Nat) :
    Accepts (readValue format depth) (ValueText format depth) Ends := by
  have hEnds (value : Value Number) (blanks : Text) (c : UInt16) (rest : Text)
      (hBlanks : Blanks blanks) (hMem : c ∈ [unit ',', unit ']', unit '\x7d']) :
      Ends value (blanks ++ c :: rest) := by
    have hNone : ∀ d ∈ [unit ',', unit ']', unit '\x7d'], isNumberUnit d = false :=
      forall_of_all (by decide)
    exact fun _ _ => endsNumber_blanks hBlanks (hNone c hMem)
  induction depth with
  | zero =>
      refine ⟨fun text value rest => ⟨fun h => (by cases h), ?_⟩, fun _ _ h => h.elim, hEnds⟩
      rintro ⟨_, _, _, hNone, _⟩
      exact hNone.elim
  | succ depth ih =>
      refine ⟨fun text value rest => ⟨fun h => ?_, ?_⟩, fun _ _ h => h.head, hEnds⟩
      · obtain ⟨blanks, hBlanks, hSplit, _⟩ := skipBlanks_split text
        rw [readValue] at h
        split at h
        · cases h
        · rename_i c left hSkip
          obtain ⟨tail, hToken, hEnd, rfl⟩ := (readFrom_iff ih).mp h
          refine ⟨blanks, c :: tail, hBlanks, hToken, hEnd, ?_⟩
          rw [hSplit, hSkip]
          simp
      · rintro ⟨blanks, token, hBlanks, hToken, hEnd, rfl⟩
        obtain ⟨c, tail, rfl, hBlank, _⟩ := ValueToken.head hToken
        rw [readValue, List.append_assoc, List.cons_append, skipBlanks_append hBlanks hBlank]
        exact (readFrom_iff ih).mpr ⟨tail, hToken, hEnd, rfl⟩

/-- The text of some items may be weakened item by item. -/
theorem ItemsText.imp {α : Type} {Token Token' : α → Text → Prop} {items : List α} {inner : Text}
    (h : ItemsText Token items inner) (hImp : ∀ item token, token.length ≤ inner.length →
      Token item token → Token' item token) : ItemsText Token' items inner := by
  induction h with
  | last hBefore hToken hAfter =>
      refine .last hBefore (hImp _ _ ?_ hToken) hAfter
      simp only [List.length_append]
      omega
  | next hBefore hToken hAfter _ ih =>
      refine .next hBefore (hImp _ _ ?_ hToken) hAfter (ih fun item token hLength => hImp _ _ ?_)
      · simp only [List.length_append]
        omega
      · simp only [List.length_append, List.length_cons]
        omega

theorem ListText.imp {α : Type} {Token Token' : α → Text → Prop} {items : List α} {inner : Text}
    (h : ListText Token items inner) (hImp : ∀ item token, token.length ≤ inner.length →
      Token item token → Token' item token) : ListText Token' items inner :=
  Or.imp id (fun hItems => hItems.imp hImp) h

/-- The text of a member may be weakened in its value. -/
theorem MemberText.imp {Nested Nested' : Value Number → Text → Prop}
    {member : Text × Value Number} {token : Text} (h : MemberText Nested member token)
    (hImp : ∀ nested, nested.length ≤ token.length → Nested member.2 nested →
      Nested' member.2 nested) : MemberText Nested' member token := by
  obtain ⟨body, blanks, before, nested, hBody, hBlanks, hBefore, hNested, rfl⟩ := h
  refine ⟨body, blanks, before, nested, hBody, hBlanks, hBefore, hImp nested ?_ hNested, rfl⟩
  simp only [List.length_cons, List.length_append]
  omega

/-- No text is nested deeper than it is long. -/
theorem ValueText.deepen {depth depth' : Nat} {value : Value Number} {token : Text}
    (h : ValueText format depth value token) (hDepth : token.length ≤ depth') :
    ValueText format depth' value token := by
  induction depth generalizing depth' value token with
  | zero => exact h.elim
  | succ depth ih =>
      obtain ⟨c, tail, rfl, _⟩ := ValueToken.head h
      cases depth' with
      | zero => simp at hDepth
      | succ depth' =>
          match value with
          | .null | .bool true | .bool false | .number _ | .string _ => exact h
          | .array items =>
              obtain ⟨inner, hInner, hSplit⟩ := h
              refine ⟨inner, hInner.imp fun item token hLength hToken => ih hToken ?_, hSplit⟩
              rw [hSplit] at hDepth
              simp only [List.length_cons, List.length_append] at hDepth
              omega
          | .object members =>
              obtain ⟨listed, inner, hInner, rfl, hSplit⟩ := h
              refine ⟨listed, inner, hInner.imp fun member token hLength hMember =>
                hMember.imp fun nested hNested hToken => ih hToken ?_, rfl, hSplit⟩
              rw [hSplit] at hDepth
              simp only [List.length_cons, List.length_append] at hDepth
              omega

/-- `JSON.parse` returns the value of the token between the blanks. -/
theorem parse_iff {text : Text} {value : Value Number} :
    parse format text = some value ↔ ∃ before token after, Blanks before ∧ Blanks after ∧
      ValueText format token.length value token ∧ text = before ++ token ++ after := by
  have hAccepts : Accepts (readValue format text.length) (ValueText format text.length) Ends :=
    readValue_accepts text.length
  unfold parse
  constructor
  · intro h
    split at h
    · rename_i found rest hRead
      split at h
      · rename_i hBlank
        cases h
        obtain ⟨before, token, hBefore, hToken, _, hSplit⟩ := (hAccepts.iff _ _ _).mp hRead
        exact ⟨before, token, rest, hBefore, List.dropWhile_eq_nil_iff.mp hBlank,
          hToken.deepen le_rfl, hSplit⟩
      · cases h
    · cases h
  · rintro ⟨before, token, after, hBefore, hAfter, hToken, hSplit⟩
    have hEnds : Ends value after := fun _ _ c hFirst =>
      isNumberUnit_of_isBlank (hAfter c (List.mem_of_mem_head? hFirst))
    have hLength : token.length ≤ text.length := by
      rw [hSplit]
      simp only [List.length_append]
      omega
    rw [(hAccepts.iff text value after).mpr
      ⟨before, token, hBefore, hToken.deepen hLength, hEnds, hSplit⟩]
    dsimp only
    rw [if_pos (skipBlanks_blanks hAfter)]

/-- At every depth a value is written as a token over the values inside it. -/
theorem ValueText.token {depth : Nat} {value : Value Number} {token : Text}
    (h : ValueText format depth value token) :
    ∃ Nested, ValueToken format Nested value token := by
  cases depth with
  | zero => exact h.elim
  | succ depth => exact ⟨_, h⟩

/-- What starts like no value is no JSON text. -/
theorem parse_eq_none {c : UInt16} {tail : Text} (hBlank : isBlank c = false)
    (hFirst : startsValue c = false) : parse format (c :: tail) = none := by
  by_contra hSome
  obtain ⟨value, hValue⟩ := Option.ne_none_iff_exists'.mp hSome
  obtain ⟨before, token, after, hBefore, _, hToken, hSplit⟩ := parse_iff.mp hValue
  obtain ⟨_, hToken⟩ := hToken.token
  obtain ⟨d, rest, rfl, hNext⟩ := hToken.first
  rcases before with _ | ⟨b, before⟩
  · obtain ⟨rfl, _⟩ := List.cons_eq_cons.mp hSplit
    rw [hFirst] at hNext
    cases hNext
  · obtain ⟨rfl, _⟩ := List.cons_eq_cons.mp hSplit
    rw [hBefore _ List.mem_cons_self] at hBlank
    cases hBlank

/-! ### The ends of a text -/

def Value.isComposite : Value Number → Bool
  | .array _ | .object _ => true
  | _ => false

def brackets : List (UInt16 × UInt16) :=
  [(unit '\x7b', unit '\x7d'), (unit '[', unit ']')]

variable (format) in
/-- A text of a value without blanks around it. -/
structure Core (value : Value Number) (token : Text) : Prop where
  tight : Tight token
  parse_eq : parse format token = some value
  composite : value.isComposite = true → ∃ pair ∈ brackets, ∃ inner,
    token = pair.1 :: (inner ++ [pair.2])
  scalar : value.isComposite = false → ∀ c ∈ token.head?, ∀ pair ∈ brackets, c ≠ pair.1

/-- What JSON skips is white space to the trimming of strings as well. The
converse fails. -/
theorem isBlank_isSpace {c : UInt16} (h : isBlank c = true) : isSpace c = true := by
  simp only [isBlank, Bool.or_eq_true, decide_eq_true_eq] at h
  rcases h with ((rfl | rfl) | rfl) | rfl <;> decide

/-- Letters, digits and the marks of the grammar are below the spaces beyond
ASCII. -/
theorem not_isSpace {c : UInt16} (hLow : 0x20 < c.toNat) (hHigh : c.toNat < 0xA0) :
    isSpace c = false := by
  by_contra hSpace
  simp only [isSpace, Bool.not_eq_false, Bool.or_eq_true, Bool.and_eq_true, decide_eq_true_eq,
    UInt16.le_iff_toNat_le, ← UInt16.toNat_inj, UInt16.reduceToNat] at hSpace
  omega

/-- No unit of a number is white space. -/
theorem isNumberUnit_isSpace {c : UInt16} (h : isNumberUnit c = true) : isSpace c = false := by
  simp only [isNumberUnit, isDigit, Bool.or_eq_true, Bool.and_eq_true, decide_eq_true_eq] at h
  rcases h with ((((⟨hLow, hHigh⟩ | rfl) | rfl) | rfl) | rfl) | rfl
  · have hLow' : 48 ≤ c.toNat := hLow
    have hHigh' : c.toNat ≤ 57 := hHigh
    exact not_isSpace (by omega) (by omega)
  all_goals decide

/-- A text between two units that are no white space cannot be trimmed. -/
theorem tight_around {first last : UInt16} (inner : Text) (hFirst : isSpace first = false)
    (hLast : isSpace last = false) : Tight (first :: (inner ++ [last])) where
  nonempty := List.cons_ne_nil _ _
  head := by
    intro c hHead
    cases hHead
    exact hFirst
  last := by
    intro c hMem
    rw [← List.cons_append, List.getLast?_concat] at hMem
    cases hMem
    exact hLast

/-- The text of a value is never trimmed. -/
theorem ValueToken.tight {Nested : Value Number → Text → Prop} {value : Value Number}
    {token : Text} (h : ValueToken format Nested value token) : Tight token := by
  match value with
  | .null =>
      cases h
      exact tight_around (ofString "ul") (by decide) (by decide)
  | .bool true =>
      cases h
      exact tight_around (ofString "ru") (by decide) (by decide)
  | .bool false =>
      cases h
      exact tight_around (ofString "als") (by decide) (by decide)
  | .number _ =>
      have hUnits := isNumber_units h.1
      refine ⟨fun hEmpty => ?_, fun c hHead => ?_, fun c hLast => ?_⟩
      · rw [hEmpty] at h
        cases h.1
      · exact isNumberUnit_isSpace (hUnits c (List.mem_of_mem_head? hHead))
      · exact isNumberUnit_isSpace (hUnits c (List.mem_of_mem_getLast? hLast))
  | .string _ =>
      obtain ⟨body, _, rfl⟩ := h
      exact tight_around body (by decide) (by decide)
  | .array _ =>
      obtain ⟨inner, _, rfl⟩ := h
      exact tight_around inner (by decide) (by decide)
  | .object _ =>
      obtain ⟨_, inner, _, _, rfl⟩ := h
      exact tight_around inner (by decide) (by decide)

/-- An object or a list is written between its brackets. -/
theorem ValueToken.composite {Nested : Value Number → Text → Prop} {value : Value Number}
    {token : Text} (h : ValueToken format Nested value token) (hValue : value.isComposite = true) :
    ∃ pair ∈ brackets, ∃ inner, token = pair.1 :: (inner ++ [pair.2]) := by
  match value with
  | .array _ =>
      obtain ⟨inner, _, hSplit⟩ := h
      exact ⟨_, List.mem_cons_of_mem _ List.mem_cons_self, inner, hSplit⟩
  | .object _ =>
      obtain ⟨_, inner, _, _, hSplit⟩ := h
      exact ⟨_, List.mem_cons_self, inner, hSplit⟩

/-- The text of any other value begins with neither bracket. -/
theorem ValueToken.scalar {Nested : Value Number → Text → Prop} {value : Value Number}
    {token : Text} (h : ValueToken format Nested value token) (hValue : value.isComposite = false) :
    ∀ c ∈ token.head?, ∀ pair ∈ brackets, c ≠ pair.1 := by
  match value with
  | .null | .bool true | .bool false =>
      cases h
      rintro c hHead
      cases hHead
      exact forall_of_all (by decide)
  | .number _ =>
      rcases token with _ | ⟨first, tail⟩
      · cases h.1
      · have hOther := number_first h.1
        rintro c hHead pair hPair
        cases hHead
        rcases List.mem_pair.mp hPair with rfl | rfl
        · exact hOther _ (by simp)
        · exact hOther _ (by simp)
  | .string _ =>
      obtain ⟨body, _, rfl⟩ := h
      rintro c hHead
      cases hHead
      exact forall_of_all (by decide)

/-- A JSON text is the text of its value between spaces. -/
theorem parse_core {text : Text} {value : Value Number} (h : parse format text = some value) :
    ∃ before token after, Blank before ∧ Blank after ∧ Core format value token ∧
      text = before ++ token ++ after := by
  obtain ⟨before, token, after, hBefore, hAfter, hToken, hSplit⟩ := parse_iff.mp h
  have hNone : Blanks [] := fun _ hMem => by cases hMem
  have hParse : parse format token = some value :=
    parse_iff.mpr ⟨[], token, [], hNone, hNone, hToken, by simp⟩
  obtain ⟨_, hToken⟩ := hToken.token
  exact ⟨before, token, after, fun c hMem => isBlank_isSpace (hBefore c hMem),
    fun c hMem => isBlank_isSpace (hAfter c hMem),
    ⟨hToken.tight, hParse, hToken.composite, hToken.scalar⟩, hSplit⟩

theorem core_of_tight {text : Text} {value : Value Number} (h : parse format text = some value)
    (hTight : Tight text) : Core format value text := by
  obtain ⟨before, token, after, hBefore, hAfter, hCore, hSplit⟩ := parse_core h
  have hTrim := trim_around hBefore hAfter hCore.tight
  rw [← hSplit, trim_tight hTight] at hTrim
  rwa [hTrim]

end Values

end JsonText
