import RelayFold.Library.JsonWriting

/-! The JSON value in the response of an agent. -/
namespace RelayFold

open CodeUnits JsonText

def fence : Text := ofString "```"

/-- `\s*```\s*$`. -/
def closesFence (text : Text) : Bool :=
  match readWord fence (trimStart text) with
  | some rest => rest.all isSpace
  | none => false

/-- `([\s\S]*?)` before the end of the fence: the shortest text is taken. -/
def captureContent : Text → Option Text
  | [] => if closesFence [] then some [] else none
  | c :: rest => if closesFence (c :: rest) then some [] else (captureContent rest).map (c :: ·)

/-- `\s*` before the content: as many spaces as possible are taken. -/
def captureAfterSpaces : Text → Option Text
  | [] => captureContent []
  | c :: rest =>
      if isSpace c then (captureAfterSpaces rest).orElse fun _ => captureContent (c :: rest)
      else captureContent (c :: rest)

/-- A letter in either case. -/
def matchesLetter (letter c : UInt16) : Bool := c = letter || c + 0x20 = letter

/-- `json`, in either case. -/
def readTag : Text → Option Text
  | j :: s :: o :: n :: rest =>
      if matchesLetter (unit 'j') j && matchesLetter (unit 's') s && matchesLetter (unit 'o') o &&
          matchesLetter (unit 'n') n then some rest
      else none
  | _ => none

/-- The group that ``^```(?:json)?\s*([\s\S]*?)\s*```\s*$`` captures. -/
def matchFence (text : Text) : Option Text :=
  match readWord fence text with
  | none => none
  | some rest =>
      match readTag rest with
      | some tagged => (captureAfterSpaces tagged).orElse fun _ => captureAfterSpaces rest
      | none => captureAfterSpaces rest

/-- `text.lastIndexOf(c)`. -/
def lastIndexOf (text : Text) (c : UInt16) : Option Nat :=
  (text.reverse.idxOf? c).map fun index => text.length - 1 - index

/-- From the first bracket to the last one that closes its kind. -/
def sliceBrackets (jsonString : Text) : Text :=
  let firstObjectBrace := jsonString.idxOf? (unit '\x7b')
  let firstArrayBracket := jsonString.idxOf? (unit '[')
  let startsWithArray := match firstArrayBracket, firstObjectBrace with
    | some array, some object => decide (array < object)
    | some _, none => true
    | none, _ => false
  let firstJsonChar := if startsWithArray then firstArrayBracket else firstObjectBrace
  let lastJsonChar :=
    if startsWithArray then lastIndexOf jsonString (unit ']')
    else lastIndexOf jsonString (unit '\x7d')
  match firstJsonChar, lastJsonChar with
  | some first, some last =>
      if last > first then trim ((jsonString.take (last + 1)).drop first) else []
  | _, _ => []

section

variable {Number : Type} (format : NumberFormat Number)

def extractJsonString (resultText : Text) : Text :=
  let jsonString := trim resultText
  if jsonString = [] then []
  else
    match parse format jsonString with
    | some _ => jsonString
    | none =>
        match matchFence jsonString with
        | some (c :: content) => sliceBrackets (trim (c :: content))
        | _ => sliceBrackets jsonString

/-- `replace(/([^\s:{[,])"([^\s:}\],])/g, '$1\\"$2')`. -/
def escapeQuotes : Text → Text
  | before :: quote :: after :: rest =>
      if !isSpace before && before ∉ [unit ':', unit '\x7b', unit '[', unit ','] &&
          quote = unit '"' && !isSpace after && after ∉ [unit ':', unit '\x7d', unit ']', unit ',']
      then before :: unit '\\' :: unit '"' :: after :: escapeQuotes rest
      else before :: escapeQuotes (quote :: after :: rest)
  | text => text

def repairJson (str : Text) : Text :=
  let repaired := trim str
  if repaired = [] then []
  else if repaired.head? ≠ some (unit '\x7b') ∧ repaired.head? ≠ some (unit '[') then []
  else
    match parse format repaired with
    | some _ => repaired
    | none =>
        let partiallyRepaired := escapeQuotes repaired
        match parse format partiallyRepaired with
        | some _ => partiallyRepaired
        | none => repaired

/-- `JSON.parse(repairJson(extractJsonString(resultText)))`. -/
def recoverJson (resultText : Text) : Option (Value Number) :=
  parse format (repairJson format (extractJsonString format resultText))

end

/-! ### The text of a value inside a response -/

def isOpening (c : UInt16) : Bool := c = unit '\x7b' || c = unit '['

def isClosing (c : UInt16) : Bool := c = unit '\x7d' || c = unit ']'

/-- Text without brackets that open before the text of a value, and without
ones that close after it. -/
structure Surrounds (before token after text : Text) : Prop where
  eq : text = before ++ token ++ after
  before_plain : ∀ c ∈ before, isOpening c = false
  after_plain : ∀ c ∈ after, isClosing c = false

/-- What holds of no bracket holds of other code units only. -/
theorem not_bracket {p : UInt16 → Bool}
    (hNone : ∀ bracket ∈ [unit '\x7b', unit '[', unit '\x7d', unit ']'], p bracket = false)
    {c : UInt16} (h : p c = true) : isOpening c = false ∧ isClosing c = false := by
  have hNot : ∀ bracket ∈ [unit '\x7b', unit '[', unit '\x7d', unit ']'], c ≠ bracket := by
    rintro bracket hBracket rfl
    rw [hNone c hBracket] at h
    cases h
  simp only [List.mem_cons, List.not_mem_nil, or_false, forall_eq_or_imp, forall_eq] at hNot
  obtain ⟨hCurly, hSquare, hCurlyEnd, hSquareEnd⟩ := hNot
  constructor
  · rw [isOpening, decide_eq_false hCurly, decide_eq_false hSquare]
    rfl
  · rw [isClosing, decide_eq_false hCurlyEnd, decide_eq_false hSquareEnd]
    rfl

/-- White space is no bracket, so trimming never takes one away. -/
theorem isSpace_not_bracket {c : UInt16} (h : isSpace c = true) :
    isOpening c = false ∧ isClosing c = false :=
  not_bracket (forall_of_all (by decide)) h

/-- A text in brackets. -/
structure Bracketed (token : Text) : Prop where
  pair : ∃ pair ∈ brackets, ∃ inner, token = pair.1 :: (inner ++ [pair.2])

theorem Bracketed.opening {token : Text} (h : Bracketed token) :
    ∃ c tail, token = c :: tail ∧ isOpening c = true := by
  obtain ⟨pair, hPair, inner, rfl⟩ := h.pair
  have hAll : ∀ pair ∈ brackets, isOpening pair.1 = true := forall_of_all (by decide)
  exact ⟨_, _, rfl, hAll pair hPair⟩

theorem Bracketed.closing {token : Text} (h : Bracketed token) :
    ∃ c front, token = front ++ [c] ∧ isClosing c = true := by
  obtain ⟨pair, hPair, inner, rfl⟩ := h.pair
  have hAll : ∀ pair ∈ brackets, isClosing pair.2 = true := forall_of_all (by decide)
  exact ⟨_, pair.1 :: inner, rfl, hAll pair hPair⟩

/-- A prefix that stops before an element stops before what it starts. -/
theorem prefix_of_not_mem {α : Type} {front rest before tail : List α} {c : α}
    (h : front ++ rest = before ++ c :: tail) (hFront : c ∉ front) :
    ∃ before', before = front ++ before' ∧ rest = before' ++ c :: tail := by
  rcases List.append_eq_append_iff.mp h with ⟨before', hBefore, hRest⟩ | ⟨more, hMore, hTail⟩
  · exact ⟨before', hBefore, hRest⟩
  · rcases more with _ | ⟨d, more⟩
    · exact ⟨[], by simpa using hMore.symm, by simpa using hTail.symm⟩
    · obtain ⟨rfl, _⟩ := List.cons_eq_cons.mp hTail
      exact absurd (by rw [hMore]; simp) hFront

/-- What is cut off without brackets leaves the text of the value whole. -/
theorem Surrounds.cut {before token after text front content back : Text}
    (h : Surrounds before token after text) (hToken : Bracketed token)
    (hText : text = front ++ content ++ back) (hFront : ∀ c ∈ front, isOpening c = false)
    (hBack : ∀ c ∈ back, isClosing c = false) :
    ∃ before' after', Surrounds before' token after' content ∧ before = front ++ before' ∧
      after = after' ++ back := by
  obtain ⟨c, tail, hOpen, hOpening⟩ := hToken.opening
  obtain ⟨d, body, hClose, hClosing⟩ := hToken.closing
  have hSplit : front ++ (content ++ back) = before ++ c :: (tail ++ after) := by
    rw [← List.append_assoc, ← hText, h.eq, hOpen]
    simp
  have hNotFront : c ∉ front := fun hMem => by
    rw [hFront c hMem] at hOpening
    cases hOpening
  obtain ⟨before', rfl, hRest⟩ := prefix_of_not_mem hSplit hNotFront
  have hMirror : back.reverse ++ content.reverse =
      after.reverse ++ d :: (body.reverse ++ before'.reverse) := by
    rw [← List.reverse_append, hRest, ← List.cons_append, ← hOpen, hClose]
    simp
  have hNotBack : d ∉ back.reverse := fun hMem => by
    rw [hBack d (List.mem_reverse.mp hMem)] at hClosing
    cases hClosing
  obtain ⟨after', hAfter, hContent⟩ := prefix_of_not_mem hMirror hNotBack
  have hAfter' : after = after'.reverse ++ back := by
    simpa using congrArg List.reverse hAfter
  refine ⟨before', after'.reverse, ⟨?_, fun a hMem => ?_, fun a hMem => ?_⟩, rfl, hAfter'⟩
  · have hEq := congrArg List.reverse hContent
    rw [hClose]
    simpa using hEq
  · exact h.before_plain a (List.mem_append_right _ hMem)
  · exact h.after_plain a (by rw [hAfter']; exact List.mem_append_left _ hMem)

/-- Trimming a response leaves the text of the value whole. -/
theorem Surrounds.trim {before token after text : Text} (h : Surrounds before token after text)
    (hToken : Bracketed token) : ∃ before' after', Surrounds before' token after' (trim text) := by
  obtain ⟨front, back, hFront, hBack, hText, _⟩ := trim_split text
  obtain ⟨before', after', hCut, _⟩ := h.cut hToken hText
    (fun c hMem => (isSpace_not_bracket (hFront c hMem)).1)
    (fun c hMem => (isSpace_not_bracket (hBack c hMem)).2)
  exact ⟨before', after', hCut⟩

/-! ### The fence -/

/-- A text of backticks, letters of the tag and spaces. -/
def Bracketless (text : Text) : Prop := ∀ c ∈ text, isOpening c = false ∧ isClosing c = false

theorem bracketless_spaces {text : Text} (h : Blank text) : Bracketless text :=
  fun c hMem => isSpace_not_bracket (h c hMem)

theorem bracketless_nil : Bracketless [] := fun _ hMem => by cases hMem

theorem bracketless_append {first second : Text} (hFirst : Bracketless first)
    (hSecond : Bracketless second) : Bracketless (first ++ second) :=
  List.forall_mem_append.mpr ⟨hFirst, hSecond⟩

theorem bracketless_fence : Bracketless fence := by
  exact forall_of_all (by decide)

/-- Whatever closes a fence holds no bracket. -/
theorem closesFence_bracketless {text : Text} (h : closesFence text = true) : Bracketless text := by
  unfold closesFence at h
  split at h
  · rename_i rest hWord
    have hBlank : Blank (text.takeWhile isSpace) := fun c hMem => List.mem_takeWhile_imp hMem
    have hRest : Blank rest := List.all_eq_true.mp h
    rw [← List.takeWhile_append_dropWhile (p := isSpace) (l := text), ← trimStart,
      readWord_iff.mp hWord]
    exact bracketless_append (bracketless_spaces hBlank)
      (bracketless_append bracketless_fence (bracketless_spaces hRest))
  · cases h

theorem orElse_some {α : Type} {first : Option α} {second : Unit → Option α} {a : α}
    (h : first.orElse second = some a) : first = some a ∨ second () = some a := by
  cases first with
  | none => exact .inr h
  | some _ => exact .inl h

/-- The content of a fence leaves out only what closes it. -/
theorem captureContent_split {text content : Text} (h : captureContent text = some content) :
    ∃ back, Bracketless back ∧ text = content ++ back := by
  induction text generalizing content with
  | nil =>
      rw [captureContent] at h
      split at h
      · cases h
        exact ⟨[], bracketless_nil, rfl⟩
      · cases h
  | cons c rest ih =>
      rw [captureContent] at h
      split at h
      · rename_i hCloses
        cases h
        exact ⟨_, closesFence_bracketless hCloses, rfl⟩
      · obtain ⟨tail, hTail, rfl⟩ := Option.map_eq_some_iff.mp h
        obtain ⟨back, hBack, rfl⟩ := ih hTail
        exact ⟨back, hBack, rfl⟩

/-- The spaces in front of the content are the other part that is left out. -/
theorem captureAfterSpaces_split {text content : Text}
    (h : captureAfterSpaces text = some content) :
    ∃ front back, Bracketless front ∧ Bracketless back ∧ text = front ++ content ++ back := by
  induction text with
  | nil =>
      obtain ⟨back, hBack, hSplit⟩ := captureContent_split h
      exact ⟨[], back, bracketless_nil, hBack, hSplit⟩
  | cons c rest ih =>
      rw [captureAfterSpaces] at h
      split at h
      · rename_i hSpace
        rcases orElse_some h with hRest | hHere
        · obtain ⟨front, back, hFront, hBack, rfl⟩ := ih hRest
          exact ⟨c :: front, back, List.forall_mem_cons.mpr
            ⟨isSpace_not_bracket hSpace, hFront⟩, hBack, rfl⟩
        · obtain ⟨back, hBack, hSplit⟩ := captureContent_split hHere
          exact ⟨[], back, bracketless_nil, hBack, hSplit⟩
      · obtain ⟨back, hBack, hSplit⟩ := captureContent_split h
        exact ⟨[], back, bracketless_nil, hBack, hSplit⟩

/-- A tag is some text without brackets before the end of the line. -/
theorem readTag_split {text rest : Text} (h : readTag text = some rest) :
    ∃ tag, Bracketless tag ∧ text = tag ++ rest := by
  unfold readTag at h
  split at h
  · rename_i j s o n more
    split at h
    · rename_i hLetters
      cases h
      rw [Bool.and_eq_true, Bool.and_eq_true, Bool.and_eq_true] at hLetters
      obtain ⟨⟨⟨hJ, hS⟩, hO⟩, hN⟩ := hLetters
      refine ⟨[j, s, o, n], ?_, rfl⟩
      exact List.forall_mem_cons.mpr ⟨not_bracket (forall_of_all (by decide)) hJ,
        List.forall_mem_cons.mpr ⟨not_bracket (forall_of_all (by decide)) hS,
          List.forall_mem_cons.mpr ⟨not_bracket (forall_of_all (by decide)) hO,
            List.forall_mem_cons.mpr ⟨not_bracket (forall_of_all (by decide)) hN,
              bracketless_nil⟩⟩⟩⟩
    · cases h
  · cases h

/-- The fence takes away no bracket. -/
theorem matchFence_split {text content : Text} (h : matchFence text = some content) :
    ∃ front back, Bracketless front ∧ Bracketless back ∧ text = front ++ content ++ back := by
  unfold matchFence at h
  split at h
  · cases h
  · rename_i rest hWord
    have hPlain {content : Text} (hCapture : captureAfterSpaces rest = some content) :
        ∃ front back, Bracketless front ∧ Bracketless back ∧ text = front ++ content ++ back := by
      obtain ⟨front, back, hFront, hBack, hSplit⟩ := captureAfterSpaces_split hCapture
      refine ⟨fence ++ front, back, bracketless_append bracketless_fence hFront, hBack, ?_⟩
      rw [readWord_iff.mp hWord, hSplit]
      simp
    split at h
    · rename_i tagged hTag
      rcases orElse_some h with hTagged | hCapture
      · obtain ⟨tag, hTag, hTagSplit⟩ := readTag_split hTag
        obtain ⟨front, back, hFront, hBack, hSplit⟩ := captureAfterSpaces_split hTagged
        refine ⟨fence ++ tag ++ front, back, bracketless_append (bracketless_append
          bracketless_fence hTag) hFront, hBack, ?_⟩
        rw [readWord_iff.mp hWord, hTagSplit, hSplit]
        simp
      · exact hPlain hCapture
    · exact hPlain h

/-! ### The slice between the brackets -/

/-- The last occurrence of a unit is found where nothing after it repeats
it. -/
theorem lastIndexOf_append {front rest : Text} {c : UInt16} (h : c ∉ rest) :
    lastIndexOf (front ++ c :: rest) c = some front.length := by
  have hReverse : (front ++ c :: rest).reverse = rest.reverse ++ c :: front.reverse := by
    simp
  rw [lastIndexOf, hReverse, idxOf?_append_cons fun hMem => h (List.mem_reverse.mp hMem)]
  simp

/-- The other kind of bracket opens later, if at all. -/
theorem first_other {before rest : Text} {opening other : UInt16} (hBefore : other ∉ before)
    (hOther : opening ≠ other) : ∀ index,
    (before ++ opening :: rest).idxOf? other = some index → before.length < index := by
  intro index hIndex
  have hFront : other ∉ before ++ [opening] := by
    simp [hBefore, Ne.symm hOther]
  rw [show before ++ opening :: rest = (before ++ [opening]) ++ rest by simp,
    idxOf?_append hFront] at hIndex
  obtain ⟨later, _, rfl⟩ := Option.map_eq_some_iff.mp hIndex
  simp only [List.length_append, List.length_singleton]
  omega

/-- The slice is the text of the value. -/
theorem sliceBrackets_token {before token after text : Text}
    (h : Surrounds before token after text) (hToken : Bracketed token) (hTight : Tight token) :
    sliceBrackets text = token := by
  obtain ⟨rfl, hBefore, hAfter⟩ := h
  obtain ⟨pair, hPair, inner, rfl⟩ := hToken.pair
  have hNotBefore {c : UInt16} (hOpening : isOpening c = true) : c ∉ before := fun hMem => by
    rw [hBefore c hMem] at hOpening
    cases hOpening
  have hNotAfter {c : UInt16} (hClosing : isClosing c = true) : c ∉ after := fun hMem => by
    rw [hAfter c hMem] at hClosing
    cases hClosing
  have hFirst : before ++ pair.1 :: (inner ++ [pair.2]) ++ after =
      before ++ pair.1 :: (inner ++ pair.2 :: after) := by
    simp
  have hLast : before ++ pair.1 :: (inner ++ [pair.2]) ++ after =
      (before ++ pair.1 :: inner) ++ pair.2 :: after := by
    simp
  have hSlice : trim (((before ++ pair.1 :: (inner ++ [pair.2]) ++ after).take
      ((before ++ pair.1 :: inner).length + 1)).drop before.length) =
        pair.1 :: (inner ++ [pair.2]) := by
    have hLength : (before ++ pair.1 :: inner).length + 1 =
        (before ++ pair.1 :: (inner ++ [pair.2])).length := by
      simp only [List.length_append, List.length_cons, List.length_nil]
      omega
    rw [hLength, List.take_left, List.drop_left]
    exact trim_tight hTight
  have hLess : before.length < (before ++ pair.1 :: inner).length := by
    simp
  have hEnd : lastIndexOf (before ++ pair.1 :: (inner ++ [pair.2]) ++ after) pair.2 =
      some (before ++ pair.1 :: inner).length := by
    rw [hLast]
    refine lastIndexOf_append (hNotAfter ?_)
    have hAll : ∀ pair ∈ brackets, isClosing pair.2 = true := forall_of_all (by decide)
    exact hAll pair hPair
  have hStart : (before ++ pair.1 :: (inner ++ [pair.2]) ++ after).idxOf? pair.1 =
      some before.length := by
    rw [hFirst]
    refine idxOf?_append_cons (hNotBefore ?_)
    have hAll : ∀ pair ∈ brackets, isOpening pair.1 = true := forall_of_all (by decide)
    exact hAll pair hPair
  have hLater {other : UInt16} (hOpening : isOpening other = true) (hOther : pair.1 ≠ other) :
      ∀ index, (before ++ pair.1 :: (inner ++ [pair.2]) ++ after).idxOf? other = some index →
        before.length < index := by
    rw [hFirst]
    exact first_other (hNotBefore hOpening) hOther
  generalize before ++ pair.1 :: (inner ++ [pair.2]) ++ after = text at *
  unfold sliceBrackets
  rcases List.mem_pair.mp hPair with rfl | rfl
  · have hArray := hLater (show isOpening (unit '[') = true by decide) (by decide)
    dsimp only at hStart hEnd ⊢
    rw [hStart, hEnd]
    cases hIndex : text.idxOf? (unit '[') with
    | none =>
        dsimp only
        rw [if_neg Bool.false_ne_true, if_neg Bool.false_ne_true]
        dsimp only
        rw [if_pos hLess, hSlice]
    | some index =>
        dsimp only
        have hNot : ¬decide (index < before.length) = true := by
          simpa using (hArray index hIndex).le
        rw [if_neg hNot, if_neg hNot]
        dsimp only
        rw [if_pos hLess, hSlice]
  · have hObject := hLater (show isOpening (unit '\x7b') = true by decide) (by decide)
    dsimp only at hStart hEnd ⊢
    rw [hStart, hEnd]
    cases hIndex : text.idxOf? (unit '\x7b') with
    | none =>
        dsimp only
        rw [if_pos rfl, if_pos rfl]
        dsimp only
        rw [if_pos hLess, hSlice]
    | some index =>
        dsimp only
        rw [if_pos (decide_eq_true (hObject index hIndex)),
          if_pos (decide_eq_true (hObject index hIndex))]
        dsimp only
        rw [if_pos hLess, hSlice]

/-! ### Responses -/

section Responses

variable {Number : Type} {format : NumberFormat Number} {value : Value Number}

variable (format value) in
/-- The responses that hold a value: its text between spaces, in a fence with a
tag, or, for an array or object, in prose. -/
inductive Response : Text → Prop
  | plain {before text after : Text} (hBefore : Blank before) (hAfter : Blank after)
      (h : parse format text = some value) : Response (before ++ text ++ after)
  | fenced {before tag text after : Text} {mark : UInt16} {opening closing : Nat}
      (hBefore : Blank before) (hMark : mark = unit '\x60' ∨ mark = unit '~') (hOpening : 3 ≤ opening)
      (hTag : ∀ c ∈ tag, isOpening c = false) (h : parse format text = some value)
      (hClosing : opening ≤ closing) (hAfter : Blank after) :
      Response (before ++ List.replicate opening mark ++ tag ++ text ++
        List.replicate closing mark ++ after)
  | prose {before text after : Text} (hComposite : value.isComposite = true)
      (hBefore : ∀ c ∈ before, isOpening c = false) (h : parse format text = some value)
      (hAfter : ∀ c ∈ after, isClosing c = false) : Response (before ++ text ++ after)

/-- A text that parses still surrounds its value if nothing before it opens a
bracket and nothing after it closes one. -/
theorem surrounds_of_parse {before text after : Text} (h : parse format text = some value)
    (hBefore : ∀ c ∈ before, isOpening c = false) (hAfter : ∀ c ∈ after, isClosing c = false) :
    ∃ before' token after', Surrounds before' token after' (before ++ text ++ after) ∧
      Core format value token := by
  obtain ⟨blanks, token, blanks', hBlanks, hBlanks', hCore, rfl⟩ := parse_core h
  refine ⟨before ++ blanks, token, blanks' ++ after, ⟨by simp, ?_, ?_⟩, hCore⟩
  · exact List.forall_mem_append.mpr ⟨hBefore, fun c hMem => (isSpace_not_bracket (hBlanks c hMem)).1⟩
  · exact List.forall_mem_append.mpr ⟨fun c hMem => (isSpace_not_bracket (hBlanks' c hMem)).2, hAfter⟩

/-- Every response has the text of its value between texts without brackets. -/
theorem Response.surrounds {text : Text} (h : Response format value text) :
    ∃ before token after, Surrounds before token after text ∧ Core format value token := by
  cases h with
  | plain hBefore hAfter h =>
      exact surrounds_of_parse h (fun c hMem => (isSpace_not_bracket (hBefore c hMem)).1)
        fun c hMem => (isSpace_not_bracket (hAfter c hMem)).2
  | @fenced before tag text after mark opening closing hBefore hMark _ hTag h _ hAfter =>
      have hMarks {n : Nat} : Bracketless (List.replicate n mark) := by
        intro c hMem
        rw [List.eq_of_mem_replicate hMem]
        rcases hMark with rfl | rfl <;> decide
      rw [List.append_assoc _ (List.replicate closing mark)]
      refine surrounds_of_parse h (List.forall_mem_append.mpr ⟨List.forall_mem_append.mpr
        ⟨fun c hMem => (isSpace_not_bracket (hBefore c hMem)).1, fun c hMem => (hMarks c hMem).1⟩,
        hTag⟩) (List.forall_mem_append.mpr ⟨fun c hMem => (hMarks c hMem).2,
        fun c hMem => (isSpace_not_bracket (hAfter c hMem)).2⟩)
  | prose _ hBefore h hAfter => exact surrounds_of_parse h hBefore hAfter

/-- A text that starts with a bracket has an array or object for its value. -/
theorem isComposite_of_opening {text : Text} (h : parse format text = some value) {c : UInt16}
    (hHead : text.head? = some c) (hOpening : isOpening c = true) : value.isComposite = true := by
  obtain ⟨before, token, after, hBefore, _, hCore, rfl⟩ := parse_core h
  by_contra hScalar
  obtain ⟨d, tail, hToken⟩ := List.exists_cons_of_ne_nil hCore.tight.nonempty
  have hFirst := hCore.scalar (Bool.not_eq_true _ ▸ hScalar) d (by rw [hToken]; rfl)
  rcases before with _ | ⟨blank, before⟩
  · rw [hToken] at hHead
    cases hHead
    rcases (Bool.or_eq_true _ _ ▸ hOpening) with hSame | hSame
    · exact hFirst _ List.mem_cons_self (of_decide_eq_true hSame)
    · exact hFirst _ (List.mem_cons_of_mem _ List.mem_cons_self) (of_decide_eq_true hSame)
  · cases hHead
    rw [(isSpace_not_bracket (hBefore c List.mem_cons_self)).1] at hOpening
    cases hOpening

/-- Escaping quotation marks does not change how a text begins: a bracket at
the front stays there. -/
theorem head?_escapeQuotes (text : Text) : (escapeQuotes text).head? = text.head? := by
  fun_cases escapeQuotes text with
  | case1 | case2 | case3 => rfl

/-- Only arrays and objects are recovered. -/
theorem isComposite_of_recoverJson {text : Text} (h : recoverJson format text = some value) :
    value.isComposite = true := by
  unfold recoverJson repairJson at h
  generalize trim (extractJsonString format text) = repaired at h
  dsimp only at h
  split at h
  · cases h
  · split at h
    · cases h
    · rename_i hNonempty hStarts
      obtain ⟨c, rest, rfl⟩ := List.exists_cons_of_ne_nil hNonempty
      have hOpening : isOpening c = true := by
        rw [not_and_or, not_not, not_not] at hStarts
        rcases hStarts with hStarts | hStarts <;> cases hStarts <;> decide
      split at h
      · exact isComposite_of_opening h rfl hOpening
      · split at h
        · exact isComposite_of_opening h (head?_escapeQuotes _) hOpening
        · exact isComposite_of_opening h rfl hOpening

/-- The text of an array or object needs no repair. -/
theorem repairJson_core {token : Text} (h : Core format value token)
    (hComposite : value.isComposite = true) : repairJson format token = token := by
  obtain ⟨c, tail, hToken, hOpening⟩ := Bracketed.opening ⟨h.composite hComposite⟩
  have hStarts : ¬(token.head? ≠ some (unit '\x7b') ∧ token.head? ≠ some (unit '[')) := by
    rw [not_and_or, not_not, not_not, hToken]
    exact (Bool.or_eq_true _ _ ▸ hOpening).imp (fun hSame => congrArg some (of_decide_eq_true hSame))
      fun hSame => congrArg some (of_decide_eq_true hSame)
  unfold repairJson
  dsimp only
  rw [trim_tight h.tight, if_neg h.tight.nonempty, if_neg hStarts, h.parse_eq]

/-- The text of a scalar is given up. -/
theorem repairJson_scalar {token : Text} (h : Core format value token)
    (hScalar : value.isComposite = false) : repairJson format token = [] := by
  have hFirst := h.scalar hScalar
  have hStarts : token.head? ≠ some (unit '\x7b') ∧ token.head? ≠ some (unit '[') :=
    ⟨fun hHead => hFirst _ hHead _ List.mem_cons_self rfl,
      fun hHead => hFirst _ hHead _ (List.mem_cons_of_mem _ List.mem_cons_self) rfl⟩
  unfold repairJson
  dsimp only
  rw [trim_tight h.tight, if_neg h.tight.nonempty, if_pos hStarts]

/-- What the parser accepts has no white space at its ends after trimming. -/
theorem tight_of_parse_trim {text : Text} {whole : Value Number}
    (h : parse format (trim text) = some whole) : Tight (trim text) := by
  obtain ⟨_, _, _, _, _, hTrim⟩ := trim_split text
  refine hTrim.resolve_left fun hEmpty => ?_
  rw [hEmpty] at h
  cases h

/-- A response that is JSON as a whole is returned as it is, trimmed. -/
theorem extractJsonString_whole {text : Text} {whole : Value Number}
    (h : parse format (trim text) = some whole) : extractJsonString format text = trim text := by
  unfold extractJsonString
  dsimp only
  rw [if_neg (tight_of_parse_trim h).nonempty, h]

/-- A response that is no JSON text has the text of its value cut out. -/
theorem extractJsonString_token {before token after text : Text}
    (h : Surrounds before token after text) (hToken : Bracketed token) (hTight : Tight token)
    (hPart : parse format (trim text) = none) : extractJsonString format text = token := by
  obtain ⟨before', after', hTrim⟩ := h.trim hToken
  have hNonempty : trim text ≠ [] := by
    rw [hTrim.eq]
    simp [hTight.nonempty]
  unfold extractJsonString
  dsimp only
  rw [if_neg hNonempty, hPart]
  dsimp only
  split
  · rename_i c content hFence
    obtain ⟨front, back, hFront, hBack, hSplit⟩ := matchFence_split hFence
    obtain ⟨_, _, hContent, _⟩ := hTrim.cut hToken hSplit (fun c hMem => (hFront c hMem).1)
      fun c hMem => (hBack c hMem).2
    obtain ⟨_, _, hInner⟩ := hContent.trim hToken
    exact sliceBrackets_token hInner hToken hTight
  · exact sliceBrackets_token hTrim hToken hTight

/-- A response that is the text of an array or object has no other one in
it. -/
theorem Surrounds.whole {before token after : Text} {text : Text}
    (h : Surrounds before token after text) (hText : Bracketed text) : text = token := by
  obtain ⟨c, tail, hOpen, hOpening⟩ := hText.opening
  obtain ⟨d, front, hClose, hClosing⟩ := hText.closing
  have hBefore : before = [] := by
    rcases before with _ | ⟨b, before⟩
    · rfl
    · have hEq := h.eq
      rw [hOpen] at hEq
      cases hEq
      rw [h.before_plain c List.mem_cons_self] at hOpening
      cases hOpening
  have hAfter : after = [] := by
    rcases List.eq_nil_or_concat after with hEmpty | ⟨rest, b, hLast⟩
    · exact hEmpty
    · have hEq := h.eq
      rw [hClose, hLast, List.concat_eq_append, ← List.append_assoc] at hEq
      obtain ⟨_, rfl⟩ := List.append_singleton_inj.mp hEq
      rw [h.after_plain d (by rw [hLast]; simp)] at hClosing
      cases hClosing
  rw [h.eq, hBefore, hAfter]
  simp

/-- The value is recovered exactly if it is an array or object, and the
response as a whole is no JSON text of another kind. -/
theorem recoverJson_eq_some_iff {text : Text} (h : Response format value text) :
    recoverJson format text = some value ↔ value.isComposite = true ∧
      ∀ whole, parse format (trim text) = some whole → whole.isComposite = true := by
  constructor
  · intro hRecovered
    refine ⟨isComposite_of_recoverJson hRecovered, fun whole hWhole => ?_⟩
    by_contra hScalar
    have hCore := core_of_tight hWhole (tight_of_parse_trim hWhole)
    rw [recoverJson, extractJsonString_whole hWhole,
      repairJson_scalar hCore (Bool.not_eq_true _ ▸ hScalar)] at hRecovered
    cases hRecovered
  · rintro ⟨hComposite, hWhole⟩
    obtain ⟨before, token, after, hSurrounds, hCore⟩ := h.surrounds
    have hToken : Bracketed token := ⟨hCore.composite hComposite⟩
    have hExtract : extractJsonString format text = token := by
      cases hParse : parse format (trim text) with
      | none => exact extractJsonString_token hSurrounds hToken hCore.tight hParse
      | some whole =>
          obtain ⟨_, _, hTrim⟩ := hSurrounds.trim hToken
          have hParsed := core_of_tight hParse (tight_of_parse_trim hParse)
          rw [extractJsonString_whole hParse]
          exact hTrim.whole ⟨hParsed.composite (hWhole whole hParse)⟩
    rw [recoverJson, hExtract, repairJson_core hCore hComposite, hCore.parse_eq]

end Responses

/-- The object that says that something is done. -/
def doneValue : Value Text := .object [(ofString "done", .bool true)]

theorem doneValue_writable : Writable tokenFormat doneValue := by
  refine .object (List.nodup_cons.mpr ⟨List.not_mem_nil, List.nodup_nil⟩) fun member hMember => ?_
  rw [List.mem_singleton.mp hMember]
  exact .bool true

/-- The object in prose. -/
def doneResponse : Text := ofString "Answer: " ++ write tokenFormat doneValue ++ ofString "."

/-- Here an object stands in prose, with a word before it and a full stop
behind it. -/
theorem recoverJson_eq_some_iff_done : recoverJson tokenFormat doneResponse = some doneValue := by
  have hResponse : Response tokenFormat doneValue doneResponse :=
    .prose rfl (forall_of_all (by decide)) (parse_write doneValue_writable)
      (forall_of_all (by decide))
  have hPart : parse tokenFormat (trim doneResponse) = none :=
    Option.isNone_iff_eq_none.mp (by decide +kernel)
  refine (recoverJson_eq_some_iff hResponse).mpr ⟨rfl, fun whole hWhole => ?_⟩
  rw [hPart] at hWhole
  cases hWhole

/-- The number five is not recovered. -/
theorem number_not_recovered :
    Response tokenFormat (.number (ofString "5")) (ofString "5") ∧
      recoverJson tokenFormat (ofString "5") ≠ some (.number (ofString "5")) := by
  have hParse : parse tokenFormat (ofString "5") = some (.number (ofString "5")) :=
    parse_write (.number (by decide) rfl)
  have hNone : Blank [] := fun _ hMem => by cases hMem
  have hResponse := Response.plain hNone hNone hParse
  have hLost : recoverJson tokenFormat (ofString "5") = none :=
    Option.isNone_iff_eq_none.mp (by decide +kernel)
  rw [List.nil_append, List.append_nil] at hResponse
  refine ⟨hResponse, ?_⟩
  rw [hLost]
  intro hFalse
  cases hFalse

end RelayFold
