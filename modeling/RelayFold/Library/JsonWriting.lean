import RelayFold.Library.JsonText

/-! `JSON.stringify`: what it writes, the reader reads back. -/
namespace JsonText

open CodeUnits

/-! ### Strings -/

def hexDigit (n : UInt16) : UInt16 := if n < 10 then unit '0' + n else unit 'a' + (n - 10)

def hexEscape (c : UInt16) : Text :=
  [unit '\\', unit 'u', hexDigit (c / 4096), hexDigit (c / 256 % 16), hexDigit (c / 16 % 16),
    hexDigit (c % 16)]

def writtenEscapes : List (UInt16 × UInt16) :=
  [(0x08, unit 'b'), (0x09, unit 't'), (0x0A, unit 'n'), (0x0C, unit 'f'), (0x0D, unit 'r'),
    (unit '"', unit '"'), (unit '\\', unit '\\')]

def isLeading (c : UInt16) : Bool := 0xD800 ≤ c && c ≤ 0xDBFF

def isTrailing (c : UInt16) : Bool := 0xDC00 ≤ c && c ≤ 0xDFFF

/-- Control characters and lone surrogates are written in hexadecimal. -/
def escapeUnit (c : UInt16) : Text :=
  match writtenEscapes.lookup c with
  | some e => [unit '\\', e]
  | none => if c < 0x20 ∨ isLeading c ∨ isTrailing c then hexEscape c else [c]

def escapeUnits : Text → Text
  | [] => []
  | [c] => escapeUnit c
  | c :: d :: rest =>
      if isLeading c && isTrailing d then c :: d :: escapeUnits rest
      else escapeUnit c ++ escapeUnits (d :: rest)

def writeString (text : Text) : Text := unit '"' :: (escapeUnits text ++ [unit '"'])

/-- A hexadecimal digit is read back as the value that it was written for. -/
theorem hexDigit?_hexDigit {n : UInt16} (h : n < 16) : hexDigit? (hexDigit n) = some n := by
  have hAll : ∀ k : Fin 16, hexDigit? (hexDigit (UInt16.ofNat k)) = some (UInt16.ofNat k) := by
    decide
  have hSmall : n.toNat < 16 := h
  simpa using hAll ⟨n.toNat, hSmall⟩

theorem leadingDigit_lt (c : UInt16) : c / 4096 < 16 := by
  have hBound : c.toNat < 65536 := c.toNat_lt
  rw [UInt16.lt_iff_toNat_lt, UInt16.toNat_div]
  change c.toNat / 4096 < 16
  omega

theorem lowerDigit_lt (n : UInt16) : n % 16 < 16 := by
  rw [UInt16.lt_iff_toNat_lt, UInt16.toNat_mod]
  change n.toNat % 16 < 16
  omega

/-- The four digits of an escape give the unit again. -/
theorem hexUnit?_hexEscape (c : UInt16) :
    hexUnit? (hexDigit (c / 4096)) (hexDigit (c / 256 % 16)) (hexDigit (c / 16 % 16))
      (hexDigit (c % 16)) = some c := by
  have hBound : c.toNat < 65536 := c.toNat_lt
  unfold hexUnit?
  rw [hexDigit?_hexDigit (leadingDigit_lt c), hexDigit?_hexDigit (lowerDigit_lt _),
    hexDigit?_hexDigit (lowerDigit_lt _), hexDigit?_hexDigit (lowerDigit_lt _)]
  refine congrArg some (UInt16.toNat_inj.mp ?_)
  simp only [UInt16.toNat_add, UInt16.toNat_mul, UInt16.toNat_div, UInt16.toNat_mod,
    UInt16.reduceToNat]
  omega

/-- A unit may be written in front of an escaped text in the way that the
writer chooses for it. -/
theorem escaped_escapeUnit {text body : Text} (c : UInt16) (h : Escaped text body) :
    Escaped (c :: text) (escapeUnit c ++ body) := by
  unfold escapeUnit
  split
  · rename_i e hEscape
    have hTable : ∀ entry ∈ writtenEscapes, entry.2 ≠ unit 'u' ∧
        shortEscapes.lookup entry.2 = some entry.1 := by
      exact forall_of_all (by decide)
    obtain ⟨before, after, hSplit, _⟩ := List.lookup_eq_some_iff.mp hEscape
    obtain ⟨hNotHex, hShort⟩ := hTable (c, e) (by rw [hSplit]; simp)
    exact .short hNotHex hShort h
  · rename_i hPlain
    have hOther := List.lookup_eq_none_iff.mp hPlain
    split
    · exact .hex (hexUnit?_hexEscape c) h
    · rename_i hKept
      refine .plain ?_ ?_ (fun hControl => hKept (.inl hControl)) h
      · simpa using hOther (unit '"', unit '"') (by decide)
      · simpa using hOther (unit '\\', unit '\\') (by decide)

/-- A surrogate may stand for itself. -/
theorem escaped_surrogate {text body : Text} {c : UInt16} (hHigh : 0xD800 ≤ c)
    (h : Escaped text body) : Escaped (c :: text) (c :: body) := by
  refine .plain ?_ ?_ ?_ h
  · rintro rfl
    exact absurd hHigh (by decide)
  · rintro rfl
    exact absurd hHigh (by decide)
  · intro hControl
    have hHigh' : 0xD800 ≤ c.toNat := hHigh
    have hControl' : c.toNat < 0x20 := hControl
    omega

/-- What the writer makes of a text is one of the ways to escape it. -/
theorem escaped_escapeUnits (text : Text) : Escaped text (escapeUnits text) := by
  fun_induction escapeUnits text with
  | case1 => exact .nil
  | case2 c =>
      rw [← List.append_nil (escapeUnit c)]
      exact escaped_escapeUnit c .nil
  | case3 c d rest hPair ih =>
      obtain ⟨hLeading, hTrailing⟩ := Bool.and_eq_true_iff.mp hPair
      have hFirst : 0xD800 ≤ c := of_decide_eq_true (Bool.and_eq_true_iff.mp hLeading).1
      have hSecond : 0xDC00 ≤ d := of_decide_eq_true (Bool.and_eq_true_iff.mp hTrailing).1
      exact escaped_surrogate hFirst (escaped_surrogate (UInt16.le_trans (by decide) hSecond) ih)
  | case4 c d rest _ ih => exact escaped_escapeUnit c ih

/-! ### Values -/

section Values

variable {Number : Type} (format : NumberFormat Number)

mutual

/-- `JSON.stringify` without indentation. -/
def write : Value Number → Text
  | .null => ofString "null"
  | .bool true => ofString "true"
  | .bool false => ofString "false"
  | .number value => format.write value
  | .string text => writeString text
  | .array [] => [unit '[', unit ']']
  | .array (item :: items) => unit '[' :: (write item ++ writeItems items ++ [unit ']'])
  | .object [] => [unit '\x7b', unit '\x7d']
  | .object ((name, value) :: members) =>
      unit '\x7b' :: (writeString name ++ unit ':' :: (write value ++ writeMembers members) ++
        [unit '\x7d'])

def writeItems : List (Value Number) → Text
  | [] => []
  | item :: items => unit ',' :: (write item ++ writeItems items)

def writeMembers : List (Text × Value Number) → Text
  | [] => []
  | (name, value) :: members =>
      unit ',' :: (writeString name ++ unit ':' :: (write value ++ writeMembers members))

end

/-- The values that JSON has texts for: the names in an object differ, and a
number is read back from what is written. -/
inductive Writable : Value Number → Prop
  | null : Writable .null
  | bool (value : Bool) : Writable (.bool value)
  | number {value : Number} (hToken : isNumber (format.write value) = true)
      (hRead : format.read (format.write value) = value) : Writable (.number value)
  | string (text : Text) : Writable (.string text)
  | array {items : List (Value Number)} (h : ∀ item ∈ items, Writable item) :
      Writable (.array items)
  | object {members : List (Text × Value Number)} (hNames : (members.map Prod.fst).Nodup)
      (h : ∀ member ∈ members, Writable member.2) : Writable (.object members)

variable {format}

/-- Assigning a key that is not there appends the member. -/
theorem assign_new {members : List (Text × Value Number)} {member : Text × Value Number}
    (h : member.1 ∉ members.map Prod.fst) : assign members member = members ++ [member] := by
  induction members with
  | nil => rfl
  | cons first rest ih =>
      rw [List.map_cons, List.mem_cons, not_or] at h
      rw [assign, if_neg (Ne.symm h.1), ih h.2]
      rfl

/-- Members of different names are kept as they are listed. -/
theorem foldl_assign {members : List (Text × Value Number)}
    (h : (members.map Prod.fst).Nodup) : members.foldl assign [] = members := by
  have hFold : ∀ kept : List (Text × Value Number), ((kept ++ members).map Prod.fst).Nodup →
      members.foldl assign kept = kept ++ members := by
    clear h
    induction members with
    | nil => intro kept _; rw [List.append_nil]; rfl
    | cons member members ih =>
        intro kept hNodup
        have hNew : member.1 ∉ kept.map Prod.fst := by
          rw [List.map_append, List.nodup_append] at hNodup
          exact fun hMem => hNodup.2.2 _ hMem _ List.mem_cons_self rfl
        rw [List.foldl_cons, assign_new hNew, ih _ (by simpa using hNodup)]
        simp
  exact hFold [] h

/-- The items of a list, written with commas between them, are the text of a
list of items. -/
theorem itemsText_write {α : Type} {Token : α → Text → Prop} (writeItem : α → Text)
    (writeMore : List α → Text) (hNil : writeMore [] = [])
    (hCons : ∀ item items, writeMore (item :: items) =
      unit ',' :: (writeItem item ++ writeMore items)) {items : List α} (item : α)
    (hTokens : ∀ next ∈ item :: items, Token next (writeItem next)) :
    ItemsText Token (item :: items) (writeItem item ++ writeMore items) := by
  have hNone : Blanks [] := fun _ hMem => by cases hMem
  induction items generalizing item with
  | nil =>
      have hLast := ItemsText.last hNone (hTokens item List.mem_cons_self) hNone
      rwa [hNil]
  | cons next items ih =>
      obtain ⟨hFirst, hRest⟩ := List.forall_mem_cons.mp hTokens
      have hNext := ItemsText.next hNone hFirst hNone (ih next hRest)
      rw [hCons]
      simpa using hNext

/-- The text of a value, nested as deep as need be. -/
def SomeText (format : NumberFormat Number) (value : Value Number) (token : Text) : Prop :=
  ∃ depth, ValueText format depth value token

theorem memberText_write {member : Text × Value Number}
    (h : SomeText format member.2 (write format member.2)) :
    MemberText (SomeText format) member
      (writeString member.1 ++ unit ':' :: write format member.2) := by
  have hNone : Blanks [] := fun _ hMem => by cases hMem
  exact ⟨escapeUnits member.1, [], [], _, escaped_escapeUnits _, hNone, hNone, h,
    by simp [writeString]⟩

/-- What is written for a value is one of its texts. -/
theorem Writable.someText {value : Value Number} (h : Writable format value) :
    SomeText format value (write format value) := by
  have hNone : Blanks [] := fun _ hMem => by cases hMem
  induction h with
  | null => exact ⟨1, rfl⟩
  | bool value => cases value <;> exact ⟨1, rfl⟩
  | number hToken hRead => exact ⟨1, hToken, hRead⟩
  | string text => exact ⟨1, escapeUnits text, escaped_escapeUnits text, rfl⟩
  | @array items _ ih =>
      cases items with
      | nil => exact ⟨1, [], .inl ⟨rfl, hNone⟩, rfl⟩
      | cons item items =>
          have hItems : ItemsText (SomeText format) (item :: items) _ :=
            itemsText_write (write format) (writeItems format) rfl (fun _ _ => rfl) item ih
          exact ⟨_ + 1, _, .inr (hItems.imp fun _ _ hLength ⟨_, hToken⟩ =>
            hToken.deepen hLength), rfl⟩
  | @object members hNames _ ih =>
      cases members with
      | nil => exact ⟨1, [], [], .inl ⟨rfl, hNone⟩, rfl, rfl⟩
      | cons member members =>
          have hMembers : ItemsText (MemberText (SomeText format)) (member :: members) _ :=
            itemsText_write (fun member => writeString member.1 ++ unit ':' :: write format member.2)
              (writeMembers format) rfl (fun _ _ => by simp [writeMembers]) member
              fun next hNext => memberText_write (ih next hNext)
          refine ⟨_ + 1, _, _, .inr (hMembers.imp fun _ _ hLength hMember =>
            hMember.imp fun _ hNested ⟨_, hToken⟩ => hToken.deepen (hNested.trans hLength)),
            (foldl_assign hNames).symm, ?_⟩
          simp [write]

/-- Parsing what was written gives the value again. Keys that are repeated are
excluded, since the last one would win. -/
theorem parse_write {value : Value Number} (h : Writable format value) :
    parse format (write format value) = some value := by
  have hNone : Blanks [] := fun _ hMem => by cases hMem
  obtain ⟨depth, hText⟩ := h.someText
  exact parse_iff.mpr ⟨[], _, [], hNone, hNone, hText.deepen le_rfl, by simp⟩

/-! ### Control characters -/

abbrev Printable (text : Text) : Prop := ∀ c ∈ text, 0x20 ≤ c

theorem isNumberUnit_printable {c : UInt16} (h : isNumberUnit c = true) : 0x20 ≤ c := by
  simp only [isNumberUnit, isDigit, Bool.or_eq_true, Bool.and_eq_true, decide_eq_true_eq] at h
  rcases h with ((((⟨hDigit, _⟩ | rfl) | rfl) | rfl) | rfl) | rfl
  · exact UInt16.le_trans (by decide) hDigit
  all_goals decide

theorem printable_append {first second : Text} (hFirst : Printable first)
    (hSecond : Printable second) : Printable (first ++ second) :=
  List.forall_mem_append.mpr ⟨hFirst, hSecond⟩

theorem printable_cons {c : UInt16} {text : Text} (hFirst : 0x20 ≤ c) (hRest : Printable text) :
    Printable (c :: text) :=
  List.forall_mem_cons.mpr ⟨hFirst, hRest⟩

theorem printable_hexDigit {n : UInt16} (h : n < 16) : 0x20 ≤ hexDigit n := by
  have hAll : ∀ k : Fin 16, 0x20 ≤ hexDigit (UInt16.ofNat k) := by
    decide
  have hSmall : n.toNat < 16 := h
  simpa using hAll ⟨n.toNat, hSmall⟩

/-- The writer leaves no control character unescaped. -/
theorem printable_escapeUnit (c : UInt16) : Printable (escapeUnit c) := by
  unfold escapeUnit
  split
  · rename_i e hEscape
    have hTable : ∀ entry ∈ writtenEscapes, 0x20 ≤ entry.2 := by
      exact forall_of_all (by decide)
    obtain ⟨before, after, hSplit, _⟩ := List.lookup_eq_some_iff.mp hEscape
    have hEntry := hTable (c, e) (by rw [hSplit]; simp)
    exact printable_cons (by decide) (printable_cons hEntry fun _ hMem => by cases hMem)
  · split
    · intro d hMem
      simp only [hexEscape, List.mem_cons, List.not_mem_nil, or_false] at hMem
      rcases hMem with rfl | rfl | rfl | rfl | rfl | rfl
      · decide
      · decide
      · exact printable_hexDigit (leadingDigit_lt c)
      · exact printable_hexDigit (lowerDigit_lt _)
      · exact printable_hexDigit (lowerDigit_lt _)
      · exact printable_hexDigit (lowerDigit_lt _)
    · rename_i hKept
      refine printable_cons ?_ fun _ hMem => by cases hMem
      exact UInt16.not_lt.mp fun hControl => hKept (.inl hControl)

theorem printable_escapeUnits (text : Text) : Printable (escapeUnits text) := by
  fun_induction escapeUnits text with
  | case1 => exact fun _ hMem => by cases hMem
  | case2 c => exact printable_escapeUnit c
  | case3 c d rest hPair ih =>
      obtain ⟨hLeading, hTrailing⟩ := Bool.and_eq_true_iff.mp hPair
      have hFirst : 0xD800 ≤ c := of_decide_eq_true (Bool.and_eq_true_iff.mp hLeading).1
      have hSecond : 0xDC00 ≤ d := of_decide_eq_true (Bool.and_eq_true_iff.mp hTrailing).1
      exact printable_cons (UInt16.le_trans (by decide) hFirst)
        (printable_cons (UInt16.le_trans (by decide) hSecond) ih)
  | case4 c d rest _ ih => exact printable_append (printable_escapeUnit c) ih

theorem printable_writeString (text : Text) : Printable (writeString text) :=
  printable_cons (by decide) (printable_append (printable_escapeUnits text)
    (printable_cons (by decide) fun _ hMem => by cases hMem))

/-- What is written for a list holds none if its items do not. -/
theorem printable_writeItems {items : List (Value Number)}
    (h : ∀ item ∈ items, Printable (write format item)) : Printable (writeItems format items) := by
  induction items with
  | nil => exact fun _ hMem => by cases hMem
  | cons item items ih =>
      obtain ⟨hFirst, hRest⟩ := List.forall_mem_cons.mp h
      exact printable_cons (by decide) (printable_append hFirst (ih hRest))

theorem printable_writeMembers {members : List (Text × Value Number)}
    (h : ∀ member ∈ members, Printable (write format member.2)) :
    Printable (writeMembers format members) := by
  induction members with
  | nil => exact fun _ hMem => by cases hMem
  | cons member members ih =>
      obtain ⟨hFirst, hRest⟩ := List.forall_mem_cons.mp h
      exact printable_cons (by decide) (printable_append (printable_writeString _)
        (printable_cons (by decide) (printable_append hFirst (ih hRest))))

/-- Control characters are escaped, so that what is written stands on one
line. -/
theorem Writable.printable {value : Value Number} (h : Writable format value) :
    Printable (write format value) := by
  have hNone : Printable [] := fun _ hMem => by cases hMem
  induction h with
  | null =>
      change Printable (ofString "null")
      exact forall_of_all (by decide)
  | bool value =>
      cases value with
      | true =>
          change Printable (ofString "true")
          exact forall_of_all (by decide)
      | false =>
          change Printable (ofString "false")
          exact forall_of_all (by decide)
  | number hToken _ => exact fun c hMem => isNumberUnit_printable (isNumber_units hToken c hMem)
  | string text => exact printable_writeString text
  | @array items _ ih =>
      cases items with
      | nil =>
          change Printable [unit '[', unit ']']
          exact forall_of_all (by decide)
      | cons item items =>
          obtain ⟨hFirst, hRest⟩ := List.forall_mem_cons.mp ih
          exact printable_cons (by decide) (printable_append
            (printable_append hFirst (printable_writeItems hRest))
            (printable_cons (by decide) hNone))
  | @object members _ _ ih =>
      cases members with
      | nil =>
          change Printable [unit '\x7b', unit '\x7d']
          exact forall_of_all (by decide)
      | cons member members =>
          obtain ⟨hFirst, hRest⟩ := List.forall_mem_cons.mp ih
          exact printable_cons (by decide) (printable_append
            (printable_append (printable_writeString _) (printable_cons (by decide)
              (printable_append hFirst (printable_writeMembers hRest))))
            (printable_cons (by decide) hNone))

end Values

end JsonText
