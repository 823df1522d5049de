import RelayFold.Library.CodeUnits
import RelayFold.Library.Interpolation

/-! The interpolation of credentials into the headers of a request. -/
namespace RelayFold.CredentialResolver

open CodeUnits Interpolation

/-- What `getCredential` returns. -/
abbrev CredentialStore := Text → Option Text

/-- What a call returns or throws, and the names of the credentials that it
reads. -/
structure Resolution where
  reads : List Text
  result : Except Text Text

namespace Resolution

def throws (message : Text) : Resolution := ⟨[], .error message⟩

/-- `await`: go on with the text, unless the call throws. -/
def andThen (first : Resolution) (next : Text → Option Resolution) : Option Resolution :=
  match first.result with
  | .error _ => some first
  | .ok text => (next text).map fun second => ⟨first.reads ++ second.reads, second.result⟩

end Resolution

def isNameStart (c : UInt16) : Bool :=
  (unit 'a' ≤ c && c ≤ unit 'z') || (unit 'A' ≤ c && c ≤ unit 'Z') || c = unit '_'

def isNamePart (c : UInt16) : Bool := isNameStart c || (unit '0' ≤ c && c ≤ unit '9')

def isCredentialName : Text → Bool
  | [] => false
  | c :: rest => isNameStart c && rest.all isNamePart

def credentialsDot : Text := ofString "credentials."

/-- The group that `^credentials\.([a-zA-Z_][a-zA-Z0-9_]*)$` captures. -/
def matchCredential (expression : Text) : Option Text :=
  if credentialsDot.isPrefixOf expression then
    let name := expression.drop credentialsDot.length
    if isCredentialName name then some name else none
  else none

/-- `'${expression}'` in a message. -/
def quoted (expression : Text) : Text := ofString "'$\x7b" ++ expression ++ ofString "\x7d'"

def resolveExpression (store : CredentialStore) (requiredCredentials : List Text)
    (expression : Text) : Resolution :=
  match matchCredential expression with
  | none =>
      if credentialsDot.isPrefixOf expression then
        .throws (ofString "Invalid credential name in expression: " ++ quoted expression)
      else if (expression.splitOn (unit '.')).head? ≠ some (ofString "credentials") then
        .throws (ofString "Unknown namespace in expression: " ++ quoted expression ++
          ofString ". Only 'credentials' is supported.")
      else .throws (ofString "Malformed expression: " ++ quoted expression)
  | some credentialName =>
      if credentialName ∉ requiredCredentials then
        .throws (ofString "Credential '" ++ credentialName ++
          ofString "' is referenced but not declared in required_credentials")
      else
        match store credentialName with
        | none => ⟨[credentialName],
            .error (ofString "Credential '" ++ credentialName ++ ofString "' is unavailable")⟩
        | some value => ⟨[credentialName], .ok value⟩

def unterminatedMessage : Text :=
  ofString "Malformed interpolation expression in header value: unterminated '$\x7b'"

/-- `value.indexOf(c, i)`. -/
def indexOf (value : Text) (c : UInt16) (i : Nat) : Option Nat :=
  ((value.drop i).idxOf? c).map (· + i)

/-- The loop of `resolveString`, with a bound on its rounds. -/
def resolveLoop (store : CredentialStore) (requiredCredentials : List Text) (value : Text) :
    Nat → Nat → List Text → Option Resolution
  | 0, _, _ => none
  | rounds + 1, i, parts =>
      match value[i]? with
      | none => some ⟨[], .ok parts.flatten⟩
      | some c =>
          if (ofString "$$\x7b").isPrefixOf (value.drop i) then
            resolveLoop store requiredCredentials value rounds (i + 3)
              (parts ++ [ofString "$\x7b"])
          else if (ofString "$\x7b").isPrefixOf (value.drop i) then
            match indexOf value (unit '\x7d') (i + 2) with
            | none => some (.throws unterminatedMessage)
            | some closingBraceIndex =>
                let expression := (value.drop (i + 2)).take (closingBraceIndex - (i + 2))
                (resolveExpression store requiredCredentials expression).andThen
                  fun resolvedValue =>
                    resolveLoop store requiredCredentials value rounds (closingBraceIndex + 1)
                      (parts ++ [resolvedValue])
          else resolveLoop store requiredCredentials value rounds (i + 1) (parts ++ [[c]])

/-- `resolveString`, if it ends within so many rounds. -/
def resolveString (store : CredentialStore) (requiredCredentials : List Text) (rounds : Nat)
    (value : Text) : Option Resolution :=
  resolveLoop store requiredCredentials value rounds 0 []

/-! ### Expressions -/

/-- An expression that names a declared and available credential. -/
def Resolves (store : CredentialStore) (requiredCredentials : List Text) (expression : Text)
    (secret : Text) : Prop :=
  ∃ name, isCredentialName name = true ∧ expression = credentialsDot ++ name ∧
    name ∈ requiredCredentials ∧ store name = some secret

section

variable {store : CredentialStore} {requiredCredentials : List Text}

/-- An expression names a credential exactly if it is the prefix followed by a
valid name. -/
theorem matchCredential_iff {expression name : Text} :
    matchCredential expression = some name ↔
      isCredentialName name = true ∧ expression = credentialsDot ++ name := by
  unfold matchCredential
  constructor
  · intro h
    split at h
    · rename_i hPrefix
      obtain ⟨rest, rfl⟩ := List.isPrefixOf_iff_prefix.mp hPrefix
      dsimp only at h
      rw [List.drop_left] at h
      split at h
      · rename_i hName
        cases h
        exact ⟨hName, rfl⟩
      · cases h
    · cases h
  · rintro ⟨hName, rfl⟩
    have hPrefix : credentialsDot.isPrefixOf (credentialsDot ++ name) = true :=
      List.isPrefixOf_iff_prefix.mpr (List.prefix_append _ _)
    rw [if_pos hPrefix]
    dsimp only
    rw [List.drop_left, if_pos hName]

/-- An expression is replaced by the secret of a credential that the task
requires and the store has, and by nothing else. -/
theorem resolveExpression_ok {expression secret : Text} :
    (resolveExpression store requiredCredentials expression).result = .ok secret ↔
      Resolves store requiredCredentials expression secret := by
  unfold resolveExpression
  constructor
  · intro h
    split at h
    · split at h
      · cases h
      · split at h <;> cases h
    · rename_i name hMatch
      obtain ⟨hName, hExpression⟩ := matchCredential_iff.mp hMatch
      split at h
      · cases h
      · rename_i hDeclared
        split at h
        · cases h
        · rename_i value hValue
          cases h
          exact ⟨name, hName, hExpression, not_not.mp hDeclared, hValue⟩
  · rintro ⟨name, hName, hExpression, hDeclared, hValue⟩
    rw [matchCredential_iff.mpr ⟨hName, hExpression⟩]
    dsimp only
    rw [if_neg (not_not.mpr hDeclared), hValue]

/-- The store is asked for required credentials only. -/
theorem resolveExpression_reads {expression name : Text}
    (h : name ∈ (resolveExpression store requiredCredentials expression).reads) :
    name ∈ requiredCredentials := by
  unfold resolveExpression at h
  split at h
  · split at h
    · cases h
    · split at h <;> cases h
  · split at h
    · cases h
    · rename_i hDeclared
      split at h <;>
      · rw [List.mem_singleton.mp h]
        exact not_not.mp hDeclared

/-! ### The scan -/

abbrev HeaderReads : Text → List (Piece UInt16) → Prop :=
  Reads (unit '$') (unit '\x7b') (unit '\x7d')

variable (store requiredCredentials) in
/-- What a piece of a header is replaced by. -/
def Stands : Piece UInt16 → Text → Prop
  | .unit c, text => text = [c]
  | .escaped, text => text = ofString "$\x7b"
  | .expression body, text => Resolves store requiredCredentials body text
  | .unterminated _, _ => False

/-- How a scan ends that has these parts and still has these pieces to read. -/
structure Outcome (store : CredentialStore) (requiredCredentials : List Text)
    (pieces : List (Piece UInt16)) (parts : List Text) (resolution : Resolution) : Prop where
  confined : ∀ name ∈ resolution.reads, name ∈ requiredCredentials
  ok_iff : ∀ text, resolution.result = .ok text ↔
    ∃ texts, List.Forall₂ (Stands store requiredCredentials) pieces texts ∧
      text = (parts ++ texts).flatten
  literal : (∀ piece ∈ pieces, piece.Literal) → resolution.reads = []

namespace Outcome

variable {pieces : List (Piece UInt16)} {parts : List Text} {resolution : Resolution}

/-- A text without pieces left is done: what has been collected is the
result. -/
theorem nil : Outcome store requiredCredentials [] parts ⟨[], .ok parts.flatten⟩ where
  confined := fun _ hMem => by cases hMem
  ok_iff := by
    intro text
    constructor
    · intro h
      cases h
      exact ⟨[], .nil, by rw [List.append_nil]⟩
    · rintro ⟨texts, hTexts, rfl⟩
      cases hTexts
      rw [List.append_nil]
  literal := fun _ => rfl

/-- A piece that stands for one text only is replaced by it. -/
theorem ok_cons {piece : Piece UInt16} {own : Text} {result : Except Text Text}
    (hStands : ∀ text, Stands store requiredCredentials piece text ↔ text = own)
    (h : ∀ text, result = .ok text ↔ ∃ texts,
      List.Forall₂ (Stands store requiredCredentials) pieces texts ∧
        text = (parts ++ [own] ++ texts).flatten) (text : Text) :
    result = .ok text ↔ ∃ texts,
      List.Forall₂ (Stands store requiredCredentials) (piece :: pieces) texts ∧
        text = (parts ++ texts).flatten := by
  rw [h]
  constructor
  · rintro ⟨texts, hTexts, rfl⟩
    exact ⟨own :: texts, .cons ((hStands own).mpr rfl) hTexts, by simp⟩
  · rintro ⟨texts, hTexts, rfl⟩
    cases hTexts with
    | cons hFirst hRest =>
        rw [(hStands _).mp hFirst]
        exact ⟨_, hRest, by simp⟩

theorem unit {c : UInt16} (h : Outcome store requiredCredentials pieces (parts ++ [[c]]) resolution) :
    Outcome store requiredCredentials (.unit c :: pieces) parts resolution where
  confined := h.confined
  ok_iff := ok_cons (fun _ => Iff.rfl) h.ok_iff
  literal := fun hLiteral => h.literal (List.forall_mem_cons.mp hLiteral).2

theorem escaped
    (h : Outcome store requiredCredentials pieces (parts ++ [ofString "$\x7b"]) resolution) :
    Outcome store requiredCredentials (.escaped :: pieces) parts resolution where
  confined := h.confined
  ok_iff := ok_cons (fun _ => Iff.rfl) h.ok_iff
  literal := fun hLiteral => h.literal (List.forall_mem_cons.mp hLiteral).2

/-- A secret is copied as it is, and the scan goes on after the expression. -/
theorem expression {body secret : Text} {first : Resolution}
    (hFirst : resolveExpression store requiredCredentials body = first)
    (hSecret : first.result = .ok secret)
    (h : Outcome store requiredCredentials pieces (parts ++ [secret]) resolution) :
    Outcome store requiredCredentials (.expression body :: pieces) parts
      ⟨first.reads ++ resolution.reads, resolution.result⟩ where
  confined := by
    intro name hName
    rcases List.mem_append.mp hName with hOwn | hLater
    · exact resolveExpression_reads (hFirst ▸ hOwn)
    · exact h.confined name hLater
  ok_iff := by
    refine ok_cons (fun text => ?_) h.ok_iff
    change Resolves store requiredCredentials body text ↔ text = secret
    rw [← resolveExpression_ok, hFirst, hSecret, Except.ok.injEq]
    exact eq_comm
  literal := fun hLiteral => ((List.forall_mem_cons.mp hLiteral).1).elim

/-- Where a piece stands for nothing, the scan throws. -/
theorem throws {piece : Piece UInt16} {message : Text} (hError : resolution.result = .error message)
    (hReads : ∀ name ∈ resolution.reads, name ∈ requiredCredentials)
    (hStands : ∀ text, ¬Stands store requiredCredentials piece text)
    (hLiteral : ¬piece.Literal) :
    Outcome store requiredCredentials (piece :: pieces) parts resolution where
  confined := hReads
  ok_iff := by
    intro text
    constructor
    · intro h
      rw [hError] at h
      cases h
    · rintro ⟨texts, hTexts, _⟩
      cases hTexts with
      | cons hFirst _ => exact absurd hFirst (hStands _)
  literal := fun hAll => absurd (List.forall_mem_cons.mp hAll).1 hLiteral

end Outcome

/-- The test of the loop for an escaped opening, as a prefix of the remaining
units. -/
theorem escaped_prefix {text : Text} : (ofString "$$\x7b").isPrefixOf text = true ↔
    [unit '$', unit '$', unit '\x7b'] <+: text := by
  rw [show ofString "$$\x7b" = [unit '$', unit '$', unit '\x7b'] by
    decide]
  exact List.isPrefixOf_iff_prefix

theorem expression_prefix {text : Text} : (ofString "$\x7b").isPrefixOf text = true ↔
    [unit '$', unit '\x7b'] <+: text := by
  rw [show ofString "$\x7b" = [unit '$', unit '\x7b'] by decide]
  exact List.isPrefixOf_iff_prefix

/-! The rounds of the loop, by what is left of the header. -/

variable {value rest body : Text} {i rounds : Nat} {parts : List Text}

/-- The unit at a position is the first of what remains from there. -/
theorem getElem?_of_drop {c : UInt16} (hRest : value.drop i = c :: rest) : value[i]? = some c := by
  rw [← List.head?_drop, hRest]
  rfl

/-- On an escaped opening the loop moves on by three units. -/
theorem resolveLoop_escaped (hRest : value.drop i =
      unit '$' :: unit '$' :: unit '\x7b' :: rest) :
    resolveLoop store requiredCredentials value (rounds + 1) i parts =
      resolveLoop store requiredCredentials value rounds (i + 3) (parts ++ [ofString "$\x7b"]) := by
  have hPrefix : (ofString "$$\x7b").isPrefixOf (value.drop i) = true :=
    escaped_prefix.mpr ⟨rest, hRest.symm⟩
  rw [resolveLoop, getElem?_of_drop hRest]
  dsimp only
  rw [if_pos hPrefix]

/-- On any other unit that opens nothing it moves on by one. -/
theorem resolveLoop_unit {c : UInt16} (hRest : value.drop i = c :: rest)
    (hEscaped : ¬[unit '$', unit '$', unit '\x7b'] <+: c :: rest)
    (hExpression : ¬[unit '$', unit '\x7b'] <+: c :: rest) :
    resolveLoop store requiredCredentials value (rounds + 1) i parts =
      resolveLoop store requiredCredentials value rounds (i + 1) (parts ++ [[c]]) := by
  rw [resolveLoop, getElem?_of_drop hRest]
  dsimp only
  rw [hRest, if_neg (mt escaped_prefix.mp hEscaped), if_neg (mt expression_prefix.mp hExpression)]

theorem drop_expression (hRest : value.drop i =
      unit '$' :: unit '\x7b' :: rest) : value.drop (i + 2) = rest := by
  rw [← List.drop_drop, hRest]
  rfl

theorem not_escaped : ¬[unit '$', unit '$', unit '\x7b'] <+:
    unit '$' :: unit '\x7b' :: rest := by
  rw [List.cons_prefix_cons, List.cons_prefix_cons]
  exact fun h => absurd h.2.1 (by decide)

/-- An opening that is never closed makes it throw, before any later text is
looked at. -/
theorem resolveLoop_unterminated (hRest : value.drop i =
      unit '$' :: unit '\x7b' :: body) (hBody : unit '\x7d' ∉ body) :
    resolveLoop store requiredCredentials value (rounds + 1) i parts =
      some (.throws unterminatedMessage) := by
  have hPrefix : (ofString "$\x7b").isPrefixOf (value.drop i) = true :=
    expression_prefix.mpr ⟨body, hRest.symm⟩
  have hNone : indexOf value (unit '\x7d') (i + 2) = none := by
    rw [indexOf, drop_expression hRest, List.idxOf?_eq_none_iff.mpr hBody]
    rfl
  rw [resolveLoop, getElem?_of_drop hRest]
  dsimp only
  rw [if_pos hPrefix, hNone, hRest, if_neg (mt escaped_prefix.mp not_escaped)]

/-- An expression is resolved, and the loop goes on behind its closing brace.
The secret is appended to the parts and never scanned again. -/
theorem resolveLoop_expression (hRest : value.drop i =
      unit '$' :: unit '\x7b' :: (body ++ unit '\x7d' :: rest))
    (hBody : unit '\x7d' ∉ body) :
    resolveLoop store requiredCredentials value (rounds + 1) i parts =
      (resolveExpression store requiredCredentials body).andThen fun resolvedValue =>
        resolveLoop store requiredCredentials value rounds (i + 2 + body.length + 1)
          (parts ++ [resolvedValue]) := by
  have hPrefix : (ofString "$\x7b").isPrefixOf (value.drop i) = true :=
    expression_prefix.mpr ⟨_, hRest.symm⟩
  have hDrop := drop_expression hRest
  have hIndex : indexOf value (unit '\x7d') (i + 2) = some (body.length + (i + 2)) := by
    rw [indexOf, hDrop, idxOf?_append_cons hBody]
    rfl
  have hTake : (value.drop (i + 2)).take (body.length + (i + 2) - (i + 2)) = body := by
    rw [hDrop, Nat.add_sub_cancel, List.take_left]
  rw [resolveLoop, getElem?_of_drop hRest]
  dsimp only
  rw [if_pos hPrefix, hIndex]
  dsimp only
  rw [hTake, hRest, if_neg (mt escaped_prefix.mp not_escaped), Nat.add_comm body.length]

/-- The loop follows the pieces of what is left of the header. -/
theorem resolveLoop_outcome {pieces : List (Piece UInt16)} (h : HeaderReads rest pieces)
    (hRest : value.drop i = rest) (parts : List Text) :
    ∃ resolution, (∀ rounds, rest.length < rounds →
        resolveLoop store requiredCredentials value rounds i parts = some resolution) ∧
      Outcome store requiredCredentials pieces parts resolution := by
  induction h generalizing i parts with
  | nil =>
      refine ⟨_, fun rounds hRounds => ?_, .nil⟩
      obtain ⟨rounds, rfl⟩ := Nat.exists_eq_add_of_lt hRounds
      rw [resolveLoop, ← List.head?_drop, hRest]
      rfl
  | @escaped rest pieces _ ih =>
      have hNext : value.drop (i + 3) = rest := by
        rw [← List.drop_drop, hRest]
        rfl
      obtain ⟨resolution, hLoop, hOutcome⟩ := ih hNext (parts ++ [ofString "$\x7b"])
      refine ⟨resolution, fun rounds hRounds => ?_, .escaped hOutcome⟩
      simp only [List.length_cons] at hRounds
      obtain ⟨rounds, rfl⟩ : ∃ earlier, rounds = earlier + 1 := ⟨rounds - 1, by omega⟩
      rw [resolveLoop_escaped hRest, hLoop rounds (by omega)]
  | @expression body rest pieces hBody _ ih =>
      cases hFirst : (resolveExpression store requiredCredentials body).result with
      | error message =>
          refine ⟨resolveExpression store requiredCredentials body, fun rounds hRounds => ?_,
            .throws hFirst (fun _ => resolveExpression_reads) (fun text hText => ?_) id⟩
          · obtain ⟨rounds, rfl⟩ : ∃ earlier, rounds = earlier + 1 := ⟨rounds - 1, by omega⟩
            rw [resolveLoop_expression hRest hBody, Resolution.andThen, hFirst]
          · rw [resolveExpression_ok.mpr hText] at hFirst
            cases hFirst
      | ok secret =>
          have hNext : value.drop (i + 2 + body.length + 1) = rest := by
            rw [← List.drop_drop, ← List.drop_drop, drop_expression hRest, List.drop_left]
            rfl
          obtain ⟨resolution, hLoop, hOutcome⟩ := ih hNext (parts ++ [secret])
          refine ⟨_, fun rounds hRounds => ?_, .expression rfl hFirst hOutcome⟩
          simp only [List.length_cons, List.length_append] at hRounds
          obtain ⟨rounds, rfl⟩ : ∃ earlier, rounds = earlier + 1 := ⟨rounds - 1, by omega⟩
          rw [resolveLoop_expression hRest hBody, Resolution.andThen, hFirst]
          dsimp only
          rw [hLoop rounds (by omega)]
          rfl
  | @unterminated body hBody =>
      refine ⟨.throws unterminatedMessage, fun rounds hRounds => ?_,
        .throws rfl (fun _ hMem => by cases hMem) (fun _ => id) id⟩
      obtain ⟨rounds, rfl⟩ : ∃ earlier, rounds = earlier + 1 := ⟨rounds - 1, by omega⟩
      exact resolveLoop_unterminated hRest hBody
  | @unit c rest pieces hEscaped hExpression _ ih =>
      have hNext : value.drop (i + 1) = rest := by
        rw [← List.drop_drop, hRest]
        rfl
      obtain ⟨resolution, hLoop, hOutcome⟩ := ih hNext (parts ++ [[c]])
      refine ⟨resolution, fun rounds hRounds => ?_, .unit hOutcome⟩
      rw [List.length_cons] at hRounds
      obtain ⟨rounds, rfl⟩ : ∃ earlier, rounds = earlier + 1 := ⟨rounds - 1, by omega⟩
      rw [resolveLoop_unit hRest hEscaped hExpression, hLoop rounds (by omega)]

/-- What keeps a header from being resolved. -/
def Unresolvable (store : CredentialStore) (requiredCredentials : List Text) :
    Piece UInt16 → Prop
  | .unterminated _ => True
  | .expression body => ∀ secret, ¬Resolves store requiredCredentials body secret
  | _ => False

/-- A piece is unresolvable if no text stands for it. -/
theorem unresolvable_iff (piece : Piece UInt16) :
    Unresolvable store requiredCredentials piece ↔
      ∀ text, ¬Stands store requiredCredentials piece text := by
  cases piece with
  | unit c => exact ⟨fun h => h.elim, fun h => h _ rfl⟩
  | escaped => exact ⟨fun h => h.elim, fun h => h _ rfl⟩
  | expression body => exact Iff.rfl
  | unterminated body => exact ⟨fun _ _ h => h, fun _ => trivial⟩

/-- Results for all items of a list can be chosen one by one. -/
theorem exists_forall₂_iff {α β : Type} {R : α → β → Prop} {items : List α} :
    (∃ results, List.Forall₂ R items results) ↔ ∀ item ∈ items, ∃ result, R item result := by
  induction items with
  | nil => exact ⟨fun _ _ h => (by cases h), fun _ => ⟨[], .nil⟩⟩
  | cons item items ih =>
      rw [List.forall_mem_cons, ← ih]
      constructor
      · rintro ⟨_, h⟩
        cases h with
        | cons hFirst hRest => exact ⟨⟨_, hFirst⟩, ⟨_, hRest⟩⟩
      · rintro ⟨⟨_, hFirst⟩, ⟨_, hRest⟩⟩
        exact ⟨_, .cons hFirst hRest⟩

/-- A scan throws exactly if it meets a piece that stands for nothing. -/
theorem Outcome.throws_iff {pieces : List (Piece UInt16)} {resolution : Resolution}
    (h : Outcome store requiredCredentials pieces parts resolution) :
    (∃ message, resolution.result = .error message) ↔
      ∃ piece ∈ pieces, Unresolvable store requiredCredentials piece := by
  have hOk : (∃ text, resolution.result = .ok text) ↔
      ∀ piece ∈ pieces, ∃ text, Stands store requiredCredentials piece text := by
    rw [← exists_forall₂_iff]
    constructor
    · rintro ⟨text, hText⟩
      obtain ⟨texts, hTexts, _⟩ := (h.ok_iff text).mp hText
      exact ⟨texts, hTexts⟩
    · rintro ⟨texts, hTexts⟩
      exact ⟨_, (h.ok_iff _).mpr ⟨texts, hTexts, rfl⟩⟩
  have hCases : (∃ message, resolution.result = .error message) ↔
      ¬∃ text, resolution.result = .ok text := by
    cases resolution.result <;> simp
  rw [hCases, hOk]
  push Not
  exact exists_congr fun piece => and_congr_right fun _ => (unresolvable_iff piece).symm

end

/-- Pieces that are no expressions stand for their own texts under every
store. -/
theorem literal_stands {store : CredentialStore} {requiredCredentials : List Text}
    {pieces : List (Piece UInt16)} (h : ∀ piece ∈ pieces, piece.Literal) :
    List.Forall₂ (Stands store requiredCredentials) pieces
      (pieces.map (Piece.text (unit '$') (unit '\x7b'))) := by
  induction pieces with
  | nil => exact .nil
  | cons piece pieces ih =>
      obtain ⟨hFirst, hRest⟩ := List.forall_mem_cons.mp h
      refine .cons ?_ (ih hRest)
      cases piece with
      | unit c => exact rfl
      | escaped =>
          change [unit '$', unit '\x7b'] = ofString "$\x7b"
          decide
      | expression body => exact hFirst.elim
      | unterminated body => exact hFirst.elim

/-- A header is read once, from the left: the scan ends, reads only declared
credentials, copies the secrets as they are, throws exactly where an expression
is open or names no declared and available credential, and gives an escaped
text back. -/
theorem resolveString_single_pass (store : CredentialStore) (requiredCredentials : List Text) :
    (∀ value, ∃ resolution,
      (∀ rounds, value.length < rounds →
        resolveString store requiredCredentials rounds value = some resolution) ∧
      (∀ name ∈ resolution.reads, name ∈ requiredCredentials) ∧
      (∃ pieces, HeaderReads value pieces) ∧
      ∀ pieces, HeaderReads value pieces →
        (∀ text, resolution.result = .ok text ↔
          ∃ texts, List.Forall₂ (Stands store requiredCredentials) pieces texts ∧
            text = texts.flatten) ∧
        ((∃ message, resolution.result = .error message) ↔
          ∃ piece ∈ pieces, Unresolvable store requiredCredentials piece)) ∧
    ∀ text rounds, (escapeAll (unit '$') (unit '\x7b') text).length < rounds →
      resolveString store requiredCredentials rounds (escapeAll (unit '$') (unit '\x7b') text) =
        some ⟨[], .ok text⟩ := by
  have hScan {value : Text} {pieces : List (Piece UInt16)} (hPieces : HeaderReads value pieces) :
      ∃ resolution, (∀ rounds, value.length < rounds →
          resolveString store requiredCredentials rounds value = some resolution) ∧
        Outcome store requiredCredentials pieces [] resolution :=
    resolveLoop_outcome hPieces List.drop_zero []
  constructor
  · intro value
    obtain ⟨pieces, hPieces⟩ := Reads.total (unit '$') (unit '\x7b') (unit '\x7d') value
    obtain ⟨resolution, hLoop, hOutcome⟩ := hScan hPieces
    refine ⟨resolution, hLoop, hOutcome.confined, ⟨pieces, hPieces⟩, fun others hOthers => ?_⟩
    obtain ⟨same, hSame, hOutcome⟩ := hScan hOthers
    have hEq : resolution = same :=
      Option.some.inj ((hLoop _ (Nat.lt_succ_self _)).symm.trans (hSame _ (Nat.lt_succ_self _)))
    rw [hEq]
    exact ⟨hOutcome.ok_iff, hOutcome.throws_iff⟩
  · intro text rounds hRounds
    obtain ⟨pieces, hPieces, hLiteral, hText⟩ :=
      reads_escapeAll (unit '\x7d') (show unit '$' ≠ unit '\x7b' by decide) text
    obtain ⟨⟨reads, result⟩, hLoop, hOutcome⟩ := hScan hPieces
    have hReads : reads = [] := hOutcome.literal hLiteral
    have hResult : result = .ok text := by
      refine (hOutcome.ok_iff text).mpr ⟨_, literal_stands hLiteral, ?_⟩
      rw [List.nil_append, ← List.flatMap_def, hText]
    rw [hLoop rounds hRounds, hReads, hResult]

end RelayFold.CredentialResolver
