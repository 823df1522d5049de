import Mathlib.Algebra.Ring.Int.Defs
import RelayFold.Core.Json

/-! JSON Schema: what the keywords of a schema ask of a value. -/
namespace RelayFold.JsonSchemas

abbrev Members := List (String × Json)

/-- What a validator adds: its regular expressions, the documents that it
compiles, and the keywords that are not defined here. These may follow
references into the document, and look at the keywords next to them. -/
structure Vocabulary where
  isMatch : (pattern text : String) → Bool
  compiles : (document : Json) → Bool
  judges : (document : Json) → (siblings : Members) → (keyword : String) → (value subject : Json) →
    Bool

/-- Only objects have members. -/
def membersOf : Json → Members
  | .object members => members
  | _ => []

def isType : String → Json → Bool
  | "null", .null => true
  | "boolean", .bool _ => true
  | "string", .string _ => true
  | "array", .array _ => true
  | "object", .object _ => true
  | "number", .number _ _ => true
  | "integer", .number mantissa exponent => mantissa % 10 ^ exponent = 0
  | _, _ => false

def hasType (value subject : Json) : Bool :=
  match value with
  | .string name => isType name subject
  | .array names => names.any fun name => name.asStr.any (isType · subject)
  | _ => false

def hasRequired (value subject : Json) : Bool :=
  match value, subject with
  | .array names, .object members =>
      names.all fun name => name.asStr.any fun name => (members.lookup name).isSome
  | .array _, _ => true
  | _, _ => false

def isAtLeast (bound : Json) (size : Nat) : Bool :=
  match bound with
  | .number mantissa exponent => mantissa ≤ size * 10 ^ exponent
  | _ => false

def isAtMost (bound : Json) (size : Nat) : Bool :=
  match bound with
  | .number mantissa exponent => size * 10 ^ exponent ≤ mantissa
  | _ => false

section Keywords

variable (vocabulary : Vocabulary)

/-- The members that `additionalProperties` does not look at. -/
def isDeclared (siblings : Members) (name : String) : Bool :=
  ((siblings.lookup "properties").bind (·.get name)).isSome ||
    ((siblings.lookup "patternProperties").map membersOf).any fun patterns =>
      patterns.any fun (pattern, _) => vocabulary.isMatch pattern name

/-- One keyword. Its value is given as a schema, and its members as named
schemas. -/
def keywordHolds (document : Json) (siblings : Members) (keyword : String) (value : Json)
    (isValid : Json → Bool) (named : List (String × (Json → Bool))) (subject : Json) : Bool :=
  match keyword with
  | "type" => hasType value subject
  | "required" => hasRequired value subject
  | "properties" => (membersOf subject).all fun (name, member) => (named.lookup name).all (· member)
  | "additionalProperties" => (membersOf subject).all fun (name, member) =>
      isDeclared vocabulary siblings name || isValid member
  | "patternProperties" => named.all fun (pattern, isValid) =>
      (membersOf subject).all fun (name, member) =>
        !vocabulary.isMatch pattern name || isValid member
  | "propertyNames" => (membersOf subject).all fun (name, _) => isValid (.string name)
  | "minProperties" => subject.asObject.all fun members => isAtLeast value members.length
  | "maxProperties" => subject.asObject.all fun members => isAtMost value members.length
  | "minLength" => subject.asStr.all fun text => isAtLeast value text.length
  | "maxLength" => subject.asStr.all fun text => isAtMost value text.length
  | "pattern" => subject.asStr.all fun text =>
      value.asStr.any fun pattern => vocabulary.isMatch pattern text
  | "not" => !isValid subject
  | _ => vocabulary.judges document siblings keyword value subject

mutual

/-- A schema in a document: a boolean, or the conjunction of its keywords. -/
def isValid (document : Json) : Json → Json → Bool
  | .bool value, _ => value
  | .object keywords, subject => keywordsHold document keywords [] keywords subject
  | _, _ => false

/-- The keywords that did not occur before. -/
def keywordsHold (document : Json) (siblings : Members) (seen : List String) :
    Members → Json → Bool
  | [], _ => true
  | (keyword, value) :: rest, subject =>
      (keyword ∈ seen || keywordHolds vocabulary document siblings keyword value
        (isValid document value) (namedSchemas document value) subject) &&
        keywordsHold document siblings (keyword :: seen) rest subject

def namedSchemas (document : Json) : Json → List (String × (Json → Bool))
  | .object members => memberSchemas document members
  | _ => []

def memberSchemas (document : Json) : Members → List (String × (Json → Bool))
  | [] => []
  | (name, schema) :: rest => (name, isValid document schema) :: memberSchemas document rest

end

/-- The verdict of the validator built for a document. -/
def accepts (document subject : Json) : Bool :=
  vocabulary.compiles document && isValid vocabulary document document subject

/-- A keyword with its value. -/
def Holds (document : Json) (siblings : Members) (keyword : String) (value subject : Json) : Prop :=
  keywordHolds vocabulary document siblings keyword value (isValid vocabulary document value)
    (namedSchemas vocabulary document value) subject = true

end Keywords

section

variable {vocabulary : Vocabulary} {document : Json}

/-- A reference that names a place among the definitions of its document. -/
def pointsToDefs (reference : Json) : Bool :=
  reference.asStr.any fun text =>
    ["#/$defs/", "#/definitions/"].any fun start => start.toList.isPrefixOf text.toList

mutual

/-- All references in a value point to definitions. -/
def refersToDefs : Json → Bool
  | .object members => membersReferToDefs members
  | .array items => itemsReferToDefs items
  | _ => true

def membersReferToDefs : Members → Bool
  | [] => true
  | (name, value) :: rest =>
      (match name with
        | "$ref" => pointsToDefs value
        | "$dynamicRef" | "$recursiveRef" => false
        | _ => true) && refersToDefs value && membersReferToDefs rest

def itemsReferToDefs : List Json → Bool
  | [] => true
  | item :: rest => refersToDefs item && itemsReferToDefs rest

end

/-- The properties that a schema declares. -/
def propertiesOf (keywords : Members) : Members :=
  membersOf ((keywords.lookup "properties").getD (.object []))

/-- Two documents that differ in the properties they declare, to which no
reference points. -/
structure Alike (keywords keywords' : Members) : Prop where
  refers : membersReferToDefs keywords = true
  refers' : membersReferToDefs keywords' = true
  same : ∀ keyword, keyword ≠ "properties" → keywords.lookup keyword = keywords'.lookup keyword

/-- What the standard says of the parts that are left to the validator. -/
structure Vocabulary.Standard (vocabulary : Vocabulary) : Prop where
  /-- A keyword reads the document through references only. -/
  references : ∀ {keywords keywords'}, Alike keywords keywords' →
    ∀ siblings keyword value subject, membersReferToDefs siblings = true →
      membersReferToDefs [(keyword, value)] = true →
      vocabulary.judges (.object keywords) siblings keyword value subject =
        vocabulary.judges (.object keywords') siblings keyword value subject
  /-- Of the keywords that are not defined here, one looks at the properties next to it. -/
  siblings : ∀ document {siblings siblings'},
    (∀ keyword, keyword ≠ "properties" → siblings.lookup keyword = siblings'.lookup keyword) →
      ∀ keyword value subject, keyword ≠ "unevaluatedProperties" →
        vocabulary.judges document siblings keyword value subject =
          vocabulary.judges document siblings' keyword value subject
  /-- One more property with a schema that compiles neither breaks nor repairs a document. -/
  declares : ∀ keywords name schema, membersReferToDefs keywords = true →
    refersToDefs schema = true → vocabulary.compiles schema = true →
    (∀ value, keywords.lookup "properties" = some value → ∃ properties, value = .object properties) →
    (∀ declared, (propertiesOf keywords).lookup name = some declared → declared = schema) →
      vocabulary.compiles (.object (Json.insertField "properties"
        (.object (Json.insertField name schema (propertiesOf keywords))) keywords)) =
          vocabulary.compiles (.object keywords)

/-- A list of members refers to definitions only, if its first member and the
rest do. -/
theorem membersReferToDefs_cons {name : String} {value : Json} {rest : Members} :
    membersReferToDefs ((name, value) :: rest) = true ↔
      membersReferToDefs [(name, value)] = true ∧ membersReferToDefs rest = true := by
  simp only [membersReferToDefs, Bool.and_eq_true, and_true]

/-- A member whose references stay among the definitions has a value of which
the same is true. -/
theorem refersToDefs_of_member {name : String} {value : Json}
    (h : membersReferToDefs [(name, value)] = true) : refersToDefs value = true := by
  simp only [membersReferToDefs, Bool.and_eq_true] at h
  exact h.1.2

section

variable {keywords keywords' : Members}

/-- Two documents that are alike in their definitions judge a keyword alike, as
long as its references point to definitions. -/
theorem keywordHolds_document (hStandard : vocabulary.Standard) (hAlike : Alike keywords keywords')
    {siblings : Members} {keyword : String} {value : Json}
    (hSiblings : membersReferToDefs siblings = true)
    (hKeyword : membersReferToDefs [(keyword, value)] = true) (isValid : Json → Bool)
    (named : List (String × (Json → Bool))) (subject : Json) :
    keywordHolds vocabulary (.object keywords) siblings keyword value isValid named subject =
      keywordHolds vocabulary (.object keywords') siblings keyword value isValid named subject := by
  unfold keywordHolds
  rw [hStandard.references hAlike siblings keyword value subject hSiblings hKeyword]

mutual

/-- A schema whose references point to definitions has one verdict in two
documents that are alike. The recursion follows the schema. -/
theorem isValid_document (hStandard : vocabulary.Standard) (hAlike : Alike keywords keywords') :
    ∀ schema, refersToDefs schema = true →
      isValid vocabulary (.object keywords) schema = isValid vocabulary (.object keywords') schema
  | .object members, hRefers => by
      rw [refersToDefs] at hRefers
      funext subject
      rw [isValid, isValid, keywordsHold_document hStandard hAlike members members [] subject
        hRefers hRefers]
  | .null, _ | .bool _, _ | .number _ _, _ | .string _, _ | .array _, _ => by
      funext subject
      rw [isValid.eq_def, isValid.eq_def]

/-- By induction over the members, the same for a whole list of keywords. -/
theorem keywordsHold_document (hStandard : vocabulary.Standard) (hAlike : Alike keywords keywords') :
    ∀ (members siblings : Members) (seen : List String) (subject : Json),
      membersReferToDefs siblings = true → membersReferToDefs members = true →
      keywordsHold vocabulary (.object keywords) siblings seen members subject =
        keywordsHold vocabulary (.object keywords') siblings seen members subject
  | [], _, _, _, _, _ => by rw [keywordsHold, keywordsHold]
  | (keyword, value) :: rest, siblings, seen, subject, hSiblings, hMembers => by
      obtain ⟨hKeyword, hRest⟩ := membersReferToDefs_cons.mp hMembers
      have hValue := refersToDefs_of_member hKeyword
      rw [keywordsHold, keywordsHold, isValid_document hStandard hAlike value hValue,
        namedSchemas_document hStandard hAlike value hValue,
        keywordsHold_document hStandard hAlike rest siblings _ subject hSiblings hRest,
        keywordHolds_document hStandard hAlike hSiblings hKeyword]

theorem namedSchemas_document (hStandard : vocabulary.Standard) (hAlike : Alike keywords keywords') :
    ∀ value, refersToDefs value = true →
      namedSchemas vocabulary (.object keywords) value =
        namedSchemas vocabulary (.object keywords') value
  | .object members, hRefers => by
      rw [refersToDefs] at hRefers
      rw [namedSchemas, namedSchemas, memberSchemas_document hStandard hAlike members hRefers]
  | .null, _ | .bool _, _ | .number _ _, _ | .string _, _ | .array _, _ => by
      rw [namedSchemas.eq_def, namedSchemas.eq_def]

/-- The member schemas of a list compile alike against two documents that agree
apart from `properties`, since each of them refers to `$defs` only. -/
theorem memberSchemas_document (hStandard : vocabulary.Standard)
    (hAlike : Alike keywords keywords') :
    ∀ members, membersReferToDefs members = true →
      memberSchemas vocabulary (.object keywords) members =
        memberSchemas vocabulary (.object keywords') members
  | [], _ => by rw [memberSchemas, memberSchemas]
  | (name, schema) :: rest, hMembers => by
      obtain ⟨hFirst, hRest⟩ := membersReferToDefs_cons.mp hMembers
      rw [memberSchemas, memberSchemas,
        isValid_document hStandard hAlike schema (refersToDefs_of_member hFirst),
        memberSchemas_document hStandard hAlike rest hRest]

end

end

end

end RelayFold.JsonSchemas
