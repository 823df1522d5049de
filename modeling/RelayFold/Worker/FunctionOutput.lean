import RelayFold.Library.DelimitedText
import RelayFold.Library.JsonWriting

/-! The result of a function: the runner writes it to the stream that the
function prints to, and the worker looks for its line. -/
namespace RelayFold

open CodeUnits JsonText

variable {Number : Type} (format : NumberFormat Number)

def newline : UInt16 := unit '\n'

def resultPrefix : Text := ofString "__RELAYFOLD_RESULT__"

/-- What the runner reports. A function's output that is no JSON value is left
out. -/
inductive RunnerEnvelope (Number : Type) where
  | ok (output : Option (Value Number))
  | error (message : Text)

def RunnerEnvelope.toValue : RunnerEnvelope Number → Value Number
  | ok none => .object [(ofString "status", .string (ofString "ok"))]
  | ok (some output) =>
      .object [(ofString "status", .string (ofString "ok")), (ofString "output", output)]
  | error message =>
      .object [(ofString "status", .string (ofString "error")), (ofString "message", .string message)]

/-- What `runnerSource` writes at the end. -/
def resultLine (envelope : RunnerEnvelope Number) : Text :=
  resultPrefix ++ write format envelope.toValue ++ [newline]

inductive JsError where
  | syntaxError
  | typeError
deriving DecidableEq

/-- `value[name]` of a parsed value. -/
def readProperty (value : Value Number) (name : Text) : Except JsError (Option (Value Number)) :=
  match value with
  | .null => .error .typeError
  | .object members => .ok (members.lookup name)
  | _ => .ok none

def parseFunctionEnvelope (stdout : Text) : Except JsError (Option (Value Number)) :=
  match (stdout.splitOn newline).find? (resultPrefix.isPrefixOf ·) with
  | none => .ok none
  | some resultLine =>
      match parse format (resultLine.drop resultPrefix.length) with
      | none => .error .syntaxError
      | some parsed => do
          match ← readProperty parsed (ofString "status") with
          | some (.string status) =>
              if status ≠ ofString "ok" ∧ status ≠ ofString "error" then return none
              else return some parsed
          | _ => return none

section Lines

variable {format} {envelope : RunnerEnvelope Number} {printed : Text}

/-- The values that the runner can report. -/
def RunnerEnvelope.Writable (format : NumberFormat Number) (envelope : RunnerEnvelope Number) :
    Prop :=
  ∀ output, envelope = .ok (some output) → JsonText.Writable format output

/-- The envelope of a result with a writable output is a JSON value that can be
written. -/
theorem RunnerEnvelope.Writable.toValue (h : envelope.Writable format) :
    JsonText.Writable format envelope.toValue := by
  match envelope with
  | .ok none =>
      refine .object (List.nodup_cons.mpr ⟨List.not_mem_nil, List.nodup_nil⟩) fun member hMember => ?_
      rw [List.mem_singleton] at hMember
      rw [hMember]
      exact .string _
  | .ok (some output) =>
      have hNames : [ofString "status", ofString "output"].Nodup := by decide
      refine .object hNames fun member hMember => ?_
      rcases List.mem_pair.mp hMember with rfl | rfl
      · exact .string _
      · exact h output rfl
  | .error message =>
      have hNames : [ofString "status", ofString "message"].Nodup := by decide
      refine .object hNames fun member hMember => ?_
      rcases List.mem_pair.mp hMember with rfl | rfl
      · exact .string _
      · exact .string _

/-- An envelope says how the function ended. -/
theorem RunnerEnvelope.readStatus (envelope : RunnerEnvelope Number) :
    ∃ status, readProperty envelope.toValue (ofString "status") = .ok (some (.string status)) ∧
      (status = ofString "ok" ∨ status = ofString "error") := by
  match envelope with
  | .ok none => exact ⟨_, rfl, .inl rfl⟩
  | .ok (some _) => exact ⟨_, rfl, .inl rfl⟩
  | .error _ => exact ⟨_, rfl, .inr rfl⟩

/-- The line that the runner prints has no line break inside, so it stays one
line. -/
theorem newline_not_mem_write {value : Value Number} (h : JsonText.Writable format value) :
    newline ∉ resultPrefix ++ write format value := by
  intro hMem
  rcases List.mem_append.mp hMem with hPrefix | hValue
  · exact absurd hPrefix (by decide)
  · exact absurd (h.printable _ hValue) (by decide)

/-- The lines without the marker are passed over. -/
theorem find_marker {closed rest : List Text} (hClosed : ∀ line ∈ closed, ¬resultPrefix <+: line) :
    (closed ++ rest).find? (resultPrefix.isPrefixOf ·) =
      rest.find? (resultPrefix.isPrefixOf ·) := by
  have hNone : closed.find? (resultPrefix.isPrefixOf ·) = none :=
    List.find?_eq_none.mpr fun line hLine hMarker =>
      hClosed line hLine (List.isPrefixOf_iff_prefix.mp hMarker)
  rw [List.find?_append, hNone, Option.none_or]

/-- A line with the marker right before the envelope is read. -/
theorem parseFunctionEnvelope_found (h : envelope.Writable format) {closed rest : List Text}
    {stdout : Text} (hClosed : ∀ line ∈ closed, ¬resultPrefix <+: line)
    (hLines : stdout.splitOn newline =
      closed ++ (resultPrefix ++ write format envelope.toValue) :: rest) :
    parseFunctionEnvelope format stdout = .ok (some envelope.toValue) := by
  obtain ⟨status, hStatus, hKnown⟩ := envelope.readStatus
  have hMarker : resultPrefix.isPrefixOf (resultPrefix ++ write format envelope.toValue) = true :=
    List.isPrefixOf_iff_prefix.mpr (List.prefix_append _ _)
  unfold parseFunctionEnvelope
  rw [hLines, find_marker hClosed, List.find?_cons_of_pos hMarker]
  dsimp only
  rw [List.drop_left, parse_write h.toValue]
  dsimp only
  rw [hStatus]
  change (if status ≠ ofString "ok" ∧ status ≠ ofString "error" then _ else _) = _
  rw [if_neg]
  · rfl
  · rintro ⟨hOk, hError⟩
    exact hKnown.elim hOk hError

/-- What is left of the marker starts no JSON text. -/
theorem parse_marker_rest {dropped : Nat} (hLess : dropped < resultPrefix.length) (rest : Text) :
    parse format (resultPrefix.drop dropped ++ rest) = none := by
  have hNone : resultPrefix.all (fun c => !JsonText.isBlank c && !startsValue c) = true := by
    decide +kernel
  have hFirst := List.all_eq_true.mp hNone _ (List.getElem_mem hLess)
  rw [Bool.and_eq_true, Bool.not_eq_true', Bool.not_eq_true'] at hFirst
  rw [List.drop_eq_getElem_cons hLess, List.cons_append]
  exact parse_eq_none hFirst.1 hFirst.2

/-- Text before the marker on its line hides the envelope. -/
theorem parseFunctionEnvelope_hidden {closed : List Text} {last rest stdout : Text}
    (hClosed : ∀ line ∈ closed, ¬resultPrefix <+: line) (hLast : ¬resultPrefix <+: last)
    (hNonempty : last ≠ [])
    (hLines : stdout.splitOn newline = closed ++ [last ++ (resultPrefix ++ rest), []]) :
    parseFunctionEnvelope format stdout ≠ .ok (some envelope.toValue) := by
  unfold parseFunctionEnvelope
  rw [hLines, find_marker hClosed]
  by_cases hMarker : resultPrefix.isPrefixOf (last ++ (resultPrefix ++ rest)) = true
  · rw [List.find?_cons_of_pos hMarker]
    have hShort : last.length < resultPrefix.length := by
      by_contra hLong
      exact hLast (List.prefix_of_prefix_length_le (List.isPrefixOf_iff_prefix.mp hMarker)
        (List.prefix_append _ _) (not_lt.mp hLong))
    have hPositive := List.length_pos_iff.mpr hNonempty
    have hRest : (last ++ (resultPrefix ++ rest)).drop resultPrefix.length =
        resultPrefix.drop (resultPrefix.length - last.length) ++ rest := by
      rw [List.drop_append, List.drop_of_length_le hShort.le, List.nil_append,
        List.drop_append_of_le_length (Nat.sub_le _ _)]
    dsimp only
    rw [hRest, parse_marker_rest (Nat.sub_lt_self hPositive hShort.le)]
    intro hFalse
    cases hFalse
  · rw [List.find?_cons_of_neg hMarker, List.find?_cons_of_neg (by decide)]
    intro hFalse
    cases hFalse

/-- The envelope is returned exactly if the function left no line open. -/
theorem parseFunctionEnvelope_resultLine (h : envelope.Writable format)
    (hPrinted : ∀ line ∈ printed.splitOn newline, ¬resultPrefix <+: line) :
    parseFunctionEnvelope format (printed ++ resultLine format envelope) =
        .ok (some envelope.toValue) ↔
      printed = [] ∨ printed.getLast? = some newline := by
  obtain ⟨closed, last, hLast, hSplit, hMore, hOpen⟩ := DelimitedText.splitOn_last newline
    printed
  rw [hSplit] at hPrinted
  obtain ⟨hClosed, hMarker⟩ := List.forall_mem_append.mp hPrinted
  have hLine : newline ∉ last ++ (resultPrefix ++ write format envelope.toValue) :=
    fun hMem => (List.mem_append.mp hMem).elim hLast (newline_not_mem_write h.toValue)
  have hLines : (printed ++ resultLine format envelope).splitOn newline =
      closed ++ [last ++ (resultPrefix ++ write format envelope.toValue), []] := by
    rw [hMore, resultLine, ← List.append_assoc,
      List.splitOn_append_cons_self_of_not_mem hLine, List.splitOn_nil]
  rw [← hOpen]
  constructor
  · intro hFound
    by_contra hNonempty
    exact parseFunctionEnvelope_hidden hClosed (hMarker last List.mem_cons_self) hNonempty hLines
      hFound
  · intro hEmpty
    rw [hEmpty, List.nil_append] at hLines
    exact parseFunctionEnvelope_found h hClosed hLines

end Lines

/-- A function that returns the text `done`. -/
def doneEnvelope : RunnerEnvelope Text := .ok (some (.string (ofString "done")))

theorem doneEnvelope_writable : doneEnvelope.Writable tokenFormat := by
  intro output hOutput
  cases hOutput
  exact .string _

/-- A function that prints a line of its own first. -/
theorem parseFunctionEnvelope_resultLine_greeting :
    parseFunctionEnvelope tokenFormat (ofString "hi\n" ++ resultLine tokenFormat doneEnvelope) =
      .ok (some doneEnvelope.toValue) :=
  (parseFunctionEnvelope_resultLine doneEnvelope_writable (by decide)).mpr (.inr (by decide))

/-- The result of a function that prints `hi` without a newline is lost. -/
theorem unfinished_line_hides_result :
    doneEnvelope.Writable tokenFormat ∧
      (∀ line ∈ (ofString "hi").splitOn newline, ¬resultPrefix <+: line) ∧
      parseFunctionEnvelope tokenFormat (ofString "hi" ++ resultLine tokenFormat doneEnvelope) ≠
        .ok (some doneEnvelope.toValue) := by
  refine ⟨doneEnvelope_writable, by decide, ?_⟩
  have hLost : parseFunctionEnvelope tokenFormat
      (ofString "hi" ++ resultLine tokenFormat doneEnvelope) = .ok none := rfl
  rw [hLost]
  intro hFalse
  cases hFalse

end RelayFold
