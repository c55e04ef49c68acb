import Courier.Payload.Value
import Courier.Text.Decimal
import Courier.Text.Quoted

/-!
# Descriptions of values

How a value shows itself inside a description: its kind, and what it holds in brackets.
-/

namespace Courier

namespace Value

mutual

def description : Value → String
  | .null => "Null"
  | .bool b => "Bool(" ++ toString b ++ ")"
  | .int n => "Number(" ++ toString n ++ ")"
  | .float bits => "Number(" ++ Decimal.text bits ++ ")"
  | .text s => "String(" ++ quoted s ++ ")"
  | .list items => "Array [" ++ ", ".intercalate (itemDescriptions items) ++ "]"
  | .record fields => "Object \x7b" ++ ", ".intercalate (fieldDescriptions fields) ++ "\x7d"

def itemDescriptions : List Value → List String
  | [] => []
  | v :: rest => v.description :: itemDescriptions rest

def fieldDescriptions : List (String × Value) → List String
  | [] => []
  | (k, v) :: rest => (quoted k ++ ": " ++ v.description) :: fieldDescriptions rest

end

end Value

end Courier
