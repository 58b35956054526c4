import ValueBridge.Decimal.Layout
import ValueBridge.Fault
import ValueBridge.Heap
import ValueBridge.Text.Quoted

/-!
# Texts of values

* `Heap.hostText`: the text that a value counts as where a text is asked for. A
  symbol has none.
* `Heap.symbolText`: the text of a symbol where one is asked for explicitly.
* `Heap.inspect`: the text of a value for whoever looks into a program: strings
  are quoted, an object shows its keys and a buffer its length.
-/

namespace ValueBridge.Heap

/-- The explicit text of a symbol. -/
def symbolText (h : Heap) (id : SymbolId) : String :=
  "Symbol(" ++ (h.description? id).getD "" ++ ")"

/-- The text of a function. -/
def functionText (h : Heap) (id : FunctionId) : String :=
  "function " ++ (h.function id).name ++ "() \x7b [native code] \x7d"

/-- The text of a boolean. -/
def boolText (b : Bool) : String :=
  if b then "true" else "false"

/-- The text of a value; a symbol has none and is refused. -/
def hostText (h : Heap) : Value → Except Fault String
  | .undefined => .ok "undefined"
  | .null => .ok "null"
  | .bool b => .ok (boolText b)
  | .number x => .ok x.hostText
  | .string s => .ok s
  | .symbol _ => .error .symbolToString
  | .object _ => .ok "[object Object]"
  | .function id => .ok (h.functionText id)

/-- The text of an object for inspection. -/
def inspectObject (cell : ObjectCell) : String :=
  match cell.bytes? with
  | some bytes => "Buffer(" ++ toString bytes.size ++ " bytes)"
  | none => "\x7b" ++ ", ".intercalate (cell.properties.keys.map Text.quoted) ++ "\x7d"

/-- The text of a value for inspection. -/
def inspect (h : Heap) : Value → String
  | .undefined => "undefined"
  | .null => "null"
  | .bool b => boolText b
  | .number x => x.plainText
  | .string s => Text.quoted s
  | .symbol id => h.symbolText id
  | .object id => inspectObject (h.object id)
  | .function id => "[Function: " ++ (h.function id).name ++ "]"

end ValueBridge.Heap
