import PromptRunner.Decimal.Layout
import PromptRunner.Text.Basic
import PromptRunner.Text.Digits
/-!
# JSON values

Values of JSON and their compact written form. The members of an object stand in increasing order of
their names.
-/

namespace PromptRunner.Json

/-- A JSON value. -/
inductive Value where
  | null
  | bool (b : Bool)
  | int (n : Int)
  | float (d : Decimal.Double)
  | text (s : String)
  | array (items : List Value)
  | object (members : List (String × Value))
  deriving Repr

/-- The layout of numbers in JSON, which has no other than finite ones. -/
def numberLayout : Decimal.Layout where
  exponentSign := ['+']
  positiveInfinity := "null"
  negativeInfinity := "null"
  notANumber := "null"

/-- Put a member into its place; a second one of the same name takes the place of the first. -/
def insertMember (name : String) (v : Value) : List (String × Value) → List (String × Value)
  | [] => [(name, v)]
  | (n, w) :: ms =>
    if name < n then (name, v) :: (n, w) :: ms
    else if name = n then (name, v) :: ms
    else (n, w) :: insertMember name v ms

/-- The members that count of those that are written, in increasing order. -/
def countedMembers (written : List (String × Value)) : List (String × Value) :=
  written.foldl (fun ms m => insertMember m.1 m.2 ms) []

def escapedChar (c : Char) : List Char :=
  match c with
  | '\x22' => ['\\', '\x22']
  | '\\' => ['\\', '\\']
  | '\x08' => ['\\', 'b']
  | '\x0c' => ['\\', 'f']
  | '\n' => ['\\', 'n']
  | '\r' => ['\\', 'r']
  | '\t' => ['\\', 't']
  | c => if c.toNat < 0x20 then '\\' :: 'u' :: Text.hexText 4 c.toNat else [c]

def quoted (s : String) : List Char :=
  '\x22' :: (s.toList.flatMap escapedChar ++ ['\x22'])

namespace Value

mutual

def chars : Value → List Char
  | .null => "null".toList
  | .bool b => (Text.boolText b).toList
  | .int n => (toString n).toList
  | .float d => (numberLayout.text d).toList
  | .text s => quoted s
  | .array vs => '[' :: itemChars vs ++ [']']
  | .object ms => '\x7b' :: memberChars ms ++ ['\x7d']

def itemChars : List Value → List Char
  | [] => []
  | [v] => chars v
  | v :: vs => chars v ++ ',' :: itemChars vs

def memberChars : List (String × Value) → List Char
  | [] => []
  | [(n, v)] => quoted n ++ ':' :: chars v
  | (n, v) :: ms => quoted n ++ ':' :: chars v ++ ',' :: memberChars ms

end

def compact (v : Value) : String :=
  String.ofList v.chars

end Value

end PromptRunner.Json
