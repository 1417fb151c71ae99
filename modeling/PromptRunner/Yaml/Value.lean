import PromptRunner.Decimal.Layout
/-!
# Values

What a YAML document stands for. Two values are the same if they cannot both be keys of a mapping:
the order of a mapping does not count, the two zeros are the same, and an integer is never the same
as a number with a point.
-/

namespace PromptRunner.Yaml

/-- A YAML value. A tag is kept without its exclamation mark, unless it is nothing but that. -/
inductive Value where
  | null
  | bool (b : Bool)
  | int (n : Int)
  | float (d : Decimal.Double)
  | text (s : String)
  | list (items : List Value)
  | map (entries : List (Value × Value))
  | tagged (tag : String) (value : Value)
  deriving Repr

namespace Value

mutual

/-- Whether two values cannot both be keys of a mapping. -/
def same : Value → Value → Bool
  | .null, .null => true
  | .bool a, .bool b => a == b
  | .int a, .int b => a == b
  | .float a, .float b => a.sameKey b
  | .text a, .text b => a == b
  | .list as, .list bs => sameItems as bs
  | .map as, .map bs => as.length == bs.length && sameEntries as bs
  | .tagged s a, .tagged t b => s == t && same a b
  | _, _ => false

def sameItems : List Value → List Value → Bool
  | [], [] => true
  | a :: as, b :: bs => same a b && sameItems as bs
  | _, _ => false

/-- Whether each entry of the first list is in the second. -/
def sameEntries : List (Value × Value) → List (Value × Value) → Bool
  | [], _ => true
  | (k, v) :: es, fs => fs.any (fun f => same k f.1 && same v f.2) && sameEntries es fs

end

/-- Whether a key is among the entries of a mapping. -/
def hasKey (entries : List (Value × Value)) (key : Value) : Bool :=
  entries.any fun e => e.1.same key

end Value

def numberLayout : Decimal.Layout where
  exponentSign := []
  positiveInfinity := ".inf"
  negativeInfinity := "-.inf"
  notANumber := ".nan"

end PromptRunner.Yaml
