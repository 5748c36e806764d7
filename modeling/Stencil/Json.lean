import Stencil.Decimal.Layout

/-! Plain data: null, booleans, numbers, texts, arrays and objects ordered by key, with their
compact text. -/

namespace Stencil

inductive JsonNumber where
  | natural (n : UInt64)
  | negative (n : Int64)
  | float (x : Float)

inductive Json where
  | null
  | bool (b : Bool)
  | number (n : JsonNumber)
  | string (s : String)
  | array (items : List Json)
  /-- Members in ascending order of their keys. -/
  | object (members : List (String × Json))

instance : Inhabited Json := ⟨.null⟩

def JsonNumber.text : JsonNumber → List Char
  | .natural n => Decimal.natText n.toNat
  | .negative n => Decimal.intText n.toInt
  | .float x => Decimal.Layout.machine.text x

namespace Json

def charText (c : Char) : List Char :=
  if c = '"' then ['\\', '"']
  else if c = '\\' then ['\\', '\\']
  else if c = '\x08' then ['\\', 'b']
  else if c = '\x0c' then ['\\', 'f']
  else if c = '\n' then ['\\', 'n']
  else if c = '\r' then ['\\', 'r']
  else if c = '\t' then ['\\', 't']
  else if c.toNat < 0x20 then
    ['\\', 'u', '0', '0', Nat.digitChar (c.toNat / 16), Nat.digitChar (c.toNat % 16)]
  else [c]

def stringText (s : String) : List Char := '"' :: (s.toList.flatMap charText ++ ['"'])

mutual

def text : Json → List Char
  | .null => "null".toList
  | .bool true => "true".toList
  | .bool false => "false".toList
  | .number n => n.text
  | .string s => stringText s
  | .array items => '[' :: itemsText items ++ [']']
  | .object members => '\x7b' :: membersText members ++ ['\x7d']

def itemsText : List Json → List Char
  | [] => []
  | [item] => item.text
  | item :: later => item.text ++ ',' :: itemsText later

def membersText : List (String × Json) → List Char
  | [] => []
  | [(key, item)] => stringText key ++ ':' :: item.text
  | (key, item) :: later => stringText key ++ ':' :: item.text ++ ',' :: membersText later

end

end Json

end Stencil
