import RecordQuery.Decimal.Layout
import RecordQuery.Json.Spelling

/-! JSON text as a tree. Numbers and strings keep the way they are spelled, and objects all their
fields in order, repeated ones too; what they name is settled where they are used. Text is written
without blanks. -/

namespace RecordQuery

inductive Json where
  | null
  | bool (b : Bool)
  | number (n : Numeral)
  | string (spelling : List Char)
  | array (items : List Json)
  | object (fields : List (List Char × Json))

namespace Json

def text (s : String) : Json := string (spell s)

def integer (n : Int) : Json := number (.ofInt n)

/-- A double in the persisted layout; there is no number for what is not finite. -/
def float (x : Binary64) : Json :=
  if x.isFinite then number (FloatLayout.persisted.numeral x) else null

/-- An object with the given fields. -/
def struct (fields : List (String × Json)) : Json :=
  object (fields.map fun (name, j) => (spell name, j))

/-- A variant of a sum with content. -/
def variant (tag : String) (content : Json) : Json := struct [(tag, content)]

def quoted (spelling : List Char) : List Char := '"' :: (spelling ++ ['"'])

def commas (parts : List (List Char)) : List Char := [','].intercalate parts

mutual

def chars : Json → List Char
  | null => "null".toList
  | bool b => if b then "true".toList else "false".toList
  | number n => n.chars
  | string spelling => quoted spelling
  | array items => '[' :: (commas (itemChars items) ++ [']'])
  | object fields => '{' :: (commas (fieldChars fields) ++ ['}'])

def itemChars : List Json → List (List Char)
  | [] => []
  | j :: items => j.chars :: itemChars items

def fieldChars : List (List Char × Json) → List (List Char)
  | [] => []
  | (name, j) :: fields => (quoted name ++ ':' :: j.chars) :: fieldChars fields

end

def print (j : Json) : String := String.ofList j.chars

end Json

end RecordQuery
