/-!
# Structured displays

A value shown with its structure: a record as `Name { field: value }`, a sequence as `[1, 2]`,
text in quotes.
-/
namespace WriteXorExecute.Text.Display

/-- A record with its fields in order: `Name { first: 1, second: 2 }`. -/
def record (name : String) (fields : List (String × String)) : String :=
  name ++ " \x7b " ++ ", ".intercalate (fields.map fun f => f.1 ++ ": " ++ f.2) ++ " \x7d"

/-- A sequence: `[1, 2]`, and `[]` when it is empty. -/
def sequence (items : List String) : String :=
  "[" ++ ", ".intercalate items ++ "]"

/-- The sequence of the bytes' decimal values. -/
def bytes (b : ByteArray) : String :=
  sequence (b.toList.map fun x => toString x.toNat)

/-- A value under its name: `Name(value)`. -/
def tagged (name value : String) : String :=
  name ++ "(" ++ value ++ ")"

/-- How a character is written between double quotes: the quote and the backslash with a backslash
in front, line feed, carriage return, tab and the null character by their letter, any other control
character by its code, and all else as it is. -/
def escaped (c : Char) : List Char :=
  if c = '"' ∨ c = '\\' then ['\\', c]
  else if c = '\n' then ['\\', 'n']
  else if c = '\r' then ['\\', 'r']
  else if c = '\t' then ['\\', 't']
  else if c = '\x00' then ['\\', '0']
  else if c.val < 32 ∨ c.val = 127 then
    ['\\', 'u', '\x7b'] ++ Nat.toDigits 16 c.toNat ++ ['\x7d']
  else [c]

def quoted (s : String) : String :=
  "\"" ++ String.ofList (s.toList.flatMap escaped) ++ "\""

end WriteXorExecute.Text.Display
