import KernelConformance.Text.Shown

/-! Quoted texts, as they stand inside the descriptions of values and the messages about them. -/

namespace KernelConformance.Text

/-- The characters that stand for `c` between quotes: two for the tab, the line ends, NUL, the quote
and the backslash, a code point in braces for what is not shown, and `c` itself otherwise.
-/
def escape (c : Char) : List Char :=
  if c = Char.ofNat 0 then ['\\', '0']
  else if c = '\t' then ['\\', 't']
  else if c = '\r' then ['\\', 'r']
  else if c = '\n' then ['\\', 'n']
  else if c = '"' then ['\\', '"']
  else if c = '\\' then ['\\', '\\']
  else if isShown c then [c]
  else ['\\', 'u', '\x7b'] ++ Nat.toDigits 16 c.toNat ++ ['\x7d']

/-- A text in quotes. -/
def quoted (text : String) : String :=
  String.ofList ('"' :: text.toList.flatMap escape ++ ['"'])

/-- Descriptions of values in square brackets. -/
def bracketed (items : List String) : String := "[" ++ String.intercalate ", " items ++ "]"

/-- Texts in quotes and in square brackets. -/
def quotedList (texts : List String) : String := bracketed (texts.map quoted)

/-- The description of a value with named fields. -/
def described (name : String) (fields : List (String × String)) : String :=
  name ++ " \x7b "
    ++ String.intercalate ", " (fields.map fun field => field.1 ++ ": " ++ field.2) ++ " \x7d"

/-- The description of a value that may be missing. -/
def optional : Option String → String
  | none => "None"
  | some text => "Some(" ++ text ++ ")"

end KernelConformance.Text
