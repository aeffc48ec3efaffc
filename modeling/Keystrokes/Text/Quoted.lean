import Keystrokes.Text.Unprintable

/-!
# Quoted text and bracketed lists

The shapes in which values are shown to a person who debugs a keymap: a text in
double quotes with its awkward characters escaped, a list in brackets, and a
record with its named fields.
-/

set_option autoImplicit false

namespace Keystrokes.Text

/-! ## Quoting -/

/-- A number in hexadecimal, in lower case and without leading zeros. -/
def hexadecimal (number : Nat) : String :=
  String.ofList (Nat.toDigits 16 number)

/-- How one character stands inside quotes.  The quote, the backslash and four
controls have short escapes; a character without a picture of its own is shown
by its number; any other stands for itself. -/
def quotedCharacter (character : Char) : String :=
  match character with
  | '"' => "\\\""
  | '\\' => "\\\\"
  | '\t' => "\\t"
  | '\n' => "\\n"
  | '\r' => "\\r"
  | '\x00' => "\\0"
  | other =>
      if isUnprintable other then "\\u\x7b" ++ hexadecimal other.toNat ++ "\x7d"
      else String.singleton other

/-- A text in double quotes. -/
def quoted (text : String) : String :=
  "\"" ++ String.join (text.toList.map quotedCharacter) ++ "\""

/-! ## Lists and records -/

/-- Items in square brackets, with a comma and a space between them. -/
def bracketed (items : List String) : String :=
  "[" ++ ", ".intercalate items ++ "]"

/-- Key and value pairs in braces, each key quoted. -/
def braced (items : List (String × String)) : String :=
  "\x7b" ++ ", ".intercalate (items.map fun item => quoted item.1 ++ ": " ++ item.2) ++ "\x7d"

/-- A record: its type's name, then its fields in braces. -/
def recorded (typeName : String) (fields : List (String × String)) : String :=
  typeName ++ " \x7b "
    ++ ", ".intercalate (fields.map fun field => field.1 ++ ": " ++ field.2) ++ " \x7d"

/-- A truth value in words. -/
def truth (value : Bool) : String :=
  if value then "true" else "false"

end Keystrokes.Text
