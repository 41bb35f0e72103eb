import FilterQuery.Text.Digit
import FilterQuery.Text.Hidden

/-!
Texts and characters as messages show them: between quotes, with everything that could mislead the
eye written by an escape.
-/
namespace FilterQuery.Text

def shown (quote c : Char) : List Char :=
  if c == '\x00' then ['\\', '0']
  else if c == '\t' then ['\\', 't']
  else if c == '\r' then ['\\', 'r']
  else if c == '\n' then ['\\', 'n']
  else if c == '\\' || c == quote then ['\\', c]
  else if isHidden c then "\\u\x7b".toList ++ hexDigits c.toNat ++ ['\x7d']
  else [c]

def quoted (text : String) : String :=
  String.ofList ('"' :: text.toList.flatMap (shown '"') ++ ['"'])

def quotedChar (c : Char) : String :=
  String.ofList ('\'' :: shown '\'' c ++ ['\''])

end FilterQuery.Text
