import FilterQuery.Pattern.Basic

/-!
Texts as pattern sources that match just them.
-/
namespace FilterQuery.Pattern

def metaChars : List Char :=
  "\\.+*?()|[]\x7b\x7d^$#&-~".toList

def escape (text : String) : String :=
  String.ofList (text.toList.flatMap fun c => if metaChars.contains c then ['\\', c] else [c])

end FilterQuery.Pattern
