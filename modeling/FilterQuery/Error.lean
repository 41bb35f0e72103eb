import FilterQuery.Number.Printer
import FilterQuery.Text.Quoted

/-!
Everything that can go wrong, by cause, and the one place where the causes are put into words. A
`stated` fault gives the reason of a custom builder.
-/
namespace FilterQuery

open Text

inductive FileFault where
  | isDirectory
  | notUtf8
  | stated (message : String)
deriving DecidableEq, Repr

inductive SettingsFault where
  | separatorNotAllowed (name : String) (separator : Char)
  | separatorsClash (separator : Char)
  | objectPattern (source : String)
  | unreadable
  | stated (message : String)
deriving DecidableEq, Repr

inductive InputFault where
  | nestedList
  | misplacedOverlay
  | stated (reason : String)
deriving DecidableEq, Repr

inductive LiteralFault where
  | malformed
  | notObject
  | stated (reason : String)
deriving DecidableEq, Repr

inductive OperandFault where
  | missing (token : String)
  | notNumber (text : String)
  | notIndex (value : Number)
  | stated (reason : String)
deriving DecidableEq, Repr

inductive Error where
  | file (fault : FileFault)
  | settings (fault : SettingsFault)
  | input (fault : InputFault)
  | literal (text : String) (fault : LiteralFault)
  | unrecognizedClause (clause : String)
  | operand (clause : String) (fault : OperandFault)
  | pattern (operator : String)
deriving DecidableEq, Repr

namespace FileFault

def message : FileFault → String
  | isDirectory => "Is a directory (os error 21)"
  | notUtf8 => "stream did not contain valid UTF-8"
  | stated message => message

end FileFault

namespace SettingsFault

/-- The fault in words. A star stands for details that are not kept. -/
def message : SettingsFault → String
  | separatorNotAllowed name separator => name ++ " cannot be " ++ quotedChar separator
  | separatorsClash separator =>
    "array_separator and clause_separator are both " ++ quotedChar separator
  | objectPattern source => "Invalid object pattern " ++ quoted source ++ ": *"
  | unreadable => "Failed to parse config: *"
  | stated message => message

end SettingsFault

namespace InputFault

def message : InputFault → String
  | nestedList => "list nested inside a list"
  | misplacedOverlay => "options are only accepted as the trailing input"
  | stated reason => reason

end InputFault

namespace LiteralFault

def message : LiteralFault → String
  | malformed => "*"
  | notObject => "expected an object literal"
  | stated reason => reason

end LiteralFault

namespace OperandFault

def message : OperandFault → String
  | missing token => "operator " ++ quoted token ++ " needs a right-hand operand"
  | notNumber text => quoted text ++ " is not a number"
  | notIndex value => String.ofList value.plain ++ " is not an array index"
  | stated reason => reason

end OperandFault

namespace Error

def message : Error → String
  | file fault => "IO error: " ++ fault.message
  | settings fault => "Configuration error: " ++ fault.message
  | input fault => "Unsupported input shape: " ++ fault.message
  | literal text fault => "Failed to decode " ++ quoted text ++ ": " ++ fault.message
  | unrecognizedClause clause => "Unrecognized clause: " ++ quoted clause
  | operand clause fault => "Invalid operand in " ++ quoted clause ++ ": " ++ fault.message
  | pattern operator => "Invalid pattern for operator " ++ quoted operator ++ ": *"

/-- The failure concerns one input or clause, which a lenient run leaves out. -/
def isSuppressible : Error → Bool
  | input _ => true
  | literal _ _ => true
  | unrecognizedClause _ => true
  | operand _ _ => true
  | _ => false

end Error
end FilterQuery
