import FilterQuery.Operator.Build
import FilterQuery.Pattern.Match
import FilterQuery.Pattern.Parser
import FilterQuery.Settings.Basic

/-!
What a compilation takes from outside: an engine for patterns, and the builders that tables name.

The library has an engine of its own for a part of the usual pattern language. Nothing but the standard
operators and the default object pattern depends on it: any other engine may take its place.
-/
namespace FilterQuery

/-- A pattern that has been read: what its leftmost match in a text remembers, if there is one. -/
abbrev Matcher := String → Option Captures

/-- An engine for patterns: how it matches a source, or that it cannot read it. -/
abbrev PatternReader := String → Option Matcher

abbrev Builders := String → Operands → Settings → Except Error Document

structure Host where
  read? : PatternReader
  build : Builders

def Pattern.read? : PatternReader := fun source =>
  (parse? source).map Pattern.match?

abbrev Host.basic (build : Builders) : Host := ⟨Pattern.read?, build⟩

namespace Definition

def matcher (d : Definition) (read? : PatternReader) : Except Error Matcher :=
  match read? d.source with
  | some m => .ok m
  | none => .error (.pattern d.id)

def captures (d : Definition) (read? : PatternReader) (clause : String) :
    Except Error (Option Captures) :=
  (d.matcher read?).map fun m => m clause

def build (d : Definition) (host : Host) (o : Operands) (settings : Settings) :
    Except Error Document :=
  match d.builder with
  | .builtin kind => kind.build o settings.toPreferences
  | .custom name => host.build name o settings

end Definition

/-- Whether all patterns can be read; if not, the first failure. -/
def Table.check (read? : PatternReader) : Table → Except Error Unit
  | [] => .ok ()
  | d :: rest =>
    match d.matcher read? with
    | .ok _ => check read? rest
    | .error e => .error e

end FilterQuery
