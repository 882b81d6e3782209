import Formula.CommandLine.Program
import Formula.CommandLine.Standard.Plain

namespace Formula.CommandLine.Standard

def hanging (text : String) : String :=
  String.ofList (text.toList.flatMap fun c => if c = '\n' then "\n    ".toList else [c])

def describeError (context cause : String) : String :=
  context ++ "\n\nCaused by:\n    " ++ hanging cause

/-- The rank of the last severity that a filter lets through, if it is the name of a level. -/
def rank? (filter : String) : Option Nat :=
  ["off", "error", "warn", "info", "debug", "trace"].idxOf? filter

def log : Log where
  notice _ := ""
  admits filter least r := r.severity.rank ≤ (filter.bind rank?).getD least.rank
  format _ r := plain ("[" ++ r.severity.label ++ " " ++ r.source ++ "] " ++ hanging r.message ++ "\n")

end Formula.CommandLine.Standard
