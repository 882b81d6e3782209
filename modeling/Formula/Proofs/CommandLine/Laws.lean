import Formula.CommandLine.Program
import Formula.Proofs.CommandLine.Line

/-!
What is relied on about the packages of the command line. Each is taken at its documented behavior,
and only as far as the program needs it: the reader of arguments on lines in the accepted spellings,
the report of an error with one cause, the log without a filter and, as for the layout of a record,
without colors and for texts without control characters.
-/

namespace Formula

namespace Text

def isControl (c : Char) : Bool :=
  c.toNat < 0x20 || 0x7f ≤ c.toNat && c.toNat < 0xa0

/-- The text has no control characters. -/
def Clear (text : List Char) : Prop :=
  ∀ c ∈ text, isControl c = false

instance (text : List Char) : Decidable (Clear text) :=
  List.decidableBAll _ text

end Text

namespace CommandLine

/-- The request holds what the line tells about this formula. -/
structure Line.Tells (line : Line) (text : String) (request : Request) : Prop where
  formula : request.formula = text
  reading : request.reading = line.notation? .reading
  limit : request.maxDepth = line.limit
  command : line.command? = some request.command
  quiet : line.Quiet → request.verbosity = 0

structure ReadsArguments (read : List String → Except Report Request) : Prop where
  accepts : ∀ {line : Line} {text : String} {arguments : List String}, line.Written arguments →
    line.Proper text → ∃ request, read arguments = .ok request ∧ line.Tells text request

/-- Every line of a text behind four spaces. -/
def indented (text : String) : String :=
  String.ofList (['\n'].intercalate ((text.toList.splitOn '\n').map ("    ".toList ++ ·)))

structure DescribesErrors (describe : Bool → String → String → String) : Prop where
  layout : ∀ context cause,
    describe false context cause = context ++ "\n\nCaused by:\n" ++ indented cause
  traced : ∀ context cause, ∃ trace, describe true context cause = describe false context cause ++ trace

structure Record.Clear (r : Record) : Prop where
  named : r.source ≠ ""
  source : Text.Clear r.source.toList
  message : Text.Clear r.message.toList

structure WritesLog (log : Log) : Prop where
  silent : log.notice none = ""
  admits : ∀ least r, log.admits none least r = true ↔ r.severity.rank ≤ least.rank
  format : ∀ r : Record, r.Clear →
    log.format false r = "[" ++ r.severity.label ++ " " ++ r.source ++ "] " ++ r.message ++ "\n"

end CommandLine

end Formula
