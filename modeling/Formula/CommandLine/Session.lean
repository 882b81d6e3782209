import Formula.CommandLine.Standard.Reader
import Formula.CommandLine.Standard.Output

/-!
The program with packages to run with. They meet what is relied on about packages, and nothing more
about them is needed.
-/

namespace Formula.CommandLine

def standard : Packages where
  readArguments := Standard.read
  describeError _ := Standard.describeError
  log := Standard.log

def run (arguments : List String) : Report :=
  standard.run {} arguments

end Formula.CommandLine
