import Formula.CommandLine.Session

def main (arguments : List String) : IO UInt32 := do
  let report := Formula.CommandLine.run arguments
  (← IO.getStdout).putStr report.out
  (← IO.getStderr).putStr report.err
  return report.code.toUInt32
