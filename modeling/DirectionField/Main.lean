import DirectionField.CommandLine.Run

/-! # The command `slope-field`

Prints what a run of the command line comes to. No plotting library is at hand, so that a graph is
shown as JSON only. -/

namespace DirectionField.CommandLine

/-- How the command is used. -/
def usage : String :=
  "usage: slope-field [-h] [--demo] [--domain DOMAIN] [--range RANGE] [--rows ROWS] " ++
    "[--initial INITIAL] [--step STEP] [--out OUT] [--json] [--preview] [--list-functions] " ++
    "[--log-level LEVEL] [equation]"

/-- The surroundings of a program without a plotting library. -/
def noPlotting : PlottingEnvironment := ⟨false, none, none, none, none⟩

end DirectionField.CommandLine

open DirectionField CommandLine in
/-- Carry out the command line, print the result, and exit with its code. -/
def main (argv : List String) : IO UInt32 := do
  let r := run .native noPlotting argv
  for line in r.logLines do
    IO.eprintln line
  match r.ending with
  | .help => IO.println usage
  | .misused _ => IO.eprintln usage
  | _ => pure ()
  for line in r.ending.output "" do
    IO.println line
  for complaint in r.ending.complaint? do
    IO.eprintln complaint
  return r.ending.exitCode.toUInt32
