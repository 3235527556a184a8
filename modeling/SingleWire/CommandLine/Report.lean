/-! How the command reports why it stopped. -/

namespace SingleWire.CommandLine

structure Report where
  headline : String
  /-- What led to it, outermost first. -/
  causes : List String := []
deriving DecidableEq

/-- Several causes are numbered from zero. -/
def Report.causeLines : List String → List String
  | [cause] => [s!"    {cause}\n"]
  | causes => causes.zipIdx.map fun (cause, number) => s!"    {number}: {cause}\n"

def Report.text (report : Report) : String :=
  let headline := s!"Error: {report.headline}\n"
  if report.causes.isEmpty then headline
  else headline ++ "\nCaused by:\n" ++ String.join (causeLines report.causes)

end SingleWire.CommandLine
