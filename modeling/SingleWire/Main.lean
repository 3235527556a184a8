import SingleWire.CommandLine.Listing

/-! The command that lists the packets of a trace, read from a file or from the
standard input. -/

namespace SingleWire.CommandLine

def usage : String :=
  "Lists the packets of a trace captured from a single wire output pin.\n\n"
    ++ "USAGE:\n    singlewire [OPTIONS] [FILE]\n\n"
    ++ "OPTIONS:\n"
    ++ "    -F, --follow              Keep reading after the end of the file\n"
    ++ "        --gts-width <WIDTH>   Width of the global timestamp counter, 48 or 64 [default: 48]\n"
    ++ "    -s, --stimulus <PORT>     Only write the bytes of this stimulus port\n"
    ++ "        --dwt                 Show the events in hardware source packets\n"
    ++ "        --stop-on-error       Stop at the first malformed packet\n"
    ++ "    -h, --help                Print this help\n"
    ++ "    -V, --version             Print the version\n"

def write (transcript : Transcript) : IO Unit := do
  let standard ← IO.getStdout
  for output in transcript.outputs do
    match output with
    | .diagnostic _ => IO.eprint output.diagnosticText
    | _ => standard.write ⟨output.standardBytes.toArray⟩
  standard.flush
  match transcript.failure with
  | some report => IO.eprint report.text
  | none => return ()

/-- The system's own text for an error, with its number. -/
def systemText : IO.Error → String
  | .noFileOrDirectory _ code details | .permissionDenied _ code details | .invalidArgument _ code details
  | .inappropriateType _ code details => s!"{details} (os error {code})"
  | error => toString error

/-- Reads block after block, and writes what has become complete after each. -/
partial def serve (command : Command) (input : IO.FS.Stream) (decoder : Decoder Script) : IO UInt32 := do
  match ← (input.read BlockSource.blockSize.toUSize).toBaseIO with
  | .error error =>
    write (command.transcript [.error (.source { kind := .other "Other", message := systemText error })])
    return 1
  | .ok block =>
    if block.isEmpty then
      if command.follow then
        IO.sleep 100
        serve command input decoder
      else return 0
    else
      let (transcript, next) := command.serveBlock decoder block.toList
      write transcript
      if transcript.failure.isSome then return 1 else serve command input next

def execute (command : Command) : IO UInt32 := do
  let decoder : Decoder Script := .new command.options
  match command.file with
  | none => serve command (← IO.getStdin) decoder
  | some file =>
    match ← (IO.FS.Handle.mk file .read).toBaseIO with
    | .ok handle => serve command (.ofHandle handle) decoder
    | .error error =>
      IO.eprint (openReport file (systemText error)).text
      return 1

end SingleWire.CommandLine

open SingleWire.CommandLine

def main (words : List String) : IO UInt32 := do
  match Command.ofWords words with
  | .error .help => IO.print usage; return 0
  | .error .version => IO.println "singlewire 0.1.0"; return 0
  | .error .misuse => IO.eprint usage; return 1
  | .ok (.error report) => IO.eprint report.text; return 1
  | .ok (.ok command) => execute command
