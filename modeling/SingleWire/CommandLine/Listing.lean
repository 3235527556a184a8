import SingleWire.Decoder
import SingleWire.Reader
import SingleWire.Script
import SingleWire.Watchpoint
import SingleWire.Form.Packet
import SingleWire.Form.Watchpoint
import SingleWire.CommandLine.Arguments
import SingleWire.CommandLine.Report
import SingleWire.CommandLine.Quoted

/-! What the command writes about a stream of packets. -/

namespace SingleWire.CommandLine

/-- Which part of the packets is shown. -/
inductive View where
  /-- One line for each packet. -/
  | packets
  /-- As before, but with the events in the packets of the watchpoint unit. -/
  | events
  /-- Only what was written to one stimulus port, as raw bytes. -/
  | stimulus (port : UInt8)
deriving DecidableEq

/-- A run that has been asked for. -/
structure Command where
  options : Options := {}
  view : View := .packets
  /-- Whether the first malformed packet ends the run. -/
  stopOnError : Bool := false
  /-- Whether to wait for more at the end of the input. -/
  follow : Bool := false
  /-- The standard input is read when there is no file. -/
  file : Option String := none

/-- The ports of a packet header have five bits. -/
def lastPort : UInt8 := 31

/-- The run that the arguments ask for, or the report of what is wrong with their values. -/
def Command.ofValues (arguments : Arguments) (width : UInt8) (stimulus : Option UInt8) : Except Report Command := do
  let timestampWidth : TimestampWidth ←
    if width = 48 then .ok .bits48
    else if width = 64 then .ok .bits64
    else .error { headline := s!"{width.toNat} is not a valid global timestamp width; valid widths are: 48, 64." }
  let view : View ← match stimulus with
    | some port =>
      if lastPort < port then
        .error { headline := s!"{port.toNat} is not a valid stimulus port; valid ports are 0-{lastPort.toNat}." }
      else .ok (.stimulus port)
    | none => .ok (if .events ∈ arguments.switches then .events else .packets)
  return {
    options := { timestampWidth }
    view
    stopOnError := .stopOnError ∈ arguments.switches
    follow := .follow ∈ arguments.switches
    file := arguments.file }

/-- Reads the words of a command. The outer error is a misuse of the options or a
request for help; the inner one is a value out of range. -/
def Command.ofWords (words : List String) : Except Refusal (Except Report Command) := do
  let arguments ← Arguments.read {} none words
  let byte (text : String) : Except Refusal UInt8 :=
    match byteOfDecimal? text with
    | some value => .ok value
    | none => .error .misuse
  let width ← byte ((arguments.value? .width).getD "")
  let stimulus ← match arguments.value? .stimulus with
    | some text => some <$> byte text
    | none => .ok none
  return Command.ofValues arguments width stimulus

/-- The report of a file that cannot be opened. -/
def openReport (file cause : String) : Report :=
  { headline := s!"Failed to open {quoted file}", causes := [cause] }

inductive Output where
  /-- A line of the listing. -/
  | line (text : String)
  /-- Raw bytes instead of a listing. -/
  | raw (bytes : List UInt8)
  /-- An error that does not end the run. -/
  | diagnostic (text : String)
deriving DecidableEq

/-- All that a run writes, and the report of the error that ended it, if one did. -/
structure Transcript where
  outputs : List Output
  failure : Option Report
deriving DecidableEq

namespace Output

def standardBytes : Output → List UInt8
  | line text => text.toUTF8.toList ++ [0x0A]
  | raw bytes => bytes
  | diagnostic _ => []

def diagnosticText : Output → String
  | diagnostic text => s!"Error: {text}\n"
  | _ => ""

end Output

namespace Transcript

def standardOutput (transcript : Transcript) : List UInt8 := transcript.outputs.flatMap Output.standardBytes

def errorOutput (transcript : Transcript) : String :=
  String.join (transcript.outputs.map Output.diagnosticText) ++ ((transcript.failure.map Report.text).getD "")

def exitCode (transcript : Transcript) : UInt8 := if transcript.failure.isSome then 1 else 0

end Transcript

namespace Command

def showPacket (command : Command) (packet : Packet) : Except Report (Option Output) :=
  match command.view, packet with
  | .stimulus port, .stimulus origin _ payload => .ok (if origin = port then some (.raw payload) else none)
  | .stimulus _, _ => .ok none
  | .events, .hardware discriminator _ payload =>
    match WatchpointEvent.decode discriminator payload with
    | .ok event => .ok (some (.line event.text))
    | .error malformation =>
      if command.stopOnError then .error { headline := "Malformed DWT packet", causes := [malformation.message] }
      else .ok (some (.diagnostic malformation.message))
  | _, packet => .ok (some (.line packet.text))

/-- What is written about a packet or an error, or the report with which the run ends. -/
def respond (command : Command) : Except DecodeError Packet → Except Report (Option Output)
  | .ok packet => command.showPacket packet
  | .error error =>
    match error, command.stopOnError with
    | .malformed fault, false => .ok (some (.diagnostic fault.message))
    | error, _ => .error { headline := "Decoder error", causes := error.message :: error.causes }

/-- What is written about a sequence of deliveries, up to the first that ends the run. -/
def transcript (command : Command) : List (Except DecodeError Packet) → Transcript
  | [] => { outputs := [], failure := none }
  | delivery :: rest =>
    match command.respond delivery with
    | .error report => { outputs := [], failure := some report }
    | .ok output =>
      let later := command.transcript rest
      { later with outputs := output.toList ++ later.outputs }

def decoder {ρ : Type} (command : Command) (reader : ρ) : Decoder (BlockSource ρ) :=
  .withSource { reader, ignoreEnd := command.follow } command.options

/-- The whole run over a stream, up to its end or to where it has nothing for now. -/
def run {ρ : Type} [Reader ρ] (command : Command) (reader : ρ) : Transcript :=
  command.transcript (command.decoder reader).singles.deliveries

/-- What is written once a block has been read, and the decoder for the next block. -/
def serveBlock (command : Command) (decoder : Decoder Script) (block : List UInt8) : Transcript × Decoder Script :=
  let run := (decoder.feed block).singles
  (command.transcript run.deliveries, run.decoder)

end Command

end SingleWire.CommandLine
