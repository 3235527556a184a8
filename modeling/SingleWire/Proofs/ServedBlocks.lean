import SingleWire.Proofs.ListedInput

/-! The command does not wait for the end of its input: it writes what each block completes as
soon as it has read it. All in all that is what a run over the whole input writes. -/

namespace SingleWire.CommandLine
open Grammar Decoder

/-- Two transcripts in a row. An error that ended the first leaves nothing for the second. -/
def Transcript.followedBy (first second : Transcript) : Transcript :=
  if first.failure.isSome then first else { second with outputs := first.outputs ++ second.outputs }

def Command.serveBlocks (command : Command) (decoder : Decoder Script) : List (List UInt8) → Transcript
  | [] => { outputs := [], failure := none }
  | block :: rest =>
    let (transcript, next) := command.serveBlock decoder block
    transcript.followedBy (command.serveBlocks next rest)

theorem transcript_append (command : Command) (first rest : List (Except DecodeError Packet)) :
    command.transcript (first ++ rest) = (command.transcript first).followedBy (command.transcript rest) := by
  induction first with
  | nil => rfl
  | cons item first ih =>
    rw [List.cons_append, Command.transcript, Command.transcript]
    cases command.respond item with
    | error report => rfl
    | ok output =>
      simp only [ih, Transcript.followedBy]
      split
      · rfl
      · simp only [List.append_assoc]

/-- Each block starts with what the blocks before have left. -/
private theorem serveBlocks_of_waiting (command : Command) {decoder : Decoder Script} (coherent : decoder.Coherent)
    (unsupplied : decoder.Unsupplied) (waiting : frame? decoder.width decoder.pending = none) (blocks : List (List UInt8)) :
    command.serveBlocks decoder blocks =
      command.transcript ((parse decoder.width decoder.offset (decoder.pending ++ blocks.flatten)).map delivered) := by
  induction blocks generalizing decoder with
  | nil =>
    rw [List.flatten_nil, List.append_nil, parse_of_none waiting]
    rfl
  | cons block rest ih =>
    let fed := decoder.feed block
    have drained : fed.Drained fed.singles := drained_singles unsupplied (Framer.Coherent.feed coherent block)
    have short := (leftover_suffix fed.width fed.pending).length_le
    have kept := drained.offset
    rw [drained.pending] at kept
    have consumed : fed.singles.decoder.offset = fed.offset + (fed.pending.length - (leftover fed.width fed.pending).length) := by
      omega
    have later := ih drained.coherent drained.unsupplied (by
      rw [drained.width, drained.pending]
      exact frame?_leftover _ _)
    rw [drained.width, drained.pending, consumed] at later
    have front : fed.pending ++ rest.flatten = decoder.pending ++ (block ++ rest.flatten) := by
      rw [pending_feed, List.append_assoc]
    show (command.transcript fed.singles.deliveries).followedBy (command.serveBlocks fed.singles.decoder rest) = _
    rw [later, drained.deliveries, ← transcript_append, ← List.map_append, ← parse_append, front]
    rfl

/-- To write block after block comes to the same as to write about all bytes at once. -/
theorem serveBlocks_eq_transcript (command : Command) (blocks : List (List UInt8)) :
    command.serveBlocks (.new command.options) blocks = command.transcript (atOnce command.options blocks.flatten) := by
  have decoded : Decoded command.options blocks.flatten ((new command.options : Decoder Script).feed blocks.flatten).singles :=
    decoded_feed _ _
  rw [serveBlocks_of_waiting command (coherent_new command.options) (.inr rfl) rfl, atOnce, decoded.deliveries]
  rfl

/-- The blocks of an input, wherever they are cut, are listed as the run over the input says. -/
theorem serveBlocks_eq_run {ρ : Type} [Reader ρ] {reader : ρ} {request : Request} {blocks : List (List UInt8)}
    (ends : request.follow = false) (reads : Reads reader blocks.flatten) :
    request.command.serveBlocks (.new request.command.options) blocks = request.command.run reader := by
  rw [serveBlocks_eq_transcript, (run_of_reads ends reads).1]

end SingleWire.CommandLine
