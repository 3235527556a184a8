import SingleWire.Proofs.ListedItems
import SingleWire.Proofs.WholeInput

/-! What the command writes about a whole input, told by the packets and faults of its
bytes at once, and where a run ends that stops on the first error. -/

namespace SingleWire.CommandLine

/-- The run `cut` has ended at the first error of the run `whole` with the report of that error,
and until then has written the same. -/
inductive EndsAtFirst (request : Request) (whole cut : Transcript) : List (Except DecodeError Packet) → Prop where
  | intro {before after : List (Except DecodeError Packet)} {item : Except DecodeError Packet} {text : String} {report : Report}
      {later : List Output} (quiet : ∀ earlier ∈ before, request.complaint earlier = none)
      (first : request.complaint item = some text) (shown : cut.standardOutput = before.flatMap request.shown)
      (silent : ∀ output ∈ cut.outputs, output.diagnosticText = "")
      (same : whole.outputs = cut.outputs ++ .diagnostic text :: later) (failed : cut.failure = some report)
      (identified : request.report item = some report) (reported : cut.errorOutput = report.text)
      (named : text ∈ report.causes) (told : text.toList <:+: cut.errorOutput.toList) :
    EndsAtFirst request whole cut (before ++ item :: after)

namespace EndsAtFirst
variable {request : Request} {whole cut : Transcript} {items : List (Except DecodeError Packet)}

theorem exitCode_eq (ends : EndsAtFirst request whole cut items) : cut.exitCode = 1 := by
  cases ends with
  | intro _ _ _ _ _ failed =>
    rw [Transcript.exitCode, failed]
    rfl

theorem whole_extends (ends : EndsAtFirst request whole cut items) : cut.standardOutput <+: whole.standardOutput := by
  cases ends with
  | @intro _ _ _ _ _ later _ _ _ _ same =>
    refine ⟨later.flatMap Output.standardBytes, ?_⟩
    rw [Transcript.standardOutput, Transcript.standardOutput, same, List.flatMap_append]
    rfl

end EndsAtFirst

section First
variable {request : Request} {items : List (Except DecodeError Packet)}

theorem transcript_strict {before after : List (Except DecodeError Packet)} {item : Except DecodeError Packet} {text : String}
    (given : ∀ item ∈ before, OfBytes item)
    (quiet : ∀ item ∈ before, request.complaint item = none) (complains : request.complaint item = some text) :
    EndsAtFirst request ((request.stopping false).command.transcript (before ++ item :: after))
      ((request.stopping true).command.transcript (before ++ item :: after)) (before ++ item :: after) := by
  obtain ⟨outputs, bytes, silent, runs⟩ := transcript_append_of_quiet quiet given
  obtain ⟨hidden, goesOn, report, identified, stops, named⟩ := respond_of_complaint complains
  have cut : (request.stopping true).command.transcript (before ++ item :: after) = { outputs, failure := some report } := by
    simp only [runs, Command.transcript, stops, List.append_nil]
  have whole : ((request.stopping false).command.transcript (before ++ item :: after)).outputs =
      outputs ++ .diagnostic text :: ((request.stopping false).command.transcript after).outputs := by
    simp only [runs, Command.transcript, goesOn]
    rfl
  have reported : ({ outputs, failure := some report } : Transcript).errorOutput = report.text := by
    rw [Transcript.errorOutput, Transcript.join_silent silent, String.empty_append]
    rfl
  rw [cut]
  refine .intro quiet complains bytes silent whole rfl identified reported named ?_
  rw [reported]
  exact Report.infix_text named

theorem endsAtFirst_of_complaint (given : ∀ item ∈ items, OfBytes item)
    (complains : ¬ ∀ item ∈ items, request.complaint item = none) :
    EndsAtFirst request ((request.stopping false).command.transcript items) ((request.stopping true).command.transcript items)
      items := by
  obtain ⟨first, found⟩ : ∃ first, items.find? (fun item => (request.complaint item).isSome) = some first := by
    refine Option.isSome_iff_exists.mp (List.find?_isSome.mpr ?_)
    simpa only [not_forall, exists_prop, ← Option.isSome_iff_ne_none] using complains
  obtain ⟨some, before, after, rfl, quiet⟩ := List.find?_eq_some_iff_append.mp found
  obtain ⟨text, complaint⟩ := Option.isSome_iff_exists.mp some
  refine transcript_strict (fun earlier member => given earlier (List.mem_append_left _ member)) ?_ complaint
  intro earlier member
  simpa using quiet earlier member

end First

section Inputs
variable {ρ : Type} [Reader ρ] {reader : ρ} {bytes : List UInt8} {request : Request}

theorem ofBytes_atOnce (options : Options) (bytes : List UInt8) :
    ∀ item ∈ Decoder.atOnce options bytes, OfBytes item := by
  have decoded : Decoder.Decoded options bytes ((Decoder.new options : Decoder Script).feed bytes).singles :=
    Decoder.decoded_feed options bytes
  intro item member
  rw [Decoder.atOnce, decoded.deliveries] at member
  obtain ⟨found, -, rfl⟩ := List.mem_map.mp member
  intro failure same
  cases found <;> cases same

/-- A run over a stream writes what is to be written about its bytes at once, and ends with it. -/
theorem run_of_reads (ends : request.follow = false) (reads : Reads reader bytes) :
    request.command.run reader = request.command.transcript (Decoder.atOnce request.command.options bytes) ∧
      (request.command.decoder reader).singles.decoder.exhausted = true := by
  have source : request.command.decoder reader = .withSource { reader } request.command.options := by
    rw [Command.decoder, show request.command.follow = false from ends]
  obtain ⟨deliveries, exhausted⟩ := Decoder.singles_of_reads reads request.command.options
  rw [Command.run, source]
  exact ⟨congrArg request.command.transcript deliveries, exhausted⟩

/-- Without a switch that says otherwise, all packets of the input are listed and all errors
written, and the bytes of an unfinished packet at its end make no difference. -/
theorem listing_of_input (lenient : request.stopOnError = false) (ends : request.follow = false)
    (reads : Reads reader bytes) :
    let start : Decoder Script := .new request.command.options
    let items := Decoder.atOnce request.command.options bytes
    let transcript := request.command.run reader
    (request.command.decoder reader).singles.decoder.exhausted = true ∧ transcript.exitCode = 0 ∧
      transcript.standardOutput = items.flatMap request.shown ∧
      transcript.errorOutput = String.join ((items.filterMap request.complaint).map errorLine) ∧
      ∃ front, front ++ (start.feed bytes).singles.decoder.pending = bytes ∧
        Decoder.atOnce request.command.options front = items := by
  intro start items transcript
  obtain ⟨run, exhausted⟩ := run_of_reads ends reads
  have same : request.stopping false = request := by rw [Request.stopping, ← lenient]
  obtain ⟨goesOn, shows, reports⟩ := transcript_lenient request (ofBytes_atOnce request.command.options bytes)
  rw [same] at goesOn shows reports
  have whole : transcript = request.command.transcript items := run
  refine ⟨exhausted, ?_, ?_, ?_, Decoder.atOnce_finished request.command.options bytes⟩
  · rw [Transcript.exitCode, whole, goesOn]
    rfl
  · rw [whole, shows]
  · rw [whole, reports]

/-- A write to a port, an event, a packet of an unknown unit, a reserved header and an unfinished packet. -/
def sample : List UInt8 := [0x09, 0x41, 0x05, 0x20, 0x1D, 0xFF, 0x04, 0x03, 0xAA]

theorem atOnce_sample : Decoder.atOnce { timestampWidth := .bits64 } sample =
    [.ok (.stimulus 1 .one [0x41]), .ok (.hardware 0 .one [0x20]), .ok (.hardware 3 .one [0xFF]),
      .error (.malformed { offset := 6, bytes := [0x04], cause := .reservedHeader 0x04 })] := by
  let start : Decoder Script := .new { timestampWidth := .bits64 }
  have decoded : Decoder.Decoded { timestampWidth := .bits64 } sample (start.feed sample).singles := Decoder.decoded_feed _ sample
  exact decoded.deliveries

private theorem lines_sample :
    (Packet.stimulus 1 .one [0x41]).text = "Instrumentation \x7b port: 1, size: One, payload: [65] \x7d" ∧
    (WatchpointEvent.counterWrap true false false false false false).text =
      "EventCounterWrap \x7b cyc: true, fold: false, lsu: false, sleep: false, exc: false, cpi: false \x7d" :=
  ⟨rfl, rfl⟩

theorem listing_of_input_sample :
    let request : Request := { width := some .bits64, events := true }
    let reader : Cursor := { bytes := sample.toArray }
    Reads reader sample ∧
    (request.command.decoder reader).singles.decoder.exhausted = true ∧ (request.command.run reader).exitCode = 0 ∧
    (request.command.run reader).standardOutput =
      lineBytes "Instrumentation \x7b port: 1, size: One, payload: [65] \x7d" ++
      lineBytes "EventCounterWrap \x7b cyc: true, fold: false, lsu: false, sleep: false, exc: false, cpi: false \x7d" ∧
    (request.command.run reader).errorOutput = "Error: Hardware source packet discriminator ID is invalid: 3\n"
      ++ "Error: Header is invalid and cannot be decoded: 0b00000100 (at stream offset 6)\n" := by
  intro request reader
  have reads : Reads reader sample := reads_cursor sample.toArray 0
  obtain ⟨exhausted, code, shows, reports, -⟩ := listing_of_input (show request.stopOnError = false from rfl) rfl reads
  have items : Decoder.atOnce request.command.options sample = _ := atOnce_sample
  rw [items] at shows reports
  refine ⟨reads, exhausted, code, ?_, reports⟩
  rw [shows, ← lines_sample.1, ← lines_sample.2, ← List.append_nil (lineBytes (WatchpointEvent.text _))]
  rfl

/-- A run that stops on the first error is cut there, and is otherwise the same. -/
theorem stop_on_error_cuts_run {σ : Type} [Reader σ] {other : σ} (lenient : request.stopOnError = false)
    (ends : request.follow = false) (reads : Reads reader bytes) (rereads : Reads other bytes) :
    let items := Decoder.atOnce request.command.options bytes
    let whole := request.command.run reader
    let cut := (request.stopping true).command.run other
    (whole.errorOutput = "" → cut.standardOutput = whole.standardOutput ∧ cut.errorOutput = "" ∧ cut.exitCode = 0) ∧
    (whole.errorOutput ≠ "" → cut.exitCode = 1 ∧ cut.standardOutput <+: whole.standardOutput ∧
      EndsAtFirst request whole cut items) ∧
    (request.stimulus.isSome →
      whole.exitCode = 0 ∧ (cut.exitCode = 1 ↔ ∃ fault, .error (.malformed fault) ∈ items)) := by
  obtain ⟨run, -⟩ := run_of_reads ends reads
  obtain ⟨rerun, -⟩ := run_of_reads (show (request.stopping true).follow = false from ends) rereads
  have same : request = request.stopping false := by rw [Request.stopping, ← lenient]
  intro items whole cut
  have given := ofBytes_atOnce request.command.options bytes
  have wholeRun : whole = (request.stopping false).command.transcript items := same ▸ run
  have cutRun : cut = (request.stopping true).command.transcript items := rerun
  have goesOn : whole.exitCode = 0 := by
    rw [Transcript.exitCode, wholeRun, (transcript_lenient request given).1]
    rfl
  have empty : whole.errorOutput = "" ↔ ∀ item ∈ items, request.complaint item = none := by
    rw [wholeRun]
    exact errorOutput_empty_iff given
  have unchanged (silent : whole.errorOutput = "") : cut = whole := by
    rw [cutRun, wholeRun]
    exact transcript_strict_of_quiet given (empty.mp silent)
  have ended (spoken : whole.errorOutput ≠ "") : EndsAtFirst request whole cut items := by
    rw [cutRun, wholeRun]
    exact endsAtFirst_of_complaint given (mt empty.mpr spoken)
  refine ⟨fun silent => ?_, fun spoken => ?_, fun only => ⟨goesOn, ?_⟩⟩
  · rw [unchanged silent]
    exact ⟨rfl, silent, goesOn⟩
  · exact ⟨(ended spoken).exitCode_eq, (ended spoken).whole_extends, ended spoken⟩
  · have spoken : cut.exitCode = 1 ↔ whole.errorOutput ≠ "" := by
      refine ⟨fun code silent => ?_, fun spoken => (ended spoken).exitCode_eq⟩
      rw [unchanged silent, goesOn] at code
      cases code
    rw [spoken, Ne, empty, quiet_port_iff only, not_forall_not]

/-- The packet of the unknown unit ends the run before the reserved header does. -/
theorem stop_on_error_cuts_run_sample :
    let request : Request := { width := some .bits64, events := true }
    let reader : Cursor := { bytes := sample.toArray }
    let items := Decoder.atOnce request.command.options sample
    let cut := (request.stopping true).command.run reader
    Reads reader sample ∧ (request.command.run reader).errorOutput ≠ "" ∧ cut.exitCode = 1 ∧
    cut.standardOutput <+: (request.command.run reader).standardOutput ∧
    EndsAtFirst request (request.command.run reader) cut items ∧
    cut.standardOutput = lineBytes "Instrumentation \x7b port: 1, size: One, payload: [65] \x7d" ++
      lineBytes "EventCounterWrap \x7b cyc: true, fold: false, lsu: false, sleep: false, exc: false, cpi: false \x7d" ∧
    cut.errorOutput =
      "Error: Malformed DWT packet\n\nCaused by:\n    Hardware source packet discriminator ID is invalid: 3\n" := by
  intro request reader items cut
  have reads : Reads reader sample := reads_cursor sample.toArray 0
  obtain ⟨-, ended, -⟩ := stop_on_error_cuts_run (show request.stopOnError = false from rfl) rfl reads reads
  obtain ⟨run, -⟩ := run_of_reads (show request.follow = false from rfl) reads
  obtain ⟨rerun, -⟩ := run_of_reads (show (request.stopping true).follow = false from rfl) reads
  have found : items = _ := atOnce_sample
  have whole : request.command.run reader = request.command.transcript items := run
  have short : cut = (request.stopping true).command.transcript items := rerun
  have spoken : (request.command.run reader).errorOutput ≠ "" := by
    rw [whole, found]
    decide
  obtain ⟨code, begins, ends⟩ := ended spoken
  refine ⟨reads, spoken, code, begins, ends, ?_, ?_⟩
  · rw [short, found, ← lines_sample.1, ← lines_sample.2, ← List.append_nil (lineBytes (WatchpointEvent.text _))]
    rfl
  · rw [short, found]
    rfl

end Inputs

end SingleWire.CommandLine
