import SingleWire.Proofs.Invocation

/-! What the command writes about each packet and fault, and about a sequence of them. An
item without an error is written in the same way whether errors stop the run or not. -/

namespace SingleWire

def Packet.writtenTo (port : UInt8) : Packet → List UInt8
  | stimulus origin _ payload => if origin = port then payload else []
  | _ => []

namespace CommandLine

def lineBytes (text : String) : List UInt8 := text.toUTF8.toList ++ [0x0A]

def errorLine (text : String) : String := s!"Error: {text}\n"

namespace Request

def stopping (request : Request) (stop : Bool) : Request := { request with stopOnError := stop }

def event? (request : Request) (packet : Packet) : Option (Except Malformation WatchpointEvent) :=
  if request.stimulus = none ∧ request.events then packet.event else none

/-- What the standard output says about an item. -/
def shown (request : Request) : Except DecodeError Packet → List UInt8
  | .error _ => []
  | .ok packet =>
    match request.stimulus, request.event? packet with
    | some port, _ => packet.writtenTo port
    | none, none => lineBytes packet.text
    | none, some (.ok event) => lineBytes event.text
    | none, some (.error _) => []

/-- What the error output says about an item. -/
def complaint (request : Request) : Except DecodeError Packet → Option String
  | .error (.malformed fault) => some fault.message
  | .error (.source _) => none
  | .ok packet =>
    match request.event? packet with
    | some (.error malformation) => some malformation.message
    | _ => none

/-- The report of an item that ends a run. -/
def report (request : Request) : Except DecodeError Packet → Option Report
  | .error error => some { headline := "Decoder error", causes := error.message :: error.causes }
  | .ok packet =>
    match request.event? packet with
    | some (.error malformation) => some { headline := "Malformed DWT packet", causes := [malformation.message] }
    | _ => none

end Request

namespace Report

private theorem infix_join {line : String} {lines : List String} (member : line ∈ lines) :
    line.toList <:+: (String.join lines).toList := by
  induction lines with
  | nil => cases member
  | cons first lines ih =>
    rw [String.join_cons, String.toList_append]
    rcases List.mem_cons.mp member with rfl | later
    · exact (List.prefix_append _ _).isInfix
    · exact (ih later).trans (List.suffix_append _ _).isInfix

private theorem exists_causeLine {cause : String} {causes : List String} (member : cause ∈ causes) :
    ∃ line ∈ causeLines causes, cause.toList <:+: line.toList := by
  unfold causeLines
  split
  next only =>
    cases List.mem_singleton.mp member
    refine ⟨_, List.mem_singleton_self _, ?_⟩
    simp only [String.toList_append]
    exact ⟨_, _, rfl⟩
  next =>
    obtain ⟨number, inside, rfl⟩ := List.getElem_of_mem member
    refine ⟨_, List.mem_map.mpr ⟨(causes[number], number), List.mk_mem_zipIdx_iff_getElem?.mpr (by simp), rfl⟩, ?_⟩
    simp only [String.toList_append]
    exact ⟨_, _, rfl⟩

theorem infix_text {report : Report} {cause : String} (named : cause ∈ report.causes) :
    cause.toList <:+: report.text.toList := by
  have some : report.causes.isEmpty = false := by
    cases causes : report.causes with
    | nil => simp [causes] at named
    | cons => rfl
  obtain ⟨line, member, inside⟩ := exists_causeLine named
  rw [text, some, if_neg Bool.false_ne_true, String.toList_append]
  exact inside.trans ((infix_join member).trans (List.suffix_append _ _).isInfix)

end Report

namespace Transcript
variable {outputs : List Output} {later : Transcript}

theorem standardOutput_append :
    ({ later with outputs := outputs ++ later.outputs } : Transcript).standardOutput =
      outputs.flatMap Output.standardBytes ++ later.standardOutput := List.flatMap_append

theorem errorOutput_append :
    ({ later with outputs := outputs ++ later.outputs } : Transcript).errorOutput =
      String.join (outputs.map Output.diagnosticText) ++ later.errorOutput := by
  rw [errorOutput, errorOutput, List.map_append, String.join_append, String.append_assoc]

theorem join_silent (silent : ∀ output ∈ outputs, output.diagnosticText = "") :
    String.join (outputs.map Output.diagnosticText) = "" := by
  induction outputs with
  | nil => rfl
  | cons output outputs ih =>
    rw [List.map_cons, String.join_cons, silent output List.mem_cons_self, String.empty_append]
    exact ih fun output member => silent output (List.mem_cons_of_mem _ member)

end Transcript

/-- Packets and faults come from the bytes; other errors from where the bytes come from. -/
def OfBytes (item : Except DecodeError Packet) : Prop := ∀ failure, item ≠ .error (.source failure)

section Items
variable {request : Request} {item : Except DecodeError Packet} {text : String}

private theorem showPacket_port {port : UInt8} (only : request.stimulus = some port) (packet : Packet) :
    ∃ output : Option Output, (∀ stop, (request.stopping stop).command.showPacket packet = .ok output) ∧
      output.toList.flatMap Output.standardBytes = packet.writtenTo port ∧
      ∀ written ∈ output, written.diagnosticText = "" := by
  obtain ⟨width, stimulus, events, stopOnError, follow, file⟩ := request
  cases only
  cases packet with
  | stimulus origin size payload =>
    by_cases same : origin = port
    · refine ⟨some (.raw payload), fun stop => congrArg Except.ok (if_pos same), ?_, by simp [Output.diagnosticText]⟩
      simp [Packet.writtenTo, Output.standardBytes, same]
    · refine ⟨none, fun stop => congrArg Except.ok (if_neg same), ?_, by simp⟩
      simp [Packet.writtenTo, same]
  | _ => exact ⟨none, fun stop => rfl, rfl, by simp⟩

private theorem showPacket_listed (listing : request.stimulus = none) (packet : Packet) (stop : Bool) :
    (request.stopping stop).command.showPacket packet =
      match request.event? packet with
      | none => .ok (some (.line packet.text))
      | some (.ok event) => .ok (some (.line event.text))
      | some (.error malformation) =>
        if stop then .error { headline := "Malformed DWT packet", causes := [malformation.message] }
        else .ok (some (.diagnostic malformation.message)) := by
  obtain ⟨width, stimulus, events, stopOnError, follow, file⟩ := request
  cases listing
  cases events with
  | false => rfl
  | true =>
    cases packet with
    | hardware discriminator size payload =>
      have event : Request.event? ⟨width, none, true, stopOnError, follow, file⟩ (.hardware discriminator size payload) =
          some (WatchpointEvent.decode discriminator payload) := rfl
      have view : (Request.stopping ⟨width, none, true, stopOnError, follow, file⟩ stop).command.view = .events := rfl
      rw [event, Command.showPacket.eq_def, view]
      dsimp only
      cases WatchpointEvent.decode discriminator payload <;> rfl
    | _ => rfl

private theorem showPacket_line (listing : request.stimulus = none) {packet : Packet}
    (quiet : request.complaint (.ok packet) = none) :
    ∃ line, (∀ stop, (request.stopping stop).command.showPacket packet = .ok (some (.line line))) ∧
      request.shown (.ok packet) = lineBytes line := by
  cases found : request.event? packet with
  | none =>
    refine ⟨packet.text, fun stop => ?_, ?_⟩
    · rw [showPacket_listed listing, found]
    · rw [Request.shown, listing, found]
  | some decoded =>
    cases decoded with
    | ok event =>
      refine ⟨event.text, fun stop => ?_, ?_⟩
      · rw [showPacket_listed listing, found]
      · rw [Request.shown, listing, found]
    | error malformation =>
      rw [Request.complaint, found] at quiet
      cases quiet

/-- What is written about an item without an error does not depend on where errors stop the run. -/
theorem respond_of_quiet (quiet : request.complaint item = none) (given : OfBytes item) :
    ∃ output : Option Output, (∀ stop, (request.stopping stop).command.respond item = .ok output) ∧
      output.toList.flatMap Output.standardBytes = request.shown item ∧
      ∀ written ∈ output, written.diagnosticText = "" := by
  cases item with
  | error error =>
    cases error with
    | malformed fault => cases quiet
    | source failure => exact absurd rfl (given failure)
  | ok packet =>
    cases only : request.stimulus with
    | some port =>
      obtain ⟨output, shows, bytes, silent⟩ := showPacket_port only packet
      refine ⟨output, shows, ?_, silent⟩
      rw [bytes, Request.shown, only]
    | none =>
      obtain ⟨line, shows, bytes⟩ := showPacket_line only quiet
      refine ⟨some (.line line), shows, ?_, by simp [Output.diagnosticText]⟩
      rw [bytes]
      exact List.append_nil _

/-- An error is written, or ends the run and is in its report. -/
theorem respond_of_complaint (complains : request.complaint item = some text) :
    request.shown item = [] ∧ (request.stopping false).command.respond item = .ok (some (.diagnostic text)) ∧
      ∃ report, request.report item = some report ∧ (request.stopping true).command.respond item = .error report ∧
        text ∈ report.causes := by
  cases item with
  | error error =>
    cases error with
    | malformed fault =>
      cases complains
      refine ⟨rfl, rfl, _, rfl, rfl, ?_⟩
      simp [DecodeError.causes]
    | source failure => cases complains
  | ok packet =>
    rw [Request.complaint] at complains
    split at complains
    next malformation found =>
      cases complains
      have listing : request.stimulus = none := by
        cases only : request.stimulus with
        | none => rfl
        | some port => simp [Request.event?, only] at found
      refine ⟨?_, ?_, { headline := "Malformed DWT packet", causes := [malformation.message] }, ?_, ?_,
        List.mem_singleton_self _⟩
      · rw [Request.shown, listing, found]
      · show Command.showPacket _ _ = _
        rw [showPacket_listed listing, found]
        rfl
      · rw [Request.report, found]
      · show Command.showPacket _ _ = _
        rw [showPacket_listed listing, found]
        rfl
    next => cases complains

theorem respond_lenient (request : Request) (given : OfBytes item) :
    ∃ output : Option Output, (request.stopping false).command.respond item = .ok output ∧
      output.toList.flatMap Output.standardBytes = request.shown item ∧
      String.join (output.toList.map Output.diagnosticText) = String.join ((request.complaint item).toList.map errorLine) := by
  cases complains : request.complaint item with
  | none =>
    obtain ⟨output, responds, bytes, silent⟩ := respond_of_quiet complains given
    exact ⟨output, responds false, bytes, Transcript.join_silent (by simpa using silent)⟩
  | some text =>
    obtain ⟨hidden, responds, -⟩ := respond_of_complaint complains
    exact ⟨some (.diagnostic text), responds, hidden.symm, rfl⟩

end Items

section Runs
variable {request : Request} {items : List (Except DecodeError Packet)}

/-- Items without errors come first in every run. -/
theorem transcript_append_of_quiet (quiet : ∀ item ∈ items, request.complaint item = none)
    (given : ∀ item ∈ items, OfBytes item) :
    ∃ outputs, outputs.flatMap Output.standardBytes = items.flatMap request.shown ∧
      (∀ output ∈ outputs, output.diagnosticText = "") ∧
      ∀ stop rest, (request.stopping stop).command.transcript (items ++ rest) =
        let later := (request.stopping stop).command.transcript rest
        { later with outputs := outputs ++ later.outputs } := by
  induction items with
  | nil => exact ⟨[], rfl, by simp, fun _ _ => rfl⟩
  | cons item items ih =>
    obtain ⟨outputs, bytes, silent, runs⟩ := ih (fun item member => quiet item (List.mem_cons_of_mem _ member))
      (fun item member => given item (List.mem_cons_of_mem _ member))
    obtain ⟨output, responds, shows, quiet⟩ := respond_of_quiet (quiet item List.mem_cons_self) (given item List.mem_cons_self)
    refine ⟨output.toList ++ outputs, ?_, ?_, ?_⟩
    · rw [List.flatMap_append, shows, bytes, List.flatMap_cons]
    · intro written member
      obtain first | later := List.mem_append.mp member
      · exact quiet written (Option.mem_toList.mp first)
      · exact silent written later
    · intro stop rest
      rw [List.cons_append, Command.transcript, responds, runs]
      simp only [List.append_assoc]

theorem transcript_lenient (request : Request) (given : ∀ item ∈ items, OfBytes item) :
    let transcript := (request.stopping false).command.transcript items
    transcript.failure = none ∧ transcript.standardOutput = items.flatMap request.shown ∧
      transcript.errorOutput = String.join ((items.filterMap request.complaint).map errorLine) := by
  induction items with
  | nil => exact ⟨rfl, rfl, rfl⟩
  | cons item items ih =>
    obtain ⟨runs, shows, reports⟩ := ih fun item member => given item (List.mem_cons_of_mem _ member)
    obtain ⟨output, responds, bytes, text⟩ := respond_lenient request (given item List.mem_cons_self)
    intro transcript
    have step : transcript =
        let later := (request.stopping false).command.transcript items
        { later with outputs := output.toList ++ later.outputs } := by
      simp only [transcript, Command.transcript, responds]
    rw [step]
    refine ⟨runs, ?_, ?_⟩
    · rw [Transcript.standardOutput_append, shows, bytes, List.flatMap_cons]
    · rw [Transcript.errorOutput_append, reports, text]
      cases complains : request.complaint item with
      | none =>
        rw [List.filterMap_cons_none complains]
        exact String.empty_append
      | some line =>
        rw [List.filterMap_cons_some complains, List.map_cons, String.join_cons]
        simp

private theorem join_errorLines {texts : List String} : String.join (texts.map errorLine) = "" ↔ texts = [] := by
  refine ⟨fun empty => ?_, fun none => by rw [none]; rfl⟩
  cases texts with
  | nil => rfl
  | cons text texts =>
    rw [List.map_cons, String.join_cons, errorLine, String.append_eq_empty_iff, String.append_eq_empty_iff,
      String.append_eq_empty_iff] at empty
    exact absurd empty.1.1.1 (by decide)

theorem errorOutput_empty_iff (given : ∀ item ∈ items, OfBytes item) :
    ((request.stopping false).command.transcript items).errorOutput = "" ↔ ∀ item ∈ items, request.complaint item = none := by
  rw [(transcript_lenient request given).2.2, join_errorLines, List.filterMap_eq_nil_iff]

theorem transcript_of_quiet (given : ∀ item ∈ items, OfBytes item)
    (quiet : ∀ item ∈ items, request.complaint item = none) :
    let transcript := request.command.transcript items
    transcript.failure = none ∧ transcript.standardOutput = items.flatMap request.shown ∧ transcript.errorOutput = "" := by
  obtain ⟨outputs, bytes, silent, runs⟩ := transcript_append_of_quiet quiet given
  have run : request.command.transcript items = { outputs, failure := none } := by
    show (request.stopping request.stopOnError).command.transcript items = _
    rw [← List.append_nil items, runs]
    simp only [Command.transcript, List.append_nil]
  rw [run]
  refine ⟨rfl, bytes, ?_⟩
  rw [Transcript.errorOutput, Transcript.join_silent silent]
  rfl

theorem transcript_strict_of_quiet (given : ∀ item ∈ items, OfBytes item)
    (quiet : ∀ item ∈ items, request.complaint item = none) :
    (request.stopping true).command.transcript items = (request.stopping false).command.transcript items := by
  obtain ⟨outputs, -, -, runs⟩ := transcript_append_of_quiet quiet given
  have strict := runs true []
  have lenient := runs false []
  rw [List.append_nil] at strict lenient
  exact strict.trans lenient.symm

theorem quiet_port_iff (only : request.stimulus.isSome) :
    (∀ item ∈ items, request.complaint item = none) ↔ ∀ fault, .error (.malformed fault) ∉ items := by
  constructor
  · intro quiet fault member
    cases quiet _ member
  · intro faultless item member
    cases item with
    | error error =>
      cases error with
      | malformed fault => exact absurd member (faultless fault)
      | source failure => rfl
    | ok packet =>
      have none : request.event? packet = none := if_neg fun asked => by simp [asked.1] at only
      rw [Request.complaint, none]

end Runs

end CommandLine

end SingleWire
