import SingleWire.CommandLine.Listing

/-! The words that ask for a run, read from left to right, and the run that they start. -/

namespace SingleWire.CommandLine

structure Request where
  width : Option TimestampWidth := none
  stimulus : Option UInt8 := none
  events : Bool := false
  stopOnError : Bool := false
  follow : Bool := false
  file : Option String := none

namespace Request

def on (request : Request) : Switch → Bool
  | .follow => request.follow
  | .events => request.events
  | .stopOnError => request.stopOnError

def turnOn (request : Request) : Switch → Request
  | .follow => { request with follow := true }
  | .events => { request with events := true }
  | .stopOnError => { request with stopOnError := true }

def value? (request : Request) : Setting → Option UInt8
  | .width => request.width.map fun width => UInt8.ofNat width.bits
  | .stimulus => request.stimulus

/-- The run that is asked for. A stimulus port is more specific than the events. -/
def command (request : Request) : Command where
  options := { timestampWidth := request.width.getD .bits48 }
  view := (request.stimulus.map .stimulus).getD (if request.events then .events else .packets)
  stopOnError := request.stopOnError
  follow := request.follow
  file := request.file

end Request

def Switch.spellings : Switch → List String
  | follow => ["--follow", "-F"]
  | events => ["--dwt"]
  | stopOnError => ["--stop-on-error"]

def Setting.spellings (text : String) : Setting → List (List String)
  | width => [["--gts-width", text], ["--gts-width=" ++ text]]
  | stimulus => [["--stimulus", text], ["--stimulus=" ++ text], ["-s", text], ["-s" ++ text]]

/-- `Asks request words final` says that the words ask for what is in `final` but not yet in `request`. -/
inductive Asks : Request → List String → Request → Prop where
  | done {request : Request} : Asks request [] request
  | width {request final : Request} {text : String} {words rest : List String} (width : TimestampWidth)
      (first : request.width = none) (numeral : byteOfDecimal? text = some (UInt8.ofNat width.bits))
      (given : words ∈ Setting.width.spellings text) (later : Asks { request with width := some width } rest final) :
    Asks request (words ++ rest) final
  | stimulus {request final : Request} {text : String} {words rest : List String} (port : UInt8)
      (first : request.stimulus = none) (known : port ≤ lastPort) (numeral : byteOfDecimal? text = some port)
      (given : words ∈ Setting.stimulus.spellings text) (later : Asks { request with stimulus := some port } rest final) :
    Asks request (words ++ rest) final
  | switch {request final : Request} {word : String} {rest : List String} (switch : Switch)
      (first : request.on switch = false) (given : word ∈ switch.spellings) (later : Asks (request.turnOn switch) rest final) :
    Asks request (word :: rest) final
  | file {request final : Request} {name : String} {rest : List String} (first : request.file = none)
      (plain : name.toList.head? ≠ some '-') (later : Asks { request with file := some name } rest final) :
    Asks request (name :: rest) final
  /-- Two dashes end the options, so that the name of the file may start with one. -/
  | separated {request : Request} {name : String} (first : request.file = none) :
    Asks request ["--", name] { request with file := some name }

/-- What the arguments hold is what has been asked for. -/
structure Arguments.Holds (arguments : Arguments) (request : Request) : Prop where
  switches : ∀ switch, switch ∈ arguments.switches ↔ request.on switch = true
  settings : ∀ setting,
    (arguments.settings.lookup setting).map (·.bind byteOfDecimal?) = (request.value? setting).map some
  valued : ∀ entry ∈ arguments.settings, entry.2.isSome
  file : arguments.file = request.file

namespace Arguments
variable {arguments : Arguments} {request : Request} {setting : Setting} {switch : Switch} {text : String} {rest : List String}

theorem holds_initially : ({} : Arguments).Holds {} where
  switches switch := by cases switch <;> decide
  settings setting := by cases setting <;> rfl
  valued := by simp
  file := rfl

def put (arguments : Arguments) (setting : Setting) (text : String) : Arguments :=
  { arguments with settings := (setting, some text) :: arguments.settings }

section Words

private theorem turnOn_of_new (first : switch ∉ arguments.switches) :
    arguments.turnOn switch = .ok { arguments with switches := switch :: arguments.switches } := if_neg first

private theorem give_of_new (first : arguments.settings.lookup setting = none) (value : Option String) :
    arguments.give setting value = .ok { arguments with settings := (setting, value) :: arguments.settings } := by
  rw [give, first]
  rfl

private theorem fill_of_new (first : arguments.settings.lookup setting = none) :
    ({ arguments with settings := (setting, none) :: arguments.settings } : Arguments).fill setting text =
      arguments.put setting text := by
  have others : (arguments.settings.map fun entry => if entry.1 = setting then (setting, some text) else entry) =
      arguments.settings.map id := by
    refine List.map_congr_left fun entry member => if_neg fun same => ?_
    have different := List.lookup_eq_none_iff.mp first entry member
    simp [same] at different
  rw [fill, put, List.map_cons, if_pos rfl, others, List.map_id]

private theorem setFile_of_new (first : arguments.file = none) (name : String) :
    arguments.setFile name = .ok { arguments with file := some name } := by
  rw [setFile, first]
  rfl

private theorem read_plain {word : String} (plain : word.toList.head? ≠ some '-') (awaiting : Option Setting) :
    arguments.read awaiting (word :: rest) =
      match awaiting with
      | some setting => (arguments.fill setting word).read none rest
      | none => (arguments.setFile word).bind fun arguments => arguments.read none rest := by
  rw [read.eq_def]
  dsimp only
  split
  next shape => simp [shape] at plain
  next shape => simp [shape] at plain
  next shape => simp [shape] at plain
  next => cases awaiting <;> rfl

private theorem head_of_numeral {value : UInt8} (numeral : byteOfDecimal? text = some value) :
    ∃ first others, text.toList = first :: others ∧ first ≠ '-' ∧ first ≠ '=' := by
  cases shape : text.toList with
  | nil => simp [byteOfDecimal?, shape] at numeral
  | cons first others =>
    refine ⟨first, others, rfl, ?_, ?_⟩ <;>
      · rintro rfl
        simp [byteOfDecimal?, shape, Char.isDigit] at numeral

private theorem read_awaited (first : arguments.settings.lookup setting = none) (plain : text.toList.head? ≠ some '-') :
    ((arguments.give setting none).bind fun given => .ok (given, some setting)).bind
      (fun found : Arguments × Option Setting => found.1.read found.2 (text :: rest)) =
        (arguments.put setting text).read none rest := by
  rw [give_of_new first]
  show read _ (some setting) _ = _
  rw [read_plain plain]
  show read (fill _ _ _) none _ = _
  rw [fill_of_new first]

private theorem read_valued (first : arguments.settings.lookup setting = none) :
    ((arguments.give setting (some text)).bind fun given => .ok (given, none)).bind
      (fun found : Arguments × Option Setting => found.1.read found.2 rest) =
        (arguments.put setting text).read none rest := by
  rw [give_of_new first]
  rfl

private theorem long_joined {name : List Char} (named : OptionName.ofLong? (String.ofList name) = some (.setting setting))
    (plain : name.all (· ≠ '=') = true) (head : name.head? ≠ some '-') (value : text.toList.head? ≠ some '=') :
    arguments.long (name ++ '=' :: text.toList) = (arguments.give setting (some text)).bind fun given => .ok (given, none) := by
  have body : (name ++ '=' :: text.toList).dropWhile (· = '-') = name ++ '=' :: text.toList := by
    cases name with
    | nil => rfl
    | cons letter letters => simp_all
  have front : (name ++ '=' :: text.toList).takeWhile (· ≠ '=') = name := by
    rw [List.takeWhile_append_of_pos (by simpa using plain)]
    simp
  have kept : ('=' :: text.toList).dropWhile (· = '=') = text.toList := by
    cases shape : text.toList with
    | nil => rfl
    | cons letter letters => simp_all
  simp only [long, body, front, named, List.drop_left, kept, String.ofList_toList]
  rfl

private theorem read_joined {word : String} {name : List Char} (shape : word.toList = '-' :: '-' :: (name ++ '=' :: text.toList))
    (named : OptionName.ofLong? (String.ofList name) = some (.setting setting)) (plain : name.all (· ≠ '=') = true)
    (head : name.head? ≠ some '-') (value : text.toList.head? ≠ some '=') (first : arguments.settings.lookup setting = none) :
    arguments.read none (word :: rest) = (arguments.put setting text).read none rest := by
  have long : arguments.read none (word :: rest) =
      (arguments.long (name ++ '=' :: text.toList)).bind fun found => found.1.read found.2 rest := by
    cases name with
    | nil => cases named
    | cons letter letters =>
      rw [read.eq_def]
      dsimp only
      rw [shape]
      rfl
  rw [long, long_joined named plain head value]
  exact read_valued first

private theorem read_given {words : List String} {value : UInt8} (first : arguments.settings.lookup setting = none)
    (numeral : byteOfDecimal? text = some value) (given : words ∈ setting.spellings text) :
    arguments.read none (words ++ rest) = (arguments.put setting text).read none rest := by
  obtain ⟨digit, digits, shape, dash, equals⟩ := head_of_numeral numeral
  have plain : text.toList.head? ≠ some '-' := by simpa [shape] using dash
  have unequal : text.toList.head? ≠ some '=' := by simpa [shape] using equals
  cases setting with
  | width =>
    simp only [Setting.spellings, List.mem_cons, List.not_mem_nil, or_false] at given
    obtain rfl | rfl := given
    · exact read_awaited first plain
    · exact @read_joined _ _ _ _ _ "gts-width".toList String.toList_append rfl rfl (by decide) unequal first
  | stimulus =>
    simp only [Setting.spellings, List.mem_cons, List.not_mem_nil, or_false] at given
    obtain rfl | rfl | rfl | rfl := given
    · exact read_awaited first plain
    · exact @read_joined _ _ _ _ _ "stimulus".toList String.toList_append rfl rfl (by decide) unequal first
    · exact read_awaited first plain
    · have cluster : arguments.read none (["-s" ++ text] ++ rest) =
          (arguments.short ('s' :: text.toList)).bind fun found => found.1.read found.2 rest := by
        rw [List.singleton_append, read, String.toList_append]
        rfl
      have value : arguments.short ('s' :: digit :: digits) =
          (arguments.give .stimulus (some (String.ofList ((digit :: digits).dropWhile (· = '='))))).bind
            fun given => .ok (given, none) := rfl
      rw [List.dropWhile_cons_of_neg (by simpa using equals), ← shape, String.ofList_toList] at value
      rw [cluster, value]
      exact read_valued first

private theorem read_switch {word : String} (first : switch ∉ arguments.switches) (given : word ∈ switch.spellings) :
    arguments.read none (word :: rest) =
      ({ arguments with switches := switch :: arguments.switches } : Arguments).read none rest := by
  have long : ((arguments.turnOn switch).bind fun given => .ok (given, none)).bind
      (fun found : Arguments × Option Setting => found.1.read found.2 rest) =
        ({ arguments with switches := switch :: arguments.switches } : Arguments).read none rest := by
    rw [turnOn_of_new first]
    rfl
  have short : ((arguments.turnOn switch).bind fun given => given.short []).bind
      (fun found : Arguments × Option Setting => found.1.read found.2 rest) =
        ({ arguments with switches := switch :: arguments.switches } : Arguments).read none rest := by
    rw [turnOn_of_new first]
    rfl
  cases switch with
  | follow =>
    simp only [Switch.spellings, List.mem_cons, List.not_mem_nil, or_false] at given
    obtain rfl | rfl := given
    · exact long
    · exact short
  | events =>
    rw [List.mem_singleton.mp given]
    exact long
  | stopOnError =>
    rw [List.mem_singleton.mp given]
    exact long

private theorem read_separated (first : arguments.file = none) (name : String) :
    arguments.read none ["--", name] = ({ arguments with file := some name } : Arguments).finish := by
  show ((arguments.setFile name).bind fun given => .ok given).bind finish = _
  rw [setFile_of_new first]
  rfl

end Words

private theorem finish_of_valued (valued : ∀ entry ∈ arguments.settings, entry.2.isSome) :
    arguments.finish = .ok arguments := by
  refine if_pos (List.all_eq_true.mpr fun entry member => ?_)
  rw [valued entry member]
  rfl

namespace Holds

theorem turnOn (holds : arguments.Holds request) (switch : Switch) :
    ({ arguments with switches := switch :: arguments.switches } : Arguments).Holds (request.turnOn switch) where
  switches other := by
    rw [List.mem_cons, holds.switches]
    cases switch <;> cases other <;> simp [Request.turnOn, Request.on]
  settings other := by
    rw [holds.settings]
    cases switch <;> rfl
  valued := holds.valued
  file := by
    rw [holds.file]
    cases switch <;> rfl

theorem put {next : Request} {value : UInt8} (holds : arguments.Holds request) (numeral : byteOfDecimal? text = some value)
    (given : next.value? setting = some value) (others : ∀ other ≠ setting, next.value? other = request.value? other)
    (switches : next.on = request.on) (file : next.file = request.file) : (arguments.put setting text).Holds next where
  switches := by
    rw [switches]
    exact holds.switches
  settings other := by
    rw [Arguments.put, List.lookup_cons]
    by_cases same : other = setting
    · rw [same, given, beq_self_eq_true]
      simpa using numeral
    · rw [beq_false_of_ne same, others other same]
      exact holds.settings other
  valued entry member := by
    obtain rfl | member := List.mem_cons.mp member
    · rfl
    · exact holds.valued entry member
  file := holds.file.trans file.symm

theorem setFile (holds : arguments.Holds request) (name : String) :
    ({ arguments with file := some name } : Arguments).Holds { request with file := some name } where
  switches switch := by
    rw [holds.switches]
    cases switch <;> rfl
  settings setting := by
    rw [holds.settings]
    cases setting <;> rfl
  valued := holds.valued
  file := rfl

theorem lookup_eq_none (holds : arguments.Holds request) (first : request.value? setting = none) :
    arguments.settings.lookup setting = none := by
  have lookup := holds.settings setting
  rw [first] at lookup
  exact Option.map_eq_none_iff.mp lookup

theorem not_mem (holds : arguments.Holds request) (first : request.on switch = false) : switch ∉ arguments.switches := by
  rw [holds.switches, first]
  exact Bool.false_ne_true

end Holds

/-- Each word is read as what it asks for, and in the end the arguments hold all of it. -/
theorem read_of_asks {words : List String} {final : Request} (asks : Asks request words final)
    (holds : arguments.Holds request) : ∃ last, arguments.read none words = .ok last ∧ last.Holds final := by
  induction asks generalizing arguments with
  | done => exact ⟨arguments, finish_of_valued holds.valued, holds⟩
  | @width request _ text _ _ width first numeral given _ ih =>
    have absent : arguments.settings.lookup .width = none := holds.lookup_eq_none (by rw [Request.value?, first]; rfl)
    rw [read_given absent numeral given]
    refine ih (holds.put numeral rfl ?_ ?_ rfl)
    · intro other different
      cases other with
      | width => exact absurd rfl different
      | stimulus => rfl
    · funext switch
      cases switch <;> rfl
  | @stimulus request _ text _ _ port first known numeral given _ ih =>
    have absent : arguments.settings.lookup .stimulus = none := holds.lookup_eq_none first
    rw [read_given absent numeral given]
    refine ih (holds.put numeral rfl ?_ ?_ rfl)
    · intro other different
      cases other with
      | width => rfl
      | stimulus => exact absurd rfl different
    · funext switch
      cases switch <;> rfl
  | switch switch first given _ ih =>
    rw [read_switch (holds.not_mem first) given]
    exact ih (holds.turnOn switch)
  | @file request _ name _ first plain _ ih =>
    have absent : arguments.file = none := holds.file.trans first
    rw [read_plain plain]
    show ∃ last, (arguments.setFile name).bind _ = _ ∧ _
    rw [setFile_of_new absent]
    exact ih (holds.setFile name)
  | @separated request name first =>
    have absent : arguments.file = none := holds.file.trans first
    refine ⟨{ arguments with file := some name }, ?_, holds.setFile name⟩
    rw [read_separated absent]
    exact finish_of_valued holds.valued

theorem Holds.value_given (holds : arguments.Holds request) (setting : Setting) :
    (arguments.value? setting).map byteOfDecimal? =
      ((request.value? setting).map some).or (setting.default?.map byteOfDecimal?) := by
  have lookup := holds.settings setting
  rw [Arguments.value?]
  cases given : request.value? setting with
  | none =>
    rw [holds.lookup_eq_none given]
    rfl
  | some value =>
    rw [given] at lookup
    cases found : arguments.settings.lookup setting with
    | none => simp [found] at lookup
    | some given =>
      cases given with
      | none => simp [found] at lookup
      | some text => simpa [found] using lookup

end Arguments

theorem Asks.port_le {words : List String} {request final : Request} (asks : Asks request words final)
    (known : ∀ port ∈ request.stimulus, port ≤ lastPort) : ∀ port ∈ final.stimulus, port ≤ lastPort := by
  induction asks with
  | done => exact known
  | width _ _ _ _ _ ih => exact ih known
  | stimulus port _ least _ _ _ ih =>
    refine ih fun other member => ?_
    cases member
    exact least
  | switch switch _ _ _ ih =>
    cases switch <;> exact ih known
  | file _ _ _ ih => exact ih known
  | separated => exact known

private theorem ofValues_of_known (arguments : Arguments) (width : TimestampWidth) {stimulus : Option UInt8}
    (known : ∀ port ∈ stimulus, port ≤ lastPort) :
    Command.ofValues arguments (UInt8.ofNat width.bits) stimulus = .ok {
      options := { timestampWidth := width }
      view := (stimulus.map .stimulus).getD (if .events ∈ arguments.switches then .events else .packets)
      stopOnError := .stopOnError ∈ arguments.switches
      follow := .follow ∈ arguments.switches
      file := arguments.file } := by
  cases stimulus with
  | none => cases width <;> rfl
  | some port =>
    have inside : ¬ lastPort < port := UInt8.not_lt.mpr (known port rfl)
    cases width <;>
      · simp only [Command.ofValues, inside, if_false]
        rfl

section Values
variable {arguments : Arguments} {request : Request}

private theorem ofValues_of_holds (holds : arguments.Holds request) (known : ∀ port ∈ request.stimulus, port ≤ lastPort) :
    Command.ofValues arguments (UInt8.ofNat (request.width.getD .bits48).bits) request.stimulus = .ok request.command := by
  have switches (switch : Switch) : decide (switch ∈ arguments.switches) = request.on switch := by
    rw [Bool.eq_iff_iff, decide_eq_true_iff, holds.switches]
  have events : (.events ∈ arguments.switches) = (request.events = true) := propext (holds.switches .events)
  rw [ofValues_of_known arguments _ known, switches, switches, holds.file]
  simp only [events]
  rfl

private theorem width_of_holds (holds : arguments.Holds request) :
    ∃ text, arguments.value? .width = some text ∧
      byteOfDecimal? text = some (UInt8.ofNat (request.width.getD .bits48).bits) := by
  refine Option.map_eq_some_iff.mp ?_
  rw [holds.value_given, Request.value?]
  cases request.width with
  | none => decide
  | some width => rfl

end Values

/-- Words that ask for a run start the run that they ask for. -/
theorem ofWords_of_asks {words : List String} {request : Request} (asks : Asks {} words request) :
    Command.ofWords words = .ok (.ok request.command) := by
  obtain ⟨arguments, read, holds⟩ := Arguments.read_of_asks asks Arguments.holds_initially
  obtain ⟨width, widthGiven, widthRead⟩ := width_of_holds holds
  have values := ofValues_of_holds holds (asks.port_le (by simp))
  have stimulus := holds.value_given .stimulus
  rw [Request.value?] at stimulus
  cases asked : request.stimulus with
  | none =>
    rw [asked] at stimulus values
    have absent : arguments.value? .stimulus = none := Option.map_eq_none_iff.mp stimulus
    simp only [Command.ofWords, read, widthGiven, widthRead, absent, values, Option.getD_some, bind, Except.bind, pure,
      Except.pure]
  | some port =>
    rw [asked] at stimulus values
    obtain ⟨text, portGiven, portRead⟩ := Option.map_eq_some_iff.mp stimulus
    simp only [Command.ofWords, read, widthGiven, widthRead, portGiven, portRead, values, Option.getD_some, Functor.map,
      Except.map, bind, Except.bind, pure, Except.pure]

example : Command.ofWords ["--dwt", "-s5", "--gts-width", "64", "trace.bin"] =
    .ok (.ok { options := { timestampWidth := .bits64 }, view := .stimulus 5, file := some "trace.bin" }) :=
  ofWords_of_asks (.switch .events rfl (by decide)
    (.stimulus 5 rfl (by decide) (show byteOfDecimal? "5" = _ by decide) (.tail _ (.tail _ (.tail _ (.head _))))
      (.width .bits64 rfl (show byteOfDecimal? "64" = _ by decide) (.head _) (.file rfl (by decide) .done))))

end SingleWire.CommandLine
