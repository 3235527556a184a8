/-! The words after the name of the command. A word that starts with a dash gives
options, unless it is the dash alone or comes after two dashes; any other word is the
value of the option before it or the file. Nothing may be given twice. -/

namespace SingleWire.CommandLine

/-- Options that are on or off. -/
inductive Switch where
  | follow
  | events
  | stopOnError
deriving DecidableEq

/-- Options that take a value. -/
inductive Setting where
  | width
  | stimulus
deriving DecidableEq

/-- The value of a setting that was given without one. -/
def Setting.default? : Setting → Option String
  | width => some "48"
  | stimulus => none

inductive OptionName where
  | switch (name : Switch)
  | setting (name : Setting)
  | help
  | version
deriving DecidableEq

namespace OptionName

def ofLong? (name : String) : Option OptionName :=
  match name with
  | "follow" => some (switch .follow)
  | "dwt" => some (switch .events)
  | "stop-on-error" => some (switch .stopOnError)
  | "gts-width" => some (setting .width)
  | "stimulus" => some (setting .stimulus)
  | "help" => some help
  | "version" => some version
  | _ => none

def ofShort? (name : Char) : Option OptionName :=
  match name with
  | 'F' => some (switch .follow)
  | 's' => some (setting .stimulus)
  | 'h' => some help
  | 'V' => some version
  | _ => none

end OptionName

/-- Why a list of words starts no run. -/
inductive Refusal where
  | misuse
  | help
  | version
deriving DecidableEq

/-- What has been given. A setting may still be without a value. -/
structure Arguments where
  switches : List Switch := []
  settings : List (Setting × Option String) := []
  file : Option String := none
deriving DecidableEq

namespace Arguments

def turnOn (arguments : Arguments) (switch : Switch) : Except Refusal Arguments :=
  if switch ∈ arguments.switches then .error .misuse
  else .ok { arguments with switches := switch :: arguments.switches }

def give (arguments : Arguments) (setting : Setting) (value : Option String) : Except Refusal Arguments :=
  if (arguments.settings.lookup setting).isSome then .error .misuse
  else .ok { arguments with settings := (setting, value) :: arguments.settings }

/-- Gives the value of a setting that was without one. -/
def fill (arguments : Arguments) (setting : Setting) (value : String) : Arguments :=
  { arguments with settings := arguments.settings.map fun entry =>
      if entry.1 = setting then (setting, some value) else entry }

def setFile (arguments : Arguments) (file : String) : Except Refusal Arguments :=
  if arguments.file.isSome then .error .misuse else .ok { arguments with file := some file }

/-- The option of a long name, with the value that follows its first equals sign. A
switch has no use for a value. The result is the setting that still awaits one. -/
def long (arguments : Arguments) (word : List Char) : Except Refusal (Arguments × Option Setting) :=
  let body := word.dropWhile (· = '-')
  let name := body.takeWhile (· ≠ '=')
  match OptionName.ofLong? (String.ofList name) with
  | none => .error .misuse
  | some .help => .error .help
  | some .version => .error .version
  | some (.switch switch) => do return (← arguments.turnOn switch, none)
  | some (.setting setting) =>
    match body.drop name.length with
    | [] => do return (← arguments.give setting none, some setting)
    | value => do return (← arguments.give setting (some (String.ofList (value.dropWhile (· = '=')))), none)

/-- A cluster of one-letter options. A setting takes the rest of the cluster, if there
is any, as its value. -/
def short (arguments : Arguments) : List Char → Except Refusal (Arguments × Option Setting)
  | [] => .ok (arguments, none)
  | letter :: rest =>
    match OptionName.ofShort? letter with
    | none => .error .misuse
    | some .help => .error .help
    | some .version => .error .version
    | some (.switch switch) => do (← arguments.turnOn switch).short rest
    | some (.setting setting) =>
      match rest with
      | [] => do return (← arguments.give setting none, some setting)
      | value => do return (← arguments.give setting (some (String.ofList (value.dropWhile (· = '=')))), none)

/-- Every setting that was given has a value, if only by default. -/
def finish (arguments : Arguments) : Except Refusal Arguments :=
  let valued (entry : Setting × Option String) : Bool := entry.2.isSome || entry.1.default?.isSome
  if arguments.settings.all valued then .ok arguments else .error .misuse

/-- Reads the words. `awaiting` is the setting whose value the next word may be. -/
def read (arguments : Arguments) (awaiting : Option Setting) : List String → Except Refusal Arguments
  | [] => arguments.finish
  | word :: rest =>
    match word.toList with
    | ['-', '-'] => do (← rest.foldlM setFile arguments).finish
    | '-' :: '-' :: letters => do
      let (arguments, awaiting) ← arguments.long letters
      arguments.read awaiting rest
    | '-' :: letter :: letters => do
      let (arguments, awaiting) ← arguments.short (letter :: letters)
      arguments.read awaiting rest
    | _ =>
      match awaiting with
      | some setting => (arguments.fill setting word).read none rest
      | none => do (← arguments.setFile word).read none rest

/-- The value of a setting, by default if it has none of its own. -/
def value? (arguments : Arguments) (setting : Setting) : Option String :=
  match arguments.settings.lookup setting with
  | some (some value) => some value
  | _ => setting.default?

end Arguments

/-- A decimal number below 256, with an optional plus sign and any number of leading zeros. -/
def byteOfDecimal? (text : String) : Option UInt8 :=
  let digits := match text.toList with
    | '+' :: digits => digits
    | digits => digits
  if digits.isEmpty || !digits.all Char.isDigit then none
  else
    let value := digits.foldl (fun value digit => 10 * value + (digit.toNat - '0'.toNat)) 0
    if value < 256 then some (UInt8.ofNat value) else none

end SingleWire.CommandLine
