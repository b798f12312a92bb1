import SourceFilter.Text.Numeral
import SourceFilter.Text.Split

/-!
# Command lines

Options are read from the arguments of a program. A long option is `--name`, with its value behind
an equals sign or in the next argument; a short one is `-n`, with its value attached or in the next
argument. An option is given at most once. Its value is checked when the option is complete, which
is when the next option starts or the arguments end, so an argument that is no option at all is
reported before a bad value in front of it. After `--` no argument is an option.
-/

namespace SourceFilter

/-- What is wrong with the arguments, or that they ask for help. -/
inductive UsageError where
  /-- An argument is no option. -/
  | unknownArgument
  /-- The value of an option is missing or empty. -/
  | missingValue
  /-- The value of an option cannot be read. -/
  | malformedValue
  /-- An option is given twice. -/
  | repeated
  /-- An option without a value has one. -/
  | unneededValue
  /-- Help is asked for. -/
  | help
  deriving DecidableEq, Repr

/-- What is wrong, in words. -/
def UsageError.message : UsageError → String
  | .unknownArgument => "unexpected argument"
  | .missingValue => "a value is required"
  | .malformedValue => "invalid value"
  | .repeated => "an option cannot be used multiple times"
  | .unneededValue => "unexpected value"
  | .help => "help requested"

/-- An option of a program. -/
structure OptionSpec where
  /-- The long name. -/
  name : String
  /-- The short name. -/
  short : Option Char := none
  /-- What is wrong with a value, for an option that takes one. -/
  check : Option (String → Option UsageError) := none

namespace OptionSpec

/-- Whether the option takes a value. -/
def takesValue (o : OptionSpec) : Bool := o.check.isSome

/-- What is wrong with a value of the option. -/
def fault? (o : OptionSpec) (value : String) : Option UsageError := o.check.bind (· value)

end OptionSpec

namespace CommandLine

/-- The options that were given, by name, with their values. -/
abbrev Given := List (String × String)

/-- The options so far, and the option that is not complete yet. -/
structure Reading where
  /-- The complete options. -/
  given : Given := []
  /-- The option that waits for a value or for being checked. -/
  pending : Option (OptionSpec × Option String) := none

namespace Reading

/-- Completes an option with its value. -/
def complete (r : Reading) (o : OptionSpec) (value : String) : Except UsageError Reading :=
  if (r.given.lookup o.name).isSome then .error .repeated
  else
    match o.fault? value with
    | some e => .error e
    | none => .ok { r with given := r.given ++ [(o.name, value)] }

/-- Completes the option that is not complete yet. -/
def settle (r : Reading) : Except UsageError Reading :=
  match r.pending with
  | none => .ok r
  | some (_, none) => .error .missingValue
  | some (o, some value) => { r with pending := none }.complete o value

/-- Starts an option, with the value that is attached to it. -/
def start (r : Reading) (o : OptionSpec) (attached : Option String) :
    Except UsageError Reading :=
  match o.takesValue, attached with
  | true, none => do return { (← r.settle) with pending := some (o, none) }
  | true, some value => do (← r.settle).complete o value
  | false, none => do (← r.settle).complete o ""
  | false, some _ => .error .unneededValue

end Reading

/-- The name of the option that asks for help. -/
def helpName : String := "help"

/-- The letter of the option that asks for help. -/
def helpLetter : Char := 'h'

/-- A request for help: the option before it has to be complete. -/
def askHelp (r : Reading) (attached : Option String) : Except UsageError Reading :=
  match attached with
  | some _ => .error .unneededValue
  | none => do
    let _ ← r.settle
    .error .help

/-- Reads a long option, without its dashes. -/
def readLong (options : List OptionSpec) (r : Reading) (text : List Char) :
    Except UsageError Reading :=
  let (name, attached) :=
    match Text.splitOnce '=' text with
    | none => (String.ofList text, none)
    | some (name, value) => (String.ofList name, some (String.ofList value))
  if name = helpName then askHelp r attached
  else
    match options.find? (·.name == name) with
    | none => .error .unknownArgument
    | some o => r.start o attached

/-- Reads short options, without their dash. An option with a value takes the rest as its value, if
there is a rest; an equals sign in front of that does not belong to it. -/
def readShort (options : List OptionSpec) : Reading → List Char → Except UsageError Reading
  | r, [] => .ok r
  | r, letter :: rest =>
    if letter = helpLetter then askHelp r none
    else
      match options.find? (·.short == some letter) with
      | none => .error .unknownArgument
      | some o =>
        if o.takesValue then
          r.start o <|
            match rest with
            | [] => none
            | '=' :: value => some (String.ofList value)
            | value => some (String.ofList value)
        else do readShort options (← r.start o none) rest

/-- What the arguments give: options, and the arguments behind `--`. -/
structure Parsed where
  /-- The options. -/
  given : Given
  /-- The arguments behind `--`. -/
  rest : List String

/-- Reads arguments. Without `takesRest` there may be none behind `--`. -/
def readFrom (options : List OptionSpec) (takesRest : Bool) :
    Reading → List String → Except UsageError Parsed
  | r, [] => do return ⟨(← r.settle).given, []⟩
  | r, argument :: arguments =>
    match argument.toList with
    | ['-', '-'] =>
      if arguments.isEmpty then do return ⟨(← r.settle).given, []⟩
      else if takesRest then do return ⟨(← r.settle).given, arguments⟩
      else .error .unknownArgument
    | '-' :: '-' :: text => do readFrom options takesRest (← readLong options r text) arguments
    | '-' :: letter :: letters => do
      readFrom options takesRest (← readShort options r (letter :: letters)) arguments
    | _ =>
      match r.pending with
      | some (o, none) =>
        readFrom options takesRest { r with pending := some (o, some argument) } arguments
      | _ => .error .unknownArgument

/-- Reads the arguments of a program. -/
def read (options : List OptionSpec) (takesRest : Bool) (arguments : List String) :
    Except UsageError Parsed :=
  readFrom options takesRest {} arguments

/-- Values that are paths: any text but the empty one. -/
def checkPath (value : String) : Option UsageError :=
  if value.isEmpty then some .missingValue else none

/-- Values that a reader has to accept. -/
def checkWith {α : Type} (read : String → Option α) (value : String) : Option UsageError :=
  if (read value).isSome then none else some .malformedValue

/-- A number of 64 bits. -/
def word? (value : String) : Option Nat :=
  (Text.lax? value.toList).filter (· < UInt64.size)

/-- A port number; zero may have a minus sign. -/
def port? (value : String) : Option Nat :=
  match value.toList with
  | '-' :: zeros => if Text.isDigits zeros && Text.digitsValue zeros == 0 then some 0 else none
  | digits => (Text.lax? digits).filter (· < UInt16.size)

end CommandLine
end SourceFilter
