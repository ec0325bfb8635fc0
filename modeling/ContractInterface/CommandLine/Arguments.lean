import ContractInterface.Failure
import ContractInterface.Text.StandIn

/-! The arguments of the command line: options of the program, the name of a command, and the
options and the target of that command. Options may be shortened as long as they stay unique,
an option's value may follow an equals sign, and behind `--` nothing is an option. -/
namespace ContractInterface.CommandLine

inductive Command
  | abi
  | error
  | typedData
  deriving DecidableEq

def Command.name : Command → String
  | .abi => "abi"
  | .error => "error"
  | .typedData => "eip712"

def Command.ofName? (name : Utf16) : Option Command :=
  [abi, error, typedData].find? fun command => name = command.name

/-- The value of an option. One that is attached to its option and reads `--` is taken for the
end of options and dropped, which leaves no text. -/
inductive OptionValue
  | text (s : Utf16)
  | dropped
  deriving DecidableEq

namespace OptionValue

/-- The value that a text attached to an option stands for. -/
def ofAttached (s : Utf16) : OptionValue := if s = "--" then dropped else text s

/-- The text, or what is said where there has to be one. -/
def textOr (failure : Failure) : OptionValue → Except Failure Utf16
  | text s => .ok s
  | dropped => .error failure

end OptionValue

structure Arguments where
  command : Command
  target : Utf16
  primary : Option OptionValue
  dotenvFile : OptionValue

/-- Characters for the halves in the texts that a command reads. A path is not read. -/
def Arguments.standIns (a : Arguments) : StandIns :=
  match a.command, a.primary with
  | .abi, _ => []
  | _, some (.text name) => .ofText (a.target ++ "(" ++ name)
  | _, _ => .ofText a.target

/-- Why there is nothing to run: help was asked for, or the arguments make no sense. -/
inductive Usage
  | help
  | error
  deriving DecidableEq

def Usage.exitCode : Usage → Nat
  | help => 0
  | error => 2

/-- What an option does: ask for help, or set the one value of its parser. -/
inductive Effect
  | help
  | set
  deriving DecidableEq

/-- Options by their spellings. -/
abbrev OptionTable := List (Utf16 × Effect)

def helpOptions : OptionTable := [("-h", .help), ("--help", .help)]

/-- The options of a parser with a value of its own. -/
def optionsWith (spelling : Utf16) : OptionTable := helpOptions ++ [(spelling, .set)]

def programOptions : OptionTable := optionsWith "--dotenv-file"

def Command.options : Command → OptionTable
  | .typedData => optionsWith "--primary"
  | _ => helpOptions

/-- An argument: a word, the end of options, an option with the value that is attached to it,
or an option that is not known. An option is short if it is spelled with one dash. -/
inductive Token
  | word (text : Utf16)
  | endOfOptions
  | option (effect : Effect) (short : Bool) (attached : Option Utf16)
  | unknown

/-- The texts before and behind the first equals sign. -/
def splitEquals (xs : List CodePoint) : Option (List CodePoint × List CodePoint) :=
  match xs.dropWhile (· ≠ .char '=') with
  | _ :: r => some (xs.takeWhile (· ≠ .char '='), r)
  | [] => none

/-- A negative number, which is a word. Its digits may be of any script, and a line may end behind
it. -/
def isNegativeNumber (xs : List CodePoint) : Bool :=
  let isDecimal (x : CodePoint) : Bool := (x.char?.bind Text.digitValue?).isSome
  match if xs.getLast? = some (.char '\n') then xs.dropLast else xs with
  | .char '-' :: r =>
    let fraction := (r.dropWhile isDecimal).drop 1
    (!r.isEmpty && r.all isDecimal) ||
      ((r.dropWhile isDecimal).head? = some (.char '.') && !fraction.isEmpty &&
        fraction.all isDecimal)
  | _ => false

/-- Whether an option is spelled with one dash. -/
def isShort (spelling : List CodePoint) : Bool := spelling[1]? ≠ some (.char '-')

/-- The options that a text may stand for. With one dash, the second character is the name
and the others are its value. -/
def candidates (table : OptionTable) (xs : List CodePoint) :
    List (Effect × Bool × Option Utf16) :=
  match xs with
  | .char '-' :: .char '-' :: _ =>
    let (name, attached) := match splitEquals xs with
      | some (name, value) => (name, some (Utf16.ofPoints value))
      | none => (xs, none)
    table.filterMap fun (spelling, effect) =>
      if name.isPrefixOf spelling.points then some (effect, false, attached) else none
  | _ =>
    table.filterMap fun (spelling, effect) =>
      if spelling.points = xs.take 2 then some (effect, true, some (.ofPoints (xs.drop 2)))
      else if xs.isPrefixOf spelling.points then some (effect, true, none)
      else none

/-- What an argument is, if no `--` stands before it. -/
def token (table : OptionTable) (text : Utf16) : Except Usage Token :=
  let xs := text.points
  if text = "--" then .ok .endOfOptions
  else if xs.head? ≠ some (.char '-') then .ok (.word text)
  else if let some effect := table.lookup text then .ok (.option effect (isShort xs) none)
  else if xs.length = 1 then .ok (.word text)
  else
    let exact := (splitEquals xs).bind fun (name, value) =>
      (table.lookup (.ofPoints name)).map fun effect =>
        Token.option effect (isShort name) (some (.ofPoints value))
    match exact, candidates table xs with
    | some t, _ => .ok t
    | none, [(effect, short, attached)] => .ok (.option effect short attached)
    | none, _ :: _ :: _ => .error .error
    | none, [] =>
      if isNegativeNumber xs || xs.contains (.char ' ') then .ok (.word text) else .ok .unknown

/-- All arguments. Behind the first `--` all are words. -/
def tokens (table : OptionTable) : List Utf16 → Except Usage (List Token)
  | [] => .ok []
  | text :: rest => do
    match ← token table text with
    | .endOfOptions => .ok (.endOfOptions :: rest.map .word)
    | t => (tokens table rest).map (t :: ·)

/-- Help takes no value. What is attached to its letter, behind an equals sign or not, has to
repeat the letter. -/
def helpTakes (short : Bool) : Option Utf16 → Bool
  | none => true
  | some value => short && !value.isEmpty && value.points.all (· = .char 'h')

/-- The value of an option and the arguments behind it. -/
def optionValue (attached : Option Utf16) (rest : List Token) :
    Except Usage (OptionValue × List Token) :=
  match attached, rest with
  | some value, _ => .ok (.ofAttached value, rest)
  | none, .word value :: rest => .ok (.text value, rest)
  | none, _ => .error .error

/-- What the arguments of a command have set, and whether some of them made no sense. -/
structure Parsed where
  target : Option Utf16 := none
  primary : Option OptionValue := none
  extra : Bool := false

/-- What follows an end of options that stands first. -/
def behindEnd : List Token → List Token
  | .endOfOptions :: rest => rest
  | rest => rest

/-- Take the arguments of a command one by one. Help counts where it is met, and an argument
that makes no sense only at the end. The end of options goes with the target, before it or right
behind it. The number bounds the steps. -/
def commandArguments (p : Parsed) : Nat → List Token → Except Usage Parsed
  | _, [] => .ok p
  | 0, _ => .error .error
  | n + 1, t :: rest =>
    match t with
    | .word text =>
      if p.target.isNone then commandArguments { p with target := some text } n (behindEnd rest)
      else commandArguments { p with extra := true } n rest
    | .endOfOptions => commandArguments { p with extra := p.extra || p.target.isSome } n rest
    | .unknown => commandArguments { p with extra := true } n rest
    | .option .help short attached =>
      if helpTakes short attached then .error .help else .error .error
    | .option .set _ attached => do
      let (value, rest) ← optionValue attached rest
      commandArguments { p with primary := some value } n rest

/-- The target and the primary type among the arguments of a command. -/
def parseCommand (command : Command) (dotenvFile : OptionValue) (extra : Bool)
    (arguments : List Utf16) : Except Usage Arguments := do
  let ts ← tokens command.options arguments
  let p ← commandArguments {} ts.length ts
  match p.target, p.extra || extra with
  | some target, false => .ok ⟨command, target, p.primary, dotenvFile⟩
  | _, _ => .error .error

/-- Take the program's own arguments up to the name of a command. All behind it is left to the
command. The lists of tokens and of arguments run side by side. -/
def programArguments (dotenvFile : OptionValue) (extra : Bool) :
    Nat → List Token → List Utf16 → Except Usage Arguments
  | n + 1, t :: ts, _ :: arguments =>
    match t with
    | .word text =>
      match Command.ofName? text with
      | some command => parseCommand command dotenvFile extra arguments
      | none => .error .error
    | .endOfOptions => .error .error
    | .unknown => programArguments dotenvFile true n ts arguments
    | .option .help short attached =>
      if helpTakes short attached then .error .help else .error .error
    | .option .set _ attached => do
      let (value, rest) ← optionValue attached ts
      programArguments value extra n rest (arguments.drop (ts.length - rest.length))
  | _, _, _ => .error .error

def parse (arguments : List Utf16) : Except Usage Arguments := do
  let ts ← tokens programOptions arguments
  programArguments (.text "abikit.env") false ts.length ts arguments

end ContractInterface.CommandLine
