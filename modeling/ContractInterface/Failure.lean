import ContractInterface.Files.Error
import ContractInterface.Identifier
import ContractInterface.Json.Reader
import ContractInterface.Json.Shown
import ContractInterface.Kind
import ContractInterface.TypeSpec.Fault

/-! Why something was refused. A failure holds its cause; the wording stands in `message`. -/
namespace ContractInterface

/-- What keeps a JSON value from being an item, a parameter or a whole interface. -/
inductive DecodeFlaw
  | itemShape (found : Json)
  | unknownTag (found : Json)
  | itemName (tag : String) (found : Json)
  | missingName (kind : Kind)
  | listExpected (key : String) (found : Json)
  | unknownMutability (found : Json)
  | anonymousFlag (found : Json)
  | indexedFlag (found : Json)
  | paramDepth
  | paramShape (found : Json)
  | missingType (found : Json)
  | paramName (found : Json)
  | componentsShape (found : Json)
  | internalTypeShape (found : Json)
  | spelledOutTuple (ty : String)
  | unexpectedComponents (ty : String)
  | blankAroundType (ty : String)
  | interfaceShape (found : Json)
  | repeated (kind : Kind)

namespace DecodeFlaw

def message : DecodeFlaw → String
  | itemShape found => s!"ABI item must be a JSON object, got {found.typeName}"
  | unknownTag found => s!"unknown ABI item type: {found.shown}"
  | itemName tag found => s!"{tag} name must be a string, got {found.shown}"
  | missingName kind => s!"{kind.tag} is missing its name"
  | listExpected key found => s!"`{key}` must be a list, got {found.shown}"
  | unknownMutability found => s!"unknown stateMutability: {found.shown}"
  | anonymousFlag found => s!"event `anonymous` must be a boolean, got {found.shown}"
  | indexedFlag found => s!"event parameter `indexed` must be a boolean, got {found.shown}"
  | paramDepth => s!"parameter components nested deeper than {maxNesting} levels"
  | paramShape found => s!"parameter must be a JSON object, got {found.typeName}"
  | missingType found => s!"parameter is missing its type: {found.shown}"
  | paramName found => s!"parameter name must be a string, got {found.shown}"
  | componentsShape found => s!"parameter components must be a list, got {found.shown}"
  | internalTypeShape found => s!"parameter internalType must be a string, got {found.shown}"
  | spelledOutTuple ty =>
    s!"tuple parameters must be typed `tuple` with components, got {Text.quoted ty}"
  | unexpectedComponents ty =>
    s!"only tuple parameters have components, got components for {Text.quoted ty}"
  | blankAroundType ty => s!"parameter type has surrounding whitespace: {Text.quoted ty}"
  | interfaceShape found => s!"ABI must be a list of items, got {found.typeName}"
  | repeated kind =>
    "ABI declares more than one " ++ kind.tag ++
      (if kind = .constructor then "" else " function")

end DecodeFlaw

/-- A refusal of any operation of the library. -/
inductive Failure
  | typeText (text : Utf16) (fault : TypeFault)
  | paramShape (text : String)
  | propertyShape (text : String)
  | identifier (name : Utf16) (context : Option String)
  | kindMismatch (expected found : Kind)
  | decode (flaw : DecodeFlaw)
  | missingStruct (name : String)
  | conflictingStructs (name : String)
  | noStruct (text : String)
  | digitLimit (digits : Nat)
  | delimiter (given : String)
  | negativeDepth
  | hexText (text : String)
  | logLevelName (text : Utf16)
  | logLevelDigits (text : Utf16)
  | unknownLevel (name : String)
  | logFormat (text : String)
  | variableName (name : String)
  | variableText (name : String)
  | notAnItem
  | outOfRange (place : Int)
  | outOfText
  | noFileName
  | noStructName
  | notEncodable (what : String)
  | missingField (typeName field : String)
  | unexpectedArgument (name : Utf16)
  | json (flaw : Json.Flaw) (line column position : Nat)
  | jsonDepth (bracket : Json.Bracket)
  | file (error : FileError)
  /-- The system refuses something that is no path's. -/
  | system (error : SystemError)

namespace Failure

def message : Failure → String
  | typeText text fault => s!"invalid type string: {text.quoted} ({fault.reason})"
  | paramShape text => s!"invalid parameter, expected `type name`: {Text.quoted text}"
  | propertyShape text =>
    s!"invalid property definition, expected `type name`: {Text.quoted text}"
  | identifier name none => s!"invalid identifier: {name.quoted}"
  | identifier name (some context) => s!"{context}: invalid identifier: {name.quoted}"
  | kindMismatch expected found => s!"expected a JSON ABI {expected.title}, found {found.title}"
  | decode flaw => flaw.message
  | missingStruct name => s!"missing type definition for {Text.quoted name}"
  | conflictingStructs name => s!"conflicting definitions for struct {Text.quoted name}"
  | noStruct text => s!"no struct definition found in {Text.quoted text}"
  | digitLimit digits =>
    s!"Exceeds the limit ({Text.digitLimit} digits) for integer string conversion: value has " ++
      s!"{digits} digits; use sys.set_int_max_str_digits() to increase the limit"
  | delimiter given => s!"delimiter must be a single character, got {Text.quoted given}"
  | negativeDepth => "depth must be non-negative."
  | hexText text => s!"invalid hexadecimal text: {Text.quoted text}"
  | logLevelName text => s!"Unknown log level: {text.quoted}"
  | logLevelDigits text => "invalid literal for int() with base 10: " ++
    String.ofList (text.quoted.toList.take 200)
  | unknownLevel name => s!"Unknown level: {Text.quoted name}"
  | logFormat text => s!"Invalid format '{text}' for '%' style"
  | variableName _ => "illegal environment variable name"
  | variableText _ => "embedded null byte"
  | notAnItem => "expected an ABI item, got Param"
  | outOfRange _ => "list index out of range"
  | outOfText => "string index out of range"
  | noFileName => "stat: path should be string, bytes, os.PathLike or integer, not list"
  | noStructName => "unhashable type: 'list'"
  | notEncodable what => s!"Object of type {what} is not JSON serializable"
  | missingField typeName field => s!"'{typeName}' object has no attribute '{field}'"
  | unexpectedArgument name =>
    s!"AbikitConfig.__init__() got an unexpected keyword argument '{name.replaced}'"
  | json flaw line column position =>
    s!"{flaw.message}: line {line} column {column} (char {position})"
  | jsonDepth bracket => s!"maximum recursion depth exceeded while decoding a JSON " ++
    s!"{bracket.name} from a unicode string"
  | file error => error.message
  | system error => error.message

/-- The failure that a fault of a JSON text is. -/
def ofFault : Json.Fault → Failure
  | .flaw flaw line column position => json flaw line column position
  | .digitLimit digits => digitLimit digits
  | .tooDeep bracket => jsonDepth bracket

/-- The failures of text or JSON that says no interface. The other ones are about arguments,
numbers that are too long, JSON that is none, or files. -/
def isParse : Failure → Bool
  | typeText .. | paramShape _ | propertyShape _ | identifier .. | kindMismatch .. | decode _
  | missingStruct _ | conflictingStructs _ | noStruct _ => true
  | _ => false

/-- The failures that the system reports. -/
def isSystem : Failure → Bool
  | file error => error.fault.report?.isSome
  | system _ => true
  | _ => false

/-- The failures of a text or a value that is not of the form asked for, which text and JSON that
say no interface are too. The other ones are those that the system reports, JSON that lies too deep,
things of a type that nothing can be done with, and places where nothing is. -/
def isValue : Failure → Bool
  | digitLimit _ | delimiter _ | negativeDepth | hexText _ | logLevelName _ | logLevelDigits _
  | unknownLevel _ | logFormat _ | variableName _ | variableText _ | json .. => true
  | file error => error.fault.report?.isNone
  | failure => failure.isParse

/-- The failures that a run reports as those of its target. -/
def isReported : Failure → Bool
  | json .. => true
  | failure => failure.isParse || failure.isSystem

end Failure

/-- An operation on a state. It keeps what it had changed before it failed. -/
abbrev Operation (σ : Type) := ExceptT Failure (StateM σ)

namespace Operation

variable {σ α : Type}

/-- What an operation gives, or why it failed. -/
def result (x : Operation σ α) (s : σ) : Except Failure α := (x.run.run s).1

/-- The state that an operation leaves, be it that it fails. -/
def after (x : Operation σ α) (s : σ) : σ := (x.run.run s).2

end Operation

/-- Accept a name that is an identifier, or an empty one where that is allowed. -/
def checkIdentifier (name : String) (context : Option String) (allowEmpty : Bool) :
    Except Failure String :=
  if (allowEmpty && name.isEmpty) || Identifier.isValid name.toList then .ok name
  else .error (.identifier name context)

/-- Accept a name in JSON. Half of a surrogate pair stands in no identifier. -/
def checkName (name : Utf16) (context : String) (allowEmpty : Bool) : Except Failure String :=
  match name.toString? with
  | some s => checkIdentifier s (some context) allowEmpty
  | none => .error (.identifier name (some context))

end ContractInterface
