import ContractInterface.Files.Tree
import ContractInterface.Settings.Loader
import ContractInterface.Text.Blank
import ContractInterface.Text.Lines

/-! Files of environment variables: lines `KEY=value`, possibly behind `export`, with comments
behind `#`. Values in quotes may hold line breaks and escapes; bare ones end at a comment that
follows a blank. In every value `${NAME}` and `${NAME:-default}` stand for other variables.
A line that cannot be read is passed over. -/
namespace ContractInterface

namespace Dotenv

/-- A variable that a line names. It has no value if no equals sign follows. -/
structure Binding where
  key : String
  value : Option String

def isNewline (c : Char) : Bool := c = '\n' || c = '\r'

/-- Blanks that do not break lines. -/
def isSpace (c : Char) : Bool := Text.isBlank c && !isNewline c

def skipSpace (cs : List Char) : List Char := cs.dropWhile isSpace

/-- The text behind the rest of a line. -/
def skipLine (cs : List Char) : List Char := (cs.dropWhile (!isNewline ·)).drop 1

/-- The text behind the word `export` and its blanks, if it stands there. -/
def skipExport (cs : List Char) : List Char :=
  let word := "export".toList
  if word.isPrefixOf cs then
    match cs.drop word.length with
    | c :: r => if isSpace c then skipSpace r else cs
    | [] => cs
  else cs

/-- The text up to the closing quote and the text behind it. A character behind a backslash does
not close. -/
def splitQuoted? (quote : Char) : List Char → Option (List Char × List Char)
  | [] => none
  | '\\' :: c :: r => (splitQuoted? quote r).map fun (s, rest) => ('\\' :: c :: s, rest)
  | c :: r =>
    if c = quote then some ([], r) else (splitQuoted? quote r).map fun (s, rest) => (c :: s, rest)

/-- The characters that escapes stand for, by the letters behind their backslash. -/
def unescape (escapes : List (Char × Char)) : List Char → List Char
  | '\\' :: c :: r =>
    match escapes.lookup c with
    | some d => d :: unescape escapes r
    | none => '\\' :: unescape escapes (c :: r)
  | c :: r => c :: unescape escapes r
  | [] => []

def singleEscapes : List (Char × Char) := [('\\', '\\'), ('\'', '\'')]

def doubleEscapes : List (Char × Char) :=
  [('\\', '\\'), ('\'', '\''), ('"', '"'), ('a', '\x07'), ('b', '\x08'), ('f', '\x0c'),
    ('n', '\n'), ('r', '\r'), ('t', '\t'), ('v', '\x0b')]

/-- A bare value up to a blank that is followed, perhaps after further blanks, by `#`. -/
def cutComment : List Char → List Char
  | [] => []
  | c :: r =>
    if Text.isBlank c && (Text.dropBlank r).head? = some '#' then [] else c :: cutComment r

/-- The key at the start of a line, none in front of a comment. Where reading fails, here and
below, the error is the text from there on. -/
def key (cs : List Char) : Except (List Char) (Option String × List Char) :=
  match cs with
  | '#' :: _ => .ok (none, cs)
  | '\'' :: r =>
    match r.takeWhile (· ≠ '\''), r.dropWhile (· ≠ '\'') with
    | c :: name, _ :: rest => .ok (some (String.ofList (c :: name)), rest)
    | _, _ => .error cs
  | _ =>
    let isKey (c : Char) : Bool := c ≠ '=' && c ≠ '#' && !Text.isBlank c
    if (cs.takeWhile isKey).isEmpty then .error cs
    else .ok (some (String.ofList (cs.takeWhile isKey)), cs.dropWhile isKey)

/-- The value behind an opening quote. -/
def quotedValue (quote : Char) (escapes : List (Char × Char)) (cs : List Char) :
    Except (List Char) (String × List Char) :=
  match splitQuoted? quote cs with
  | none => .error cs
  | some (s, rest) => .ok (String.ofList (unescape escapes s), rest)

/-- The value behind an equals sign. The blanks in front of a bare value may begin a comment. -/
def value (cs : List Char) : Except (List Char) (String × List Char) :=
  match skipSpace cs with
  | '\'' :: r => quotedValue '\'' singleEscapes r
  | '"' :: r => quotedValue '"' doubleEscapes r
  | _ =>
    let line := cs.takeWhile (!isNewline ·)
    .ok (String.ofList (Text.trim (cutComment line)), cs.dropWhile (!isNewline ·))

/-- The text behind a comment, if there is one, and the end of the line. -/
def lineEnd (cs : List Char) : Except (List Char) (List Char) :=
  let rest := match skipSpace cs with
    | '#' :: r => r.dropWhile (!isNewline ·)
    | _ => cs
  match skipSpace rest with
  | [] => .ok []
  | c :: r => if isNewline c then .ok r else .error rest

/-- The binding on the line at the start of a text, which is not blank. -/
def line (cs : List Char) : Except (List Char) (Option Binding × List Char) := do
  let (name, rest) ← key (skipExport cs)
  match skipSpace rest with
  | '=' :: r =>
    let (v, rest) ← value r
    let rest ← lineEnd rest
    .ok (name.map (⟨·, some v⟩), rest)
  | r =>
    let rest ← lineEnd r
    .ok (name.map (⟨·, none⟩), rest)

/-- All bindings in order. The number bounds the lines; the length of the text is enough. -/
def lines : Nat → List Char → List Binding
  | 0, _ => []
  | n + 1, cs =>
    match Text.dropBlank cs with
    | [] => []
    | cs =>
      match line cs with
      | .ok (b, rest) => b.toList ++ lines n rest
      | .error rest => lines n (skipLine rest)

/-- The bindings of a file. A byte order mark at its start does not belong to the text. -/
def parse (text : String) : List Binding :=
  let cs := match Text.unifyLines text.toList with
    | '\ufeff' :: cs => cs
    | cs => cs
  lines (cs.length + 1) cs

/-- A reference to a variable behind its dollar sign: its name, its default, what follows. -/
def reference? : List Char → Option (String × Option String × List Char)
  | '\x7b' :: r =>
    let isName (c : Char) : Bool := c ≠ '\x7d' && c ≠ ':'
    let name := String.ofList (r.takeWhile isName)
    match r.dropWhile isName with
    | '\x7d' :: rest => some (name, none, rest)
    | ':' :: '-' :: r =>
      match r.dropWhile (· ≠ '\x7d') with
      | _ :: rest => some (name, some (String.ofList (r.takeWhile (· ≠ '\x7d'))), rest)
      | [] => none
    | _ => none
  | _ => none

/-- A value with its references replaced. The number bounds the steps. -/
def expand (lookup : String → Option (Option Utf16)) : Nat → List Char → Utf16
  | 0, cs => String.ofList cs
  | _, [] => ""
  | n + 1, c :: cs =>
    match if c = '$' then reference? cs else none with
    | some (name, default, rest) =>
      let found := match lookup name with
        | some found => found.getD ""
        | none => default.getD ""
      found ++ expand lookup n rest
    | none => c.toString ++ expand lookup n cs

/-- The names of the references in a value. -/
def references : List Char → List String
  | [] => []
  | c :: cs =>
    match if c = '$' then reference? cs else none with
    | some (name, _, _) => name :: references cs
    | none => references cs

/-- The names of the variables that a text sets or refers to. -/
def names (text : String) : List String :=
  (parse text).flatMap fun b => b.key :: references (b.value.getD "").toList

/-- Set a key: the last value counts, at the place of the first. -/
def setLast {α : Type} (known : List (String × α)) (key : String) (x : α) : List (String × α) :=
  if known.any (·.1 == key) then known.map fun b => if b.1 == key then (key, x) else b
  else known ++ [(key, x)]

/-- The variables of a file. References look to the environment first and then to the
variables above. -/
def resolve (environment : Environment) (bindings : List Binding) :
    List (String × Option Utf16) :=
  bindings.foldl
    (fun known b =>
      let lookup (name : String) : Option (Option Utf16) :=
        match environment.lookup name with
        | some s => some (some s)
        | none => known.lookup name
      setLast known b.key (b.value.map fun s => expand lookup (s.length + 1) s.toList))
    []

/-- The variable that keeps files from being read. -/
def disablingVariable : String := "PYTHON_DOTENV_DISABLED"

/-- Whether the environment keeps files from being read. The words for yes may be in either case,
and a long s is an s. -/
def isDisabled (environment : Environment) : Bool :=
  let fold (c : Char) : Char := if c = 'ſ' then 's' else c.toLower
  (environment.lookup disablingVariable).any fun s =>
    ["1", "true", "t", "yes", "y"].contains (String.ofList (s.replaced.toList.map fold))

/-- The environment with the variables of a file. Those that it has already stay as they
are. -/
def extend (environment : Environment) (text : String) : Except Failure Environment :=
  (resolve environment (parse text)).foldlM
    (fun env (name, value) =>
      match env.lookup name, value with
      | none, some s =>
        if name.toList.contains '\x00' || s.points.contains (.char '\x00') then
          .error (.variableText name)
        else if name.toList.contains '=' then .error (.variableName name)
        else .ok (env ++ [(name, s)])
      | _, _ => .ok env)
    environment

/-- Load the variables of a file, unless the environment keeps it from being read. What is no file
has none. -/
def load : Settings.Loader := fun environment files path => do
  if isDisabled environment || !files.isFile path then return environment
  extend environment (← (files.read path).mapError Failure.file)

end Dotenv

end ContractInterface
