import ContractInterface.Text.Utf16

/-! Log records and their levels. -/
namespace ContractInterface.Log

/-- Levels are integers. The named ones are landmarks among them. -/
abbrev Level := Int

def debug : Level := 10

def info : Level := 20

def warning : Level := 30

def error : Level := 40

def critical : Level := 50

/-- The name of a level, or its number where it has none. -/
def levelName (level : Level) : String :=
  if level = 0 then "NOTSET"
  else if level = debug then "DEBUG"
  else if level = info then "INFO"
  else if level = warning then "WARNING"
  else if level = error then "ERROR"
  else if level = critical then "CRITICAL"
  else s!"Level {level}"

/-- The level that a name in capitals stands for. -/
def levelOfName? : String → Option Level
  | "NOTSET" => some 0
  | "DEBUG" => some debug
  | "INFO" => some info
  | "WARNING" | "WARN" => some warning
  | "ERROR" => some error
  | "CRITICAL" | "FATAL" => some critical
  | _ => none

/-- A level as it may be asked for: by its number, or by its name in capitals. -/
inductive LevelChoice
  | number (level : Level)
  | name (name : String)
  deriving DecidableEq

/-- A message with its level and the part of the program and the operation it came from. -/
structure Record where
  level : Level
  part : String
  operation : String
  message : Utf16
  deriving DecidableEq

end ContractInterface.Log
