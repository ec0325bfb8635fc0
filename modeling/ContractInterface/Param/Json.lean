import ContractInterface.Param.Basic

/-! Parameters in JSON: `name` and `type`, then `indexed` for the inputs of events, then
`components` unless there are none and `internalType` unless it is absent. -/
namespace ContractInterface.Param

mutual

def toJson : Param → Json
  | ⟨name, ty, components, internalType, indexed⟩ =>
    .object <|
      [Json.field "name" (.string name), Json.field "type" (.string ty)] ++
      (match indexed with
        | none => []
        | some x => [Json.field "indexed" (.bool x)]) ++
      (if components.isEmpty then []
        else [Json.field "components" (.array (toJsons components))]) ++
      (match internalType with
        | none => []
        | some t => [Json.field "internalType" (.string t.text)])

def toJsons : List Param → List Json
  | [] => []
  | p :: ps => toJson p :: toJsons ps

end

theorem toJsons_eq_map (ps : List Param) : toJsons ps = ps.map toJson := by
  induction ps with
  | nil => rfl
  | cons p ps ih => simp [toJsons, ih]

/-- The type of a parameter in JSON is spelled without blanks around it, and a tuple by the
word `tuple`; only a tuple has components. -/
def checkType (ty : String) (hasComponents : Bool) : Except Failure Unit :=
  match tupleSuffix? ty.toList with
  | some suffix => do
    let expected := "()" ++ String.ofList suffix
    let t ← TypeSpec.parse expected
    if t.span = expected then .ok () else .error (.decode (.blankAroundType ty))
  | none => do
    let t ← TypeSpec.parse ty
    if t.isTuple then .error (.decode (.spelledOutTuple ty))
    else if hasComponents then .error (.decode (.unexpectedComponents ty))
    else if t.span = ty then .ok ()
    else .error (.decode (.blankAroundType ty))

/-- What follows the word `tuple` at the start of a type, as it stands. -/
def behindTuple (ty : Utf16) : Utf16 := ⟨ty.units.drop tupleWord.length⟩

/-- The type in JSON, once it is known to be one. -/
def readType (ty : Utf16) (hasComponents : Bool) : Except Failure String :=
  match ty.toString? with
  | some s => (checkType s hasComponents).map fun _ => s
  | none =>
    .error (TypeSpec.refusal
      (if (tupleSuffix? ty.replaced.toList).isSome then Utf16.ofString "()" ++ behindTuple ty
        else ty))

/-- The type, a text. -/
def typeField (fields : List (Utf16 × Json)) : Except Failure Utf16 :=
  match Json.field? fields "type" with
  | some (.string ty) => .ok ty
  | _ => .error (.decode (.missingType (.object fields)))

/-- The name, empty where it is absent or null. -/
def nameField (fields : List (Utf16 × Json)) : Except Failure String :=
  match Json.field? fields "name" with
  | none | some .null => .ok ""
  | some (.string name) => checkName name "parameter name" true
  | some found => .error (.decode (.paramName found))

/-- The list of components. Every falsy value stands for an empty one. -/
def componentsField (fields : List (Utf16 × Json)) : Except Failure (List Json) :=
  match Json.field? fields "components" with
  | none => .ok []
  | some (.array items) => .ok items
  | some found => if found.isFalsy then .ok [] else .error (.decode (.componentsShape found))

def internalTypeField (fields : List (Utf16 × Json)) :
    Except Failure (Option InternalType) :=
  match Json.field? fields "internalType" with
  | none | some .null => .ok none
  | some (.string t) => .ok (some (InternalType.parse t))
  | some found => .error (.decode (.internalTypeShape found))

/-- A parameter with at most the given number of levels, its own included. Components are
never indexed, even inside an event. -/
def decode : Nat → Json → Except Failure Param
  | 0, _ => .error (.decode .paramDepth)
  | levels + 1, .object fields => do
    let ty ← typeField fields
    let name ← nameField fields
    let items ← componentsField fields
    let ty ← readType ty (!items.isEmpty)
    let internalType ← internalTypeField fields
    let components ← items.mapM (decode levels)
    .ok ⟨name, ty, components, internalType, none⟩
  | _ + 1, found => .error (.decode (.paramShape found))

/-- Decode a parameter. Components may lie as many levels down as tuples may be open. -/
def ofJson (x : Json) : Except Failure Param := decode (maxNesting + 1) x

/-- Whether an event input is a topic; not, where nothing is said. -/
def indexedField : Json → Except Failure Bool
  | .object fields =>
    match Json.field? fields "indexed" with
    | none => .ok false
    | some (.bool x) => .ok x
    | some found => .error (.decode (.indexedFlag found))
  | found => .error (.decode (.paramShape found))

/-- Decode an input of an event. -/
def eventInputOfJson (x : Json) : Except Failure Param := do
  let p ← ofJson x
  let indexed ← indexedField x
  .ok (p.asEventInput indexed)

end ContractInterface.Param
