import ContractInterface.Document

/-! What the commands report about a declaration or a text of struct definitions. -/
namespace ContractInterface.CommandLine

open TypedData

/-- A definition by its name and its members, as they were written. -/
def describeDefinition (d : Definition) : Document :=
  .object [("name", .string d.name),
    ("properties", .list (d.members.map fun m =>
      .object [("type", .typeSpec m.ty), ("name", .string m.name)]))]

section

variable (elementary : String → Bool) (hash : String → List UInt8)

/-- An error by its declaration: the item, its signature and its selector. -/
def describeErrorBy (text : String) : Except Failure Document := do
  let e ← ErrorItem.parse text
  .ok (.object [("item", .item (.error e)), ("signature", .string e.signature),
    ("selector", .bytes (selectorBy hash e.signature))])

/-- The definitions of a text with the encoding of one of them: of the first one, if none is
asked for. -/
def describeReadingBy (text : String) (reading : Reading)
    (primary : Option (Except Failure String)) : Except Failure Document := do
  match reading.primary? with
  | none => .error (.noStruct text)
  | some first =>
    let resolver ← Resolver.ofDefinitions reading.definitions
    let name ← primary.getD (.ok first.name)
    let encoding ← resolver.encodeTypeBy elementary name
    let bytes ← resolver.typeHashBy elementary hash name
    .ok (.object [("types", .list (reading.definitions.map describeDefinition)),
      ("primaryType", .string name), ("encodeType", .string encoding),
      ("typeHash", .bytes bytes)])

/-- Read and describe a text of struct definitions. The records of the reading are there
even if the text says no encoding. -/
def describeEncodeTypeBy (text : String) (primary : Option (Except Failure String)) :
    Except Failure Document × List Log.Record :=
  match Reading.parse text with
  | .error failure => (.error failure, [])
  | .ok reading => (describeReadingBy elementary hash text reading primary, reading.log)

end

def describeError : String → Except Failure Document := describeErrorBy Keccak.hashText

def describeEncodeType : String → Option (Except Failure String) →
    Except Failure Document × List Log.Record :=
  describeEncodeTypeBy isElementary Keccak.hashText

end ContractInterface.CommandLine
