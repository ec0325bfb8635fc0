import ContractInterface.Log.Record
import ContractInterface.TopLevel
import ContractInterface.TypeSpec.Reader

/-! Struct definitions of typed data, `Mail(Person from,string contents)`, and texts that are
any number of them in a row. Reading such a text stops without complaint at the first place
where no definition stands. -/
namespace ContractInterface.TypedData

/-- A member as written: its type and its name, which need not be an identifier. -/
structure Member where
  ty : TypeSpec
  name : String

/-- A definition as written. The span is all of its text. -/
structure Definition where
  span : String
  name : String
  members : List Member

/-- Read a member. Its last blank U+0020 parts the type from the name. -/
def Member.parse (text : String) : Except Failure Member :=
  let reversed := text.toList.reverse
  match reversed.dropWhile (· ≠ ' ') with
  | [] => .error (.propertyShape text)
  | _ :: ty => do
    let t ← TypeSpec.parse (String.ofList (Text.trim ty.reverse))
    .ok ⟨t, String.ofList (Text.trim (reversed.takeWhile (· ≠ ' ')).reverse)⟩

namespace Definition

/-- Read the definition at the start of a text, and what follows its closing parenthesis. -/
def read (cs : List Char) : Except Failure (Definition × List Char) :=
  match cs.dropWhile (· ≠ '(') with
  | [] => .error (.typeText (String.ofList cs) .noList)
  | _ :: body => do
    let name ← checkIdentifier (String.ofList (cs.takeWhile (· ≠ '('))) (some "struct name") false
    match TopLevel.cut ',' 1 body with
    | .error fault => .error (.typeText (String.ofList cs) fault)
    | .ok (pieces, rest) =>
      let members ← pieces.mapM fun piece => Member.parse (String.ofList piece)
      .ok (⟨TypeSpec.consumed cs rest, name, members⟩, rest)

def parse (text : String) : Except Failure Definition := (read text.toList).map (·.1)

/-- A definition takes at least its opening parenthesis off the text. -/
theorem length_lt_of_read {cs rest : List Char} {d : Definition}
    (h : read cs = .ok (d, rest)) : rest.length < cs.length := by
  have hle := Text.length_dropWhile_le (· ≠ '(') cs
  unfold read at h
  split at h
  · cases h
  · next c body hb =>
    rw [hb] at hle
    simp only [bind, Except.bind] at h
    split at h
    · cases h
    · split at h
      · cases h
      · next ps rest' hc =>
        split at h
        · cases h
        · cases h
          have := TopLevel.length_cut_le hc
          simp only [List.length_cons] at hle
          omega

end Definition

/-- The definitions read off a text, the text where reading stopped, why it did, and what was
logged of it. A number of too many digits is no reason to stop; it is a failure of the whole
reading. -/
structure Reading where
  definitions : List Definition
  rest : String
  stop : Failure
  log : List Log.Record

namespace Reading

/-- What is logged where reading stops: a record if text is left over. -/
def leftOver (rest : String) (stop : Failure) : List Log.Record :=
  if rest.isEmpty then []
  else [⟨Log.debug, "parser", "parse",
    s!"Stopped parsing encodeType with {Text.quoted rest} left over: {stop.message}"⟩]

def read (cs : List Char) : Except Failure Reading :=
  match h : Definition.read cs with
  | .error failure =>
    if failure.isParse then
      .ok ⟨[], String.ofList cs, failure, leftOver (String.ofList cs) failure⟩
    else .error failure
  | .ok (d, rest) =>
    have := Definition.length_lt_of_read h
    (read rest).map fun r => { r with definitions := d :: r.definitions }
termination_by cs.length

def parse (text : String) : Except Failure Reading := read text.toList

/-- The first definition, which by convention is the one to be signed. -/
def primary? (r : Reading) : Option Definition := r.definitions.head?

end Reading

end ContractInterface.TypedData
