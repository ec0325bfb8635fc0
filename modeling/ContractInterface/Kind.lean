/-! The six kinds of interface item. -/
namespace ContractInterface

inductive Kind
  | constructor
  | fallback
  | receive
  | function
  | event
  | error
  deriving DecidableEq

namespace Kind

def all : List Kind := [constructor, fallback, receive, function, event, error]

/-- The tag of an item in JSON. -/
def tag : Kind → String
  | constructor => "constructor"
  | fallback => "fallback"
  | receive => "receive"
  | function => "function"
  | event => "event"
  | error => "error"

/-- The name of the kind in messages. -/
def title : Kind → String
  | constructor => "Constructor"
  | fallback => "Fallback"
  | receive => "Receive"
  | function => "Function"
  | event => "Event"
  | error => "Error"

def ofTag? (s : String) : Option Kind := all.find? (·.tag == s)

def ofTitle? (s : String) : Option Kind := all.find? (·.title == s)

@[simp] theorem ofTag?_tag (k : Kind) : ofTag? k.tag = some k := by cases k <;> decide

theorem tag_of_ofTag? {s : String} {k : Kind} (h : ofTag? s = some k) : k.tag = s := by
  simpa using List.find?_some h

end Kind

end ContractInterface
