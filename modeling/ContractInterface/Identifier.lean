/-! Identifiers: an ASCII letter or underscore, then ASCII letters, digits and underscores. -/
namespace ContractInterface.Identifier

def isStart (c : Char) : Bool := c.isAlpha || c = '_'

def isPart (c : Char) : Bool := c.isAlphanum || c = '_'

/-- A whole text that is one identifier. -/
def isValid : List Char → Bool
  | [] => false
  | c :: cs => isStart c && cs.all isPart

/-- The longest identifier at the start of a text and what follows it. -/
def split? : List Char → Option (List Char × List Char)
  | [] => none
  | c :: cs => if isStart c then some (c :: cs.takeWhile isPart, cs.dropWhile isPart) else none

theorem isPart_of_isStart {c : Char} (h : isStart c = true) : isPart c = true := by
  simp only [isStart, isPart, Char.isAlphanum, Bool.or_eq_true] at *
  exact h.imp Or.inl id

/-- Splitting loses nothing. -/
theorem split?_append {cs w r : List Char} (h : split? cs = some (w, r)) : w ++ r = cs := by
  cases cs with
  | nil => simp [split?] at h
  | cons c cs =>
    simp only [split?] at h
    split at h
    · cases h; simp
    · cases h

end ContractInterface.Identifier
