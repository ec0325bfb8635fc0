/-! Blank characters and the trimming of text. Trimming takes blanks off both ends and
leaves those inside alone; it works on lists of characters, of which a text is one. -/
namespace ContractInterface.Text

/-- White space: the Unicode property together with the four separators U+001C to U+001F.
Zero-width characters and the byte order mark are not blank. -/
def isBlank (c : Char) : Bool :=
  let n := c.toNat
  (0x9 ≤ n && n ≤ 0xD) || (0x1C ≤ n && n ≤ 0x20) || n == 0x85 || n == 0xA0 || n == 0x1680 ||
    (0x2000 ≤ n && n ≤ 0x200A) || n == 0x2028 || n == 0x2029 || n == 0x202F || n == 0x205F ||
    n == 0x3000

/-- A text without its leading blanks. -/
def dropBlank (cs : List Char) : List Char := cs.dropWhile isBlank

/-- A text without its trailing blanks. -/
def dropBlankEnd (cs : List Char) : List Char := (cs.reverse.dropWhile isBlank).reverse

/-- A text without the blanks around it. -/
def trim (cs : List Char) : List Char := dropBlankEnd (dropBlank cs)

def trimmed (s : String) : String := String.ofList (trim s.toList)

/-- Dropping a run from the front never lengthens a list. -/
theorem length_dropWhile_le {α : Type} (p : α → Bool) (xs : List α) :
    (xs.dropWhile p).length ≤ xs.length := by
  induction xs with
  | nil => simp
  | cons x xs ih =>
    rw [List.dropWhile_cons]
    split
    · exact Nat.le_succ_of_le ih
    · exact Nat.le_refl _

@[simp] theorem dropBlank_nil : dropBlank [] = [] := rfl

end ContractInterface.Text
