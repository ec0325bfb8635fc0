import ContractInterface.Failure
import ContractInterface.Text.Blank

/-! Lists in text, cut at their outermost delimiters. Parentheses open and close levels, and a
delimiter cuts only at the level where the list began. A list that began inside parentheses
ends at the one that closes them. -/
namespace ContractInterface.TopLevel

/-- Put a character in front of the first piece. -/
def push (c : Char) : List (List Char) → List (List Char)
  | [] => [[c]]
  | piece :: pieces => (c :: piece) :: pieces

/-- The pieces of a list that began inside `depth` parentheses, from a place where `level` are
open, and what follows the list. -/
def scan (delimiter : Char) (depth : Nat) :
    Nat → List Char → Except TypeFault (List (List Char) × List Char)
  | level, [] =>
    if 0 < depth then .error .unclosedList
    else if level ≠ 0 then .error .unbalanced
    else .ok ([[]], [])
  | level, c :: r =>
    if c = '(' then (scan delimiter depth (level + 1) r).map fun (ps, rest) => (push c ps, rest)
    else if c = ')' then
      if level = 0 then .error .unbalanced
      else if level = 1 && 0 < depth then .ok ([[]], r)
      else (scan delimiter depth (level - 1) r).map fun (ps, rest) => (push c ps, rest)
    else if c = delimiter && level = depth then
      (scan delimiter depth level r).map fun (ps, rest) => ([] :: ps, rest)
    else (scan delimiter depth level r).map fun (ps, rest) => (push c ps, rest)

/-- A body of blanks alone has no pieces rather than one. -/
def dropBlankBody : List (List Char) → List (List Char)
  | [piece] => if (Text.dropBlank piece).isEmpty then [] else [piece]
  | pieces => pieces

/-- The pieces of a list that begins inside `depth` parentheses, and what follows it. -/
def cut (delimiter : Char) (depth : Nat) (cs : List Char) :
    Except TypeFault (List (List Char) × List Char) :=
  (scan delimiter depth depth cs).map fun (ps, rest) => (dropBlankBody ps, rest)

/-- Cut `text` from `start` on. The pieces keep the blanks around them; the number is the place
just behind the list. -/
def split (text delimiter : String) (depth : Int) (start : Nat) :
    Except Failure (List String × Nat) :=
  match delimiter.toList with
  | [d] =>
    if depth < 0 then .error .negativeDepth
    else
      match cut d depth.toNat (text.toList.drop start) with
      | .error fault => .error (.typeText text fault)
      | .ok (ps, rest) => .ok (ps.map String.ofList, text.length - rest.length)
  | _ => .error (.delimiter delimiter)

/-- What follows a list is no longer than the text it was cut from. -/
theorem length_scan_le {d : Char} {depth level : Nat} {cs rest : List Char}
    {ps : List (List Char)} (h : scan d depth level cs = .ok (ps, rest)) :
    rest.length ≤ cs.length := by
  induction cs generalizing level ps with
  | nil =>
    simp only [scan] at h
    split at h
    · cases h
    · split at h
      · cases h
      · cases h; simp
  | cons c r ih =>
    have step : ∀ {level' : Nat} {f : List (List Char) → List (List Char)},
        (scan d depth level' r).map (fun (ps, rest) => (f ps, rest)) = .ok (ps, rest) →
          rest.length ≤ (c :: r).length := by
      intro level' f hs
      cases hr : scan d depth level' r with
      | error e => rw [hr] at hs; cases hs
      | ok p =>
        rw [hr] at hs
        cases hs
        exact Nat.le_succ_of_le (ih hr)
    simp only [scan] at h
    split at h
    · exact step h
    · split at h
      · split at h
        · cases h
        · split at h
          · cases h; simp
          · exact step h
      · split at h <;> exact step h

theorem length_cut_le {d : Char} {depth : Nat} {cs rest : List Char} {ps : List (List Char)}
    (h : cut d depth cs = .ok (ps, rest)) : rest.length ≤ cs.length := by
  unfold cut at h
  cases hs : scan d depth depth cs with
  | error e => rw [hs] at h; cases h
  | ok p =>
    rw [hs] at h
    cases h
    exact length_scan_le hs

end ContractInterface.TopLevel
