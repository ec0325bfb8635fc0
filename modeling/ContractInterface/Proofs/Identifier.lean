import ContractInterface.Identifier
import ContractInterface.Text.Blank

/-! Identifiers at the start of a text. They have no blanks in them, and one is split off exactly
where nothing follows that could belong to it. -/
namespace ContractInterface.Identifier

theorem isBlank_of_isPart {c : Char} (h : isPart c = true) : Text.isBlank c = false := by
  change (((decide ('A'.val ≤ c.val ∧ c.val ≤ 'Z'.val) ||
    (decide ('a'.val ≤ c.val) && decide (c.val ≤ 'z'.val))) ||
    (decide ('0'.val ≤ c.val) && decide (c.val ≤ '9'.val))) || decide (c = '_')) = true at h
  simp only [Bool.or_eq_true, Bool.and_eq_true, decide_eq_true_eq, UInt32.le_iff_toNat_le] at h
  change (((65 ≤ c.toNat ∧ c.toNat ≤ 90) ∨ (97 ≤ c.toNat ∧ c.toNat ≤ 122)) ∨
    (48 ≤ c.toNat ∧ c.toNat ≤ 57)) ∨ c = '_' at h
  rcases h with h | rfl
  · simp only [Text.isBlank, Bool.or_eq_false_iff, Bool.and_eq_false_iff, beq_eq_false_iff_ne,
      decide_eq_false_iff_not]
    omega
  · decide

/-- Every character of an identifier is one that may stand in it. -/
theorem isPart_of_mem {name : List Char} (h : isValid name = true) :
    ∀ c ∈ name, isPart c = true := by
  cases name with
  | nil => simp
  | cons c cs =>
    simp only [isValid, Bool.and_eq_true, List.all_eq_true] at h
    intro d hd
    rcases List.mem_cons.mp hd with rfl | hd
    · exact isPart_of_isStart h.1
    · exact h.2 d hd

theorem exists_cons {name : List Char} (h : isValid name = true) :
    ∃ c cs, name = c :: cs ∧ isStart c = true := by
  cases name with
  | nil => cases h
  | cons c cs =>
    simp only [isValid, Bool.and_eq_true] at h
    exact ⟨c, cs, rfl, h.1⟩

/-- An identifier is split off where nothing follows that could stand in it. -/
theorem split?_of_isValid {name rest : List Char} (h : isValid name = true)
    (hr : ∀ c r, rest = c :: r → isPart c = false) :
    split? (name ++ rest) = some (name, rest) := by
  obtain ⟨c, cs, rfl, hc⟩ := exists_cons h
  have hall : ∀ d ∈ cs, isPart d = true := fun d hd => isPart_of_mem h d (by simp [hd])
  rw [List.cons_append, split?, if_pos hc, List.takeWhile_append_of_pos hall,
    List.dropWhile_append_of_pos hall]
  cases rest with
  | nil => simp
  | cons d r => simp [hr d r rfl]

/-- What is split off is an identifier, and nothing follows that could stand in it. -/
theorem isValid_of_split? {cs name rest : List Char} (h : split? cs = some (name, rest)) :
    isValid name = true ∧ ∀ c r, rest = c :: r → isPart c = false := by
  cases cs with
  | nil => cases h
  | cons c cs =>
    simp only [split?] at h
    split at h
    · next hc =>
      cases h
      constructor
      · simp only [isValid, hc, Bool.true_and]
        exact List.all_takeWhile
      · intro d r hd
        have := List.head?_dropWhile_not isPart cs
        simpa [hd] using this
    · cases h

/-- An identifier ends in front of the first parenthesis. -/
theorem span_parenthesis {name : List Char} (h : isValid name = true) (rest : List Char) :
    (name ++ '(' :: rest).takeWhile (· ≠ '(') = name ∧
      (name ++ '(' :: rest).dropWhile (· ≠ '(') = '(' :: rest := by
  have hne : ∀ c ∈ name, decide (c ≠ '(') = true := by
    intro c hc
    rw [decide_eq_true_eq]
    rintro rfl
    cases isPart_of_mem h _ hc
  rw [List.takeWhile_append_of_pos hne, List.dropWhile_append_of_pos hne]
  simp

/-- Identifiers in front of a parenthesis are told apart from what stands behind it. -/
theorem append_parenthesis_inj {name name' rest rest' : List Char} (h : isValid name = true)
    (h' : isValid name' = true) (heq : name ++ '(' :: rest = name' ++ '(' :: rest') :
    name = name' ∧ rest = rest' := by
  have hname := congrArg (List.takeWhile (· ≠ '(')) heq
  rw [(span_parenthesis h rest).1, (span_parenthesis h' rest').1] at hname
  rw [hname] at heq
  exact ⟨hname, (List.cons.inj (List.append_cancel_left heq)).2⟩

/-- A text is what stands in front of its first parenthesis, and what begins there. -/
theorem eq_append_parenthesis {cs body : List Char} {c : Char}
    (h : cs.dropWhile (· ≠ '(') = c :: body) :
    cs = cs.takeWhile (· ≠ '(') ++ '(' :: body := by
  have happ := List.takeWhile_append_dropWhile (p := (· ≠ '(')) (l := cs)
  have hc := List.head?_dropWhile_not (· ≠ '(') cs
  rw [h] at happ hc
  obtain rfl : c = '(' := by simpa using hc
  exact happ.symm

theorem suffix_parenthesis {cs body : List Char} {c : Char}
    (h : cs.dropWhile (· ≠ '(') = c :: body) : body <:+ cs :=
  (List.suffix_cons c body).trans (h ▸ List.dropWhile_suffix _)

end ContractInterface.Identifier
