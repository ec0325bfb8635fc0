import ContractInterface.Proofs.TopLevel

/-! The lists that are cut. What is cut is a text whose parentheses match, with the parenthesis
behind it that closes the list, and the pieces are what stands between its outermost delimiters. -/
namespace ContractInterface.TopLevel
open Sequencing Text

/-- What stands between the outermost delimiters of a text. Blanks alone have no pieces. -/
inductive Pieces (d : Char) : List Char → List (List Char) → Prop
  | blank {body : List Char} (blanks : AllBlank body) : Pieces d body []
  | joined {pieces : List (List Char)} (nonempty : pieces ≠ [])
      (closed : ∀ p ∈ pieces, Closed d false p)
      (nonblank : ¬ AllBlank ([d].intercalate pieces)) : Pieces d ([d].intercalate pieces) pieces

/-- A text that closes so many parentheses more than it opens. -/
inductive Closes (d : Char) : Nat → List Char → Prop
  | closed {cs : List Char} (closed : Closed d false cs) : Closes d 0 cs
  | close {k : Nat} {inner cs : List Char} (inside : Closed d true inner) (rest : Closes d k cs) :
      Closes d (k + 1) (inner ++ ')' :: cs)

namespace Closes

variable {d : Char} {k : Nat} {cs : List Char}

theorem cons (h : Closes d k cs) {c : Char} (not_open : c ≠ '(') (not_close : c ≠ ')')
    (not_cut : k = 0 → c ≠ d) : Closes d k (c :: cs) := by
  cases h with
  | closed closed => exact .closed (.cons not_open not_close (.inr (not_cut rfl)) closed)
  | close inside rest => exact .close (.cons not_open not_close (.inl rfl) inside) rest

theorem parens (h : Closes d k cs) {inner : List Char} (inside : Closed d true inner) :
    Closes d k ('(' :: inner ++ ')' :: cs) := by
  cases h with
  | closed closed => exact .closed (.parens inside closed)
  | @close _ inner' cs inside' rest =>
    have h := Closes.close (Closed.parens inside inside') rest
    simpa using h

end Closes

/-- A character goes in front of the first piece. -/
theorem intercalate_push (sep : List Char) (c : Char) (first : List Char)
    (others : List (List Char)) :
    sep.intercalate ((c :: first) :: others) = c :: sep.intercalate (first :: others) := by
  cases others with
  | nil => rfl
  | cons q others => rw [List.intercalate_cons_cons, List.intercalate_cons_cons]; rfl

/-- From inside of further parentheses, the first piece closes them, and the pieces behind it
have parentheses that match. -/
theorem scan_sound {d : Char} {k : Nat} {cs rest : List Char} {ps : List (List Char)}
    (h : scan d 1 (k + 1) cs = .ok (ps, rest)) :
    ∃ first others, ps = first :: others ∧ Closes d k first ∧
      (∀ p ∈ others, Closed d false p) ∧ cs = [d].intercalate ps ++ ')' :: rest := by
  induction cs generalizing k ps with
  | nil => cases h
  | cons c r ih =>
    -- the pieces of the tail, with the character in front of the first of them
    have pushed {k' : Nat} (hk : (∀ {first}, Closes d k' first → Closes d k (c :: first)))
        (h : (scan d 1 (k' + 1) r).map (fun x => (push c x.1, x.2)) = .ok (ps, rest)) :
        ∃ first others, ps = first :: others ∧ Closes d k first ∧
          (∀ p ∈ others, Closed d false p) ∧ c :: r = [d].intercalate ps ++ ')' :: rest := by
      obtain ⟨⟨qs, rest'⟩, hq, heq⟩ := map_eq_ok.mp h
      cases heq
      obtain ⟨first, others, rfl, hfirst, hothers, rfl⟩ := ih hq
      exact ⟨c :: first, others, rfl, hk hfirst, hothers, by rw [push, intercalate_push]; rfl⟩
    rw [scan] at h
    split at h
    · next hopen =>
      subst hopen
      refine pushed (fun hfirst => ?_) h
      cases hfirst with
      | close inside rest => exact rest.parens inside
    · next hopen =>
      split at h
      · next hclose =>
        subst hclose
        rw [if_neg (Nat.succ_ne_zero k)] at h
        cases k with
        | zero =>
          cases h
          exact ⟨[], [], rfl, .closed .nil, by simp, rfl⟩
        | succ k =>
          rw [if_neg (by simp)] at h
          exact pushed (fun hfirst => .close .nil hfirst) h
      · next hclose =>
        split at h
        · next hcut =>
          simp only [Bool.and_eq_true, decide_eq_true_eq] at hcut
          obtain ⟨rfl, hk⟩ := hcut
          obtain rfl : k = 0 := by omega
          obtain ⟨⟨qs, rest'⟩, hq, heq⟩ := map_eq_ok.mp h
          cases heq
          obtain ⟨first, others, rfl, hfirst, hothers, rfl⟩ := ih hq
          cases hfirst with
          | closed hfirst =>
            refine ⟨[], first :: others, rfl, .closed .nil, ?_, rfl⟩
            exact List.forall_mem_cons.mpr ⟨hfirst, hothers⟩
        · next hcut =>
          refine pushed (fun hfirst => hfirst.cons hopen hclose ?_) h
          rintro rfl rfl
          simp at hcut

section

variable {d : Char}
theorem dropBlankBody_of_allBlank {piece : List Char} (h : AllBlank piece) :
    dropBlankBody [piece] = [] := by
  simp [dropBlankBody, dropBlank_eq_nil_iff.mpr h]

/-- Only a single piece can be left out. -/
theorem dropBlankBody_eq_self {pieces : List (List Char)}
    (h : ∀ p, pieces = [p] → ¬ AllBlank p) : dropBlankBody pieces = pieces := by
  match pieces with
  | [] | _ :: _ :: _ => rfl
  | [p] =>
    have hp : dropBlank p ≠ [] := mt dropBlank_eq_nil_iff.mp (h p rfl)
    simp [dropBlankBody, hp]

theorem dropBlankBody_of_not_allBlank {pieces : List (List Char)}
    (h : ¬ AllBlank ([d].intercalate pieces)) : dropBlankBody pieces = pieces :=
  dropBlankBody_eq_self fun p hp => by simpa [hp] using h

/-- A list inside parentheses ends where they are closed, and is cut into its pieces. -/
theorem cut_eq_ok (hopen : d ≠ '(') (hclose : d ≠ ')') (hd : isBlank d = false)
    {cs rest : List Char} {ps : List (List Char)} :
    cut d 1 cs = .ok (ps, rest) ↔ ∃ body, cs = body ++ ')' :: rest ∧ Pieces d body ps := by
  constructor
  · intro h
    obtain ⟨⟨qs, rest'⟩, hq, heq⟩ := map_eq_ok.mp h
    cases heq
    obtain ⟨first, others, rfl, hfirst, hothers, rfl⟩ := scan_sound hq
    refine ⟨_, rfl, ?_⟩
    cases hfirst with
    | closed hfirst =>
      by_cases hblank : AllBlank ([d].intercalate (first :: others))
      · cases others with
        | nil =>
          rw [dropBlankBody_of_allBlank (by simpa using hblank)]
          exact .blank hblank
        | cons q others =>
          -- two pieces have a delimiter between them
          have := hblank d (by simp [List.intercalate_cons_cons])
          rw [hd] at this
          cases this
      · rw [dropBlankBody_of_not_allBlank hblank]
        exact .joined (by simp) (List.forall_mem_cons.mpr ⟨hfirst, hothers⟩) hblank
  · rintro ⟨body, rfl, h⟩
    cases h with
    | blank blanks =>
      have hscan := scan_intercalate hopen hclose rest (List.cons_ne_nil body [])
        (by simpa using blanks.closed hd)
      rw [List.intercalate_singleton] at hscan
      exact map_eq_ok.mpr ⟨_, hscan, congrArg (·, rest) (dropBlankBody_of_allBlank blanks)⟩
    | joined nonempty closed nonblank =>
      have hscan := scan_intercalate hopen hclose rest nonempty closed
      have hbody := dropBlankBody_of_not_allBlank nonblank
      exact map_eq_ok.mpr ⟨_, hscan, congrArg (·, rest) hbody⟩

/-- A text with the parenthesis behind it is a list of which nothing is left over. -/
theorem cut_whole_eq_ok (hopen : d ≠ '(') (hclose : d ≠ ')') (hd : isBlank d = false)
    {body : List Char} {ps : List (List Char)} :
    cut d 1 (body ++ [')']) = .ok (ps, []) ↔ Pieces d body ps := by
  rw [cut_eq_ok hopen hclose hd]
  constructor
  · rintro ⟨body', heq, h⟩
    rwa [List.append_cancel_right heq]
  · intro h
    exact ⟨body, rfl, h⟩

theorem Closed.nested {nested : Bool} {cs : List Char} (h : Closed d nested cs) :
    Closed d true cs := by
  induction h with
  | nil => exact .nil
  | cons not_open not_close _ _ ih => exact .cons not_open not_close (.inl rfl) ih
  | parens inside _ _ ih => exact .parens inside ih

theorem closed_intercalate (hopen : d ≠ '(') (hclose : d ≠ ')') {pieces : List (List Char)}
    (h : ∀ p ∈ pieces, Closed d false p) : Closed d true ([d].intercalate pieces) := by
  induction pieces with
  | nil => exact .nil
  | cons p pieces ih =>
    obtain ⟨hp, hpieces⟩ := List.forall_mem_cons.mp h
    cases pieces with
    | nil => simpa using hp.nested
    | cons q pieces =>
      rw [List.intercalate_cons_cons, List.append_assoc]
      exact hp.nested.append (.cons hopen hclose (.inl rfl) (ih hpieces))

theorem Closed.exists_intercalate {nested : Bool} {cs : List Char} (h : Closed d nested cs) :
    ∃ first others, cs = [d].intercalate (first :: others) ∧
      ∀ p ∈ first :: others, Closed d false p := by
  induction h with
  | nil => exact ⟨[], [], rfl, by simpa using .nil⟩
  | @cons _ c cs not_open not_close _ _ ih =>
    obtain ⟨first, others, rfl, hclosed⟩ := ih
    by_cases hc : c = d
    · subst hc
      exact ⟨[], first :: others, rfl, List.forall_mem_cons.mpr ⟨.nil, hclosed⟩⟩
    · obtain ⟨hfirst, hothers⟩ := List.forall_mem_cons.mp hclosed
      refine ⟨c :: first, others, (intercalate_push ..).symm, ?_⟩
      exact List.forall_mem_cons.mpr ⟨.cons not_open not_close (.inr hc) hfirst, hothers⟩
  | @parens _ inner cs inside _ _ ih =>
    obtain ⟨first, others, rfl, hclosed⟩ := ih
    obtain ⟨hfirst, hothers⟩ := List.forall_mem_cons.mp hclosed
    refine ⟨'(' :: inner ++ ')' :: first, others, ?_,
      List.forall_mem_cons.mpr ⟨.parens inside hfirst, hothers⟩⟩
    cases others <;> simp [List.intercalate_cons_cons]

/-- A text has pieces exactly if its parentheses match. -/
theorem exists_pieces_iff (hopen : d ≠ '(') (hclose : d ≠ ')') (hd : isBlank d = false)
    {body : List Char} : (∃ ps, Pieces d body ps) ↔ Closed d true body := by
  constructor
  · rintro ⟨ps, h⟩
    cases h with
    | blank blanks => exact blanks.closed hd
    | joined _ closed _ => exact closed_intercalate hopen hclose closed
  · intro h
    by_cases hblank : AllBlank body
    · exact ⟨[], .blank hblank⟩
    · obtain ⟨first, others, rfl, hclosed⟩ := h.exists_intercalate
      exact ⟨_, .joined (List.cons_ne_nil _ _) hclosed hblank⟩

theorem Pieces.unique (hopen : d ≠ '(') (hclose : d ≠ ')') (hd : isBlank d = false)
    {body : List Char} {ps ps' : List (List Char)} (h : Pieces d body ps)
    (h' : Pieces d body ps') : ps = ps' := by
  have hcut := (cut_whole_eq_ok hopen hclose hd).mpr h
  rw [(cut_whole_eq_ok hopen hclose hd).mpr h'] at hcut
  cases hcut
  rfl

end

end ContractInterface.TopLevel
