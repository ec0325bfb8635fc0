import ContractInterface.Proofs.Sequencing
import ContractInterface.Proofs.TypeSpec.Grammar
import ContractInterface.TopLevel

/-! Pieces that are joined by a delimiter are cut again where they were joined, if the parentheses
of each piece match and delimiters stand in it only inside of them. -/
namespace ContractInterface

namespace TopLevel
open Sequencing Text

/-- A text in which every parenthesis is matched. Delimiters may stand inside of parentheses, and
outside only if the text is itself taken for nested. -/
inductive Closed (d : Char) : Bool → List Char → Prop
  | nil {nested : Bool} : Closed d nested []
  | cons {nested : Bool} {c : Char} {cs : List Char} (not_open : c ≠ '(') (not_close : c ≠ ')')
      (not_cut : nested = true ∨ c ≠ d) (rest : Closed d nested cs) : Closed d nested (c :: cs)
  | parens {nested : Bool} {inner cs : List Char} (inside : Closed d true inner)
      (rest : Closed d nested cs) : Closed d nested ('(' :: inner ++ ')' :: cs)

theorem Closed.append {d : Char} {nested : Bool} {cs ds : List Char} (h : Closed d nested cs)
    (h' : Closed d nested ds) : Closed d nested (cs ++ ds) := by
  induction h with
  | nil => exact h'
  | cons not_open not_close not_cut _ ih => exact .cons not_open not_close not_cut (ih h')
  | @parens nested inner cs inside _ _ ih =>
    have := Closed.parens inside (ih h')
    simpa using this

theorem Closed.of_forall {d : Char} {nested : Bool} {cs : List Char}
    (h : ∀ c ∈ cs, c ≠ '(' ∧ c ≠ ')' ∧ (nested = true ∨ c ≠ d)) : Closed d nested cs := by
  induction cs with
  | nil => exact .nil
  | cons c cs ih =>
    obtain ⟨h1, h2, h3⟩ := h c (by simp)
    exact .cons h1 h2 h3 (ih fun e he => h e (by simp [he]))

/-- The scan passes over a closed text and leaves all of it in the piece that it is in. -/
theorem scan_append {d : Char} {nested : Bool} {cs : List Char} (h : Closed d nested cs)
    {depth level : Nat} (hle : depth ≤ level) (hlt : nested = true → depth < level)
    (rest : List Char) :
    scan d depth level (cs ++ rest) =
      (scan d depth level rest).map fun (ps, r) => (cs.foldr push ps, r) := by
  induction h generalizing level rest with
  | nil => cases h : scan d depth level rest <;> simp [h, Except.map]
  | @cons nested c cs not_open not_close not_cut _ ih =>
    have hcut : (decide (c = d) && decide (level = depth)) = false := by
      rw [Bool.and_eq_false_iff, decide_eq_false_iff_not, decide_eq_false_iff_not]
      rcases not_cut with hn | hc
      · have := hlt hn
        exact .inr (by omega)
      · exact .inl hc
    rw [List.cons_append, scan, if_neg not_open, if_neg not_close, if_neg (by simp [hcut]),
      ih hle hlt]
    cases scan d depth level rest <;> rfl
  | @parens nested inner cs _ _ ihin ih =>
    have hclose : scan d depth (level + 1) (')' :: (cs ++ rest)) =
        (scan d depth level (cs ++ rest)).map fun (ps, r) => (push ')' ps, r) := by
      have hend : ¬((decide (level + 1 = 1) && decide (0 < depth)) = true) := by
        rw [Bool.and_eq_true, decide_eq_true_eq, decide_eq_true_eq]
        omega
      rw [scan, if_neg (by decide), if_pos rfl, if_neg (by omega), if_neg hend]
      rfl
    have hassoc : '(' :: inner ++ ')' :: cs ++ rest = '(' :: (inner ++ ')' :: (cs ++ rest)) := by
      simp
    rw [hassoc, scan, if_pos rfl, ihin (by omega) (fun _ => by omega), hclose, ih hle hlt]
    cases scan d depth level rest <;> simp [Except.map]

theorem foldr_push (piece first : List Char) (others : List (List Char)) :
    piece.foldr push (first :: others) = (piece ++ first) :: others := by
  induction piece with
  | nil => rfl
  | cons c piece ih => rw [List.foldr_cons, ih]; rfl

/-- A list inside one parenthesis is cut at its delimiters and ends at the parenthesis. -/
theorem scan_intercalate {d : Char} (hopen : d ≠ '(') (hclose : d ≠ ')') (rest : List Char)
    {pieces : List (List Char)} (hne : pieces ≠ []) (h : ∀ p ∈ pieces, Closed d false p) :
    scan d 1 1 ([d].intercalate pieces ++ ')' :: rest) = .ok (pieces, rest) := by
  have hend : scan d 1 1 (')' :: rest) = .ok ([[]], rest) := rfl
  induction pieces with
  | nil => exact absurd rfl hne
  | cons p pieces ih =>
    have hp := h p (by simp)
    cases pieces with
    | nil =>
      rw [List.intercalate_singleton, scan_append hp (Nat.le_refl 1) (by simp), hend]
      simp [Except.map, foldr_push]
    | cons q pieces =>
      have hq := ih (by simp) fun r hr => h r (by simp [hr])
      rw [List.intercalate_cons_cons, List.append_assoc, List.append_assoc, List.singleton_append,
        scan_append hp (Nat.le_refl 1) (by simp), scan, if_neg hopen, if_neg hclose,
        if_pos (by simp), hq]
      simp [Except.map, foldr_push]

/-- An empty list has no pieces, and pieces that are not blank are got back as they were joined. -/
theorem cut_intercalate {d : Char} (hopen : d ≠ '(') (hclose : d ≠ ')') (rest : List Char)
    {pieces : List (List Char)} (h : ∀ p ∈ pieces, Closed d false p)
    (hb : ∀ p ∈ pieces, dropBlank p ≠ []) :
    cut d 1 ([d].intercalate pieces ++ ')' :: rest) = .ok (pieces, rest) := by
  cases pieces with
  | nil => rfl
  | cons p pieces =>
    rw [cut, scan_intercalate hopen hclose rest (by simp) h]
    cases pieces with
    | nil =>
      have hp := hb p (by simp)
      simp [Except.map, dropBlankBody, hp]
    | cons q pieces => rfl

/-- The character at the head decides the step, whatever follows it: it goes into the piece that it
is in, cuts, ends the list, or is refused. -/
theorem scan_cons_cases (d : Char) (depth level : Nat) (c : Char) :
    (∃ level', ∀ r, scan d depth level (c :: r) =
      (scan d depth level' r).map fun (ps, rest) => (push c ps, rest)) ∨
    (∀ r, scan d depth level (c :: r) =
      (scan d depth level r).map fun (ps, rest) => ([] :: ps, rest)) ∨
    (∀ r, scan d depth level (c :: r) = .ok ([[]], r)) ∨
    ∃ fault, ∀ r, scan d depth level (c :: r) = .error fault := by
  simp only [scan]
  split
  · exact .inl ⟨level + 1, fun _ => rfl⟩
  · split
    · split
      · exact .inr (.inr (.inr ⟨.unbalanced, fun _ => rfl⟩))
      · split
        · exact .inr (.inr (.inl fun _ => rfl))
        · exact .inl ⟨level - 1, fun _ => rfl⟩
    · split
      · exact .inr (.inl fun _ => rfl)
      · exact .inl ⟨level, fun _ => rfl⟩

/-- The pieces stand in the text one behind the other, and what follows the list is its end. -/
theorem infix_of_scan {d : Char} {depth level : Nat} {cs rest : List Char}
    {ps : List (List Char)} (h : scan d depth level cs = .ok (ps, rest)) :
    rest <:+ cs ∧
      ∃ first others, ps = first :: others ∧ first <+: cs ∧ ∀ p ∈ others, p <:+: cs := by
  induction cs generalizing level ps with
  | nil =>
    simp only [scan] at h
    split at h
    · cases h
    · split at h
      · cases h
      · cases h
        exact ⟨List.suffix_refl _, [], [], rfl, List.prefix_refl _, by simp⟩
  | cons c r ih =>
    rcases scan_cons_cases d depth level c with ⟨level', hstep⟩ | hstep | hstep | ⟨fault, hstep⟩
    · rw [hstep] at h
      obtain ⟨⟨qs, rest'⟩, hq, heq⟩ := map_eq_ok.mp h
      cases heq
      obtain ⟨hrest, first, others, rfl, hfirst, hothers⟩ := ih hq
      exact ⟨hrest.trans (List.suffix_cons c r), c :: first, others, rfl,
        List.cons_prefix_cons.mpr ⟨rfl, hfirst⟩, fun p hp => List.infix_cons (hothers p hp)⟩
    · -- Here a piece ends, and the one behind it is the first of those that follow.
      rw [hstep] at h
      obtain ⟨⟨qs, rest'⟩, hq, heq⟩ := map_eq_ok.mp h
      cases heq
      obtain ⟨hrest, first, others, rfl, hfirst, hothers⟩ := ih hq
      refine ⟨hrest.trans (List.suffix_cons c r), [], _, rfl, List.nil_prefix, ?_⟩
      intro p hp
      rcases List.mem_cons.mp hp with rfl | hp
      · exact List.infix_cons hfirst.isInfix
      · exact List.infix_cons (hothers p hp)
    · rw [hstep] at h
      cases h
      exact ⟨List.suffix_cons c _, [], [], rfl, List.nil_prefix, by simp⟩
    · rw [hstep] at h
      cases h

theorem infix_of_cut {d : Char} {depth : Nat} {cs rest : List Char} {ps : List (List Char)}
    (h : cut d depth cs = .ok (ps, rest)) : rest <:+ cs ∧ ∀ p ∈ ps, p <:+: cs := by
  obtain ⟨⟨qs, rest'⟩, hq, heq⟩ := map_eq_ok.mp h
  cases heq
  obtain ⟨hrest, first, others, rfl, hfirst, hothers⟩ := infix_of_scan hq
  refine ⟨hrest, fun p hp => ?_⟩
  have hmem : p ∈ first :: others := by
    cases others with
    | nil =>
      rw [dropBlankBody] at hp
      split at hp
      · cases hp
      · exact hp
    | cons q others => exact hp
  rcases List.mem_cons.mp hmem with rfl | hp
  · exact hfirst.isInfix
  · exact hothers p hp

/-- A list inside parentheses ends where they are closed, and what follows it plays no part. -/
theorem exists_append_of_scan {d : Char} {depth level : Nat} (hdepth : 0 < depth)
    {cs rest : List Char} {ps : List (List Char)} (h : scan d depth level cs = .ok (ps, rest)) :
    ∃ body, cs = body ++ rest ∧ ∀ tail, scan d depth level (body ++ tail) = .ok (ps, tail) := by
  induction cs generalizing level ps with
  | nil =>
    rw [scan, if_pos hdepth] at h
    cases h
  | cons c r ih =>
    rcases scan_cons_cases d depth level c with ⟨level', hstep⟩ | hstep | hstep | ⟨fault, hstep⟩
    · rw [hstep] at h
      obtain ⟨⟨qs, rest'⟩, hq, heq⟩ := map_eq_ok.mp h
      cases heq
      obtain ⟨body, rfl, hbody⟩ := ih hq
      exact ⟨c :: body, rfl, fun tail => by rw [List.cons_append, hstep, hbody]; rfl⟩
    · rw [hstep] at h
      obtain ⟨⟨qs, rest'⟩, hq, heq⟩ := map_eq_ok.mp h
      cases heq
      obtain ⟨body, rfl, hbody⟩ := ih hq
      exact ⟨c :: body, rfl, fun tail => by rw [List.cons_append, hstep, hbody]; rfl⟩
    · rw [hstep] at h
      cases h
      exact ⟨[c], rfl, hstep⟩
    · rw [hstep] at h
      cases h

theorem exists_append_of_cut {d : Char} {depth : Nat} (hdepth : 0 < depth) {cs rest : List Char}
    {ps : List (List Char)} (h : cut d depth cs = .ok (ps, rest)) :
    ∃ body, cs = body ++ rest ∧ ∀ tail, cut d depth (body ++ tail) = .ok (ps, tail) := by
  obtain ⟨⟨qs, rest'⟩, hq, heq⟩ := map_eq_ok.mp h
  cases heq
  obtain ⟨body, hcs, hbody⟩ := exists_append_of_scan hdepth hq
  exact ⟨body, hcs, fun tail => by rw [cut, hbody]; rfl⟩

end TopLevel

theorem Text.AllBlank.closed {blank : List Char} (h : AllBlank blank) {d : Char}
    (hd : isBlank d = false) {nested : Bool} : TopLevel.Closed d nested blank := by
  apply TopLevel.Closed.of_forall
  intro c hc
  have hblank := h c hc
  refine ⟨?_, ?_, .inr ?_⟩
  · rintro rfl
    cases hblank
  · rintro rfl
    cases hblank
  · rintro rfl
    rw [hd] at hblank
    cases hblank

namespace TypeSpec
open Text TopLevel

theorem isPart_closed {cs : List Char} (h : ∀ c ∈ cs, Identifier.isPart c = true) {nested : Bool} :
    Closed ',' nested cs := by
  apply Closed.of_forall
  intro c hc
  have hpart := h c hc
  refine ⟨?_, ?_, .inr ?_⟩ <;> rintro rfl <;> cases hpart

theorem Dimensions.closed {ds : List Char} {sizes : List (Option Nat)} (h : Dimensions ds sizes)
    {nested : Bool} : Closed ',' nested ds := by
  apply Closed.of_forall
  intro c hc
  rcases h.mem_cases c hc with rfl | rfl | hdigit
  · exact ⟨by decide, by decide, .inr (by decide)⟩
  · exact ⟨by decide, by decide, .inr (by decide)⟩
  · refine ⟨?_, ?_, .inr ?_⟩ <;> rintro rfl <;> cases hdigit

mutual

/-- The commas of a type stand inside its parentheses. -/
theorem Written.closed {n : Nat} {cs : List Char} {t : TypeSpec} (h : Written n cs t)
    {nested : Bool} : Closed ',' nested cs := by
  cases h with
  | named identifier dims =>
    exact (isPart_closed (Identifier.isPart_of_mem identifier)).append dims.closed
  | tuple keyword inside dims =>
    rw [List.append_assoc]
    refine Closed.append ?_ (.parens inside.closed dims.closed)
    cases keyword with
    | absent => exact .nil
    | present => exact isPart_closed (Identifier.isPart_of_mem (by decide))

theorem Body.closed {n : Nat} {body : List Char} {ts : List TypeSpec} (h : Body n body ts) :
    Closed ',' true body := by
  cases h with
  | empty blanks => exact blanks.closed (by decide)
  | last leading member trailing =>
    exact ((leading.closed (by decide)).append member.closed).append (trailing.closed (by decide))
  | @cons _ before cs after _ _ _ _ leading member trailing others =>
    have first : Closed ',' true (before ++ cs ++ after) :=
      ((leading.closed (by decide)).append member.closed).append (trailing.closed (by decide))
    exact first.append (.cons (by decide) (by decide) (.inl rfl) others.closed)

end

end TypeSpec

end ContractInterface
