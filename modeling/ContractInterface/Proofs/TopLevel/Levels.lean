import ContractInterface.Proofs.TopLevel.Pieces
import Mathlib.Data.Nat.Find

/-! The levels of a list. How many parentheses are open at a place is what were open where the list
began, and those that opened since, without those that closed. The levels say where a list ends and
where it is cut. -/
namespace ContractInterface.TopLevel
open Sequencing Text

/-- How many parentheses are open behind the first `i` characters of a text, if `opened` are in
front of it. -/
def levelAt (opened : Int) (cs : List Char) (i : Nat) : Int :=
  opened + (cs.take i).count '(' - (cs.take i).count ')'

/-- At this place a parenthesis closes the last that is open. -/
def ClosesAt (opened : Int) (cs : List Char) (i : Nat) : Prop :=
  cs[i]? = some ')' ∧ levelAt opened cs (i + 1) = 0

/-- The text closes what was opened in front of it and in it, and nothing else. -/
def Balances (opened : Int) (cs : List Char) : Prop :=
  (∀ i ≤ cs.length, 0 ≤ levelAt opened cs i) ∧ levelAt opened cs cs.length = 0

/-- The list ends where the parentheses that it began in are closed, or with the text if it began in
none. -/
inductive EndsAt (depth : Nat) (opened : Int) (cs : List Char) : Nat → Prop
  | closed {i : Nat} (inside : 0 < depth) (closes : ClosesAt opened cs i)
      (first : ∀ j < i, ¬ ClosesAt opened cs j) : EndsAt depth opened cs i
  | whole (outside : depth = 0) (balances : Balances opened cs) : EndsAt depth opened cs cs.length

/-- The places of the delimiters between pieces that are joined. -/
def joints : List (List Char) → List Nat
  | piece :: next :: pieces =>
    piece.length :: (joints (next :: pieces)).map (piece.length + 1 + ·)
  | _ => []

/-- The pieces of a body, which is cut at its delimiters of the given depth. -/
structure CutInto (d : Char) (depth : Nat) (opened : Int) (body : List Char)
    (pieces : List (List Char)) : Prop where
  nonempty : pieces ≠ []
  joined : [d].intercalate pieces = body
  cuts : ∀ i, i ∈ joints pieces ↔ body[i]? = some d ∧ levelAt opened body i = depth

/-- What a character does to the level. -/
def weight (c : Char) : Int := if c = '(' then 1 else if c = ')' then -1 else 0

@[simp] theorem weight_open : weight '(' = 1 := rfl

@[simp] theorem weight_close : weight ')' = -1 := rfl

theorem weight_of_ne {c : Char} (hopen : c ≠ '(') (hclose : c ≠ ')') : weight c = 0 := by
  rw [weight, if_neg hopen, if_neg hclose]

section
variable {d c : Char} {depth e i : Nat} {opened : Int} {cs body : List Char}
  {pieces : List (List Char)}

@[simp] theorem levelAt_zero : levelAt opened cs 0 = opened := by simp [levelAt]

@[simp] theorem levelAt_cons :
    levelAt opened (c :: cs) (i + 1) = levelAt (opened + weight c) cs i := by
  rw [levelAt, levelAt, List.take_succ_cons]
  by_cases hopen : c = '('
  · subst hopen
    rw [List.count_cons_self, List.count_cons_of_ne (by decide), weight_open]
    omega
  by_cases hclose : c = ')'
  · subst hclose
    rw [List.count_cons_self, List.count_cons_of_ne (by decide), weight_close]
    omega
  · rw [List.count_cons_of_ne hopen, List.count_cons_of_ne hclose, weight_of_ne hopen hclose,
      Int.add_zero]

theorem closesAt_zero : ClosesAt opened (c :: cs) 0 ↔ c = ')' ∧ opened + weight c = 0 := by
  simp [ClosesAt]

@[simp] theorem closesAt_cons :
    ClosesAt opened (c :: cs) (i + 1) ↔ ClosesAt (opened + weight c) cs i := by
  simp [ClosesAt]

theorem balances_cons :
    Balances opened (c :: cs) ↔ 0 ≤ opened ∧ Balances (opened + weight c) cs := by
  unfold Balances
  rw [List.length_cons, levelAt_cons, ← and_assoc]
  refine and_congr_left fun _ => ⟨fun h => ⟨?_, fun i hi => ?_⟩, ?_⟩
  · simpa using h 0 (Nat.zero_le _)
  · simpa using h (i + 1) (by omega)
  · rintro ⟨hopened, h⟩ i hi
    cases i with
    | zero => simpa using hopened
    | succ i => simpa using h i (by omega)

theorem endsAt_nil : EndsAt depth opened [] i ↔ depth = 0 ∧ opened = 0 ∧ i = 0 := by
  constructor
  · rintro (⟨-, ⟨hclose, -⟩, -⟩ | ⟨outside, -, hzero⟩)
    · cases hclose
    · exact ⟨outside, by simpa using hzero, rfl⟩
  · rintro ⟨outside, rfl, rfl⟩
    exact .whole outside ⟨by simp, by simp⟩

theorem endsAt_zero :
    EndsAt depth opened (c :: cs) 0 ↔ 0 < depth ∧ ClosesAt opened (c :: cs) 0 := by
  constructor
  · intro h
    cases h with
    | closed inside closes _ => exact ⟨inside, closes⟩
  · rintro ⟨inside, closes⟩
    exact .closed inside closes (by simp)

theorem endsAt_cons (hopened : 0 ≤ opened) (hgo : 0 < depth → ¬ ClosesAt opened (c :: cs) 0) :
    EndsAt depth opened (c :: cs) (i + 1) ↔ EndsAt depth (opened + weight c) cs i := by
  constructor
  · intro h
    cases h with
    | closed inside closes first =>
      refine .closed inside (closesAt_cons.mp closes) fun j hj hcloses => ?_
      exact first (j + 1) (by omega) (closesAt_cons.mpr hcloses)
    | whole outside balances => exact .whole outside (balances_cons.mp balances).2
  · intro h
    cases h with
    | closed inside closes first =>
      refine .closed inside (closesAt_cons.mpr closes) fun j hj hcloses => ?_
      cases j with
      | zero => exact hgo inside hcloses
      | succ j => exact first j (by omega) (closesAt_cons.mp hcloses)
    | whole outside balances => exact .whole outside (balances_cons.mpr ⟨hopened, balances⟩)

theorem exists_endsAt_iff (inside : 0 < depth) :
    (∃ e, EndsAt depth opened cs e) ↔ ∃ i, ClosesAt opened cs i := by
  classical
  constructor
  · rintro ⟨e, h⟩
    cases h with
    | closed _ closes _ => exact ⟨e, closes⟩
    | whole outside _ => omega
  · intro h
    exact ⟨Nat.find h, .closed inside (Nat.find_spec h) fun j hj => Nat.find_min h hj⟩

theorem exists_endsAt_zero_iff : (∃ e, EndsAt 0 opened cs e) ↔ Balances opened cs := by
  constructor
  · rintro ⟨e, h⟩
    cases h with
    | closed inside _ _ => exact absurd inside (Nat.lt_irrefl 0)
    | whole _ balances => exact balances
  · exact fun h => ⟨cs.length, .whole rfl h⟩

theorem joints_push (hne : pieces ≠ []) : joints (push c pieces) = (joints pieces).map (· + 1) := by
  obtain ⟨piece, pieces, rfl⟩ := List.exists_cons_of_ne_nil hne
  cases pieces with
  | nil => rfl
  | cons next pieces =>
    simp only [push, joints, List.map_cons, List.map_map, List.length_cons, List.cons.injEq,
      true_and]
    refine List.map_congr_left fun i _ => ?_
    simp only [Function.comp_apply]
    omega

theorem joints_nil_cons (hne : pieces ≠ []) :
    joints ([] :: pieces) = 0 :: (joints pieces).map (· + 1) := by
  obtain ⟨piece, pieces, rfl⟩ := List.exists_cons_of_ne_nil hne
  simp [joints, Nat.add_comm]

namespace CutInto

theorem nil : CutInto d depth opened [] [[]] := ⟨by simp, rfl, by simp [joints]⟩

theorem push (h : CutInto d depth (opened + weight c) body pieces)
    (hinner : ¬ (c = d ∧ opened = depth)) :
    CutInto d depth opened (c :: body) (TopLevel.push c pieces) := by
  refine ⟨?_, ?_, fun i => ?_⟩
  · cases pieces <;> simp [TopLevel.push]
  · obtain ⟨piece, pieces, rfl⟩ := List.exists_cons_of_ne_nil h.nonempty
    rw [TopLevel.push, intercalate_push, h.joined]
  · rw [joints_push h.nonempty]
    cases i with
    | zero => simpa using hinner
    | succ i => simpa using h.cuts i

theorem cut (h : CutInto d depth opened body pieces) (hopened : opened = depth)
    (hweight : weight d = 0) : CutInto d depth opened (d :: body) ([] :: pieces) := by
  refine ⟨by simp, ?_, fun i => ?_⟩
  · obtain ⟨piece, pieces, rfl⟩ := List.exists_cons_of_ne_nil h.nonempty
    rw [List.intercalate_cons_cons, h.joined]
    rfl
  · rw [joints_nil_cons h.nonempty]
    cases i with
    | zero => simpa using hopened
    | succ i => simpa [hweight] using h.cuts i

end CutInto

/-- The scan of a text finds the end of the list and cuts what is in front of it, or there is no
end and it fails. -/
def Scanned (d : Char) (depth level : Nat) (cs : List Char) : Prop :=
  (∃ e ps, EndsAt depth level cs e ∧ CutInto d depth level (cs.take e) ps ∧
    scan d depth level cs = .ok (ps, cs.drop (e + 1))) ∨
  ((∀ e, ¬ EndsAt depth level cs e) ∧
    scan d depth level cs = .error (if 0 < depth then .unclosedList else .unbalanced))

/-- One step of the scan. The character does to the pieces of the text behind it what `f` does. -/
theorem Scanned.cons {level level' : Nat} {f : List (List Char) → List (List Char)}
    (h : Scanned d depth level' cs) (hlevel : (level' : Int) = level + weight c)
    (hgo : 0 < depth → ¬ ClosesAt level (c :: cs) 0)
    (hstep : scan d depth level (c :: cs) =
      (scan d depth level' cs).map fun (ps, rest) => (f ps, rest))
    (hcut : ∀ {body ps},
      CutInto d depth level' body ps → CutInto d depth level (c :: body) (f ps)) :
    Scanned d depth level (c :: cs) := by
  have hends (e : Nat) : EndsAt depth level (c :: cs) (e + 1) ↔ EndsAt depth level' cs e := by
    rw [endsAt_cons (Int.natCast_nonneg level) hgo, hlevel]
  rcases h with ⟨e, ps, hend, hps, hscan⟩ | ⟨hend, hscan⟩
  · exact .inl ⟨e + 1, f ps, (hends e).mpr hend, hcut hps, by rw [hstep, hscan]; rfl⟩
  · refine .inr ⟨fun e he => ?_, by rw [hstep, hscan]; rfl⟩
    cases e with
    | zero =>
      obtain ⟨inside, closes⟩ := endsAt_zero.mp he
      exact hgo inside closes
    | succ e => exact hend e ((hends e).mp he)

/-- A step at which the list goes on and is not cut. -/
theorem Scanned.push {level level' : Nat} (h : Scanned d depth level' cs)
    (hlevel : (level' : Int) = level + weight c) (hgo : 0 < depth → ¬ ClosesAt level (c :: cs) 0)
    (hinner : ¬ (c = d ∧ level = depth))
    (hstep : scan d depth level (c :: cs) =
      (scan d depth level' cs).map fun (ps, rest) => (push c ps, rest)) :
    Scanned d depth level (c :: cs) := by
  refine h.cons hlevel hgo hstep fun h => ?_
  rw [hlevel] at h
  exact h.push fun hcut => hinner ⟨hcut.1, Int.ofNat_inj.mp hcut.2⟩

theorem scanned_nil {level : Nat} : Scanned d depth level [] := by
  rw [Scanned, scan]
  by_cases inside : 0 < depth
  · rw [if_pos inside, if_pos inside]
    exact .inr ⟨fun e he => Nat.ne_of_gt inside (endsAt_nil.mp he).1, rfl⟩
  · rw [if_neg inside, if_neg inside]
    split
    · next hlevel =>
      exact .inr ⟨fun e he => hlevel (Int.ofNat_eq_zero.mp (endsAt_nil.mp he).2.1), rfl⟩
    · next hlevel => exact .inl ⟨0, [[]], endsAt_nil.mpr ⟨by omega, by omega, rfl⟩, .nil, rfl⟩

/-- A parenthesis that closes one that is not open. -/
theorem scanned_unopened : Scanned d 0 0 (')' :: cs) := by
  refine .inr ⟨fun e he => ?_, rfl⟩
  cases he with
  | closed inside _ _ => exact absurd inside (Nat.lt_irrefl 0)
  | whole _ balances => exact absurd ((balances_cons.mp balances).2.1 0 (Nat.zero_le _)) (by simp)

theorem scanned_last (inside : 0 < depth) : Scanned d depth 1 (')' :: cs) := by
  refine .inl ⟨0, [[]], endsAt_zero.mpr ⟨inside, closesAt_zero.mpr ⟨rfl, rfl⟩⟩, .nil, ?_⟩
  simp [scan, inside]

/-- Whether the scan finds an end is a matter of the levels alone, and so is where it cuts. -/
theorem scanned (hopen : d ≠ '(') (hclose : d ≠ ')') {level : Nat} (hinside : 0 < depth → 0 < level)
    (cs : List Char) : Scanned d depth level cs := by
  -- a list inside of parentheses goes on only while one of them is open
  induction cs generalizing level with
  | nil => exact scanned_nil
  | cons c cs ih =>
    by_cases hco : c = '('
    · subst hco
      refine (@ih (level + 1) (by omega)).push rfl (fun _ h => ?_) (fun h => hopen h.1.symm) ?_
      · cases (closesAt_zero.mp h).1
      · rw [scan, if_pos rfl]
    by_cases hcc : c = ')'
    · subst hcc
      rcases Nat.eq_zero_or_pos level with rfl | hpos
      · obtain rfl : depth = 0 := by omega
        exact scanned_unopened
      by_cases hlast : level = 1 ∧ 0 < depth
      · obtain ⟨rfl, inside⟩ := hlast
        exact scanned_last inside
      · have hlevel : ((level - 1 : Nat) : Int) = level + weight ')' := by
          rw [weight_close]
          omega
        refine (ih (by omega)).push hlevel (fun inside h => ?_) (fun h => hclose h.1.symm) ?_
        · have := (closesAt_zero.mp h).2
          omega
        · rw [scan, if_neg hco, if_pos rfl, if_neg (Nat.ne_of_gt hpos),
            if_neg (by simpa using hlast)]
    · have hlevel : (level : Int) = level + weight c := by simp [weight_of_ne hco hcc]
      have hgo : 0 < depth → ¬ ClosesAt level (c :: cs) 0 := fun _ h => hcc (closesAt_zero.mp h).1
      by_cases hcut : c = d ∧ level = depth
      · obtain ⟨rfl, rfl⟩ := hcut
        refine (ih hinside).cons hlevel hgo ?_ fun h => h.cut rfl (weight_of_ne hco hcc)
        rw [scan, if_neg hco, if_neg hcc, if_pos (by simp)]
      · refine (ih hinside).push hlevel hgo hcut ?_
        rw [scan, if_neg hco, if_neg hcc, if_neg (by simpa using hcut)]

/-- A step outside of parentheses does to the pieces what it does inside of one, or is refused. -/
theorem scan_cons_enclosed (d : Char) (level : Nat) (c : Char) :
    (∃ (level' : Nat) (f : List (List Char) → List (List Char)), ∀ cs,
      scan d 0 level (c :: cs) = (scan d 0 level' cs).map (fun (ps, rest) => (f ps, rest)) ∧
      scan d 1 (level + 1) (c :: cs) =
        (scan d 1 (level' + 1) cs).map fun (ps, rest) => (f ps, rest)) ∨
    ∃ fault, ∀ cs, scan d 0 level (c :: cs) = .error fault := by
  by_cases hopen : c = '('
  · exact .inl ⟨level + 1, push c, fun cs => by simp [scan, hopen]⟩
  by_cases hclose : c = ')'
  · subst hclose
    cases level with
    | zero => exact .inr ⟨.unbalanced, fun cs => rfl⟩
    | succ level => exact .inl ⟨level, push ')', fun cs => by simp [scan]⟩
  by_cases hcut : c = d ∧ level = 0
  · obtain ⟨rfl, rfl⟩ := hcut
    exact .inl ⟨0, ([] :: ·), fun cs => by simp [scan, hopen, hclose]⟩
  · exact .inl ⟨level, push c, fun cs => by simp [scan, hopen, hclose, hcut]⟩

/-- A whole text is cut like a list inside parentheses that has the text for its body. -/
theorem scan_enclosed {level : Nat} {rest : List Char} (h : scan d 0 level cs = .ok (pieces, rest))
    (tail : List Char) : scan d 1 (level + 1) (cs ++ ')' :: tail) = .ok (pieces, tail) := by
  induction cs generalizing level pieces with
  | nil =>
    rw [scan, if_neg (Nat.lt_irrefl 0)] at h
    split at h
    · cases h
    · next hlevel =>
      obtain rfl : level = 0 := by omega
      cases h
      rfl
  | cons c cs ih =>
    rcases scan_cons_enclosed d level c with ⟨level', f, hstep⟩ | ⟨fault, hstep⟩
    · rw [(hstep cs).1] at h
      obtain ⟨⟨ps, rest'⟩, hps, heq⟩ := map_eq_ok.mp h
      cases heq
      rw [List.cons_append, (hstep _).2, ih hps]
      rfl
    · rw [hstep] at h
      cases h

/-- At the outermost levels the parentheses of each piece match. -/
theorem closed_of_scan {rest : List Char} (hdepth : depth ≤ 1)
    (h : scan d depth depth cs = .ok (pieces, rest)) : ∀ p ∈ pieces, Closed d false p := by
  have enclosed : ∃ cs rest, scan d 1 1 cs = .ok (pieces, rest) := by
    rcases Nat.le_one_iff_eq_zero_or_eq_one.mp hdepth with rfl | rfl
    · exact ⟨_, _, scan_enclosed h []⟩
    · exact ⟨_, _, h⟩
  obtain ⟨cs, rest, hscan⟩ := enclosed
  obtain ⟨first, others, rfl, hfirst, hothers, -⟩ := scan_sound hscan
  cases hfirst with
  | closed hfirst => exact List.forall_mem_cons.mpr ⟨hfirst, hothers⟩

theorem split_singleton (text : String) (d : Char) (depth start : Nat) :
    split text (String.singleton d) depth start =
      ((cut d depth (text.toList.drop start)).map fun (ps, rest) =>
        (ps.map String.ofList, text.length - rest.length)).mapError (Failure.typeText text) := by
  have hdepth : ¬ (depth : Int) < 0 := Int.not_lt.mpr (Int.natCast_nonneg depth)
  simp only [split, String.toList_singleton, if_neg hdepth, Int.toNat_natCast]
  cases cut d depth (text.toList.drop start) <;> rfl

/-- The place behind the list. -/
theorem EndsAt.last {text : String} {start : Nat} (hstart : start ≤ text.length)
    (h : EndsAt depth opened (text.toList.drop start) e) :
    text.length - ((text.toList.drop start).drop (e + 1)).length =
      if 0 < depth then start + e + 1 else text.length := by
  simp only [List.length_drop, String.length_toList]
  cases h with
  | closed inside closes _ =>
    obtain ⟨he, -⟩ := List.getElem?_eq_some_iff.mp closes.1
    simp only [List.length_drop, String.length_toList] at he
    rw [if_pos inside]
    omega
  | whole outside _ =>
    rw [if_neg (by omega), List.length_drop, String.length_toList]
    omega

/-- A list is cut by its levels, or has no end by them and is refused. -/
theorem split_cases (hopen : d ≠ '(') (hclose : d ≠ ')') (text : String) (depth start : Nat) :
    let cs := text.toList.drop start
    (∃ e pieces, EndsAt depth depth cs e ∧ CutInto d depth depth (cs.take e) pieces ∧
      (depth ≤ 1 → ∀ p ∈ pieces, Closed d false p) ∧
      split text (String.singleton d) depth start =
        .ok ((dropBlankBody pieces).map String.ofList, text.length - (cs.drop (e + 1)).length)) ∨
    ((∀ e, ¬ EndsAt depth depth cs e) ∧ split text (String.singleton d) depth start =
      .error (.typeText text (if 0 < depth then .unclosedList else .unbalanced))) := by
  intro cs
  rw [split_singleton, cut]
  rcases scanned hopen hclose id cs with ⟨e, pieces, hend, hcut, hscan⟩ | ⟨hend, hscan⟩
  · have hclosed (hdepth : depth ≤ 1) := closed_of_scan hdepth hscan
    exact .inl ⟨e, pieces, hend, hcut, hclosed, by rw [hscan]; rfl⟩
  · exact .inr ⟨hend, by rw [hscan]; rfl⟩

theorem exists_split_iff (hopen : d ≠ '(') (hclose : d ≠ ')') (text : String) (depth start : Nat) :
    (∃ x, split text (String.singleton d) depth start = .ok x) ↔
      ∃ e, EndsAt depth depth (text.toList.drop start) e := by
  rcases split_cases hopen hclose text depth start with ⟨e, _, hend, -, -, hsplit⟩ | ⟨hend, hsplit⟩
  · exact iff_of_true ⟨_, hsplit⟩ ⟨e, hend⟩
  · refine iff_of_false ?_ fun ⟨e, he⟩ => hend e he
    rintro ⟨x, hx⟩
    cases hsplit.symm.trans hx

theorem cut_joined (hopen : d ≠ '(') (hclose : d ≠ ')') (rest : List Char)
    (hclosed : ∀ p ∈ pieces, Closed d false p) (hblank : ∀ p, pieces = [p] → ¬ AllBlank p) :
    cut d 1 ([d].intercalate pieces ++ ')' :: rest) = .ok (pieces, rest) := by
  by_cases hne : pieces = []
  · subst hne
    rfl
  · rw [cut, scan_intercalate hopen hclose rest hne hclosed]
    exact congrArg (fun ps => Except.ok (ps, rest)) (dropBlankBody_eq_self hblank)

/-- Pieces that are joined are got back, whatever is in front of them and behind the parenthesis
that closes the list. -/
theorem split_joined (hopen : d ≠ '(') (hclose : d ≠ ')') (before tail : String)
    {pieces : List String} (hclosed : ∀ p ∈ pieces, Closed d false p.toList)
    (hblank : ∀ p, pieces = [p] → ¬ AllBlank p.toList) :
    let joined := (String.singleton d).intercalate pieces
    split (before ++ joined ++ ")" ++ tail) (String.singleton d) (1 : Nat) before.length =
      .ok (pieces, before.length + joined.length + 1) := by
  intro joined
  have htext : (before ++ joined ++ ")" ++ tail).toList.drop before.length =
      [d].intercalate (pieces.map String.toList) ++ ')' :: tail.toList := by
    simp [joined, String.toList_intercalate, ← String.length_toList]
  have hcut : cut d 1 ([d].intercalate (pieces.map String.toList) ++ ')' :: tail.toList) =
      .ok (pieces.map String.toList, tail.toList) := by
    refine cut_joined hopen hclose _ (by simpa using hclosed) fun p hp => ?_
    obtain ⟨q, rfl, rfl⟩ := List.map_eq_singleton_iff.mp hp
    exact hblank q rfl
  have hlength : (before ++ joined ++ ")" ++ tail).length - tail.toList.length =
      before.length + joined.length + 1 := by
    rw [String.length_toList, String.length_append, Nat.add_sub_cancel, String.length_append,
      String.length_append]
    rfl
  have hpieces : (pieces.map String.toList).map String.ofList = pieces := by simp
  rw [split_singleton, htext, hcut, ← hlength]
  exact congrArg (fun ps => Except.ok (ps, _)) hpieces

end

/-- How a text is cut from a place on. A list that begins inside parentheses ends where the last of
them is closed, and is refused if that is nowhere. One that begins outside of any is all that is
left of the text, and is refused unless that closes what it opens. The list is cut at the delimiters
at the level where it began, and a single piece of blanks is none. The parentheses match in each
piece of a list that began inside at most one, and such pieces are got back from where they are
joined. -/
theorem split_at_levels {d : Char} (hopen : d ≠ '(') (hclose : d ≠ ')') (text : String)
    (depth : Nat) {start : Nat} (hstart : start ≤ text.length) :
    let cs := text.toList.drop start
    let result := split text (String.singleton d) depth start
    (0 < depth → ((∃ x, result = .ok x) ↔ ∃ i, ClosesAt depth cs i)) ∧
    (depth = 0 → ((∃ x, result = .ok x) ↔ Balances 0 cs)) ∧
    ((¬ ∃ x, result = .ok x) →
      result = .error (.typeText text (if 0 < depth then .unclosedList else .unbalanced))) ∧
    (∀ ps last, result = .ok (ps, last) → ∃ e pieces,
      EndsAt depth depth cs e ∧ last = (if 0 < depth then start + e + 1 else text.length) ∧
      CutInto d depth depth (cs.take e) pieces ∧
      ((∃ p, pieces = [p] ∧ AllBlank p) → ps = []) ∧
      ((∀ p, pieces = [p] → ¬ AllBlank p) → ps = pieces.map String.ofList) ∧
      (depth ≤ 1 → ∀ p ∈ pieces, Closed d false p)) ∧
    ∀ (before : String) (pieces : List String) (tail : String),
      (∀ p ∈ pieces, Closed d false p.toList) → (∀ p, pieces = [p] → ¬ AllBlank p.toList) →
        let joined := (String.singleton d).intercalate pieces
        split (before ++ joined ++ ")" ++ tail) (String.singleton d) (1 : Nat) before.length =
          .ok (pieces, before.length + joined.length + 1) := by
  intro cs result
  have hreturns := exists_split_iff hopen hclose text depth start
  have hcases := split_cases hopen hclose text depth start
  refine ⟨fun inside => hreturns.trans (exists_endsAt_iff inside), ?_, fun hfails => ?_, ?_,
    fun before pieces tail => split_joined hopen hclose before tail⟩
  · rintro rfl
    exact hreturns.trans exists_endsAt_zero_iff
  · rcases hcases with ⟨e, _, -, -, -, hsplit⟩ | ⟨-, hsplit⟩
    · exact absurd ⟨_, hsplit⟩ hfails
    · exact hsplit
  · intro ps last h
    rcases hcases with ⟨e, pieces, hend, hcut, hclosed, hsplit⟩ | ⟨-, hsplit⟩
    · cases hsplit.symm.trans h
      refine ⟨e, pieces, hend, hend.last hstart, hcut, ?_, fun hblank => ?_, hclosed⟩
      · rintro ⟨p, rfl, hblank⟩
        rw [dropBlankBody_of_allBlank hblank]
        rfl
      · rw [dropBlankBody_eq_self hblank]
    · cases hsplit.symm.trans h

/-- The comma of the inner list does not cut, and what follows the list plays no part. -/
theorem split_at_levels_nested :
    split "f(a,(b,c))x" "," 1 2 = .ok (["a", "(b,c)"], 10) ∧
      (∀ p ∈ ["a", "(b,c)"], Closed ',' false p.toList) ∧
      split "f(a,(b,c))),(" "," 1 2 = .ok (["a", "(b,c)"], 10) := by
  have hsplit : split "f(a,(b,c))x" "," 1 2 = .ok (["a", "(b,c)"], 10) := rfl
  obtain ⟨-, -, -, hcuts, hjoined⟩ := split_at_levels (d := ',') (by decide) (by decide)
    "f(a,(b,c))x" 1 (show 2 ≤ "f(a,(b,c))x".length by decide)
  obtain ⟨e, pieces, -, -, -, hnone, hpieces, hclosed⟩ := hcuts _ _ hsplit
  have hmany : ∀ p, pieces = [p] → ¬ AllBlank p := by
    rintro p rfl hblank
    cases hnone ⟨p, rfl, hblank⟩
  have hlist : ∀ p ∈ ["a", "(b,c)"], Closed ',' false p.toList := by
    rw [hpieces hmany]
    simpa using hclosed (Nat.le_refl 1)
  exact ⟨hsplit, hlist, hjoined "f(" ["a", "(b,c)"] "),(" hlist (by simp)⟩

end ContractInterface.TopLevel
