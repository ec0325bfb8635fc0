import ContractInterface.Proofs.Declaration.Canonical
import ContractInterface.Proofs.Param.Annotation
import ContractInterface.Proofs.Param.Skeleton
import ContractInterface.Proofs.TopLevel.Pieces

/-! Parameter lists and the tuples of the same text. A list is cut at its outermost commas before
any piece of it is read, and a tuple is read by descent. Where no blanks stand in the text and not
too many parentheses are open, one is read exactly if the other is, with the same members. -/
namespace ContractInterface

namespace TopLevel

/-- No more than so many parentheses are open at any place of the text. -/
def OpenAtMost (n : Nat) (cs : List Char) : Prop :=
  ∀ front, front <+: cs → front.count '(' ≤ front.count ')' + n

/-- At some place of the text so many parentheses are open. -/
def Opens (n : Nat) (cs : List Char) : Prop :=
  ∃ front, front <+: cs ∧ front.count '(' = front.count ')' + n

theorem Opens.le {n m : Nat} {cs : List Char} (h : Opens n cs) (hm : OpenAtMost m cs) :
    n ≤ m := by
  obtain ⟨front, hfront, hcount⟩ := h
  have := hm front hfront
  omega

namespace Opens

variable {n : Nat} {cs : List Char}

theorem zero (cs : List Char) : Opens 0 cs := ⟨[], List.nil_prefix, rfl⟩

theorem append_right (h : Opens n cs) (ds : List Char) : Opens n (cs ++ ds) := by
  obtain ⟨front, hfront, hcount⟩ := h
  exact ⟨front, hfront.trans (List.prefix_append cs ds), hcount⟩

theorem append_left {ds : List Char} (hds : ds.count '(' = ds.count ')') (h : Opens n cs) :
    Opens n (ds ++ cs) := by
  obtain ⟨front, hfront, hcount⟩ := h
  refine ⟨ds ++ front, (List.prefix_append_right_inj ds).mpr hfront, ?_⟩
  rw [List.count_append, List.count_append]
  omega

theorem parenthesis (h : Opens n cs) : Opens (n + 1) ('(' :: cs) := by
  obtain ⟨front, hfront, hcount⟩ := h
  refine ⟨'(' :: front, List.cons_prefix_cons.mpr ⟨rfl, hfront⟩, ?_⟩
  rw [List.count_cons_self, List.count_cons_of_ne (by decide)]
  omega

end Opens

theorem Closed.count_eq {d : Char} {nested : Bool} {cs : List Char} (h : Closed d nested cs) :
    cs.count '(' = cs.count ')' := by
  induction h with
  | nil => rfl
  | cons not_open not_close _ _ ih =>
    rw [List.count_cons_of_ne not_open, List.count_cons_of_ne not_close, ih]
  | parens _ _ ihin ih =>
    rw [List.cons_append, List.count_cons_self, List.count_append,
      List.count_cons_of_ne (by decide), List.count_cons_of_ne (by decide), List.count_append,
      List.count_cons_self, ihin, ih, Nat.add_assoc]

end TopLevel

theorem Text.AllBlank.count_eq {blank : List Char} (h : AllBlank blank) :
    blank.count '(' = blank.count ')' := by
  have hclosed : TopLevel.Closed ',' true blank := h.closed (by decide)
  exact hclosed.count_eq

namespace TypeSpec
open Text TopLevel

mutual

/-- As many parentheses are open in the text of a type as tuples are in the type. -/
theorem Written.opens {n : Nat} {cs : List Char} {t : TypeSpec} (h : Written n cs t) :
    Opens t.nesting cs := by
  cases h with
  | named _ _ => exact .zero _
  | @tuple _ word body _ _ _ keyword inside _ =>
    have hword : word.count '(' = word.count ')' := by cases keyword <;> decide
    rw [List.append_assoc]
    exact .append_left hword (inside.opens.parenthesis.append_right _)

theorem Body.opens {n : Nat} {body : List Char} {ts : List TypeSpec} (h : Body n body ts) :
    Opens (nestingOf ts) body := by
  cases h with
  | empty _ => exact .zero _
  | last leading member _ =>
    rw [nestingOf, nestingOf, Nat.max_zero]
    exact (member.opens.append_left leading.count_eq).append_right _
  | @cons _ before cs after body t t' ts leading member trailing others =>
    rw [nestingOf]
    rcases Nat.le_total t.nesting (nestingOf (t' :: ts)) with hle | hle
    · rw [Nat.max_eq_right hle]
      have hmember : Closed ',' true cs := member.closed
      have hfirst : (before ++ cs ++ after ++ [',']).count '(' =
          (before ++ cs ++ after ++ [',']).count ')' := by
        simp only [List.count_append, leading.count_eq, hmember.count_eq, trailing.count_eq]
        rfl
      rw [List.append_cons]
      exact others.opens.append_left hfirst
    · rw [Nat.max_eq_left hle]
      have h := (member.opens.append_left leading.count_eq).append_right
        (after ++ ',' :: body)
      rwa [← List.append_assoc] at h

end

/-- Without blanks, the members of a tuple are what stands between its outermost commas. -/
theorem Body.exists_intercalate {n : Nat} {body : List Char} {ts : List TypeSpec}
    (h : Body n body ts) (hb : NoBlank body) :
    ∃ pieces, body = [','].intercalate pieces ∧ List.Forall₂ (Written n) pieces ts := by
  induction ts generalizing body with
  | nil =>
    cases h with
    | empty blanks => exact ⟨[], hb.eq_nil blanks (List.Subset.refl body), .nil⟩
  | cons t ts ih =>
    cases h with
    | @last _ before cs after _ leading member trailing =>
      obtain rfl := hb.eq_nil leading (by simp)
      obtain rfl := hb.eq_nil trailing (by simp)
      exact ⟨[cs], by simp, .cons member .nil⟩
    | @cons _ before cs after body _ t' ts leading member trailing others =>
      obtain rfl := hb.eq_nil leading (by simp)
      obtain rfl := hb.eq_nil trailing (by simp)
      obtain ⟨pieces, rfl, hpieces⟩ := ih others fun c hc => hb c (by simp [hc])
      refine ⟨cs :: pieces, ?_, .cons member hpieces⟩
      cases hpieces with
      | cons _ _ => rw [List.intercalate_cons_cons]; simp

theorem Written.not_allBlank {n : Nat} {cs : List Char} {t : TypeSpec} (h : Written n cs t) :
    ¬ AllBlank cs := by
  obtain ⟨c, r, rfl, hc, -⟩ := h.exists_cons_not_isBlank
  intro hblank
  rw [hblank c (by simp)] at hc
  cases hc

theorem body_iff_pieces {n : Nat} {body : List Char} {ts : List TypeSpec} (hb : NoBlank body) :
    Body n body ts ↔ ∃ pieces, Pieces ',' body pieces ∧ List.Forall₂ (Written n) pieces ts := by
  constructor
  · intro h
    obtain ⟨pieces, rfl, hpieces⟩ := h.exists_intercalate hb
    refine ⟨pieces, ?_, hpieces⟩
    cases hpieces with
    | nil => exact .blank AllBlank.nil
    | @cons p t ps ts member others =>
      refine .joined (List.cons_ne_nil p ps) ?_ fun hblank => ?_
      · intro q hq
        obtain ⟨i, hi, rfl⟩ := List.mem_iff_getElem.mp hq
        have hall := List.Forall₂.cons member others
        exact (hall.get hi (hall.length_eq ▸ hi)).closed
      · refine member.not_allBlank fun c hc => hblank c ?_
        cases ps with
        | nil => simpa using hc
        | cons q ps => simp [List.intercalate_cons_cons, hc]
  · rintro ⟨pieces, hpieces, hts⟩
    cases hpieces with
    | blank blanks =>
      cases hts
      exact .empty blanks
    | joined _ _ _ => exact .of_forall₂ hts

/-- A text in parentheses with nothing around them is a tuple exactly if its members stand
between them. -/
theorem written_parentheses_iff {n : Nat} {body : List Char} {t : TypeSpec} :
    Written (n + 1) ('(' :: body ++ [')']) t ↔ ∃ ts, Body n body ts ∧
      t = .tuple (.ofList ('(' :: body ++ [')'])) (.ofList ('(' :: body ++ [')'])) ts [] := by
  constructor
  · intro h
    generalize hcs : '(' :: body ++ [')'] = cs at h
    cases h with
    | named identifier _ =>
      obtain ⟨c, r, rfl, hc⟩ := Identifier.exists_cons identifier
      obtain rfl : '(' = c := (List.cons.inj hcs).1
      cases hc
    | @tuple _ word body' ds ts sizes keyword inside dims =>
      cases keyword with
      | present => cases hcs
      | absent =>
        have htail : body ++ [')'] = body' ++ ')' :: ds := (List.cons.inj hcs).2
        rcases dims.eq_nil_or_append with rfl | ⟨r, rfl⟩
        · obtain rfl := List.append_cancel_right htail
          cases dims
          exact ⟨ts, inside, rfl⟩
        · -- a dimension would have to end with the parenthesis
          have hlast : body ++ [')'] = (body' ++ ')' :: r) ++ [']'] := by rw [htail]; simp
          cases (List.append_inj' hlast rfl).2
  · rintro ⟨ts, inside, rfl⟩
    exact .tuple .absent inside .nil

end TypeSpec

namespace Param

mutual

/-- Annotations are no part of the shape. -/
theorem skeleton_bare (p : Param) : p.bare.skeleton = p.skeleton := by
  obtain ⟨_, ty, components, _, _⟩ := p
  rw [bare, skeleton, skeleton, skeletons_bares]

theorem skeletons_bares (ps : List Param) : skeletons (bares ps) = skeletons ps := by
  cases ps with
  | nil => rfl
  | cons p ps => rw [bares, skeletons, skeletons, skeleton_bare, skeletons_bares]

end

end Param

namespace Declaration
open Text TypeSpec Param Sequencing

/-- Without blanks, a piece is a type and nothing else. -/
theorem parseParam_eq_ok_iff_written {piece : List Char} (hb : NoBlank piece) {p : Param} :
    parseParam (.ofList piece) false = .ok p ↔ ∃ t, Written maxNesting piece t ∧
      p = ofTypeSpec (fun t => some (InternalType.parse t.span)) "" t := by
  have hparse {t : TypeSpec} :
      TypeSpec.parse (.ofList piece) = .ok t ↔ Written maxNesting piece t := by
    rw [TypeSpec.parse_eq_ok, String.toList_ofList, hb.trim_eq]
  rw [parseParam_eq_ok, String.toList_ofList]
  constructor
  · rintro ⟨ty, name, t, hwords, ht, -, rfl⟩
    have hne : piece ≠ [] := by
      rintro rfl
      cases hwords
      cases ht
    rw [words_eq_self hb hne] at hwords
    cases hwords
    exact ⟨t, hparse.mp ht, rfl⟩
  · rintro ⟨t, ht, rfl⟩
    obtain ⟨c, r, rfl, -⟩ := ht.exists_cons
    exact ⟨_, [], t, words_eq_self hb (List.cons_ne_nil c r), hparse.mpr ht, .inl ⟨rfl, rfl⟩, rfl⟩

theorem forall₂_parseParam_iff {pieces : List (List Char)} {ps : List Param}
    (hb : ∀ piece ∈ pieces, NoBlank piece) :
    List.Forall₂ (fun piece p => parseParam (.ofList piece) false = .ok p) pieces ps ↔
      ∃ ts, List.Forall₂ (Written maxNesting) pieces ts ∧
        ps = ofMembers (fun t => some (InternalType.parse t.span)) ts := by
  simp only [ofMembers_eq_map]
  rw [← forall₂_exists_map]
  induction pieces generalizing ps with
  | nil => simp
  | cons piece pieces ih =>
    obtain ⟨hpiece, hpieces⟩ := List.forall_mem_cons.mp hb
    simp only [List.forall₂_cons_left_iff, parseParam_eq_ok_iff_written hpiece, ih hpieces]

theorem readParams_eq_ok_iff_body {text : String} {body : List Char} (hb : NoBlank body)
    {ps : List Param} :
    readParams text false (body ++ [')']) = .ok (ps, []) ↔ ∃ ts, Body maxNesting body ts ∧
      ps = ofMembers (fun t => some (InternalType.parse t.span)) ts := by
  have hpieces {pieces : List (List Char)}
      (hcut : TopLevel.cut ',' 1 (body ++ [')']) = .ok (pieces, [])) :
      ∀ piece ∈ pieces, NoBlank piece := fun piece hmem c hc =>
    hb.append (.cons (by decide) .nil) c (((TopLevel.infix_of_cut hcut).2 piece hmem).subset hc)
  have hiff {pieces : List (List Char)} : TopLevel.cut ',' 1 (body ++ [')']) = .ok (pieces, []) ↔
      TopLevel.Pieces ',' body pieces :=
    TopLevel.cut_whole_eq_ok (by decide) (by decide) (by decide)
  rw [readParams_eq_ok]
  constructor
  · rintro ⟨pieces, hcut, hps⟩
    obtain ⟨ts, hts, rfl⟩ := (forall₂_parseParam_iff (hpieces hcut)).mp hps
    exact ⟨ts, (body_iff_pieces hb).mpr ⟨pieces, hiff.mp hcut, hts⟩, rfl⟩
  · rintro ⟨ts, hbody, rfl⟩
    obtain ⟨pieces, hcut, hts⟩ := (body_iff_pieces hb).mp hbody
    have hcut := hiff.mpr hcut
    exact ⟨pieces, hcut, (forall₂_parseParam_iff (hpieces hcut)).mpr ⟨ts, hts, rfl⟩⟩

/-- A list ends with its text exactly if nothing is left over. -/
theorem parseParams_eq_ok_iff_readParams {b : String} {requireNames : Bool} {ps : List Param} :
    parseParams (b ++ ")") 0 requireNames = .ok (ps, b.length + 1) ↔
      readParams (b ++ ")") requireNames (b.toList ++ [')']) = .ok (ps, []) := by
  have htext : (b ++ ")").toList = b.toList ++ [')'] := String.toList_append
  have hlength : (b ++ ")").length = b.length + 1 := by
    rw [← String.length_toList, htext, List.length_append, String.length_toList]
    rfl
  rw [parseParams, map_eq_ok, List.drop_zero, htext, hlength]
  constructor
  · rintro ⟨⟨ps', rest⟩, hread, heq⟩
    obtain ⟨rfl, hend⟩ := Prod.mk.inj heq
    obtain ⟨pieces, hcut, -⟩ := readParams_eq_ok.mp hread
    have hle := TopLevel.length_cut_le hcut
    rw [List.length_append, String.length_toList, List.length_singleton] at hle
    obtain rfl : rest = [] := List.length_eq_zero_iff.mp (by omega)
    exact hread
  · intro h
    exact ⟨_, h, rfl⟩

/-- A text without blanks, in which no more than 63 parentheses are open at once, is read as a list
of parameters up to the parenthesis behind it exactly if it is a tuple in parentheses. The
parameters are then the components of the tuple: of the same shapes in the same order, without
names, and the same altogether without their annotations. -/
theorem parseParams_iff_parse_tuple (b : String) (hb : NoBlank b.toList)
    (ho : TopLevel.OpenAtMost 63 b.toList) :
    ((∃ ps, parseParams (b ++ ")") 0 false = .ok (ps, b.length + 1)) ↔
      ∃ t, TypeSpec.parse ("(" ++ b ++ ")") = .ok t) ∧
    ∀ ps, parseParams (b ++ ")") 0 false = .ok (ps, b.length + 1) →
      ∃ p, Param.parse ("(" ++ b ++ ")") "" = .ok p ∧
        ps.map Param.skeleton = p.components.map Param.skeleton ∧ (∀ q ∈ ps, q.name = "") ∧
        bares ps = p.components := by
  have htext : ("(" ++ b ++ ")").toList = '(' :: b.toList ++ [')'] := by
    simp
  have hparse {t : TypeSpec} : TypeSpec.parse ("(" ++ b ++ ")") = .ok t ↔
      Written maxNesting ('(' :: b.toList ++ [')']) t := by
    have hparens : NoBlank ('(' :: b.toList ++ [')']) :=
      .append (.cons (by decide) hb) (.cons (by decide) .nil)
    rw [TypeSpec.parse_eq_ok, htext, hparens.trim_eq]
  -- the parentheses of the tuple take one of the levels
  have hdepth {ts : List TypeSpec} (h : Body maxNesting b.toList ts) : Body 63 b.toList ts :=
    h.of_nestingOf_le (h.opens.le ho)
  have hread {ts : List TypeSpec} (h : Body maxNesting b.toList ts) :
      TypeSpec.parse ("(" ++ b ++ ")") = .ok (.tuple _ _ ts []) :=
    hparse.mpr (written_parentheses_iff.mpr ⟨ts, hdepth h, rfl⟩)
  refine ⟨⟨?_, ?_⟩, ?_⟩
  · rintro ⟨ps, hps⟩
    obtain ⟨ts, hbody, -⟩ :=
      (readParams_eq_ok_iff_body hb).mp (parseParams_eq_ok_iff_readParams.mp hps)
    exact ⟨_, hread hbody⟩
  · rintro ⟨t, ht⟩
    obtain ⟨ts, hbody, -⟩ := written_parentheses_iff.mp (hparse.mp ht)
    exact ⟨_, parseParams_eq_ok_iff_readParams.mpr
      ((readParams_eq_ok_iff_body hb).mpr ⟨ts, hbody.mono (by decide), rfl⟩)⟩
  · intro ps hps
    obtain ⟨ts, hbody, rfl⟩ :=
      (readParams_eq_ok_iff_body hb).mp (parseParams_eq_ok_iff_readParams.mp hps)
    have hbares := bares_ofMembers (fun t => some (InternalType.parse t.span)) ts
    refine ⟨_, by rw [Param.parse, hread hbody]; rfl, ?_, fun q hq => ?_, hbares⟩
    · rw [← Param.skeletons_eq_map, ← Param.skeletons_eq_map, ← skeletons_bares, hbares]
      rfl
    · rw [ofMembers_eq_map] at hq
      obtain ⟨t, -, rfl⟩ := List.mem_map.mp hq
      exact name_ofTypeSpec _ _ t

/-- Tuples inside one another, arrays of them and an empty one. -/
theorem parseParams_iff_parse_tuple_nested :
    NoBlank "(A,(bool[2],B))[],()".toList ∧
    TopLevel.OpenAtMost 63 "(A,(bool[2],B))[],()".toList ∧
    ∃ ps p, parseParams ("(A,(bool[2],B))[],()" ++ ")") 0 false = .ok (ps, 21) ∧
      Param.parse ("(" ++ "(A,(bool[2],B))[],()" ++ ")") "" = .ok p ∧ bares ps = p.components := by
  have hb : NoBlank "(A,(bool[2],B))[],()".toList := .of_all (by decide)
  have ho : TopLevel.OpenAtMost 63 "(A,(bool[2],B))[],()".toList := by
    intro front hfront
    have hopen := hfront.sublist.count_le '('
    have hcount : "(A,(bool[2],B))[],()".toList.count '(' = 3 := by decide
    omega
  have hread := exists_of_isSome_toOption
    (x := TypeSpec.parse ("(" ++ "(A,(bool[2],B))[],()" ++ ")")) (by decide +kernel)
  obtain ⟨hiff, hsame⟩ := parseParams_iff_parse_tuple _ hb ho
  obtain ⟨ps, hps⟩ := hiff.mpr hread
  obtain ⟨p, hp, -, -, hbares⟩ := hsame ps hps
  exact ⟨hb, ho, ps, p, hps, hp, hbares⟩

end Declaration

end ContractInterface
