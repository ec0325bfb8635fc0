import ContractInterface.Proofs.Param.Tree

/-! Of the spellings of a tree one has nothing in it that could be left out: no blank, no word
`tuple` in front of a parenthesis and no zero in front of a size. -/
namespace ContractInterface

namespace Tree

def sizesText (sizes : List (Option Nat)) : List Char :=
  (String.join (sizes.map TypeSpec.dimensionText)).toList

mutual

/-- The tree with nothing written that could be left out. -/
def text : Tree → List Char
  | named name sizes => name.toList ++ sizesText sizes
  | tuple members sizes => '(' :: textOf members ++ ')' :: sizesText sizes

def textOf : List Tree → List Char
  | [] => []
  | [t] => text t
  | t :: u :: ts => text t ++ ',' :: textOf (u :: ts)

end

mutual

def rootNames : Tree → List String
  | named name _ => [name]
  | tuple members _ => rootNamesOf members

def rootNamesOf : List Tree → List String
  | [] => []
  | t :: ts => rootNames t ++ rootNamesOf ts

end

end Tree

namespace TypeSpec
open Text

mutual

/-- The names in a type are those in its tree. -/
theorem rootNames_tree (t : TypeSpec) : t.tree.rootNames = t.rootNames := by
  cases t with
  | named span name sizes => rfl
  | tuple span body members sizes =>
    rw [tree, Tree.rootNames, rootNames_tuple, rootNamesOf_trees]

theorem rootNamesOf_trees (ts : List TypeSpec) :
    Tree.rootNamesOf (trees ts) = ts.flatMap rootNames := by
  cases ts with
  | nil => rfl
  | cons t ts =>
    rw [trees, Tree.rootNamesOf, rootNames_tree t, rootNamesOf_trees ts, List.flatMap_cons]

end

/-- Nothing in the text could be left out. -/
structure Plain (cs : List Char) : Prop where
  noBlank : NoBlank cs
  noKeyword : ¬ ['t', 'u', 'p', 'l', 'e', '('] <:+: cs
  noZero : ¬ LeadingZero cs

theorem Plain.of_infix {cs ds : List Char} (h : Plain ds) (hcs : cs <:+: ds) : Plain cs where
  noBlank c hc := h.noBlank c (hcs.subset hc)
  noKeyword hword := h.noKeyword (hword.trans hcs)
  noZero hzero := h.noZero (hzero.trans hcs)

/-- Blanks in a plain text are no characters at all. -/
theorem Plain.eq_nil {blank cs : List Char} (h : Plain cs) (hb : AllBlank blank)
    (hcs : blank <:+: cs) : blank = [] := h.noBlank.eq_nil hb hcs.subset

mutual

/-- A tree has one plain text. -/
theorem Written.eq_text {n : Nat} {cs : List Char} {t : TypeSpec} (h : Written n cs t)
    (hp : Plain cs) : cs = t.tree.text := by
  cases h with
  | @named _ name ds sizes _ dims =>
    have hds := dims.toList_join_eq (hp.of_infix (List.suffix_append name ds).isInfix).noZero
    rw [tree, Tree.text, Tree.sizesText, hds, String.toList_ofList]
  | @tuple n word body ds members sizes keyword inside dims =>
    have hbody : body <:+: word ++ '(' :: body ++ ')' :: ds := ⟨word ++ ['('], ')' :: ds, by simp⟩
    have hinside := inside.eq_textOf (hp.of_infix hbody)
    have hds : Plain ds := hp.of_infix ⟨word ++ '(' :: body ++ [')'], [], by simp⟩
    rw [tree, Tree.text, Tree.sizesText, dims.toList_join_eq hds.noZero, ← hinside]
    cases keyword with
    | absent => rfl
    | present => exact absurd ⟨[], body ++ ')' :: ds, by simp⟩ hp.noKeyword

theorem Body.eq_textOf {n : Nat} {body : List Char} {ts : List TypeSpec} (h : Body n body ts)
    (hp : Plain body) : body = Tree.textOf (trees ts) := by
  cases h with
  | empty blanks => exact hp.eq_nil blanks (List.infix_refl body)
  | @last _ before cs after t leading member trailing =>
    obtain rfl := hp.eq_nil leading ⟨[], cs ++ after, by simp⟩
    obtain rfl := hp.eq_nil trailing ⟨cs, [], by simp⟩
    rw [List.nil_append, List.append_nil] at hp ⊢
    exact member.eq_text hp
  | @cons _ before cs after body t t' ts leading member trailing others =>
    obtain rfl := hp.eq_nil leading ⟨[], cs ++ after ++ ',' :: body, by simp⟩
    obtain rfl := hp.eq_nil trailing ⟨cs, ',' :: body, by simp⟩
    rw [List.nil_append, List.append_nil] at hp ⊢
    have hmember := member.eq_text (hp.of_infix (List.prefix_append cs _).isInfix)
    have hothers := others.eq_textOf (hp.of_infix ⟨cs ++ [','], [], by simp⟩)
    rw [trees, trees, Tree.textOf, ← trees, ← hmember, ← hothers]

end

/-- A plain spelling is settled by the tree. -/
theorem span_eq_text {s : String} {t : TypeSpec} (h : parse s = .ok t)
    (hp : Plain t.span.toList) : t.span = .ofList t.tree.text := by
  have hw := parse_eq_ok.mp h
  rw [hw.span_eq, String.toList_ofList] at hp
  rw [hw.span_eq, ← hw.eq_text hp]

end TypeSpec

end ContractInterface
