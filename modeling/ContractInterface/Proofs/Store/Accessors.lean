import ContractInterface.Store

/-! What the mutating accessors of a wrapper do. Each writes to the item that promoting the wrapper
gives: the item it owns, or a copy that is put behind all others. -/
namespace ContractInterface

/-- The item after an edit of one of its lists. An edit that cannot be made changes nothing. -/
def Item.edited (field : ListField) (e : Edit) (x : Item) : Item :=
  match (x.list? field).map e.apply with
  | some (.ok ps) => (x.setList? ps field).getD x
  | _ => x

namespace Store

namespace Action

/-- The wrapper that a mutating accessor is called on. -/
def writer? : Action → Option Nat
  | toOwned w => some w
  | rename w _ => some w
  | setMutability w _ => some w
  | edit w _ _ => some w
  | _ => none

/-- Whether the item has what the accessor is to change. -/
def applies : Action → Item → Bool
  | rename _ _, x => x.name?.isSome
  | setMutability _ _, x => x.mutability?.isSome
  | edit _ field _, x => (x.list? field).isSome
  | _, _ => true

/-- What an accessor answers that does not apply. -/
def refusal : Action → Answer
  | edit .. => .absent
  | _ => .flag false

/-- What an accessor makes of the item that it applies to. -/
def write : Action → Item → Item
  | rename _ name, x => (x.rename? name).getD x
  | setMutability _ m, x => (x.setMutability? m).getD x
  | edit _ field e, x => x.edited field e
  | _, x => x

end Action

variable {s t : Store} {w i j : Nat} {x : Item} {owned : Bool} {a : Action}

theorem getElem?_objects (h : s.item? i = some x) : s.objects[i]? = some (.item x) := by
  obtain ⟨o, ho, hx⟩ := Option.bind_eq_some_iff.mp h
  cases o with
  | item y =>
    cases hx
    exact ho
  | param p => cases hx

theorem lt_of_item? (h : s.item? i = some x) : i < s.objects.length :=
  (List.getElem?_eq_some_iff.mp (getElem?_objects h)).1

theorem replaceItem_self (h : s.item? i = some x) : s.replaceItem i x = s := by
  have hget := getElem?_objects h
  obtain ⟨hi, hx⟩ := List.getElem?_eq_some_iff.mp hget
  simp [replaceItem, ← hx]

theorem wrapped?_eq (hw : s.wrappers[w]? = some ⟨i, owned⟩) : s.wrapped? w = s.item? i := by
  rw [wrapped?, hw]
  rfl

theorem promote_owned (hw : s.wrappers[w]? = some ⟨i, true⟩) (hx : s.item? i = some x) :
    s.promote w = .ok (i, s) := by
  rw [promote, wrapped?_eq hw, hw, hx]
  rfl

theorem promote_borrowed (hw : s.wrappers[w]? = some ⟨i, false⟩) (hx : s.item? i = some x) :
    s.promote w = .ok (s.objects.length,
      ⟨s.objects ++ [.item x], s.wrappers.set w ⟨s.objects.length, true⟩⟩) := by
  rw [promote, wrapped?_eq hw, hw, hx]
  rfl

theorem editItem_snd (hx : s.item? i = some x) (field : ListField) (e : Edit) :
    (s.editItem i field e).2 = s.replaceItem i (x.edited field e) := by
  rw [editItem, hx, Item.edited]
  dsimp only
  cases hps : x.list? field with
  | none => exact (replaceItem_self hx).symm
  | some ps =>
    dsimp only [Option.map_some]
    cases hqs : e.apply ps with
    | error failure => exact (replaceItem_self hx).symm
    | ok qs =>
      dsimp only
      cases x.setList? qs field with
      | none => exact (replaceItem_self hx).symm
      | some y => rfl

section
variable {change : Item → Option Item}

theorem update_of_eq_none (hx : s.wrapped? w = some x) (h : change x = none) :
    s.update w change = (.flag false, s) := by
  simp only [update, hx, h]

theorem update_snd (hx : s.wrapped? w = some x) {y : Item} (h : change x = some y)
    (hp : s.promote w = .ok (j, t)) : (s.update w change).2 = t.replaceItem j y := by
  simp only [update, hx, h, hp]

end

/-- An accessor that does not apply changes nothing, not even who owns the item. -/
theorem act_of_not_applies (ha : a.writer? = some w) (hw : s.wrappers[w]? = some ⟨i, owned⟩)
    (hx : s.item? i = some x) (h : a.applies x = false) : s.act a = (a.refusal, s) := by
  have hwrapped := (wrapped?_eq hw).trans hx
  cases a with
  | toOwned v => cases h
  | rename v name =>
    cases ha
    have hnone : x.rename? name = none := by
      rw [← Option.not_isSome_iff_eq_none, Item.isSome_rename?]
      simpa [Action.applies] using h
    exact update_of_eq_none hwrapped hnone
  | setMutability v m =>
    cases ha
    have hnone : x.setMutability? m = none := by
      rw [← Option.not_isSome_iff_eq_none, Item.isSome_setMutability?]
      simpa [Action.applies] using h
    exact update_of_eq_none hwrapped hnone
  | edit v field e =>
    cases ha
    have hnone : x.list? field = none := by simpa [Action.applies] using h
    simp only [act, Store.edit, hwrapped, hnone]
    rfl
  | _ => cases ha

theorem act_of_promote (ha : a.writer? = some w) (hwrapped : s.wrapped? w = some x)
    (h : a.applies x = true) (hp : s.promote w = .ok (j, t)) (ht : t.item? j = some x) :
    (s.act a).2 = t.replaceItem j (a.write x) := by
  cases a with
  | toOwned v =>
    cases ha
    simp only [act, Store.toOwned, hp]
    exact (replaceItem_self ht).symm
  | rename v name =>
    cases ha
    obtain ⟨y, hy⟩ : ∃ y, x.rename? name = some y := by
      rw [← Option.isSome_iff_exists, Item.isSome_rename?]
      exact h
    rw [act, Store.rename, update_snd hwrapped hy hp, Action.write, hy, Option.getD_some]
  | setMutability v m =>
    cases ha
    obtain ⟨y, hy⟩ : ∃ y, x.setMutability? m = some y := by
      rw [← Option.isSome_iff_exists, Item.isSome_setMutability?]
      exact h
    rw [act, Store.setMutability, update_snd hwrapped hy hp, Action.write, hy, Option.getD_some]
  | edit v field e =>
    cases ha
    obtain ⟨ps, hps⟩ := Option.isSome_iff_exists.mp (show (x.list? field).isSome = true from h)
    simp only [act, Store.edit, hwrapped, hps, hp]
    exact editItem_snd ht field e
  | _ => cases ha

/-- An accessor writes in place to an item that its wrapper owns. -/
theorem act_of_owned (ha : a.writer? = some w) (hw : s.wrappers[w]? = some ⟨i, true⟩)
    (hx : s.item? i = some x) (h : a.applies x = true) :
    (s.act a).2 = s.replaceItem i (a.write x) :=
  act_of_promote ha ((wrapped?_eq hw).trans hx) h (promote_owned hw hx) hx

/-- What an accessor writes through a wrapper that borrows stands behind all other objects, and
from then on is owned by the wrapper. -/
theorem act_of_borrowed (ha : a.writer? = some w) (hw : s.wrappers[w]? = some ⟨i, false⟩)
    (hx : s.item? i = some x) (h : a.applies x = true) :
    (s.act a).2 = ⟨s.objects ++ [.item (a.write x)],
      s.wrappers.set w ⟨s.objects.length, true⟩⟩ := by
  have hcopy : item? ⟨s.objects ++ [.item x], s.wrappers.set w ⟨s.objects.length, true⟩⟩
      s.objects.length = some x := by
    simp [item?, Object.item?]
  rw [act_of_promote ha ((wrapped?_eq hw).trans hx) h (promote_borrowed hw hx) hcopy]
  simp [replaceItem]

/-- There is nothing to write through a wrapper that does not exist. -/
theorem act_of_no_wrapper (ha : a.writer? = some w) (hw : s.wrappers[w]? = none) :
    s.act a = (.refused (.outOfRange w), s) := by
  have hwrapped : s.wrapped? w = none := by rw [wrapped?, hw]; rfl
  cases a with
  | toOwned v =>
    cases ha
    simp only [act, Store.toOwned, promote, hw]
  | rename v name =>
    cases ha
    simp only [act, Store.rename, update, hwrapped]
  | setMutability v m =>
    cases ha
    simp only [act, Store.setMutability, update, hwrapped]
  | edit v field e =>
    cases ha
    simp only [act, Store.edit, hwrapped]
  | _ => cases ha

end Store

end ContractInterface
