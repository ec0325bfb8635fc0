import ContractInterface.Abi.Held
import ContractInterface.Proofs.Sequencing
import ContractInterface.Proofs.Store.Isolation

/-! The items that wrappers hand out. A wrapper that borrows hands out a copy, and no wrapper that
is there by then ever writes to it, nor to an interface that is made from such copies. A wrapper
that owns its item hands out the item itself. -/
namespace ContractInterface

namespace Store

variable {s t : Store} {w i j : Nat} {x : Item}

theorem handOut_owned (hw : s.wrappers[w]? = some ⟨i, true⟩) (hx : s.item? i = some x) :
    s.handOut w = (.place i, s) := by
  rw [handOut, wrapped?_eq hw, hw, hx]
  rfl

theorem handOut_borrowed (hw : s.wrappers[w]? = some ⟨i, false⟩) (hx : s.item? i = some x) :
    s.handOut w = (.place s.objects.length, ⟨s.objects ++ [.item x], s.wrappers⟩) := by
  rw [handOut, wrapped?_eq hw, hw, hx]
  rfl

theorem item?_concat : item? ⟨s.objects ++ [.item x], s.wrappers⟩ s.objects.length = some x := by
  simp [item?, Object.item?]

theorem wrapped?_append {objects : List Object} (h : s.wrapped? w = some x) :
    wrapped? ⟨s.objects ++ objects, s.wrappers⟩ w = some x := by
  obtain ⟨⟨i, owned⟩, hw, hi⟩ := Option.bind_eq_some_iff.mp h
  exact Option.bind_eq_some_iff.mpr ⟨⟨i, owned⟩, hw, item?_append hi⟩

/-- A wrapper hands out the item that it owns, or a copy behind all that is there. -/
theorem exists_handOut (hx : s.wrapped? w = some x) :
    ∃ j copies, s.handOut w = (.place j, ⟨s.objects ++ copies, s.wrappers⟩) ∧
      item? ⟨s.objects ++ copies, s.wrappers⟩ j = some x ∧
      (s.wrappers[w]? = some ⟨j, true⟩ ∨ s.objects.length ≤ j) := by
  obtain ⟨⟨i, owned⟩, hw, hi⟩ := Option.bind_eq_some_iff.mp hx
  cases owned with
  | true => exact ⟨i, [], by rw [List.append_nil, handOut_owned hw hi],
      item?_append hi, .inl hw⟩
  | false => exact ⟨s.objects.length, [.item x], handOut_borrowed hw hi, item?_concat,
      .inr (Nat.le_refl _)⟩

theorem Valid.append (hs : s.Valid) (objects : List Object) :
    Valid ⟨s.objects ++ objects, s.wrappers⟩ := by
  intro wrapper hwrapper
  obtain ⟨x, hx⟩ := hs wrapper hwrapper
  exact ⟨x, item?_append hx⟩

/-- There is something at the place, and the wrapper does not own it. -/
structure Apart (s : Store) (w i : Nat) : Prop where
  known : i < s.objects.length
  other : ∃ wrapper, s.wrappers[w]? = some wrapper ∧ wrapper ≠ ⟨i, true⟩

theorem target?_eq_none_of_writer? {a : Action} (ha : a.writer? = some w) :
    (Event.act a).target? = none := by
  cases a <;> first | rfl | cases ha

namespace Apart

/-- No wrapper comes to own something that was there before. -/
theorem after (h : Apart s w i) (hs : s.Valid) (e : Event) : Apart (s.after e) w i := by
  have heffect := effect hs e
  obtain ⟨wrapper, hw, hne⟩ := h.other
  refine ⟨Nat.lt_of_lt_of_le h.known heffect.length_le, ?_⟩
  rcases heffect.getElem?_wrappers hw with hsame | ⟨-, -, hnew⟩
  · exact ⟨wrapper, hsame, hne⟩
  · refine ⟨_, hnew, fun hplace => ?_⟩
    exact Nat.ne_of_gt h.known (Wrapper.mk.inj hplace).1

theorem history (h : Apart s w i) (hs : s.Valid) (events : List Event) :
    Apart (s.history events) w i := by
  induction events generalizing s with
  | nil => exact h
  | cons e events ih => exact ih (h.after hs e) ((effect hs e).valid hs)

/-- An accessor leaves alone what its wrapper does not own. -/
theorem item?_act (h : Apart s w i) (hs : s.Valid) {a : Action} (ha : a.writer? = some w) :
    (s.act a).2.item? i = s.item? i := by
  have hwrites : ¬ Writes s (.act a) i := by
    rintro (htarget | ⟨v, hv, howned⟩)
    · rw [target?_eq_none_of_writer? ha] at htarget
      cases htarget
    · obtain ⟨wrapper, hw, hne⟩ := h.other
      cases ha.symm.trans hv
      cases hw.symm.trans howned
      exact hne rfl
  rw [item?, item?]
  exact congrArg (·.bind Object.item?) ((effect hs (.act a)).getElem?_objects h.known hwrites)

theorem item?_act_history (h : Apart s w i) (hs : s.Valid) (events : List Event) {a : Action}
    (ha : a.writer? = some w) :
    ((s.history events).act a).2.item? i = (s.history events).item? i :=
  (h.history hs events).item?_act (hs.history events) ha

end Apart

end Store

namespace Overloads

variable {α β : Type} {P : α → Prop} {R : α → β → Prop}

/-- Groups of the same names, their members one by one in the relation. -/
def Rel (R : α → β → Prop) : Overloads α → Overloads β → Prop :=
  List.Forall₂ fun g g' => g.1 = g'.1 ∧ List.Forall₂ R g.2 g'.2

theorem Rel.imp {R' : α → β → Prop} (h : ∀ x y, R x y → R' x y) {groups : Overloads α}
    {groups' : Overloads β} (hr : Rel R groups groups') : Rel R' groups groups' :=
  List.Forall₂.imp (fun _ _ hg => ⟨hg.1, hg.2.imp h⟩) hr

theorem rel_and_iff {groups : Overloads α} {groups' : Overloads β} :
    Rel (fun x y => P x ∧ R x y) groups groups' ↔
      (∀ g ∈ groups, ∀ x ∈ g.2, P x) ∧ Rel R groups groups' := by
  have hgroup (g : String × List α) (g' : String × List β) :
      (g.1 = g'.1 ∧ List.Forall₂ (fun x y => P x ∧ R x y) g.2 g'.2) ↔
        (∀ x ∈ g.2, P x) ∧ g.1 = g'.1 ∧ List.Forall₂ R g.2 g'.2 := by
    rw [List.forall₂_and_left]
    exact and_left_comm
  simp only [Rel, hgroup]
  exact List.forall₂_and_left ..

theorem Rel.push {groups : Overloads α} {groups' : Overloads β} (h : Rel R groups groups')
    (name : String) {x : α} {y : β} (hxy : R x y) :
    Rel R (groups.push name x) (groups'.push name y) := by
  induction h with
  | nil => exact .cons ⟨rfl, .cons hxy .nil⟩ .nil
  | @cons g g' groups groups' hg hrest ih =>
    obtain ⟨key, xs⟩ := g
    obtain ⟨key', ys⟩ := g'
    obtain ⟨rfl, hmembers⟩ := hg
    rw [Overloads.push, Overloads.push]
    split
    · exact .cons ⟨rfl, List.rel_append hmembers (.cons hxy .nil)⟩ hrest
    · exact .cons ⟨rfl, hmembers⟩ ih

end Overloads

section
variable {α β : Type} {P : α → Prop} {R R' : α → β → Prop} {a : Option α} {b : Option β}

theorem optionRel_imp (h : ∀ x y, R x y → R' x y) (hr : Option.Rel R a b) :
    Option.Rel R' a b := by
  cases hr with
  | none => exact .none
  | some hr => exact .some (h _ _ hr)

theorem optionRel_and_iff :
    Option.Rel (fun x y => P x ∧ R x y) a b ↔ (∀ x ∈ a, P x) ∧ Option.Rel R a b := by
  cases a <;> cases b <;> simp

theorem isSome_eq_of_optionRel (h : Option.Rel R a b) : a.isSome = b.isSome := by
  cases h <;> rfl

end

namespace HeldAbi
open Store

variable {P : Nat → Prop} {R R' : Nat → Item → Prop} {held : HeldAbi} {abi : Abi}

/-- The items of an interface in relation to the places by which it is held. -/
structure Rel (R : Nat → Item → Prop) (held : HeldAbi) (abi : Abi) : Prop where
  constructor : Option.Rel (fun i c => R i (.constructor c)) held.constructor abi.constructor
  fallback : Option.Rel (fun i m => R i (.fallback m)) held.fallback abi.fallback
  receive : Option.Rel (fun i m => R i (.receive m)) held.receive abi.receive
  functions : Overloads.Rel (fun i f => R i (.function f)) held.functions abi.functions
  events : Overloads.Rel (fun i e => R i (.event e)) held.events abi.events
  errors : Overloads.Rel (fun i e => R i (.error e)) held.errors abi.errors

/-- All places by which the interface is held. -/
structure All (P : Nat → Prop) (held : HeldAbi) : Prop where
  constructor : ∀ i ∈ held.constructor, P i
  fallback : ∀ i ∈ held.fallback, P i
  receive : ∀ i ∈ held.receive, P i
  functions : ∀ g ∈ held.functions, ∀ i ∈ g.2, P i
  events : ∀ g ∈ held.events, ∀ i ∈ g.2, P i
  errors : ∀ g ∈ held.errors, ∀ i ∈ g.2, P i

/-- The interface that is seen in a store. -/
def Shows (held : HeldAbi) (s : Store) (abi : Abi) : Prop :=
  held.Rel (fun i x => s.item? i = some x) abi

theorem rel_and_iff : held.Rel (fun i x => P i ∧ R i x) abi ↔ held.All P ∧ held.Rel R abi := by
  constructor
  · rintro ⟨h1, h2, h3, h4, h5, h6⟩
    rw [optionRel_and_iff] at h1 h2 h3
    rw [Overloads.rel_and_iff] at h4 h5 h6
    exact ⟨⟨h1.1, h2.1, h3.1, h4.1, h5.1, h6.1⟩, ⟨h1.2, h2.2, h3.2, h4.2, h5.2, h6.2⟩⟩
  · rintro ⟨⟨h1, h2, h3, h4, h5, h6⟩, ⟨h1', h2', h3', h4', h5', h6'⟩⟩
    exact ⟨optionRel_and_iff.mpr ⟨h1, h1'⟩, optionRel_and_iff.mpr ⟨h2, h2'⟩,
      optionRel_and_iff.mpr ⟨h3, h3'⟩, Overloads.rel_and_iff.mpr ⟨h4, h4'⟩,
      Overloads.rel_and_iff.mpr ⟨h5, h5'⟩, Overloads.rel_and_iff.mpr ⟨h6, h6'⟩⟩

theorem Rel.imp (h : ∀ i x, R i x → R' i x) (hr : held.Rel R abi) : held.Rel R' abi where
  constructor := optionRel_imp (fun _ _ => h _ _) hr.constructor
  fallback := optionRel_imp (fun _ _ => h _ _) hr.fallback
  receive := optionRel_imp (fun _ _ => h _ _) hr.receive
  functions := hr.functions.imp fun _ _ => h _ _
  events := hr.events.imp fun _ _ => h _ _
  errors := hr.errors.imp fun _ _ => h _ _

theorem All.imp {Q : Nat → Prop} (h : ∀ i, P i → Q i) (ha : held.All P) : held.All Q where
  constructor := fun i hi => h i (ha.constructor i hi)
  fallback := fun i hi => h i (ha.fallback i hi)
  receive := fun i hi => h i (ha.receive i hi)
  functions := fun g hg i hi => h i (ha.functions g hg i hi)
  events := fun g hg i hi => h i (ha.events g hg i hi)
  errors := fun g hg i hi => h i (ha.errors g hg i hi)

/-- Stores with the same items at the places that are held show the same interface. -/
theorem shows_congr {s t : Store} (h : held.All fun i => t.item? i = s.item? i) :
    held.Shows t abi ↔ held.Shows s abi := by
  constructor
  · intro hr
    exact (rel_and_iff.mpr ⟨h, hr⟩).imp fun i x ⟨heq, hx⟩ => heq ▸ hx
  · intro hr
    exact (rel_and_iff.mpr ⟨h, hr⟩).imp fun i x ⟨heq, hx⟩ => heq.trans hx

/-- An item is held where it is added. -/
theorem Rel.add (hr : held.Rel R abi) {i : Nat} {x : Item} (hx : R i x) :
    (∃ held' abi', held.add i x = .ok held' ∧ abi.add x = .ok abi' ∧ held'.Rel R abi') ∨
      ∃ e, held.add i x = .error e ∧ abi.add x = .error e := by
  cases x with
  | constructor c =>
    simp only [HeldAbi.add, Abi.add, isSome_eq_of_optionRel hr.constructor]
    split
    · exact .inr ⟨_, rfl, rfl⟩
    · exact .inl ⟨_, _, rfl, rfl, { hr with constructor := .some hx }⟩
  | fallback m =>
    simp only [HeldAbi.add, Abi.add, isSome_eq_of_optionRel hr.fallback]
    split
    · exact .inr ⟨_, rfl, rfl⟩
    · exact .inl ⟨_, _, rfl, rfl, { hr with fallback := .some hx }⟩
  | receive m =>
    simp only [HeldAbi.add, Abi.add, isSome_eq_of_optionRel hr.receive]
    split
    · exact .inr ⟨_, rfl, rfl⟩
    · exact .inl ⟨_, _, rfl, rfl, { hr with receive := .some hx }⟩
  | function f =>
    exact .inl ⟨_, _, rfl, rfl, { hr with functions := hr.functions.push f.name hx }⟩
  | event e => exact .inl ⟨_, _, rfl, rfl, { hr with events := hr.events.push e.name hx }⟩
  | error e => exact .inl ⟨_, _, rfl, rfl, { hr with errors := hr.errors.push e.name hx }⟩

/-- What is made from wrappers is made from the items that they refer to, each of which is owned by
its wrapper or new. -/
theorem Shows.takeAll {s : Store} {ws : List Nat} {items : List Item}
    (howned : ∀ w ∈ ws, ∀ i, s.wrappers[w]? = some ⟨i, true⟩ → P i)
    (hnew : ∀ i, s.objects.length ≤ i → P i) (hp : held.All P) (hr : held.Shows s abi)
    (h : List.Forall₂ (fun w x => s.wrapped? w = some x) ws items) :
    (∃ held' copies abi', held.takeAll s ws = .ok (held', ⟨s.objects ++ copies, s.wrappers⟩) ∧
      items.foldlM Abi.add abi = .ok abi' ∧ held'.All P ∧
      held'.Shows ⟨s.objects ++ copies, s.wrappers⟩ abi') ∨
    ∃ e, held.takeAll s ws = .error e ∧ items.foldlM Abi.add abi = .error e := by
  induction ws generalizing items held abi s with
  | nil =>
    cases h
    exact .inl ⟨held, [], abi, by rw [List.append_nil]; rfl, rfl, hp, by rwa [List.append_nil]⟩
  | cons w ws ih =>
    obtain ⟨x, items, hx, hrest, rfl⟩ := List.forall₂_cons_left_iff.mp h
    obtain ⟨i, copies, hout, hitem, hplace⟩ := exists_handOut hx
    have htake : held.take s w = (held.add i x).map fun held =>
        (held, ⟨s.objects ++ copies, s.wrappers⟩) := by
      rw [take, hout]
      simp only [hitem]
    have hi : P i := hplace.elim (howned w (by simp) i) (hnew i)
    have hkept : held.Rel (fun i x => P i ∧ item? ⟨s.objects ++ copies, s.wrappers⟩ i = some x)
        abi := rel_and_iff.mpr ⟨hp, hr.imp fun _ _ h => item?_append h⟩
    rw [HeldAbi.takeAll, htake, List.foldlM_cons]
    rcases hkept.add ⟨hi, hitem⟩ with ⟨held', abi', hheld, habi, hr'⟩ | ⟨e, hheld, habi⟩
    · obtain ⟨hp', hshows⟩ := rel_and_iff.mp hr'
      have hle : s.objects.length ≤ (s.objects ++ copies).length := by simp
      rw [hheld, habi]
      rcases ih (s := ⟨s.objects ++ copies, s.wrappers⟩)
        (fun v hv => howned v (List.mem_cons_of_mem w hv))
        (fun j hj => hnew j (Nat.le_trans hle hj)) hp' hshows
        (hrest.imp fun _ _ => wrapped?_append) with
        ⟨held'', copies', abi'', hfold, hitems, hp'', hr''⟩ | ⟨e, hfold, hitems⟩
      · simp only [List.append_assoc] at hfold hr''
        exact .inl ⟨held'', copies ++ copies', abi'', hfold, hitems, hp'', hr''⟩
      · exact .inr ⟨e, hfold, hitems⟩
    · rw [hheld, habi]
      exact .inr ⟨e, rfl, rfl⟩

/-- There is something at all places of an interface that is seen. -/
theorem Shows.known {s : Store} (h : held.Shows s abi) : held.All (· < s.objects.length) :=
  (rel_and_iff.mp (h.imp fun _ _ hx => ⟨lt_of_item? hx, hx⟩)).1

end HeldAbi

namespace Store

/-- The item that a wrapper hands out is the one that it refers to. If the wrapper borrows, it is
a copy behind all that was there, and whatever happens meanwhile, no accessor of the wrapper
changes it. If the wrapper owns its item, it is that item itself. An interface that is made from
wrappers is the interface of their items. It holds the items that some of them own and copies, and
an accessor of one of them changes nothing of that but the item that it owned by then. So an
accessor of one that borrowed does not change what the interface shows. -/
theorem Reached.handOut_independent {s : Store} (h : s.Reached) :
    (∀ (w i : Nat) (owned : Bool), s.wrappers[w]? = some ⟨i, owned⟩ →
      ∃ (x : Item) (j : Nat) (t : Store), s.wrapped? w = some x ∧ s.handOut w = (.place j, t) ∧
        t.item? j = some x ∧ (owned = true → j = i ∧ t = s) ∧
        (owned = false → s.objects.length ≤ j ∧ ∀ (events : List Event) (a : Action),
          a.writer? = some w →
            ((t.history events).act a).2.item? j = (t.history events).item? j)) ∧
    ∀ ws : List Nat, (∀ w ∈ ws, ∃ wrapper, s.wrappers[w]? = some wrapper) →
      ∃ items, List.Forall₂ (fun w x => s.wrapped? w = some x) ws items ∧
        ((∃ e, HeldAbi.ofWrappers s ws = .error e ∧ Abi.ofItems items = .error e) ∨
          ∃ (held : HeldAbi) (t : Store) (abi : Abi), HeldAbi.ofWrappers s ws = .ok (held, t) ∧
            Abi.ofItems items = .ok abi ∧ held.Shows t abi ∧
            held.All (fun j =>
              (∃ w ∈ ws, s.wrappers[w]? = some ⟨j, true⟩) ∨ s.objects.length ≤ j) ∧
            ∀ (events : List Event) (a : Action) (w : Nat), w ∈ ws → a.writer? = some w →
              held.All (fun j => s.wrappers[w]? ≠ some ⟨j, true⟩ →
                ((t.history events).act a).2.item? j = (t.history events).item? j) ∧
              ∀ i, s.wrappers[w]? = some ⟨i, false⟩ → ∀ abi',
                held.Shows ((t.history events).act a).2 abi' ↔
                  held.Shows (t.history events) abi') := by
  have hs := h.valid
  refine ⟨fun w i owned hw => ?_, fun ws hws => ?_⟩
  · obtain ⟨x, hx⟩ := hs _ (List.mem_of_getElem? hw)
    have hwrapped := (wrapped?_eq hw).trans hx
    cases owned with
    | true =>
      exact ⟨x, i, s, hwrapped, handOut_owned hw hx, hx, fun _ => ⟨rfl, rfl⟩, (fun h => by cases h)⟩
    | false =>
      refine ⟨x, s.objects.length, ⟨s.objects ++ [.item x], s.wrappers⟩, hwrapped,
        handOut_borrowed hw hx, item?_concat, (fun h => by cases h), fun _ => ⟨Nat.le_refl _, ?_⟩⟩
      have hapart : Apart ⟨s.objects ++ [.item x], s.wrappers⟩ w s.objects.length :=
        ⟨by simp, _, hw, by simp⟩
      exact fun events a ha => hapart.item?_act_history (hs.append _) events ha
  · obtain ⟨items, hitems⟩ := Sequencing.exists_forall₂ (R := fun w x => s.wrapped? w = some x)
      fun w hw => by
        obtain ⟨wrapper, hwrapper⟩ := hws w hw
        obtain ⟨x, hx⟩ := hs wrapper (List.mem_of_getElem? hwrapper)
        exact ⟨x, (wrapped?_eq hwrapper).trans hx⟩
    refine ⟨items, hitems, ?_⟩
    have hempty : HeldAbi.Shows {} s Abi.empty := ⟨.none, .none, .none, .nil, .nil, .nil⟩
    rcases hempty.takeAll (P := fun j => (∃ w ∈ ws, s.wrappers[w]? = some ⟨j, true⟩) ∨
        s.objects.length ≤ j) (fun w hw i hi => .inl ⟨w, hw, hi⟩) (fun i hi => .inr hi)
        ⟨by simp, by simp, by simp, by simp, by simp, by simp⟩ hitems with
      ⟨held, copies, abi, hheld, habi, hplaces, hshows⟩ | hrefused
    · refine .inr ⟨held, _, abi, hheld, habi, hshows, hplaces, fun events a w hw ha => ?_⟩
      obtain ⟨wrapper, hwrapper⟩ := hws w hw
      have hkept : held.All fun j => s.wrappers[w]? ≠ some ⟨j, true⟩ →
          ((history ⟨s.objects ++ copies, s.wrappers⟩ events).act a).2.item? j =
            (history ⟨s.objects ++ copies, s.wrappers⟩ events).item? j := by
        refine hshows.known.imp fun j hj hne => ?_
        have hapart : Apart ⟨s.objects ++ copies, s.wrappers⟩ w j :=
          ⟨hj, wrapper, hwrapper, fun heq => hne (heq ▸ hwrapper)⟩
        exact hapart.item?_act_history (hs.append copies) events ha
      refine ⟨hkept, fun i hi abi' => HeldAbi.shows_congr (hkept.imp fun j hj => hj ?_)⟩
      rw [hi]
      simp
    · exact .inl hrefused

/-- A wrapper borrows an error that another one owns, and hands out a copy of it. An interface made
from both holds the copy and the error. Renaming through the first wrapper changes neither. -/
theorem Reached.handOut_independent_rename :
    ∃ s t : Store, s.Reached ∧ s = ⟨[.item (.error ⟨"A", []⟩)], [⟨0, false⟩, ⟨0, true⟩]⟩ ∧
      s.handOut 0 = (.place 1, t) ∧
      (t.act (.rename 0 "B")).2.item? 1 = some (.error ⟨"A", []⟩) ∧
      HeldAbi.ofWrappers s [0, 1] = .ok ({ errors := [("A", [1, 0])] }, t) ∧
      HeldAbi.Shows { errors := [("A", [1, 0])] } (t.act (.rename 0 "B")).2
        { errors := [("A", [⟨"A", []⟩, ⟨"A", []⟩])] } := by
  have h : Reached ⟨[.item (.error ⟨"A", []⟩)], [⟨0, false⟩, ⟨0, true⟩]⟩ :=
    ⟨[.act (.add (.item (.error ⟨"A", []⟩))), .act (.wrap 0 false), .act (.wrap 0 true)], rfl⟩
  obtain ⟨single, interface⟩ := h.handOut_independent
  obtain ⟨x, j, t, hx, hout, hitem, -, hborrowed⟩ := single 0 0 false rfl
  cases hx
  cases hout
  obtain ⟨-, hlater⟩ := hborrowed rfl
  obtain ⟨items, hitems, ⟨e, he, -⟩ | ⟨held, t, abi, hheld, habi, hshows, -, hafter⟩⟩ :=
    interface [0, 1] (by simp)
  · cases he
  · obtain ⟨x, items, hx, hrest, rfl⟩ := List.forall₂_cons_left_iff.mp hitems
    obtain ⟨y, items, hy, hnil, rfl⟩ := List.forall₂_cons_left_iff.mp hrest
    cases hx
    cases hy
    cases hnil
    cases hheld
    cases habi
    obtain ⟨-, hsame⟩ := hafter [] (.rename 0 "B") 0 (by simp) rfl
    exact ⟨_, _, h, rfl, rfl, (hlater [] (.rename 0 "B") rfl).trans hitem, rfl,
      (hsame 0 rfl _).mpr hshows⟩

/-- A wrapper that owns its error hands out the error itself. A later renaming through the wrapper
changes it, and the interface that holds it goes on to show it among those of its former name. -/
theorem handOut_shared_of_owned :
    ∃ s : Store, s = ⟨[.item (.error ⟨"A", []⟩)], [⟨0, true⟩]⟩ ∧ s.Reached ∧
      s.handOut 0 = (.place 0, s) ∧ s.item? 0 = some (.error ⟨"A", []⟩) ∧
      (s.act (.rename 0 "B")).2.item? 0 = some (.error ⟨"B", []⟩) ∧
      HeldAbi.ofWrappers s [0] = .ok ({ errors := [("A", [0])] }, s) ∧
      HeldAbi.Shows { errors := [("A", [0])] } s { errors := [("A", [⟨"A", []⟩])] } ∧
      HeldAbi.Shows { errors := [("A", [0])] } (s.act (.rename 0 "B")).2
        { errors := [("A", [⟨"B", []⟩])] } := by
  have h : Reached ⟨[.item (.error ⟨"A", []⟩)], [⟨0, true⟩]⟩ :=
    ⟨[.act (.wrapNew (.item (.error ⟨"A", []⟩)))], rfl⟩
  exact ⟨_, rfl, h, rfl, rfl, rfl, rfl,
    ⟨.none, .none, .none, .nil, .nil, .cons ⟨rfl, .cons rfl .nil⟩ .nil⟩,
    ⟨.none, .none, .none, .nil, .nil, .cons ⟨rfl, .cons rfl .nil⟩ .nil⟩⟩

end Store

end ContractInterface
