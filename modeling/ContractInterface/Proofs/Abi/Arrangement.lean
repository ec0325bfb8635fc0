import ContractInterface.Proofs.Abi.Grouping
import ContractInterface.Proofs.Item.Decoding

/-! How the items of an interface are arranged. The order in which they came is kept among the
items of one kind and name, and nothing else of it. Items that are taken out in the new order and
put in again are arranged as they were. -/
namespace ContractInterface
open Sequencing

/-- The kinds of which an interface has one item at most. -/
def Kind.isSingle : Kind → Bool
  | .constructor | .fallback | .receive => true
  | .function | .event | .error => false

namespace Item

@[simp] def constructor? : Item → Option ConstructorItem
  | constructor c => some c
  | _ => none

@[simp] def fallback? : Item → Option Mutability
  | fallback m => some m
  | _ => none

@[simp] def receive? : Item → Option Mutability
  | receive m => some m
  | _ => none

@[simp] def function? : Item → Option FunctionItem
  | function f => some f
  | _ => none

@[simp] def event? : Item → Option EventItem
  | event e => some e
  | _ => none

@[simp] def error? : Item → Option ErrorItem
  | error e => some e
  | _ => none

/-- What the items of a kind are made of is picked from them, and from no others. -/
def Picks {α : Type} (pick : Item → Option α) (make : α → Item) (kind : Kind) : Prop :=
  ∀ x, (pick x).map make = if x.kind = kind then some x else none

theorem picks_constructor : Picks constructor? constructor .constructor := by
  intro x
  cases x <;> simp [kind]

theorem picks_fallback : Picks fallback? fallback .fallback := by
  intro x
  cases x <;> simp [kind]

theorem picks_receive : Picks receive? receive .receive := by
  intro x
  cases x <;> simp [kind]

theorem picks_function : Picks function? function .function := by
  intro x
  cases x <;> simp [kind]

theorem picks_event : Picks event? event .event := by
  intro x
  cases x <;> simp [kind]

theorem picks_error : Picks error? error .error := by
  intro x
  cases x <;> simp [kind]

namespace Picks

variable {α : Type} {pick : Item → Option α} {make : α → Item} {kind : Kind}

theorem map_filterMap (h : Picks pick make kind) (xs : List Item) :
    (xs.filterMap pick).map make = xs.filter (·.kind = kind) := by
  rw [List.map_filterMap]
  simp only [h _]
  induction xs with
  | nil => rfl
  | cons x xs ih => by_cases hx : x.kind = kind <;> simp [hx, ih]

theorem filterMap_eq_nil_iff (h : Picks pick make kind) {xs : List Item} :
    xs.filterMap pick = [] ↔ ∀ x ∈ xs, x.kind ≠ kind := by
  rw [← List.map_eq_nil_iff, h.map_filterMap, List.filter_eq_nil_iff]
  simp

/-- If there is one item of the kind at most, the first is all that there are. -/
theorem toList_head? (h : Picks pick make kind) {xs : List Item}
    (honce : xs.countP (·.kind = kind) ≤ 1) :
    ((xs.filterMap pick).head?.map make).toList = xs.filter (·.kind = kind) := by
  rw [List.countP_eq_length_filter, ← h.map_filterMap, List.length_map] at honce
  rw [← h.map_filterMap]
  generalize xs.filterMap pick = picked at honce
  match picked with
  | [] => rfl
  | [a] => rfl
  | a :: b :: rest => simp at honce

end Picks

end Item

namespace Abi
open Overloads

variable {xs : List Item} {abi : Abi}

/-- Of each of the kinds that an interface has once there is one item at most. -/
def SinglesOnce (xs : List Item) : Prop :=
  ∀ kind : Kind, kind.isSingle = true → xs.countP (·.kind = kind) ≤ 1

/-- The item is of a kind of which an interface has one, and is not the first of it. -/
def Repeats (xs : List Item) (x : Item) : Prop :=
  x.kind.isSingle = true ∧ ∃ y ∈ xs, y.kind = x.kind

theorem singlesOnce_concat {x : Item} :
    SinglesOnce (xs ++ [x]) ↔ SinglesOnce xs ∧ ¬ Repeats xs x := by
  have hcount (kind : Kind) : (xs ++ [x]).countP (·.kind = kind) =
      xs.countP (·.kind = kind) + if x.kind = kind then 1 else 0 := by
    simp [List.countP_append, List.countP_singleton]
  constructor
  · intro h
    refine ⟨fun kind hkind => ?_, ?_⟩
    · have := h kind hkind
      rw [hcount] at this
      omega
    · rintro ⟨hsingle, y, hy, hyx⟩
      have hpos : 0 < xs.countP (·.kind = x.kind) :=
        List.countP_pos_iff.mpr ⟨y, hy, decide_eq_true hyx⟩
      have := h x.kind hsingle
      rw [hcount, if_pos rfl] at this
      omega
  · rintro ⟨h, hx⟩ kind hkind
    rw [hcount]
    split
    · next heq =>
      have hnone : xs.countP (·.kind = kind) = 0 := by
        rw [List.countP_eq_zero]
        intro y hy hyk
        exact hx ⟨heq ▸ hkind, y, hy, (of_decide_eq_true hyk).trans heq.symm⟩
      omega
    · exact h kind hkind

/-- The interface that items make up. -/
def arranged (xs : List Item) : Abi where
  constructor := (xs.filterMap Item.constructor?).head?
  fallback := (xs.filterMap Item.fallback?).head?
  receive := (xs.filterMap Item.receive?).head?
  functions := grouped (·.name) (xs.filterMap Item.function?)
  events := grouped (·.name) (xs.filterMap Item.event?)
  errors := grouped (·.name) (xs.filterMap Item.error?)

theorem add_arranged_of_repeats {x : Item} (h : Repeats xs x) :
    add (arranged xs) x = .error (.decode (.repeated x.kind)) := by
  obtain ⟨hsingle, y, hy, hyx⟩ := h
  have present {α : Type} {pick : Item → Option α} {make : α → Item}
      (hpick : Item.Picks pick make x.kind) : (xs.filterMap pick).head?.isSome = true := by
    have hne : xs.filterMap pick ≠ [] := fun hnil => hpick.filterMap_eq_nil_iff.mp hnil y hy hyx
    obtain ⟨z, zs, hz⟩ := List.exists_cons_of_ne_nil hne
    rw [hz]
    rfl
  cases x with
  | constructor c => exact if_pos (present Item.picks_constructor)
  | fallback m => exact if_pos (present Item.picks_fallback)
  | receive m => exact if_pos (present Item.picks_receive)
  | _ => cases hsingle

theorem add_arranged {x : Item} (h : ¬ Repeats xs x) :
    add (arranged xs) x = .ok (arranged (xs ++ [x])) := by
  have absent {α : Type} {pick : Item → Option α} {make : α → Item}
      (hsingle : x.kind.isSingle = true) (hpick : Item.Picks pick make x.kind) :
      xs.filterMap pick = [] :=
    hpick.filterMap_eq_nil_iff.mpr fun y hy heq => h ⟨hsingle, y, hy, heq⟩
  simp only [arranged, List.filterMap_append, List.filterMap_cons, List.filterMap_nil]
  cases x with
  | constructor c => simp [add, absent rfl Item.picks_constructor]
  | fallback m => simp [add, absent rfl Item.picks_fallback]
  | receive m => simp [add, absent rfl Item.picks_receive]
  | function f => simp [add, push_grouped]
  | event e => simp [add, push_grouped]
  | error e => simp [add, push_grouped]

/-- Items make up an interface, or one of them is refused that is not the first of its kind. -/
theorem ofItems_cases (xs : List Item) :
    SinglesOnce xs ∧ ofItems xs = .ok (arranged xs) ∨
      ¬ SinglesOnce xs ∧
        ∃ kind : Kind, kind.isSingle = true ∧ ofItems xs = .error (.decode (.repeated kind)) := by
  induction xs using List.reverseRecOn with
  | nil => exact .inl ⟨by simp [SinglesOnce], rfl⟩
  | append_singleton xs x ih =>
    have hstep : ofItems (xs ++ [x]) = ofItems xs >>= (add · x) := by
      simp [ofItems, List.foldlM_append]
    rw [hstep, singlesOnce_concat]
    rcases ih with ⟨honce, hxs⟩ | ⟨hagain, kind, hkind, hxs⟩
    · rw [hxs]
      by_cases hx : Repeats xs x
      · exact .inr ⟨fun h => h.2 hx, x.kind, hx.1, add_arranged_of_repeats hx⟩
      · exact .inl ⟨⟨honce, hx⟩, add_arranged hx⟩
    · rw [hxs]
      exact .inr ⟨fun h => hagain h.1, kind, hkind, rfl⟩

theorem ofItems_eq_ok : ofItems xs = .ok abi ↔ SinglesOnce xs ∧ abi = arranged xs := by
  rcases ofItems_cases xs with ⟨honce, hxs⟩ | ⟨hagain, kind, -, hxs⟩
  · rw [hxs, Except.ok.injEq, eq_comm]
    exact (and_iff_right honce).symm
  · rw [hxs]
    simp [hagain]

/-- The items of an interface in their order: one after the other those of which it has one, and
then for each of the other kinds what has the same name together. -/
def arrange (xs : List Item) : List Item :=
  xs.filter (·.kind = .constructor) ++ xs.filter (·.kind = .fallback) ++
    xs.filter (·.kind = .receive) ++
    (byName (·.name) (xs.filterMap Item.function?)).map .function ++
    (byName (·.name) (xs.filterMap Item.event?)).map .event ++
    (byName (·.name) (xs.filterMap Item.error?)).map .error

theorem items_arranged (h : SinglesOnce xs) : items (arranged xs) = arrange xs := by
  rw [items, arranged, arrange]
  simp only [all_grouped, Item.picks_constructor.toList_head? (h _ rfl),
    Item.picks_fallback.toList_head? (h _ rfl), Item.picks_receive.toList_head? (h _ rfl)]

theorem perm_kinds (xs : List Item) :
    (xs.filter (·.kind = .constructor) ++ xs.filter (·.kind = .fallback) ++
      xs.filter (·.kind = .receive) ++ xs.filter (·.kind = .function) ++
      xs.filter (·.kind = .event) ++ xs.filter (·.kind = .error)).Perm xs := by
  have hcount (kind : Kind) (x : Item) :
      (xs.filter (·.kind = kind)).count x = if x.kind = kind then xs.count x else 0 := by
    split
    · next hx => exact List.count_filter (decide_eq_true hx)
    · next hx =>
      rw [List.count_eq_zero, List.mem_filter]
      exact fun hmem => hx (of_decide_eq_true hmem.2)
  rw [List.perm_iff_count]
  intro x
  simp only [List.count_append, hcount]
  cases x.kind <;> simp

/-- The items of an interface are those that it was made up of. -/
theorem perm_arrange (xs : List Item) : (arrange xs).Perm xs := by
  refine List.Perm.trans ?_ (perm_kinds xs)
  rw [← Item.picks_function.map_filterMap, ← Item.picks_event.map_filterMap,
    ← Item.picks_error.map_filterMap, arrange]
  exact (((List.Perm.refl _).append ((perm_byName _).map _)).append
    ((perm_byName _).map _)).append ((perm_byName _).map _)

theorem mem_items_arranged (h : SinglesOnce xs) {x : Item} :
    x ∈ (arranged xs).items ↔ x ∈ xs := by
  rw [items_arranged h]
  exact (perm_arrange xs).mem_iff

/-- Every group has items of its name, and only those. -/
structure KeyedByName (abi : Abi) : Prop where
  functions : Keyed FunctionItem.name abi.functions
  events : Keyed EventItem.name abi.events
  errors : Keyed ErrorItem.name abi.errors

theorem keyedByName_arranged (xs : List Item) : (arranged xs).KeyedByName :=
  ⟨keyed_grouped _, keyed_grouped _, keyed_grouped _⟩

/-- Whatever is picked from the items of an interface is picked from each of its parts. -/
theorem filterMap_items {α : Type} (pick : Item → Option α) (abi : Abi) :
    abi.items.filterMap pick =
      abi.constructor.toList.filterMap (pick ∘ .constructor) ++
        abi.fallback.toList.filterMap (pick ∘ .fallback) ++
        abi.receive.toList.filterMap (pick ∘ .receive) ++
        (all abi.functions).filterMap (pick ∘ .function) ++
        (all abi.events).filterMap (pick ∘ .event) ++
        (all abi.errors).filterMap (pick ∘ .error) := by
  simp [items, Option.toList_map, List.filterMap_map]

/-- The items of an interface, taken in its own order, make it up again. -/
theorem arranged_items (h : abi.KeyedByName) : arranged abi.items = abi := by
  simp [arranged, filterMap_items, Function.comp_def, grouped_all h.functions,
    grouped_all h.events, grouped_all h.errors]

theorem SinglesOnce.of_perm {ys : List Item} (h : SinglesOnce xs) (hperm : ys.Perm xs) :
    SinglesOnce ys := by
  intro kind hkind
  rw [hperm.countP_eq]
  exact h kind hkind

theorem ofItems_items (h : ofItems xs = .ok abi) : ofItems abi.items = .ok abi := by
  obtain ⟨honce, rfl⟩ := ofItems_eq_ok.mp h
  refine ofItems_eq_ok.mpr ⟨?_, (arranged_items (keyedByName_arranged xs)).symm⟩
  rw [items_arranged honce]
  exact honce.of_perm (perm_arrange xs)

/-- Items that are written as JSON are decoded and added one by one. -/
theorem ofJson_map_toJson (h : ∀ x ∈ xs, Item.ofJson x.toJson = .ok x) :
    ofJson (.array (xs.map Item.toJson)) = ofItems xs := by
  have hfold (abi : Abi) :
      (xs.map Item.toJson).foldlM (fun abi x => Item.ofJson x >>= abi.add) abi =
        xs.foldlM add abi := by
    induction xs generalizing abi with
    | nil => rfl
    | cons x xs ih =>
      obtain ⟨hx, hxs⟩ := List.forall_mem_cons.mp h
      rw [List.map_cons, List.foldlM_cons, List.foldlM_cons, hx]
      exact bind_congr (ih hxs)
  exact hfold empty

/-- Adding an object leaves the interface as it was where the object is refused. -/
theorem run_adding (abi : Abi) (o : Object) :
    (adding o).run.run abi =
      match abi.addObject o with
      | .ok abi' => (.ok (), abi')
      | .error e => (.error e, abi) := by
  cases o with
  | param p => rfl
  | item x =>
    -- where an item stands alone, what happens hangs on whether its place is free
    cases x with
    | function f => rfl
    | event e => rfl
    | error e => rfl
    | constructor c =>
      obtain ⟨place, _, _, _, _, _⟩ := abi
      cases place <;> rfl
    | fallback m =>
      obtain ⟨_, place, _, _, _, _⟩ := abi
      cases place <;> rfl
    | receive m =>
      obtain ⟨_, _, place, _, _, _⟩ := abi
      cases place <;> rfl

theorem result_adding (abi : Abi) (o : Object) :
    (adding o).result abi = (abi.addObject o).map fun _ => () := by
  rw [Operation.result, run_adding]
  cases abi.addObject o <;> rfl

/-- The interface that a call leaves, be it that it fails. -/
def attempt (abi : Abi) (o : Object) : Abi := (adding o).after abi

/-- The interface after one call for each object, the refused ones included. -/
def attempts (start : Abi) (os : List Object) : Abi := os.foldl attempt start

theorem attempts_concat (start : Abi) (os : List Object) (o : Object) :
    attempts start (os ++ [o]) = attempt (attempts start os) o := by
  simp [attempts]

theorem addObject_item (abi : Abi) (x : Item) : abi.addObject (.item x) = abi.add x := rfl

theorem attempt_of_ok {o : Object} {abi' : Abi} (h : abi.addObject o = .ok abi') :
    attempt abi o = abi' := by
  rw [attempt, Operation.after, run_adding, h]

theorem attempt_of_error {o : Object} {e : Failure} (h : abi.addObject o = .error e) :
    attempt abi o = abi := by
  rw [attempt, Operation.after, run_adding, h]

/-- An interface has room for one item only where one is all that it may have. -/
theorem singlesOnce_items (abi : Abi) : SinglesOnce abi.items := by
  have hcount {α : Type} {pick : Item → Option α} {make : α → Item} {kind : Kind}
      (hpick : Item.Picks pick make kind) :
      abi.items.countP (·.kind = kind) = (abi.items.filterMap pick).length := by
    rw [List.countP_eq_length_filter, ← hpick.map_filterMap, List.length_map]
  intro kind hkind
  cases kind with
  | constructor =>
    rw [hcount Item.picks_constructor]
    simp [filterMap_items, Function.comp_def]
  | fallback =>
    rw [hcount Item.picks_fallback]
    simp [filterMap_items, Function.comp_def]
  | receive =>
    rw [hcount Item.picks_receive]
    simp [filterMap_items, Function.comp_def]
  | _ => cases hkind

/-- After any calls the interface is made up of the items that it had, and behind them of those
among the objects that were not refused, in the order in which they came. -/
theorem exists_attempts_eq {start : Abi} (h : start.KeyedByName) (os : List Object) :
    ∃ kept, kept.Sublist (os.filterMap Object.item?) ∧ SinglesOnce (start.items ++ kept) ∧
      attempts start os = arranged (start.items ++ kept) := by
  induction os using List.reverseRecOn with
  | nil =>
    refine ⟨[], .refl _, ?_, ?_⟩
    · rw [List.append_nil]
      exact singlesOnce_items start
    · rw [List.append_nil, arranged_items h]
      rfl
  | append_singleton os o ih =>
    obtain ⟨kept, hsub, honce, hkept⟩ := ih
    rw [attempts_concat, hkept, List.filterMap_append]
    have hrefused {e : Failure} (he : addObject (arranged (start.items ++ kept)) o = .error e) :
        ∃ kept', kept'.Sublist (os.filterMap Object.item? ++ [o].filterMap Object.item?) ∧
          SinglesOnce (start.items ++ kept') ∧
          attempt (arranged (start.items ++ kept)) o = arranged (start.items ++ kept') :=
      ⟨kept, hsub.trans (List.sublist_append_left _ _), honce, attempt_of_error he⟩
    cases o with
    | param p => exact hrefused rfl
    | item x =>
      by_cases hx : Repeats (start.items ++ kept) x
      · exact hrefused (add_arranged_of_repeats hx)
      · refine ⟨kept ++ [x], hsub.append (.refl _), ?_, ?_⟩
        · rw [← List.append_assoc]
          exact singlesOnce_concat.mpr ⟨honce, hx⟩
        · rw [← List.append_assoc]
          exact attempt_of_ok (add_arranged hx)

theorem repeats_iff_of_perm {ys : List Item} (h : ys.Perm xs) {x : Item} :
    Repeats ys x ↔ Repeats xs x := by
  simp only [Repeats, h.mem_iff]

/-- An object is taken exactly if it is an item, and no second one of a kind that stands alone. -/
theorem exists_addObject_iff {xs : List Item} (h : SinglesOnce xs) (o : Object) :
    (∃ abi, (arranged xs).addObject o = .ok abi) ↔
      ∃ x, o = .item x ∧ ¬ Repeats (arranged xs).items x := by
  cases o with
  | param p => simp [addObject, Object.toItem, bind, Except.bind]
  | item x =>
    have hrepeats : Repeats (arranged xs).items x ↔ Repeats xs x := by
      rw [items_arranged h]
      exact repeats_iff_of_perm (perm_arrange xs)
    rw [addObject_item]
    by_cases hx : Repeats xs x
    · simp [add_arranged_of_repeats hx, hrepeats, hx]
    · simp [add_arranged hx, hrepeats, hx]

/-- Decoded items make up an interface exactly if none of a kind that stands alone is repeated.
Its items are the same ones, arranged by kind and name, and from its JSON it is got back. After any
calls that add to an interface, it is as if only those that were not refused had been made, and
every group has items of its name. -/
theorem ofItems_arranges :
    (∀ xs : List Item, (∀ x ∈ xs, ∃ j, Item.ofJson j = .ok x) →
      ((∃ abi, ofItems xs = .ok abi) ↔ SinglesOnce xs) ∧
      (∀ e, ofItems xs = .error e →
        ∃ kind : Kind, kind.isSingle = true ∧ e = .decode (.repeated kind)) ∧
      ∀ abi, ofItems xs = .ok abi →
        abi.items = arrange xs ∧ abi.items.Perm xs ∧ abi.size = xs.length ∧
        ofJson (.array abi.toJsons) = .ok abi ∧
        (ofJson (.array abi.toJsons)).map toJsons = .ok abi.toJsons) ∧
    (∀ xs abi, ofItems xs = .ok abi → abi.KeyedByName) ∧
    ∀ start : Abi, start.KeyedByName → ∀ os : List Object,
      (∃ kept, kept.Sublist (os.filterMap Object.item?) ∧
        ofItems (start.items ++ kept) = .ok (attempts start os)) ∧
      (∀ o, (adding o).result (attempts start os) =
        ((attempts start os).addObject o).map fun _ => ()) ∧
      (∀ o e, (attempts start os).addObject o = .error e →
        attempts start (os ++ [o]) = attempts start os) ∧
      (∀ o abi, (attempts start os).addObject o = .ok abi → attempts start (os ++ [o]) = abi) ∧
      (∀ o, (∃ abi, (attempts start os).addObject o = .ok abi) ↔
        ∃ x, o = .item x ∧ ¬ Repeats (attempts start os).items x) ∧
      (attempts start os).KeyedByName := by
  refine ⟨?_, ?_, ?_⟩
  · intro xs hdecoded
    refine ⟨?_, ?_, ?_⟩
    · simp [ofItems_eq_ok]
    · intro e he
      rcases ofItems_cases xs with ⟨-, hxs⟩ | ⟨-, kind, hkind, hxs⟩
      · cases hxs.symm.trans he
      · cases hxs.symm.trans he
        exact ⟨kind, hkind, rfl⟩
    · intro abi habi
      obtain ⟨honce, rfl⟩ := ofItems_eq_ok.mp habi
      have hitems := items_arranged honce
      have hperm : (items (arranged xs)).Perm xs := hitems ▸ perm_arrange xs
      have hagain : ofJson (.array (toJsons (arranged xs))) = .ok (arranged xs) := by
        rw [toJsons, ofJson_map_toJson, ofItems_items habi]
        intro x hx
        obtain ⟨j, hj⟩ := hdecoded x (hperm.mem_iff.mp hx)
        exact (Item.wellFormed_of_ofJson hj).ofJson_toJson
      exact ⟨hitems, hperm, hperm.length_eq, hagain, by rw [hagain]; rfl⟩
  · intro xs abi habi
    obtain ⟨-, rfl⟩ := ofItems_eq_ok.mp habi
    exact keyedByName_arranged xs
  · intro start hstart os
    obtain ⟨kept, hsub, honce, hkept⟩ := exists_attempts_eq hstart os
    refine ⟨⟨kept, hsub, ofItems_eq_ok.mpr ⟨honce, hkept⟩⟩, result_adding _, ?_, ?_, ?_, ?_⟩
    · intro o e he
      rw [attempts_concat, attempt_of_error he]
    · intro o abi habi
      rw [attempts_concat, attempt_of_ok habi]
    · rw [hkept]
      exact exists_addObject_iff honce
    · rw [hkept]
      exact keyedByName_arranged _

/-- Functions of two names, an event and a constructor, in no good order. -/
def mixed : List Item :=
  [.function ⟨"f", [], [], .view⟩, .event ⟨"Sent", [], false⟩, .function ⟨"g", [], [], .pure⟩,
    .constructor ⟨[], .payable⟩, .function ⟨"f", [⟨"", "bool", [], none, none⟩], [], .view⟩]

theorem ofItems_arranges_mixed :
    ∃ abi, ofItems mixed = .ok abi ∧ abi.size = 5 ∧ ofJson (.array abi.toJsons) = .ok abi ∧
      abi.items = [.constructor ⟨[], .payable⟩, .function ⟨"f", [], [], .view⟩,
        .function ⟨"f", [⟨"", "bool", [], none, none⟩], [], .view⟩,
        .function ⟨"g", [], [], .pure⟩, .event ⟨"Sent", [], false⟩] ∧
      (∃ e, abi.addObject (.item (.constructor ⟨[], .view⟩)) = .error e ∧
        attempts abi [.item (.constructor ⟨[], .view⟩)] = abi) ∧
      abi.KeyedByName := by
  obtain ⟨makeUp, keyed, calls⟩ := ofItems_arranges
  have hdecoded : ∀ x ∈ mixed, (Item.ofJson x.toJson).toOption = some x := by decide +kernel
  have honce : SinglesOnce mixed := by
    intro kind hkind
    revert hkind
    cases kind <;> decide
  obtain ⟨hiff, -, hmade⟩ :=
    makeUp mixed fun x hx => ⟨x.toJson, toOption_eq_some.mp (hdecoded x hx)⟩
  obtain ⟨abi, habi⟩ := hiff.mpr honce
  obtain ⟨hitems, -, hsize, hagain, -⟩ := hmade abi habi
  have hlist := hitems.trans (by decide +kernel : arrange mixed =
    [.constructor ⟨[], .payable⟩, .function ⟨"f", [], [], .view⟩,
      .function ⟨"f", [⟨"", "bool", [], none, none⟩], [], .view⟩,
      .function ⟨"g", [], [], .pure⟩, .event ⟨"Sent", [], false⟩])
  obtain ⟨-, -, hrefused, -, htaken, hkeyed⟩ := calls abi (keyed mixed abi habi) []
  obtain ⟨e, he⟩ : ∃ e, abi.addObject (.item (.constructor ⟨[], .view⟩)) = .error e := by
    apply exists_error_of_not_ok
    intro h
    obtain ⟨x, hx, hfirst⟩ := (htaken _).mp h
    cases hx
    exact hfirst ⟨rfl, .constructor ⟨[], .payable⟩, by simp [attempts, hlist], rfl⟩
  exact ⟨abi, habi, hsize, hagain, hlist, ⟨e, he, hrefused _ e he⟩, hkeyed⟩

end Abi

end ContractInterface
