import ContractInterface.Proofs.Store.Accessors

/-! Items in a store are isolated from each other. What one event can do is said once, as its
effect, and what a whole history can do follows from it. -/
namespace ContractInterface.Store

/-- What may happen to a store: an action, or a change of an item by whoever holds it. -/
inductive Event
  | act (a : Action)
  | overwrite (i : Nat) (x : Item)

namespace Event

/-- The wrapper that a mutating accessor is called on. -/
def writer? : Event → Option Nat
  | act a => a.writer?
  | overwrite _ _ => none

/-- The item that is changed directly, without a wrapper. -/
def target? : Event → Option Nat
  | act (.editItem i _ _) => some i
  | overwrite i _ => some i
  | act _ => none

end Event

def after (s : Store) : Event → Store
  | .act a => (s.act a).2
  | .overwrite i x => s.replaceItem i x

def history (s : Store) (events : List Event) : Store := events.foldl after s

theorem history_cons (s : Store) (e : Event) (events : List Event) :
    s.history (e :: events) = (s.after e).history events := rfl

/-- The event may write to the item at a place: directly, or by a wrapper that owns it. -/
def Writes (s : Store) (e : Event) (i : Nat) : Prop :=
  e.target? = some i ∨ ∃ w, e.writer? = some w ∧ s.wrappers[w]? = some ⟨i, true⟩

/-- Every wrapper refers to an item. -/
def Valid (s : Store) : Prop := ∀ x ∈ s.wrappers, ∃ y, s.item? x.item = some y

/-- All that an event can do to a store. -/
inductive Effect (s : Store) (e : Event) : Store → Prop
  | unchanged : Effect s e s
  | added (objects : List Object) (wrappers : List Wrapper) (no_writer : e.writer? = none)
      (valid : ∀ x ∈ wrappers,
        ∃ y, item? ⟨s.objects ++ objects, s.wrappers ++ wrappers⟩ x.item = some y) :
      Effect s e ⟨s.objects ++ objects, s.wrappers ++ wrappers⟩
  | direct {i : Nat} (x : Item) (target : e.target? = some i) (no_writer : e.writer? = none) :
      Effect s e (s.replaceItem i x)
  | inPlace {w i : Nat} (x : Item) (writer : e.writer? = some w)
      (owned : s.wrappers[w]? = some ⟨i, true⟩) : Effect s e (s.replaceItem i x)
  | copied {w i : Nat} (x : Item) (writer : e.writer? = some w)
      (borrowed : s.wrappers[w]? = some ⟨i, false⟩) :
      Effect s e ⟨s.objects ++ [.item x], s.wrappers.set w ⟨s.objects.length, true⟩⟩

variable {s t : Store} {e : Event}

theorem effect_of_writer {a : Action} {w : Nat} (hs : s.Valid) (ha : a.writer? = some w) :
    Effect s (.act a) (s.act a).2 := by
  cases hw : s.wrappers[w]? with
  | none =>
    rw [act_of_no_wrapper ha hw]
    exact .unchanged
  | some wrapper =>
    obtain ⟨i, owned⟩ := wrapper
    obtain ⟨x, hx⟩ := hs _ (List.mem_of_getElem? hw)
    cases h : a.applies x with
    | false =>
      rw [act_of_not_applies ha hw hx h]
      exact .unchanged
    | true =>
      cases owned with
      | true =>
        rw [act_of_owned ha hw hx h]
        exact .inPlace _ ha hw
      | false =>
        rw [act_of_borrowed ha hw hx h]
        exact .copied _ ha hw

theorem effect_of_add (o : Object) (no_writer : e.writer? = none) :
    Effect s e ⟨s.objects ++ [o], s.wrappers⟩ := by
  have h : Effect s e ⟨s.objects ++ [o], s.wrappers ++ []⟩ := .added [o] [] no_writer (by simp)
  rwa [List.append_nil] at h

theorem effect_of_wrap (i : Nat) (owned : Bool) (no_writer : e.writer? = none) :
    Effect s e (s.wrap i owned).2 := by
  unfold wrap
  split
  · exact .unchanged
  · exact .unchanged
  · next x hx =>
    have hitem : s.item? i = some x := by rw [item?, hx]; rfl
    have h : Effect s e ⟨s.objects ++ [], s.wrappers ++ [⟨i, owned⟩]⟩ :=
      .added [] [⟨i, owned⟩] no_writer (by simpa [item?] using ⟨x, hitem⟩)
    rwa [List.append_nil] at h

theorem effect_of_wrapNew (o : Object) (no_writer : e.writer? = none) :
    Effect s e (s.wrapNew o).2 := by
  cases o with
  | param p => exact .unchanged
  | item x =>
    have hwrap : (s.wrapNew (.item x)).2 =
        ⟨s.objects ++ [.item x], s.wrappers ++ [⟨s.objects.length, true⟩]⟩ := by
      simp [wrapNew, Store.add, wrap]
    rw [hwrap]
    exact .added _ _ no_writer (by simp [item?, Object.item?])

theorem effect_of_handOut (w : Nat) (no_writer : e.writer? = none) :
    Effect s e (s.handOut w).2 := by
  unfold handOut
  split
  · split
    · exact .unchanged
    · exact effect_of_add _ no_writer
  · exact .unchanged

theorem effect_of_editItem (i : Nat) (field : ListField) (edit : Edit)
    (target : e.target? = some i) (no_writer : e.writer? = none) :
    Effect s e (s.editItem i field edit).2 := by
  cases hx : s.item? i with
  | none =>
    rw [editItem, hx]
    exact .unchanged
  | some x =>
    rw [editItem_snd hx]
    exact .direct _ target no_writer

/-- Nothing else happens. -/
theorem effect (hs : s.Valid) (e : Event) : Effect s e (s.after e) := by
  cases e with
  | overwrite i x => exact .direct x rfl rfl
  | act a =>
    cases a with
    | add o => exact effect_of_add o rfl
    | wrap i owned => exact effect_of_wrap i owned rfl
    | wrapNew o => exact effect_of_wrapNew o rfl
    | handOut w => exact effect_of_handOut w rfl
    | editItem i field edit => exact effect_of_editItem i field edit rfl rfl
    | toOwned w => exact effect_of_writer hs rfl
    | rename w name => exact effect_of_writer hs rfl
    | setMutability w m => exact effect_of_writer hs rfl
    | edit w field edit => exact effect_of_writer hs rfl

/-- Items stay items when something is put behind them. -/
theorem item?_append {objects : List Object} {wrappers : List Wrapper} {i : Nat} {x : Item}
    (h : s.item? i = some x) : item? ⟨s.objects ++ objects, wrappers⟩ i = some x := by
  rw [item?, List.getElem?_append_left (lt_of_item? h), Store.getElem?_objects h]
  rfl

theorem exists_item?_replaceItem {i j : Nat} {x y : Item} (h : s.item? j = some y) :
    ∃ z, (s.replaceItem i x).item? j = some z := by
  by_cases hij : i = j
  · subst hij
    exact ⟨x, by rw [item?, replaceItem, List.getElem?_set_self (lt_of_item? h)]; rfl⟩
  · exact ⟨y, by
      rw [item?, replaceItem, List.getElem?_set_ne hij, Store.getElem?_objects h]; rfl⟩

namespace Effect

theorem length_le (h : Effect s e t) : s.objects.length ≤ t.objects.length := by
  cases h <;> simp [replaceItem]

/-- An item is as it was unless the event may write to it. -/
theorem getElem?_objects (h : Effect s e t) {i : Nat} (hi : i < s.objects.length)
    (hw : ¬ Writes s e i) : t.objects[i]? = s.objects[i]? := by
  cases h with
  | unchanged => rfl
  | added objects _ _ _ => exact List.getElem?_append_left hi
  | @direct j _ target _ =>
    have hne : j ≠ i := by
      rintro rfl
      exact hw (.inl target)
    exact List.getElem?_set_ne hne
  | @inPlace w j _ writer owned =>
    have hne : j ≠ i := by
      rintro rfl
      exact hw (.inr ⟨w, writer, owned⟩)
    exact List.getElem?_set_ne hne
  | copied _ _ _ => exact List.getElem?_append_left hi

/-- A wrapper is as it was, or its own accessor has made it own a new object. -/
theorem getElem?_wrappers (h : Effect s e t) {w : Nat} {wrapper : Wrapper}
    (hw : s.wrappers[w]? = some wrapper) :
    t.wrappers[w]? = some wrapper ∨
      e.writer? = some w ∧ wrapper.owned = false ∧
        t.wrappers[w]? = some ⟨s.objects.length, true⟩ := by
  obtain ⟨hlt, -⟩ := List.getElem?_eq_some_iff.mp hw
  cases h with
  | unchanged => exact .inl hw
  | added _ _ _ _ => exact .inl (by rw [List.getElem?_append_left hlt, hw])
  | direct _ _ _ => exact .inl hw
  | inPlace _ _ _ => exact .inl hw
  | @copied v i _ writer borrowed =>
    by_cases hv : v = w
    · subst hv
      cases hw.symm.trans borrowed
      exact .inr ⟨writer, rfl, List.getElem?_set_self hlt⟩
    · exact .inl (by rw [List.getElem?_set_ne hv, hw])

theorem valid (h : Effect s e t) (hs : s.Valid) : t.Valid := by
  intro wrapper hwrapper
  cases h with
  | unchanged => exact hs wrapper hwrapper
  | added _ _ _ valid =>
    rcases List.mem_append.mp hwrapper with hold | hnew
    · obtain ⟨y, hy⟩ := hs wrapper hold
      exact ⟨y, item?_append hy⟩
    · exact valid wrapper hnew
  | direct _ _ _ =>
    obtain ⟨y, hy⟩ := hs wrapper hwrapper
    exact exists_item?_replaceItem hy
  | inPlace _ _ _ =>
    obtain ⟨y, hy⟩ := hs wrapper hwrapper
    exact exists_item?_replaceItem hy
  | copied x _ _ =>
    rcases List.mem_or_eq_of_mem_set hwrapper with hold | rfl
    · obtain ⟨y, hy⟩ := hs wrapper hold
      exact ⟨y, item?_append hy⟩
    · exact ⟨x, by simp [item?, Object.item?]⟩

/-- An accessor makes no copy, or one by which its wrapper stops borrowing. -/
theorem length_of_writer (h : Effect s e t) {w : Nat} (hw : e.writer? = some w) :
    t.objects.length = s.objects.length ∨
      t.objects.length = s.objects.length + 1 ∧
        (∃ i, s.wrappers[w]? = some ⟨i, false⟩) ∧
        t.wrappers[w]? = some ⟨s.objects.length, true⟩ := by
  cases h with
  | unchanged => exact .inl rfl
  | added _ _ no_writer _ => cases no_writer.symm.trans hw
  | direct _ _ no_writer => cases no_writer.symm.trans hw
  | inPlace _ _ _ => exact .inl (by simp [replaceItem])
  | @copied v i _ writer borrowed =>
    cases writer.symm.trans hw
    obtain ⟨hlt, -⟩ := List.getElem?_eq_some_iff.mp borrowed
    exact .inr ⟨by simp, ⟨i, borrowed⟩, List.getElem?_set_self hlt⟩

end Effect

/-- The number of objects that the accessors of a wrapper put into the store. -/
def copies (w : Nat) : Store → List Event → Nat
  | _, [] => 0
  | s, e :: events =>
    (if e.writer? = some w then (s.after e).objects.length - s.objects.length else 0) +
      copies w (s.after e) events

section
variable {events : List Event} {w i : Nat} {wrapper : Wrapper}

theorem valid_empty : empty.Valid := by simp [Valid, empty]

theorem Valid.history (hs : s.Valid) (events : List Event) : (s.history events).Valid := by
  induction events generalizing s with
  | nil => exact hs
  | cons e events ih => exact ih ((effect hs e).valid hs)

/-- An item that is not as it was has been written to. -/
theorem exists_writes_of_history (hs : s.Valid) (hi : i < s.objects.length)
    (h : (s.history events).objects[i]? ≠ s.objects[i]?) :
    ∃ past e rest, events = past ++ e :: rest ∧ Writes (s.history past) e i := by
  induction events generalizing s with
  | nil => exact absurd rfl h
  | cons e events ih =>
    have heffect := effect hs e
    by_cases hw : Writes s e i
    · exact ⟨[], e, events, rfl, hw⟩
    · rw [history_cons, ← heffect.getElem?_objects hi hw] at h
      obtain ⟨past, e', rest, rfl, hwrites⟩ :=
        ih (heffect.valid hs) (Nat.lt_of_lt_of_le hi heffect.length_le) h
      exact ⟨e :: past, e', rest, rfl, hwrites⟩

/-- A wrapper that is not as it was has borrowed until one of its own accessors was called. -/
theorem exists_writer_of_history (hs : s.Valid) (hw : s.wrappers[w]? = some wrapper)
    (h : (s.history events).wrappers[w]? ≠ some wrapper) :
    ∃ past e rest, events = past ++ e :: rest ∧ e.writer? = some w ∧ wrapper.owned = false ∧
      (s.history past).wrappers[w]? = some wrapper := by
  induction events generalizing s with
  | nil => exact absurd hw h
  | cons e events ih =>
    have heffect := effect hs e
    rcases heffect.getElem?_wrappers hw with hsame | ⟨writer, borrowed, -⟩
    · obtain ⟨past, e', rest, rfl, hwriter⟩ := ih (heffect.valid hs) hsame h
      exact ⟨e :: past, e', rest, rfl, hwriter⟩
    · exact ⟨[], e, events, rfl, writer, borrowed, hw⟩

theorem owned_history (hs : s.Valid) (hw : s.wrappers[w]? = some ⟨i, true⟩)
    (events : List Event) : (s.history events).wrappers[w]? = some ⟨i, true⟩ := by
  refine Decidable.byContradiction fun h => ?_
  obtain ⟨past, e, rest, -, -, borrowed, -⟩ := exists_writer_of_history hs hw h
  cases borrowed

theorem copies_of_owned (hs : s.Valid) (hw : s.wrappers[w]? = some ⟨i, true⟩) :
    copies w s events = 0 := by
  induction events generalizing s with
  | nil => rfl
  | cons e events ih =>
    have heffect := effect hs e
    rw [copies, ih (heffect.valid hs) (owned_history hs hw [e])]
    split
    · next writer =>
      rcases heffect.length_of_writer writer with hlength | ⟨-, ⟨j, borrowed⟩, -⟩
      · omega
      · cases hw.symm.trans borrowed
    · rfl

theorem copies_le_one (hs : s.Valid) : copies w s events ≤ 1 := by
  induction events generalizing s with
  | nil => exact Nat.zero_le 1
  | cons e events ih =>
    have heffect := effect hs e
    have hrest := ih (heffect.valid hs)
    rw [copies]
    split
    · next writer =>
      rcases heffect.length_of_writer writer with hlength | ⟨hlength, -, owned⟩
      · omega
      · rw [copies_of_owned (heffect.valid hs) owned]
        omega
    · omega

end

/-- A store that an empty one may come to be. -/
def Reached (s : Store) : Prop := ∃ events, s = empty.history events

theorem Reached.valid (h : s.Reached) : s.Valid := by
  obtain ⟨events, rfl⟩ := h
  exact valid_empty.history events

/-- In every history, an item changes only by a direct change of it or by an accessor of a wrapper
that owns it already, and a wrapper changes only when its own accessor makes it own a copy, once
and for all. An accessor that does not apply to the item changes nothing; one that applies writes
in place to an item that is owned, and else leaves all there is as it was and makes its wrapper own
what it has written. -/
theorem Reached.isolated (h : s.Reached) (events : List Event) :
    (∀ i < s.objects.length, (s.history events).objects[i]? ≠ s.objects[i]? →
      ∃ past e rest, events = past ++ e :: rest ∧ Writes (s.history past) e i) ∧
    (∀ (w : Nat) (wrapper : Wrapper), s.wrappers[w]? = some wrapper →
      (s.history events).wrappers[w]? ≠ some wrapper →
      ∃ past e rest, events = past ++ e :: rest ∧ e.writer? = some w ∧ wrapper.owned = false ∧
        (s.history past).wrappers[w]? = some wrapper) ∧
    (∀ w i : Nat, s.wrappers[w]? = some ⟨i, true⟩ →
      (s.history events).wrappers[w]? = some ⟨i, true⟩) ∧
    (∀ w, copies w s events ≤ 1) ∧
    (∀ wrapper ∈ s.wrappers, ∃ x, s.item? wrapper.item = some x) ∧
    ∀ (a : Action) (w i : Nat) (owned : Bool) (x : Item), a.writer? = some w →
      s.wrappers[w]? = some ⟨i, owned⟩ → s.item? i = some x →
      (a.applies x = false → s.act a = (a.refusal, s)) ∧
      (a.applies x = true → owned = true → (s.act a).2 = s.replaceItem i (a.write x)) ∧
      (a.applies x = true → owned = false → (s.act a).2 =
        ⟨s.objects ++ [.item (a.write x)], s.wrappers.set w ⟨s.objects.length, true⟩⟩) := by
  refine ⟨fun i hi => exists_writes_of_history h.valid hi,
    fun w wrapper hw => exists_writer_of_history h.valid hw,
    fun w i hw => owned_history h.valid hw events, fun w => copies_le_one h.valid, h.valid, ?_⟩
  intro a w i owned x ha hw hx
  refine ⟨act_of_not_applies ha hw hx, ?_, ?_⟩
  · rintro happlies rfl
    exact act_of_owned ha hw hx happlies
  · rintro happlies rfl
    exact act_of_borrowed ha hw hx happlies

/-- Two wrappers share an error. The first borrows it and renames a copy, the second owns it and
renames it in place. -/
theorem Reached.isolated_shared :
    ∃ s : Store, s = ⟨[.item (.error ⟨"A", []⟩)], [⟨0, false⟩, ⟨0, true⟩]⟩ ∧ s.Reached ∧
      s.act (.setMutability 0 .payable) = (.flag false, s) ∧
      (s.act (.rename 0 "B")).2 =
        ⟨[.item (.error ⟨"A", []⟩), .item (.error ⟨"B", []⟩)], [⟨1, true⟩, ⟨0, true⟩]⟩ ∧
      (s.act (.rename 1 "B")).2 = ⟨[.item (.error ⟨"B", []⟩)], [⟨0, false⟩, ⟨0, true⟩]⟩ ∧
      (∃ past e rest, [Event.act (.rename 0 "B"), .act (.rename 1 "C")] = past ++ e :: rest ∧
        Writes (s.history past) e 0) ∧
      (s.history [.act (.rename 0 "B"), .act (.rename 1 "C")]).wrappers[1]? = some ⟨0, true⟩ ∧
      copies 0 s [.act (.rename 0 "B"), .act (.rename 1 "C")] ≤ 1 := by
  have h : Reached ⟨[.item (.error ⟨"A", []⟩)], [⟨0, false⟩, ⟨0, true⟩]⟩ :=
    ⟨[.act (.add (.item (.error ⟨"A", []⟩))), .act (.wrap 0 false), .act (.wrap 0 true)], rfl⟩
  obtain ⟨contents, -, owners, copied, -, accessors⟩ :=
    h.isolated [.act (.rename 0 "B"), .act (.rename 1 "C")]
  have borrowed := fun a ha => accessors a 0 0 false (.error ⟨"A", []⟩) ha rfl rfl
  have owned := fun a ha => accessors a 1 0 true (.error ⟨"A", []⟩) ha rfl rfl
  refine ⟨_, rfl, h, (borrowed (.setMutability 0 .payable) rfl).1 rfl,
    (borrowed (.rename 0 "B") rfl).2.2 rfl rfl, (owned (.rename 1 "B") rfl).2.1 rfl rfl,
    contents 0 (by decide) ?_, owners 1 0 rfl, copied 0⟩
  intro hsame
  exact absurd (congrArg (·.bind Object.item?) hsame) (by decide)

end ContractInterface.Store
