import ContractInterface.Proofs.Store.Isolation

/-! Borrowing does not show. Whatever is called on a wrapper, one that borrows its item answers like
one that owns a copy of it: as the item would if it were held by nobody else. -/
namespace ContractInterface

/-- What may be read of an item. -/
inductive Query
  | name
  | mutability
  | list (field : ListField)
  | signature
  | selector
  | json

/-- A call of a wrapper. -/
inductive Call
  | ask (q : Query)
  | compare (v : Nat)
  | rename (name : String)
  | setMutability (m : Mutability)
  | edit (field : ListField) (e : Edit)
  /-- The item is handed out, and whoever has it then reads and changes it. A wrapper that owns its
  item keeps it, so what is done to the item later is such a call again. -/
  | mutate (use : Item → Answer × Item)

/-- What is answered to a call, apart from the places of items. -/
inductive Reply
  | text (s : Option String)
  | mutability (m : Option Mutability)
  | list (ps : Option (List Param))
  | bytes (bs : Option (List UInt8))
  | json (x : Json)
  | same (b : Bool)
  | written (a : Answer)

/-- What an item answers, with selectors by a hash function. -/
def Query.ask (hash : String → List UInt8) (x : Item) : Query → Reply
  | name => .text x.name?
  | mutability => .mutability x.mutability?
  | list field => .list (x.list? field)
  | signature => .text x.signature?
  | selector => .bytes (x.selectorBy? hash)
  | json => .json x.toJson

namespace Store

/-- Call a wrapper. -/
def call (hash : String → List UInt8) (s : Store) (w : Nat) : Call → Reply × Store
  | .ask q =>
    match s.wrapped? w with
    | none => (.written (.refused (.outOfRange w)), s)
    | some x => (q.ask hash x, s)
  | .compare v => (.same (s.sameItem w v), s)
  | .rename name => let (a, s) := s.rename w name; (.written a, s)
  | .setMutability m => let (a, s) := s.setMutability w m; (.written a, s)
  | .edit field e => let (a, s) := s.edit w field e; (.written a, s)
  | .mutate use =>
    match s.promote w with
    | .error e => (.written (.refused e), s)
    | .ok (i, s) =>
      match s.item? i with
      | none => (.written (.refused (.outOfRange i)), s)
      | some x => let (a, y) := use x; (.written a, s.replaceItem i y)

/-- Call a wrapper several times. -/
def converse (hash : String → List UInt8) (s : Store) (w : Nat) : List Call → List Reply × Store
  | [] => ([], s)
  | c :: calls =>
    let (reply, s) := s.call hash w c
    let (replies, s) := s.converse hash w calls
    (reply :: replies, s)

end Store

namespace Item

/-- What is answered to a change that an item may not have a field for. -/
def changed (x : Item) (change : Item → Option Item) : Reply × Item :=
  (.written (.flag (change x).isSome), (change x).getD x)

/-- What is answered to an edit of a list: its new length, unless there is no such list or the edit
cannot be made. -/
def lengthAfter (field : ListField) (e : Edit) (x : Item) : Answer :=
  match (x.list? field).map e.apply with
  | none => .absent
  | some (.error failure) => .refused failure
  | some (.ok ps) => .length ps.length

/-- The answer of an item that is held by nobody else. It is compared with those of the wrappers in
a store, behind which its own one stands. -/
def call (hash : String → List UInt8) (s : Store) (x : Item) : Call → Reply × Item
  | .ask q => (q.ask hash x, x)
  | .compare v => (.same (v = s.wrappers.length || s.wrapped? v = some x), x)
  | .rename name => x.changed (rename? name)
  | .setMutability m => x.changed (setMutability? m)
  | .edit field e => (.written (x.lengthAfter field e), x.edited field e)
  | .mutate use => (.written (use x).1, (use x).2)

def converse (hash : String → List UInt8) (s : Store) (x : Item) : List Call → List Reply × Item
  | [] => ([], x)
  | c :: calls =>
    let (reply, x) := x.call hash s c
    let (replies, x) := x.converse hash s calls
    (reply :: replies, x)

end Item

namespace Store

/-- The store with one more item, and one more wrapper that owns it. -/
def owning (s : Store) (x : Item) : Store :=
  ⟨s.objects ++ [.item x], s.wrappers ++ [⟨s.objects.length, true⟩]⟩

/-- The second store is the first one with one more wrapper, which stands for the item: it borrows
such an item of the first store, or owns the only object that is new. -/
inductive Beside (s : Store) (x : Item) : Store → Prop
  | borrowed {i : Nat} (h : s.item? i = some x) :
      Beside s x ⟨s.objects, s.wrappers ++ [⟨i, false⟩]⟩
  | owned : Beside s x (s.owning x)

variable {hash : String → List UInt8} {s t : Store} {x : Item}

theorem item?_owning : (s.owning x).item? s.objects.length = some x := by
  simp [owning, item?, Object.item?]

theorem replaceItem_owning (y : Item) :
    (s.owning x).replaceItem s.objects.length y = s.owning y := by
  simp [owning, replaceItem]

namespace Beside

theorem wrapped? (h : Beside s x t) : t.wrapped? s.wrappers.length = some x := by
  cases h with
  | borrowed h => exact (wrapped?_eq List.getElem?_concat_length).trans h
  | owned => exact (wrapped?_eq List.getElem?_concat_length).trans item?_owning

/-- From here on the two ways of holding the item are the same. -/
theorem promote (h : Beside s x t) :
    t.promote s.wrappers.length = .ok (s.objects.length, s.owning x) := by
  cases h with
  | @borrowed i h =>
    have hw : (s.wrappers ++ [⟨i, false⟩])[s.wrappers.length]? = some ⟨i, false⟩ :=
      List.getElem?_concat_length
    refine (promote_borrowed (s := ⟨s.objects, _⟩) hw h).trans ?_
    simp [owning]
  | owned => exact promote_owned List.getElem?_concat_length item?_owning

/-- The other wrappers refer to what they did. -/
theorem wrapped?_of_ne (hs : s.Valid) (h : Beside s x t) {v : Nat} (hv : v ≠ s.wrappers.length) :
    t.wrapped? v = s.wrapped? v := by
  have hwrappers (last : Wrapper) : (s.wrappers ++ [last])[v]? = s.wrappers[v]? := by
    rcases Nat.lt_or_gt_of_ne hv with hlt | hgt
    · exact List.getElem?_append_left hlt
    · have hle : (s.wrappers ++ [last]).length ≤ v := by
        rw [List.length_append, List.length_singleton]
        exact hgt
      rw [List.getElem?_eq_none hle, List.getElem?_eq_none (Nat.le_of_lt hgt)]
  cases h with
  | borrowed h => rw [Store.wrapped?, Store.wrapped?, hwrappers]; rfl
  | owned =>
    rw [Store.wrapped?, Store.wrapped?, owning, hwrappers]
    cases hw : s.wrappers[v]? with
    | none => rfl
    | some wrapper =>
      obtain ⟨y, hy⟩ := hs wrapper (List.mem_of_getElem? hw)
      exact (item?_append hy).trans hy.symm

/-- What is new stands behind all that was there. -/
theorem prefix_objects (h : Beside s x t) : s.objects <+: t.objects := by
  cases h with
  | borrowed h => exact List.prefix_refl _
  | owned => exact List.prefix_append _ _

theorem item? (h : Beside s x t) {i : Nat} {y : Item} (hy : s.item? i = some y) :
    t.item? i = some y := by
  obtain ⟨objects, hobjects⟩ := h.prefix_objects
  have happend : Store.item? ⟨s.objects ++ objects, t.wrappers⟩ i = some y :=
    Store.item?_append hy
  rwa [hobjects] at happend

theorem update (h : Beside s x t) (change : Item → Option Item) :
    (Reply.written (t.update s.wrappers.length change).1 = (x.changed change).1) ∧
      Beside s (x.changed change).2 (t.update s.wrappers.length change).2 := by
  rw [Store.update, h.wrapped?, Item.changed]
  dsimp only
  cases change x with
  | none => exact ⟨rfl, h⟩
  | some y =>
    rw [h.promote]
    dsimp only
    rw [replaceItem_owning]
    exact ⟨rfl, .owned⟩

theorem edit (h : Beside s x t) (field : ListField) (e : Edit) :
    (t.edit s.wrappers.length field e).1 = x.lengthAfter field e ∧
      Beside s (x.edited field e) (t.edit s.wrappers.length field e).2 := by
  rw [Store.edit, h.wrapped?, Item.lengthAfter, Item.edited]
  dsimp only
  cases hps : x.list? field with
  | none => exact ⟨rfl, h⟩
  | some ps =>
    dsimp only [Option.map_some]
    rw [h.promote]
    dsimp only
    rw [editItem, item?_owning]
    dsimp only
    rw [hps]
    dsimp only
    cases e.apply ps with
    | error failure => exact ⟨rfl, .owned⟩
    | ok qs =>
      obtain ⟨y, hy⟩ : ∃ y, x.setList? qs field = some y := by
        rw [← Option.isSome_iff_exists, Item.isSome_setList?, hps]
        rfl
      dsimp only
      rw [hy]
      dsimp only
      rw [replaceItem_owning]
      exact ⟨rfl, .owned⟩

theorem sameItem (hs : s.Valid) (h : Beside s x t) (v : Nat) :
    t.sameItem s.wrappers.length v = (v = s.wrappers.length || s.wrapped? v = some x) := by
  rw [Store.sameItem, h.wrapped?]
  by_cases hv : v = s.wrappers.length
  · rw [hv, h.wrapped?]
    simp
  · rw [h.wrapped?_of_ne hs hv]
    cases s.wrapped? v <;> simp [hv, eq_comm]

/-- A wrapper answers as its item would alone, and goes on standing for it. -/
theorem call (hs : s.Valid) (h : Beside s x t) (c : Call) :
    (t.call hash s.wrappers.length c).1 = (x.call hash s c).1 ∧
      Beside s (x.call hash s c).2 (t.call hash s.wrappers.length c).2 := by
  cases c with
  | ask q =>
    rw [Store.call, h.wrapped?]
    exact ⟨rfl, h⟩
  | compare v =>
    rw [Store.call, h.sameItem hs]
    exact ⟨rfl, h⟩
  | rename name => exact h.update _
  | setMutability m => exact h.update _
  | edit field e => exact ⟨congrArg Reply.written (h.edit field e).1, (h.edit field e).2⟩
  | mutate use =>
    rw [Store.call, h.promote]
    dsimp only
    rw [item?_owning]
    dsimp only
    rw [replaceItem_owning]
    exact ⟨rfl, .owned⟩

theorem converse (hs : s.Valid) (h : Beside s x t) (calls : List Call) :
    (t.converse hash s.wrappers.length calls).1 = (x.converse hash s calls).1 ∧
      Beside s (x.converse hash s calls).2 (t.converse hash s.wrappers.length calls).2 := by
  induction calls generalizing x t with
  | nil => exact ⟨rfl, h⟩
  | cons c calls ih =>
    obtain ⟨hreply, hnext⟩ := h.call hs c
    obtain ⟨hreplies, hend⟩ := ih hnext
    exact ⟨List.cons_eq_cons.mpr ⟨hreply, hreplies⟩, hend⟩

end Beside

/-- A wrapper that borrows an item and one that owns a copy of it answer alike to whatever is called
on them, namely as the item would alone, and stand for equal items in the end. All this time no
object that was there is touched by the wrapper that borrows, the item that it borrowed among
them. -/
theorem borrowing_transparent (hash : String → List UInt8) (hs : s.Valid) {i : Nat}
    (hx : s.item? i = some x) (calls : List Call) :
    ∃ borrowing owning : Store,
      s.wrap i false = (.place s.wrappers.length, borrowing) ∧
      s.wrapNew (.item x) = (.place s.wrappers.length, owning) ∧
      (borrowing.converse hash s.wrappers.length calls).1 =
        (owning.converse hash s.wrappers.length calls).1 ∧
      (owning.converse hash s.wrappers.length calls).1 = (x.converse hash s calls).1 ∧
      (borrowing.converse hash s.wrappers.length calls).2.wrapped? s.wrappers.length =
        some (x.converse hash s calls).2 ∧
      (owning.converse hash s.wrappers.length calls).2.wrapped? s.wrappers.length =
        some (x.converse hash s calls).2 ∧
      (borrowing.converse hash s.wrappers.length calls).2.item? i = some x ∧
      s.objects <+: (borrowing.converse hash s.wrappers.length calls).2.objects := by
  have hborrowing : Beside s x ⟨s.objects, s.wrappers ++ [⟨i, false⟩]⟩ := .borrowed hx
  obtain ⟨hreplies, hend⟩ := hborrowing.converse hs calls
  obtain ⟨hreplies', hend'⟩ := (Beside.owned (s := s) (x := x)).converse hs calls
  refine ⟨_, _, ?_, ?_, hreplies.trans hreplies'.symm, hreplies', hend.wrapped?, hend'.wrapped?,
    hend.item? hx, hend.prefix_objects⟩
  · rw [wrap, getElem?_objects hx]
  · simp [wrapNew, Store.add, wrap, Store.owning]

/-- An error is borrowed by a wrapper, next to another one that borrows it too. It is renamed, and
no longer the same as what the other wrapper has. -/
theorem borrowing_transparent_renamed :
    ∃ s : Store, s = ⟨[.item (.error ⟨"A", []⟩)], [⟨0, false⟩]⟩ ∧ s.Valid ∧
      s.item? 0 = some (.error ⟨"A", []⟩) ∧
      ∃ borrowing : Store, s.wrap 0 false = (.place 1, borrowing) ∧
        (borrowing.converse Keccak.hashText 1 [.compare 0, .rename "B", .ask .name, .compare 0,
          .edit .outputs .clear]).1 =
          [.same true, .written (.flag true), .text (some "B"), .same false, .written .absent] ∧
        (borrowing.converse Keccak.hashText 1 [.compare 0, .rename "B", .ask .name, .compare 0,
          .edit .outputs .clear]).2.item? 0 = some (.error ⟨"A", []⟩) := by
  have hvalid : Valid ⟨[.item (.error ⟨"A", []⟩)], [⟨0, false⟩]⟩ := by
    simp [Valid, item?, Object.item?]
  obtain ⟨borrowing, owning, hwrap, -, hsame, hreplies, -, -, hitem, -⟩ :=
    borrowing_transparent Keccak.hashText hvalid (i := 0) rfl
      [.compare 0, .rename "B", .ask .name, .compare 0, .edit .outputs .clear]
  exact ⟨_, rfl, hvalid, rfl, borrowing, hwrap, hsame.trans hreplies, hitem⟩

end Store

end ContractInterface
