import ContractInterface.Proofs.Param.Skeleton

/-! Signatures tell items apart by their names and the shapes of their parameters, and by nothing
else. -/
namespace ContractInterface

namespace Param

/-- What is shown of the parameter is a type of the same shape. -/
def Shown (p : Param) : Prop :=
  ∃ t, TypeSpec.Written (maxNesting + 1) p.canonicalType.toList t ∧ t.skeleton = p.skeleton

theorem WellFormedInput.shown {p : Param} (h : p.WellFormedInput) : p.Shown := by
  obtain ⟨q, indexed, hq, rfl⟩ := h
  simpa [Shown] using hq.exists_written

variable {ps qs : List Param}

theorem toList_listText (ps : List Param) :
    (listText ps).toList = '(' :: (",".intercalate (canonicalTypes ps)).toList ++ [')'] := by
  simp [listText]

theorem listText_congr (h : ps.map skeleton = qs.map skeleton) : listText ps = listText qs := by
  rw [← skeletons_eq_map, ← skeletons_eq_map] at h
  rw [listText, listText, canonicalTypes_congr h]

/-- A list that is shown ends at its closing parenthesis and has the shapes of its members in it. -/
theorem listText_append_inj (hp : ∀ p ∈ ps, p.Shown) (hq : ∀ q ∈ qs, q.Shown) {r s : List Char}
    (h : (listText ps).toList ++ r = (listText qs).toList ++ s) :
    ps.map skeleton = qs.map skeleton ∧ r = s := by
  obtain ⟨ts, hts, hps⟩ := TypeSpec.exists_body_of_skeleton hp
  obtain ⟨ts', hts', hqs⟩ := TypeSpec.exists_body_of_skeleton hq
  rw [← toList_intercalate_canonicalTypes] at hts hts'
  rw [toList_listText, toList_listText, ← List.append_cons, ← List.append_cons] at h
  obtain ⟨rfl, rfl⟩ := hts.append_inj hts' (List.cons.inj h).2
  exact ⟨hps.symm.trans hqs, rfl⟩

end Param

section
open Param

variable {name name' : String} {ps qs ps' qs' : List Param}

/-- Behind an identifier, a list that is shown and anything else can be told apart. -/
theorem name_append_listText_inj (hn : Identifier.isValid name.toList = true)
    (hn' : Identifier.isValid name'.toList = true) (hp : ∀ p ∈ ps, p.Shown)
    (hq : ∀ q ∈ qs, q.Shown) {r s : List Char}
    (h : name.toList ++ ((listText ps).toList ++ r) = name'.toList ++ ((listText qs).toList ++ s)) :
    name = name' ∧ ps.map skeleton = qs.map skeleton ∧ r = s := by
  have hparens (ps : List Param) (r : List Char) : (listText ps).toList ++ r =
      '(' :: ((",".intercalate (canonicalTypes ps)).toList ++ ')' :: r) := by
    simp [toList_listText]
  have hcs := h
  rw [hparens, hparens] at hcs
  obtain ⟨hname, -⟩ := Identifier.append_parenthesis_inj hn hn' hcs
  rw [hname] at h
  exact ⟨String.toList_injective hname, listText_append_inj hp hq (List.append_cancel_left h)⟩

theorem signature_none_eq_iff (hn : Identifier.isValid name.toList = true)
    (hn' : Identifier.isValid name'.toList = true) (hp : ∀ p ∈ ps, p.Shown)
    (hq : ∀ q ∈ qs, q.Shown) :
    signature name ps none = signature name' qs none ↔
      name = name' ∧ ps.map skeleton = qs.map skeleton := by
  constructor
  · intro h
    have hlist := congrArg String.toList h
    simp only [signature, String.toList_append, List.append_assoc] at hlist
    obtain ⟨hname, hshape, -⟩ := name_append_listText_inj hn hn' hp hq hlist
    exact ⟨hname, hshape⟩
  · rintro ⟨rfl, h⟩
    rw [signature, signature, listText_congr h]

theorem signature_some_eq_iff (hn : Identifier.isValid name.toList = true)
    (hn' : Identifier.isValid name'.toList = true) (hp : ∀ p ∈ ps, p.Shown)
    (hq : ∀ q ∈ qs, q.Shown) (hp' : ∀ p ∈ ps', p.Shown) (hq' : ∀ q ∈ qs', q.Shown) :
    signature name ps (some ps') = signature name' qs (some qs') ↔
      name = name' ∧ ps.map skeleton = qs.map skeleton ∧ ps'.map skeleton = qs'.map skeleton := by
  constructor
  · intro h
    have hlist := congrArg String.toList h
    simp only [signature, String.toList_append, List.append_assoc] at hlist
    obtain ⟨hname, hshape, hrest⟩ := name_append_listText_inj hn hn' hp hq hlist
    have hrest' : (listText ps').toList ++ [] = (listText qs').toList ++ [] := by rw [hrest]
    exact ⟨hname, hshape, (listText_append_inj hp' hq' hrest').1⟩
  · rintro ⟨rfl, h, h'⟩
    rw [signature, signature, listText_congr h, listText_congr h']

end

namespace Item
open Param

/-- The name of an item that has one, and all lists of its parameters, are fit to be shown. -/
theorem Obtained.function_shown {f : FunctionItem} (h : (Item.function f).Obtained) :
    Identifier.isValid f.name.toList = true ∧ (∀ p ∈ f.inputs, p.Shown) ∧
      ∀ p ∈ f.outputs, p.Shown := by
  cases h.wellFormed with
  | function name inputs outputs =>
    exact ⟨name, fun p hp => (inputs p hp).exists_written,
      fun p hp => (outputs p hp).exists_written⟩

theorem Obtained.error_shown {e : ErrorItem} (h : (Item.error e).Obtained) :
    Identifier.isValid e.name.toList = true ∧ ∀ p ∈ e.inputs, p.Shown := by
  cases h.wellFormed with
  | error name inputs => exact ⟨name, fun p hp => (inputs p hp).exists_written⟩

theorem Obtained.event_shown {e : EventItem} (h : (Item.event e).Obtained) :
    Identifier.isValid e.name.toList = true ∧ ∀ p ∈ e.inputs, p.Shown := by
  cases h.wellFormed with
  | event name inputs => exact ⟨name, fun p hp => (inputs p hp).shown⟩

/-- Two functions, errors or events have the same signature exactly when they have the same name
and inputs of the same shapes, and two functions have the same full signature exactly when their
outputs are of the same shapes, too. -/
theorem signature_eq_iff :
    (∀ f g : FunctionItem, (function f).Obtained → (function g).Obtained →
      (f.signature = g.signature ↔
        f.name = g.name ∧ f.inputs.map skeleton = g.inputs.map skeleton) ∧
      (f.fullSignature = g.fullSignature ↔
        f.name = g.name ∧ f.inputs.map skeleton = g.inputs.map skeleton ∧
          f.outputs.map skeleton = g.outputs.map skeleton)) ∧
    (∀ e e' : ErrorItem, (error e).Obtained → (error e').Obtained →
      (e.signature = e'.signature ↔
        e.name = e'.name ∧ e.inputs.map skeleton = e'.inputs.map skeleton)) ∧
    (∀ e e' : EventItem, (event e).Obtained → (event e').Obtained →
      (e.signature = e'.signature ↔
        e.name = e'.name ∧ e.inputs.map skeleton = e'.inputs.map skeleton)) := by
  refine ⟨?_, ?_, ?_⟩
  · intro f g hf hg
    obtain ⟨hfn, hfi, hfo⟩ := hf.function_shown
    obtain ⟨hgn, hgi, hgo⟩ := hg.function_shown
    exact ⟨signature_none_eq_iff hfn hgn hfi hgi, signature_some_eq_iff hfn hgn hfi hgi hfo hgo⟩
  · intro e e' he he'
    obtain ⟨hn, hi⟩ := he.error_shown
    obtain ⟨hn', hi'⟩ := he'.error_shown
    exact signature_none_eq_iff hn hn' hi hi'
  · intro e e' he he'
    obtain ⟨hn, hi⟩ := he.event_shown
    obtain ⟨hn', hi'⟩ := he'.event_shown
    exact signature_none_eq_iff hn hn' hi hi'

/-- An event of one input, with or without a mark and a name on it. -/
def paid (input : List (Utf16 × Json)) : Json :=
  .object [("type", .string "event"), ("name", .string "Paid"),
    ("inputs", .array [.object (("type", .string "bool") :: input)])]

theorem signature_eq_iff_names :
    (∃ f g, FunctionItem.parse "pay((A,B[2])[] to)(C)" = .ok f ∧
      FunctionItem.parse "pay((A,B[2])[] from)(C)" = .ok g ∧
      (f.signature = g.signature ↔
        f.name = g.name ∧ f.inputs.map skeleton = g.inputs.map skeleton)) ∧
    (∃ e e', ErrorItem.parse "Unpaid((A,B) by)" = .ok e ∧
      ErrorItem.parse "Unpaid(A by,B of)" = .ok e' ∧
      (e.signature = e'.signature ↔
        e.name = e'.name ∧ e.inputs.map skeleton = e'.inputs.map skeleton)) ∧
    (∃ e e', ofJson (paid []) = .ok (event e) ∧
      ofJson (paid [("indexed", .bool true), ("name", .string "by")]) = .ok (event e') ∧
      (e.signature = e'.signature ↔
        e.name = e'.name ∧ e.inputs.map skeleton = e'.inputs.map skeleton)) := by
  obtain ⟨f, hf⟩ := Sequencing.exists_of_isSome_toOption
    (x := FunctionItem.parse "pay((A,B[2])[] to)(C)") (by decide +kernel)
  obtain ⟨g, hg⟩ := Sequencing.exists_of_isSome_toOption
    (x := FunctionItem.parse "pay((A,B[2])[] from)(C)") (by decide +kernel)
  obtain ⟨d, hd⟩ := Sequencing.exists_of_isSome_toOption
    (x := ErrorItem.parse "Unpaid((A,B) by)") (by decide +kernel)
  obtain ⟨d', hd'⟩ := Sequencing.exists_of_isSome_toOption
    (x := ErrorItem.parse "Unpaid(A by,B of)") (by decide +kernel)
  have he : ofJson (paid []) = .ok (event ⟨"Paid", [⟨"", "bool", [], none, some false⟩], false⟩) :=
    Sequencing.toOption_eq_some.mp (by decide +kernel)
  have he' : ofJson (paid [("indexed", .bool true), ("name", .string "by")]) =
      .ok (event ⟨"Paid", [⟨"by", "bool", [], none, some true⟩], false⟩) :=
    Sequencing.toOption_eq_some.mp (by decide +kernel)
  obtain ⟨functions, errors, events⟩ := signature_eq_iff
  exact ⟨⟨f, g, hf, hg, (functions f g (.function hf) (.function hg)).1⟩,
    ⟨d, d', hd, hd', errors d d' (.error hd) (.error hd')⟩,
    ⟨_, _, he, he', events _ _ (.decoded he) (.decoded he')⟩⟩

end Item

end ContractInterface
