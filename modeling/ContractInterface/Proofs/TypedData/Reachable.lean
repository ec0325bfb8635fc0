import ContractInterface.Proofs.Sequencing
import ContractInterface.TypedData.Resolver

/-! Which structs a struct needs: those that its fields name, those that these name, and so on.
The walk along a stack of names finds exactly these, whatever way the structs refer to each
other, and fails on a name that has no definition. -/
namespace ContractInterface.TypedData
open Sequencing

variable {elementary : String → Bool}

namespace Struct

/-- The types of all fields can be read. -/
def Readable (s : Struct) : Prop := ∀ f ∈ s.fields, ∃ t, TypeSpec.parse f.ty = .ok t

/-- The type of some field has the name in it, and the name is that of a struct. -/
def RefersTo (elementary : String → Bool) (s : Struct) (name : String) : Prop :=
  elementary name = false ∧ ∃ f ∈ s.fields, ∃ t, TypeSpec.parse f.ty = .ok t ∧ name ∈ t.rootNames

theorem mem_addReferences {known names : List String} {n : String} :
    n ∈ addReferences elementary known names ↔
      n ∈ known ∨ elementary n = false ∧ n ∈ names := by
  unfold addReferences
  induction names generalizing known with
  | nil => simp
  | cons m names ih =>
    rw [List.foldl_cons, ih]
    by_cases hm : (elementary m || known.contains m) = true
    · rw [if_pos hm]
      rw [Bool.or_eq_true, List.contains_iff_mem] at hm
      constructor
      · rintro (h | ⟨he, h⟩)
        · exact .inl h
        · exact .inr ⟨he, List.mem_cons_of_mem m h⟩
      · rintro (h | ⟨he, h⟩)
        · exact .inl h
        · rcases List.mem_cons.mp h with rfl | h
          · left
            exact hm.resolve_left (by simp [he])
          · exact .inr ⟨he, h⟩
    · rw [if_neg hm]
      simp only [Bool.or_eq_true, not_or, Bool.not_eq_true] at hm
      simp only [List.mem_append, List.mem_cons, List.not_mem_nil, or_false]
      constructor
      · rintro ((h | rfl) | ⟨he, h⟩)
        · exact .inl h
        · exact .inr ⟨hm.1, .inl rfl⟩
        · exact .inr ⟨he, .inr h⟩
      · rintro (h | ⟨he, rfl | h⟩)
        · exact .inl (.inl h)
        · exact .inl (.inr rfl)
        · exact .inr ⟨he, h⟩

/-- Fields that can be read add the names in them to those that are known. -/
theorem exists_foldlM_addReferences (elementary : String → Bool) {fields : List StructField}
    (h : ∀ f ∈ fields, ∃ t, TypeSpec.parse f.ty = .ok t) (known : List String) :
    ∃ names, fields.foldlM (fun known f => f.rootNames.map (addReferences elementary known))
        known = Except.ok (ε := Failure) names ∧
      ∀ n, n ∈ names ↔ n ∈ known ∨ elementary n = false ∧
        ∃ f ∈ fields, ∃ t, TypeSpec.parse f.ty = .ok t ∧ n ∈ t.rootNames := by
  induction fields generalizing known with
  | nil => exact ⟨known, rfl, by simp⟩
  | cons f fields ih =>
    obtain ⟨t, ht⟩ := h f (by simp)
    obtain ⟨names, hn, hmem⟩ := ih (fun g hg => h g (by simp [hg]))
      (addReferences elementary known t.rootNames)
    refine ⟨names, ?_, ?_⟩
    · rw [List.foldlM_cons, StructField.rootNames, ht]
      exact hn
    · intro n
      rw [hmem, mem_addReferences]
      simp only [List.mem_cons, exists_eq_or_imp, ht, Except.ok.injEq, exists_eq_left']
      rw [or_assoc, ← and_or_left]

/-- The references of a struct are the names it refers to. -/
theorem Readable.exists_referencesBy {s : Struct} (h : s.Readable) (elementary : String → Bool) :
    ∃ names, s.referencesBy elementary = .ok names ∧
      ∀ n, n ∈ names ↔ s.RefersTo elementary n := by
  obtain ⟨names, hn, hmem⟩ := exists_foldlM_addReferences elementary h []
  refine ⟨names, hn, ?_⟩
  intro n
  rw [hmem]
  simp [RefersTo]

end Struct

namespace Resolver

def Readable (r : Resolver) : Prop := ∀ s ∈ r.structs, s.Readable

/-- The names that are reached from a name: those that its fields refer to and, once a name is
reached that has a definition, those that the fields of this refer to. -/
inductive Reach (elementary : String → Bool) (r : Resolver) (first : String) : String → Prop
  | direct {s : Struct} {name : String} (found : r.find? first = some s)
      (refers : s.RefersTo elementary name) : Reach elementary r first name
  | step {middle name : String} {s : Struct} (reached : Reach elementary r first middle)
      (found : r.find? middle = some s) (refers : s.RefersTo elementary name) :
      Reach elementary r first name

theorem name_of_find? {r : Resolver} {name : String} {s : Struct} (h : r.find? name = some s) :
    s.name = name := by simpa using List.find?_some h

theorem Readable.of_find? {r : Resolver} (hr : r.Readable) {name : String} {s : Struct}
    (h : r.find? name = some s) : s.Readable := hr s (List.mem_of_find?_eq_some h)

theorem get_eq_ok {r : Resolver} {name : String} {s : Struct} :
    r.get name = .ok s ↔ r.find? name = some s := by
  unfold get
  cases r.find? name <;> simp

theorem get_eq_error {r : Resolver} {name : String} {e : Failure} :
    r.get name = .error e ↔ r.find? name = none ∧ e = .missingStruct name := by
  unfold get
  cases r.find? name <;> simp [eq_comm]

/-- What holds during the walk from `first`: nothing is seen or waits on the stack that is not
reached, all that is seen has a definition, and what that refers to is seen or waits. -/
structure Walk (elementary : String → Bool) (r : Resolver) (first : String)
    (seen stack : List String) : Prop where
  nodup : seen.Nodup
  first_mem : first ∈ seen
  seen_reached : ∀ n ∈ seen, n = first ∨ r.Reach elementary first n
  stack_reached : ∀ n ∈ stack, r.Reach elementary first n
  found : ∀ n ∈ seen, ∃ s, r.find? n = some s
  closed : ∀ m ∈ seen, ∀ s, r.find? m = some s → ∀ n, s.RefersTo elementary n →
    n ∈ seen ∨ n ∈ stack

namespace Walk

variable {r : Resolver} {first : String} {seen stack : List String}

theorem start {s : Struct} {names : List String} (hs : r.find? first = some s)
    (hn : ∀ n, n ∈ names ↔ s.RefersTo elementary n) :
    Walk elementary r first [first] names.reverse where
  nodup := by simp
  first_mem := by simp
  seen_reached := by simp
  stack_reached n h := .direct hs ((hn n).mp (List.mem_reverse.mp h))
  found := by simp [hs]
  closed := by
    intro m hm t ht n hr
    obtain rfl := List.mem_singleton.mp hm
    obtain rfl : s = t := Option.some.inj (hs.symm.trans ht)
    exact .inr (List.mem_reverse.mpr ((hn n).mpr hr))

/-- A name that was seen before is taken off the stack. -/
theorem skip {name : String} (h : Walk elementary r first seen (name :: stack))
    (hn : name ∈ seen) : Walk elementary r first seen stack where
  nodup := h.nodup
  first_mem := h.first_mem
  seen_reached := h.seen_reached
  stack_reached n hm := h.stack_reached n (List.mem_cons_of_mem name hm)
  found := h.found
  closed := by
    intro m hm s hs n hr
    rcases h.closed m hm s hs n hr with hmem | hmem
    · exact .inl hmem
    · rcases List.mem_cons.mp hmem with rfl | hmem
      · exact .inl hn
      · exact .inr hmem

/-- A name that was not seen gives way to the names that its definition refers to. -/
theorem visit {name : String} {s : Struct} {names : List String}
    (h : Walk elementary r first seen (name :: stack)) (hn : name ∉ seen)
    (hs : r.find? name = some s) (hnames : ∀ n, n ∈ names ↔ s.RefersTo elementary n) :
    Walk elementary r first (name :: seen) (names.reverse ++ stack) where
  nodup := List.nodup_cons.mpr ⟨hn, h.nodup⟩
  first_mem := List.mem_cons_of_mem name h.first_mem
  seen_reached := by
    intro n hm
    rcases List.mem_cons.mp hm with rfl | hm
    · exact .inr (h.stack_reached n (by simp))
    · exact h.seen_reached n hm
  stack_reached := by
    intro n hm
    rcases List.mem_append.mp hm with hm | hm
    · exact .step (h.stack_reached name (by simp)) hs ((hnames n).mp (List.mem_reverse.mp hm))
    · exact h.stack_reached n (List.mem_cons_of_mem name hm)
  found := by
    intro n hm
    rcases List.mem_cons.mp hm with rfl | hm
    · exact ⟨s, hs⟩
    · exact h.found n hm
  closed := by
    intro m hm t ht n hr
    rcases List.mem_cons.mp hm with rfl | hm
    · obtain rfl : s = t := Option.some.inj (hs.symm.trans ht)
      exact .inr (List.mem_append_left _ (List.mem_reverse.mpr ((hnames n).mpr hr)))
    · rcases h.closed m hm t ht n hr with hmem | hmem
      · exact .inl (List.mem_cons_of_mem name hmem)
      · rcases List.mem_cons.mp hmem with rfl | hmem
        · exact .inl (by simp)
        · exact .inr (List.mem_append_right _ hmem)

/-- When nothing waits any more, the walk has seen exactly what is reached. -/
theorem mem_iff (h : Walk elementary r first seen []) (n : String) :
    n ∈ seen ↔ n = first ∨ r.Reach elementary first n := by
  have step {m n : String} (hm : m ∈ seen) {s : Struct} (hs : r.find? m = some s)
      (hr : s.RefersTo elementary n) : n ∈ seen :=
    (h.closed m hm s hs n hr).resolve_right (by simp)
  constructor
  · exact h.seen_reached n
  · rintro (rfl | hr)
    · exact h.first_mem
    · induction hr with
      | direct hs hr => exact step h.first_mem hs hr
      | step _ hs hr ih => exact step ih hs hr

end Walk

end Resolver

end ContractInterface.TypedData
