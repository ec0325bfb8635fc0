import ContractInterface.Proofs.TypedData.Reachable

/-! The order in which a struct and all that it needs are written: the struct itself, then the
others by name. It is given exactly when every name that is reached has a definition. -/
namespace ContractInterface.TypedData.Resolver
open Sequencing

variable {elementary : String → Bool} {r : Resolver} {first name : String}

/-- A walk either sees all that is reached or fails on a name that has no definition. -/
theorem reach_cases (hr : r.Readable) {seen stack : List String}
    (h : Walk elementary r first seen stack) :
    (∃ all, r.reach elementary seen stack = .ok all ∧ Walk elementary r first all []) ∨
      ∃ n, r.Reach elementary first n ∧ r.find? n = none ∧
        r.reach elementary seen stack = .error (.missingStruct n) := by
  fun_induction reach elementary r seen stack with
  | case1 seen => exact .inl ⟨seen, rfl, h⟩
  | case2 seen name stack hn ih => exact ih (h.skip (List.contains_iff_mem.mp hn))
  | case3 seen name stack hn e he =>
    obtain ⟨hnone, rfl⟩ := get_eq_error.mp he
    exact .inr ⟨name, h.stack_reached name (by simp), hnone, rfl⟩
  | case4 seen name stack hn s hs e he =>
    obtain ⟨names, hnames, -⟩ := (hr.of_find? (get_eq_ok.mp hs)).exists_referencesBy elementary
    cases he.symm.trans hnames
  | case5 seen name stack hn s hs names hnames hlt ih =>
    obtain ⟨names', hnames', hmem⟩ :=
      (hr.of_find? (get_eq_ok.mp hs)).exists_referencesBy elementary
    obtain rfl : names = names' := Except.ok.inj (hnames.symm.trans hnames')
    have hns : name ∉ seen := by
      intro hmem
      rw [List.contains_iff_mem.mpr hmem] at hn
      cases hn
    exact ih (h.visit hns (get_eq_ok.mp hs) hmem)

/-- The struct of a name, and the other structs it needs, in order of their names. -/
structure Linearization (elementary : String → Bool) (r : Resolver) (name : String)
    (first : Struct) (others : List Struct) : Prop where
  found : r.find? name = some first
  stored : ∀ s ∈ others, r.find? s.name = some s
  mem_names : ∀ n, n ∈ others.map (·.name) ↔ r.Reach elementary name n ∧ n ≠ name
  sorted : (others.map (·.name)).Pairwise (· < ·)

/-- Strictly sorted lists of the same names are the same. -/
theorem eq_of_sorted {xs ys : List String} (hx : xs.Pairwise (· < ·)) (hy : ys.Pairwise (· < ·))
    (h : ∀ n, n ∈ xs ↔ n ∈ ys) : xs = ys := by
  have hp : xs.Perm ys :=
    (List.perm_ext_iff_of_nodup (hx.imp String.ne_of_lt) (hy.imp String.ne_of_lt)).mpr h
  exact hp.eq_of_pairwise (fun a b _ _ hab hba => absurd hba (String.lt_asymm hab)) hx hy

/-- Names without repeats are strictly sorted once they are sorted. -/
theorem pairwise_lt_mergeSort {names : List String} (h : names.Nodup) :
    (names.mergeSort fun a b => decide (a ≤ b)).Pairwise (· < ·) := by
  have hle : (names.mergeSort fun a b => decide (a ≤ b)).Pairwise (fun a b => decide (a ≤ b)) := by
    apply List.pairwise_mergeSort
    · intro a b c hab hbc
      exact decide_eq_true (String.le_trans (of_decide_eq_true hab) (of_decide_eq_true hbc))
    · intro a b
      simpa using String.le_total a b
  have hne : (names.mergeSort fun a b => decide (a ≤ b)).Nodup :=
    (List.mergeSort_perm names _).nodup_iff.mpr h
  refine (hle.and hne).imp ?_
  rintro a b ⟨hab, hab'⟩
  apply String.not_le.mp
  intro hba
  exact hab' (String.le_antisymm (of_decide_eq_true hab) hba)

theorem exists_mapM_get {names : List String} (h : ∀ n ∈ names, ∃ s, r.find? n = some s) :
    ∃ structs, names.mapM r.get = .ok structs ∧ structs.map (·.name) = names ∧
      ∀ s ∈ structs, r.find? s.name = some s := by
  induction names with
  | nil => exact ⟨[], rfl, rfl, by simp⟩
  | cons n names ih =>
    obtain ⟨s, hs⟩ := h n (by simp)
    obtain ⟨structs, hm, hnames, hstored⟩ := ih (fun m hm => h m (by simp [hm]))
    refine ⟨s :: structs, ?_, ?_, ?_⟩
    · rw [List.mapM_cons, get_eq_ok.mpr hs, hm]
      rfl
    · rw [List.map_cons, name_of_find? hs, hnames]
    · intro t ht
      rcases List.mem_cons.mp ht with rfl | ht
      · rw [name_of_find? hs, hs]
      · exact hstored t ht

namespace Linearization

theorem name_first {first : Struct} {others : List Struct}
    (h : Linearization elementary r name first others) : first.name = name :=
  name_of_find? h.found

/-- Everything that is reached has a definition. -/
theorem defined {first : Struct} {others : List Struct}
    (h : Linearization elementary r name first others) {n : String}
    (hn : r.Reach elementary name n) : ∃ s, r.find? n = some s := by
  by_cases he : n = name
  · exact ⟨first, he ▸ h.found⟩
  · obtain ⟨s, hs, rfl⟩ := List.mem_map.mp ((h.mem_names n).mpr ⟨hn, he⟩)
    exact ⟨s, h.stored s hs⟩

/-- A resolver has at most one linearization of a name. -/
theorem unique {first first' : Struct} {others others' : List Struct}
    (h : Linearization elementary r name first others)
    (h' : Linearization elementary r name first' others') : first = first' ∧ others = others' := by
  have hnames : others.map (·.name) = others'.map (·.name) := by
    apply eq_of_sorted h.sorted h'.sorted
    intro n
    rw [h.mem_names, h'.mem_names]
  refine ⟨Option.some.inj (h.found.symm.trans h'.found), ?_⟩
  have hget {structs : List Struct} (hs : ∀ s ∈ structs, r.find? s.name = some s) :
      (structs.map (·.name)).map r.find? = structs.map some := by
    rw [List.map_map]
    exact List.map_congr_left hs
  have hmap := congrArg (List.map r.find?) hnames
  rw [hget h.stored, hget h'.stored] at hmap
  exact List.map_injective_iff.mpr (fun _ _ => Option.some.inj) hmap

end Linearization

/-- The outcomes of `linearizeBy`: the linearization, or the name of a struct that is needed and
has no definition. -/
theorem linearizeBy_cases (elementary : String → Bool) (hr : r.Readable) (name : String) :
    (∃ first others, r.linearizeBy elementary name = .ok (first :: others) ∧
      Linearization elementary r name first others) ∨
    (r.find? name = none ∧ r.linearizeBy elementary name = .error (.missingStruct name)) ∨
    ((∃ s, r.find? name = some s) ∧ ∃ n, r.Reach elementary name n ∧ r.find? n = none ∧
      r.linearizeBy elementary name = .error (.missingStruct n)) := by
  cases hf : r.find? name with
  | none =>
    refine .inr (.inl ⟨rfl, ?_⟩)
    rw [linearizeBy, get_eq_error.mpr ⟨hf, rfl⟩]
    rfl
  | some first =>
    obtain ⟨names, hnames, hmem⟩ := (hr.of_find? hf).exists_referencesBy elementary
    have hfirst := name_of_find? hf
    rcases reach_cases hr (Walk.start hf hmem) with ⟨seen, hseen, hw⟩ | ⟨n, hn, hnone, he⟩
    · have hfound : ∀ n ∈ (seen.filter (· ≠ name)).mergeSort fun a b => decide (a ≤ b),
          ∃ s, r.find? n = some s := by
        intro n hn
        exact hw.found n (List.mem_of_mem_filter (List.mem_mergeSort.mp hn))
      obtain ⟨structs, hstructs, hsn, hstored⟩ := exists_mapM_get hfound
      refine .inl ⟨first, structs, ?_, hf, hstored, ?_, ?_⟩
      · rw [linearizeBy, get_eq_ok.mpr hf]
        simp only [bind, Except.bind, hnames, hfirst, hseen, hstructs]
      · intro n
        rw [hsn, List.mem_mergeSort, List.mem_filter, hw.mem_iff]
        by_cases hn : n = name <;> simp [hn]
      · rw [hsn]
        exact pairwise_lt_mergeSort (hw.nodup.filter _)
    · refine .inr (.inr ⟨⟨first, rfl⟩, n, hn, hnone, ?_⟩)
      rw [linearizeBy, get_eq_ok.mpr hf]
      simp only [bind, Except.bind, hnames, hfirst, he]

theorem linearizeBy_eq_ok (hr : r.Readable) {structs : List Struct} :
    r.linearizeBy elementary name = .ok structs ↔
      ∃ first others, structs = first :: others ∧ Linearization elementary r name first others := by
  rcases linearizeBy_cases elementary hr name with
    ⟨first, others, hok, hl⟩ | ⟨hnone, he⟩ | ⟨-, n, hn, hnone, he⟩
  · constructor
    · intro h
      exact ⟨first, others, Except.ok.inj (h.symm.trans hok), hl⟩
    · rintro ⟨first', others', rfl, hl'⟩
      obtain ⟨rfl, rfl⟩ := hl.unique hl'
      exact hok
  · constructor
    · intro h
      cases h.symm.trans he
    · rintro ⟨first, others, rfl, hl⟩
      cases hnone.symm.trans hl.found
  · constructor
    · intro h
      cases h.symm.trans he
    · rintro ⟨first, others, rfl, hl⟩
      obtain ⟨s, hs⟩ := hl.defined hn
      cases hnone.symm.trans hs

/-- Every struct that is referred to has a definition. -/
def Closed (elementary : String → Bool) (r : Resolver) : Prop :=
  ∀ s ∈ r.structs, ∀ n, s.RefersTo elementary n → ∃ t, r.find? n = some t

theorem Closed.defined (h : r.Closed elementary) {n : String} (hn : r.Reach elementary name n) :
    ∃ s, r.find? n = some s := by
  cases hn with
  | direct found refers => exact h _ (List.mem_of_find?_eq_some found) n refers
  | step _ found refers => exact h _ (List.mem_of_find?_eq_some found) n refers

/-- Where nothing is missing, every struct is linearized. -/
theorem linearizeBy_of_closed (hr : r.Readable) (h : r.Closed elementary)
    (hname : ∃ s, r.find? name = some s) :
    ∃ structs, r.linearizeBy elementary name = .ok structs := by
  obtain ⟨s, hs⟩ := hname
  rcases linearizeBy_cases elementary hr name with
    ⟨first, others, hok, -⟩ | ⟨hnone, -⟩ | ⟨-, n, hn, hnone, -⟩
  · exact ⟨_, hok⟩
  · cases hnone.symm.trans hs
  · obtain ⟨t, ht⟩ := h.defined hn
    cases hnone.symm.trans ht

/-- A name is linearized exactly when it and all that is reached from it have definitions. The
answer is then its definition and the others that are reached, each once and sorted by name.
Otherwise a name is reported that has no definition: the name itself, or one that is reached. -/
theorem linearizeBy_complete (elementary : String → Bool) (r : Resolver) (hr : r.Readable)
    (name : String) :
    ((∃ structs, r.linearizeBy elementary name = .ok structs) ↔
      (∃ s, r.find? name = some s) ∧
        ∀ n, r.Reach elementary name n → ∃ s, r.find? n = some s) ∧
    (∀ structs, r.linearizeBy elementary name = .ok structs →
      ∃ first others, structs = first :: others ∧
        Linearization elementary r name first others) ∧
    (∀ failure, r.linearizeBy elementary name = .error failure →
      (r.find? name = none ∧ failure = .missingStruct name) ∨
      ((∃ s, r.find? name = some s) ∧
        ∃ n, r.Reach elementary name n ∧ r.find? n = none ∧ failure = .missingStruct n)) := by
  refine ⟨⟨?_, ?_⟩, fun structs => (linearizeBy_eq_ok hr).mp, ?_⟩
  · rintro ⟨structs, h⟩
    obtain ⟨first, others, -, hl⟩ := (linearizeBy_eq_ok hr).mp h
    exact ⟨⟨first, hl.found⟩, fun n => hl.defined⟩
  · rintro ⟨⟨s, hs⟩, hdefined⟩
    rcases linearizeBy_cases elementary hr name with
      ⟨first, others, hok, -⟩ | ⟨hnone, -⟩ | ⟨-, n, hn, hnone, -⟩
    · exact ⟨_, hok⟩
    · cases hnone.symm.trans hs
    · obtain ⟨t, ht⟩ := hdefined n hn
      cases hnone.symm.trans ht
  · intro failure h
    rcases linearizeBy_cases elementary hr name with
      ⟨first, others, hok, -⟩ | ⟨hnone, he⟩ | ⟨hs, n, hn, hnone, he⟩
    · cases h.symm.trans hok
    · exact .inl ⟨hnone, Except.error.inj (h.symm.trans he)⟩
    · exact .inr ⟨hs, n, hn, hnone, Except.error.inj (h.symm.trans he)⟩

/-- Two structs that refer to each other, and the second to one more. -/
def cycle : Resolver :=
  ⟨[⟨"Node", [⟨"Edge[]", "edges"⟩, ⟨"Node", "parent"⟩]⟩,
    ⟨"Edge", [⟨"(Node,uint256)[2]", "ends"⟩, ⟨"Colour", "colour"⟩]⟩, ⟨"Colour", []⟩]⟩

theorem readable_cycle : cycle.Readable := by
  intro s hs f hf
  simp only [cycle, List.mem_cons, List.not_mem_nil, or_false] at hs
  rcases hs with rfl | rfl | rfl <;> simp only [List.mem_cons, List.not_mem_nil, or_false] at hf
  · rcases hf with rfl | rfl <;> exact exists_of_isSome_toOption (by decide +kernel)
  · rcases hf with rfl | rfl <;> exact exists_of_isSome_toOption (by decide +kernel)

theorem closed_cycle : cycle.Closed (· == "uint256") := by
  have closed {s : Struct} (names : List String)
      (h : (s.referencesBy (· == "uint256")).toOption = some names)
      (hnames : ∀ n ∈ names, (cycle.find? n).isSome = true) (hs : s ∈ cycle.structs) (n : String)
      (hn : s.RefersTo (· == "uint256") n) : ∃ t, cycle.find? n = some t := by
    obtain ⟨names', hnames', hmem⟩ := (readable_cycle s hs).exists_referencesBy (· == "uint256")
    cases (toOption_eq_some.mp h).symm.trans hnames'
    exact Option.isSome_iff_exists.mp (hnames n ((hmem n).mpr hn))
  intro s hs
  have hmem := hs
  simp only [cycle, List.mem_cons, List.not_mem_nil, or_false] at hs
  rcases hs with rfl | rfl | rfl
  · exact closed ["Edge", "Node"] (by decide +kernel) (by decide +kernel) hmem
  · exact closed ["Node", "Colour"] (by decide +kernel) (by decide +kernel) hmem
  · exact closed [] (by decide +kernel) (by decide +kernel) hmem

theorem linearizeBy_cycle :
    cycle.Readable ∧ ∃ first others,
      cycle.linearizeBy (· == "uint256") "Node" = .ok (first :: others) ∧
        Linearization (· == "uint256") cycle "Node" first others := by
  refine ⟨readable_cycle, ?_⟩
  obtain ⟨succeeds, complete, -⟩ :=
    linearizeBy_complete (· == "uint256") cycle readable_cycle "Node"
  obtain ⟨structs, h⟩ := succeeds.mpr ⟨⟨_, rfl⟩, fun n hn => closed_cycle.defined hn⟩
  obtain ⟨first, others, rfl, hl⟩ := complete structs h
  exact ⟨first, others, h, hl⟩

end ContractInterface.TypedData.Resolver
