import ContractInterface.Proofs.Abi.Grouping
import ContractInterface.Proofs.Operation
import ContractInterface.Proofs.TypedData.Supply

/-! Definitions that are offered to a resolver one after the other, some of which it refuses. Of
each name the first definition stays, and the names stand in the order in which they came. A table
that keeps definitions under keys, and puts what it accepts over what stands there, holds the
same. -/
namespace ContractInterface.TypedData

/-- Definitions under keys, in the order in which the keys came. -/
abbrev Table := List (String × Struct)

namespace Table

/-- Put a definition under a key, over the one that stands there. -/
def put (key : String) (s : Struct) : Table → Table
  | [] => [(key, s)]
  | (k, t) :: rest => if k = key then (k, s) :: rest else (k, t) :: put key s rest

/-- Put a definition under its name unless another one stands there. -/
def ingest (table : Table) (s : Struct) : Except Failure Table :=
  match table.lookup s.name with
  | none => .ok (table.put s.name s)
  | some t => if t = s then .ok (table.put s.name s) else .error (.conflictingStructs s.name)

/-- The table after a definition is offered, which leaves it as it was where that is refused. -/
def offer (table : Table) (s : Struct) : Table :=
  match table.ingest s with
  | .ok table' => table'
  | .error _ => table

def offers (table : Table) (structs : List Struct) : Table := structs.foldl offer table

variable {table : Table} {key : String} {s : Struct}

theorem put_of_lookup_eq_none (h : table.lookup key = none) :
    table.put key s = table ++ [(key, s)] := by
  induction table with
  | nil => rfl
  | cons entry rest ih =>
    obtain ⟨k, t⟩ := entry
    by_cases hk : k = key
    · subst hk
      simp at h
    · rw [List.lookup_cons, beq_eq_false_iff_ne.mpr (Ne.symm hk)] at h
      rw [put, if_neg hk, ih h]
      rfl

/-- What is put over itself changes nothing. -/
theorem put_of_lookup_eq_some (h : table.lookup key = some s) : table.put key s = table := by
  induction table with
  | nil => cases h
  | cons entry rest ih =>
    obtain ⟨k, t⟩ := entry
    by_cases hk : k = key
    · subst hk
      rw [List.lookup_cons_self, Option.some.injEq] at h
      rw [put, if_pos rfl, h]
    · rw [List.lookup_cons, beq_eq_false_iff_ne.mpr (Ne.symm hk)] at h
      rw [put, if_neg hk, ih h]

end Table

namespace Resolver

variable {r : Resolver} {s : Struct} {past : List Struct}

/-- Taking a definition in leaves the resolver as it was where that is refused. -/
theorem run_taking (r : Resolver) (s : Struct) :
    (taking s).run.run r =
      match r.ingest s with
      | .ok r' => (.ok (), r')
      | .error e => (.error e, r) := by
  rw [taking, Operation.run_get_bind, ingest]
  cases r.find? s.name with
  | none => rfl
  | some known => by_cases h : known = s <;> simp [h] <;> rfl

theorem result_taking (r : Resolver) (s : Struct) :
    (taking s).result r = (r.ingest s).map fun _ => () := by
  rw [Operation.result, run_taking]
  cases r.ingest s <;> rfl

/-- The resolver that is left where a definition is offered, be it that it is refused. -/
def offer (r : Resolver) (s : Struct) : Resolver := (taking s).after r

theorem offer_eq (r : Resolver) (s : Struct) :
    r.offer s = match r.ingest s with
      | .ok r' => r'
      | .error _ => r := by
  rw [offer, Operation.after, run_taking]
  cases r.ingest s <;> rfl

def offers (r : Resolver) (structs : List Struct) : Resolver := structs.foldl offer r

/-- The definitions under their names. -/
def table (r : Resolver) : Table := r.structs.map fun s => (s.name, s)

theorem offers_concat (r : Resolver) (past : List Struct) (s : Struct) :
    r.offers (past ++ [s]) = (r.offers past).offer s := by
  simp [offers]

theorem offer_of_find?_eq_none (h : r.find? s.name = none) : r.offer s = ⟨r.structs ++ [s]⟩ := by
  rw [offer_eq, ingest, h]

/-- A name that is known keeps its definition, whichever one is offered. -/
theorem offer_of_find?_eq_some {t : Struct} (h : r.find? s.name = some t) : r.offer s = r := by
  rcases ingest_cases r s with ⟨-, hok⟩ | ⟨hnone, -⟩ | ⟨-, -, -, he⟩
  · rw [offer_eq, hok]
  · cases hnone.symm.trans h
  · rw [offer_eq, he]

theorem offer_of_error {e : Failure} (h : r.ingest s = .error e) : r.offer s = r := by
  rw [offer_eq, h]

/-- A definition is refused exactly if another one of its name is known. -/
theorem ingest_eq_error_iff {e : Failure} :
    r.ingest s = .error e ↔
      e = .conflictingStructs s.name ∧ ∃ t, r.find? s.name = some t ∧ t ≠ s := by
  rcases ingest_cases r s with ⟨hs, hok⟩ | ⟨hs, hok⟩ | ⟨t, hs, hne, he⟩
  · simp [hok, hs]
  · simp [hok, hs]
  · have hother : ∃ u, r.find? s.name = some u ∧ u ≠ s := ⟨t, hs, hne⟩
    rw [he, Except.error.injEq, and_iff_left hother, eq_comm]

/-- The definition of a name is the first one that was offered. -/
theorem find?_offers (past : List Struct) (n : String) :
    (empty.offers past).find? n = past.find? (·.name == n) := by
  induction past using List.reverseRecOn with
  | nil => rfl
  | append_singleton past s ih =>
    rw [offers_concat, List.find?_append, ← ih]
    cases hs : (empty.offers past).find? s.name with
    | none =>
      rw [offer_of_find?_eq_none hs, find?_concat hs]
      by_cases hn : n = s.name
      · subst hn
        simp [hs]
      · simp [hn, Ne.symm hn]
    | some t =>
      rw [offer_of_find?_eq_some hs]
      by_cases hn : n = s.name
      · subst hn
        simp [hs]
      · simp [Ne.symm hn]

theorem names_offers (past : List Struct) :
    (empty.offers past).names = (past.map (·.name)).eraseDups := by
  induction past using List.reverseRecOn with
  | nil => rfl
  | append_singleton past s ih =>
    rw [offers_concat, List.map_append, List.map_singleton, Overloads.eraseDups_concat, ← ih]
    have hfind := find?_offers past s.name
    cases hs : (empty.offers past).find? s.name with
    | none =>
      have hnew : s.name ∉ past.map (·.name) := by
        rw [hs, eq_comm, List.find?_eq_none] at hfind
        simpa using hfind
      rw [if_neg hnew, offer_of_find?_eq_none hs]
      simp [names]
    | some t =>
      have hknown : s.name ∈ past.map (·.name) := by
        rw [hs] at hfind
        have hname : t.name = s.name := by simpa using List.find?_some hfind.symm
        exact List.mem_map.mpr ⟨t, List.mem_of_find?_eq_some hfind.symm, hname⟩
      rw [if_pos hknown, offer_of_find?_eq_some hs]

/-- What was offered before is known, or there was another one of its name before it. -/
theorem offer_of_mem (h : s ∈ past) : (empty.offers past).offer s = empty.offers past := by
  obtain ⟨t, ht⟩ : ∃ t, (empty.offers past).find? s.name = some t := by
    rw [find?_offers, ← Option.isSome_iff_exists, List.find?_isSome]
    exact ⟨s, h, by simp⟩
  exact offer_of_find?_eq_some ht

theorem lookup_table (r : Resolver) (n : String) : r.table.lookup n = r.find? n := by
  unfold table find?
  induction r.structs with
  | nil => rfl
  | cons s structs ih =>
    rw [List.map_cons, List.lookup_cons, List.find?_cons, ih, BEq.comm]

/-- Taking a definition in has the same outcome for a resolver and for its table. -/
theorem ingest_table (r : Resolver) (s : Struct) :
    r.table.ingest s = (r.ingest s).map table := by
  rw [Table.ingest, lookup_table]
  rcases ingest_cases r s with ⟨hs, hok⟩ | ⟨hs, hok⟩ | ⟨t, hs, hne, he⟩
  · have hlookup := (lookup_table r s.name).trans hs
    rw [hok, hs, Table.put_of_lookup_eq_some hlookup]
    simp [Except.map]
  · have hlookup := (lookup_table r s.name).trans hs
    rw [hok, hs, Table.put_of_lookup_eq_none hlookup]
    simp [Except.map, table]
  · rw [he, hs]
    simp [hne, Except.map]

theorem offers_table (r : Resolver) (past : List Struct) :
    r.table.offers past = (r.offers past).table := by
  have step (r : Resolver) (s : Struct) : r.table.offer s = (r.offer s).table := by
    rw [Table.offer, ingest_table, offer_eq]
    cases r.ingest s <;> rfl
  induction past generalizing r with
  | nil => rfl
  | cons s past ih =>
    rw [Table.offers, List.foldl_cons, step]
    exact ih (r.offer s)

theorem mem_table_offers (past : List Struct) (n : String) (t : Struct) :
    (n, t) ∈ (empty.offers past).table ↔ t.name = n ∧ (empty.offers past).find? n = some t := by
  have hnodup : ((empty.offers past).structs.map (·.name)).Nodup := by
    have h := Overloads.nodup_eraseDups (past.map (·.name))
    rwa [← names_offers] at h
  rw [table, List.mem_map]
  constructor
  · rintro ⟨s, hs, heq⟩
    cases heq
    exact ⟨rfl, find?_of_nodup hnodup hs⟩
  · rintro ⟨rfl, ht⟩
    exact ⟨t, List.mem_of_find?_eq_some ht, rfl⟩

/-- After any definitions were offered, the refused ones among them, the next one is refused exactly
if another one of its name is known, and changes nothing if it is refused or was offered before. The
first definition of a name is the one that stays, the names stand in the order in which they first
came, and a table with keys holds just these definitions, each under its name. -/
theorem offers_keep_first (past : List Struct) :
    (∀ s, (taking s).result (empty.offers past) =
          ((empty.offers past).ingest s).map (fun _ => ()) ∧
        (∀ e, (empty.offers past).ingest s = .error e ↔ e = .conflictingStructs s.name ∧
          ∃ t, (empty.offers past).find? s.name = some t ∧ t ≠ s) ∧
        ((∃ e, (empty.offers past).ingest s = .error e) ∨ s ∈ past →
          empty.offers (past ++ [s]) = empty.offers past) ∧
        ((empty.offers past).find? s.name = some s →
          (empty.offers past).ingest s = .ok (empty.offers past))) ∧
    (∀ n t, (empty.offers past).get n = .ok t ↔ past.find? (·.name == n) = some t) ∧
    (empty.offers past).names = (past.map (·.name)).eraseDups ∧
    Table.offers [] past = (empty.offers past).table ∧
    ∀ n t, (n, t) ∈ Table.offers [] past ↔ t.name = n ∧ (empty.offers past).get n = .ok t := by
  have htable : Table.offers [] past = (empty.offers past).table := offers_table empty past
  refine ⟨fun s => ⟨result_taking _ s, fun e => ingest_eq_error_iff, ?_, ?_⟩, ?_,
    names_offers past, htable, ?_⟩
  · rw [offers_concat]
    rintro (⟨e, he⟩ | hmem)
    · exact offer_of_error he
    · exact offer_of_mem hmem
  · intro hs
    rcases ingest_cases (empty.offers past) s with ⟨-, hok⟩ | ⟨hnone, -⟩ | ⟨t, ht, hne, -⟩
    · exact hok
    · cases hnone.symm.trans hs
    · exact absurd (Option.some.inj (ht.symm.trans hs)) hne
  · intro n t
    rw [get_eq_ok, find?_offers]
  · intro n t
    rw [htable, get_eq_ok]
    exact mem_table_offers past n t

/-- Of three definitions the third is refused, since its name is that of the first. -/
theorem offers_keep_first_refused :
    ∃ past : List Struct, past = [⟨"A", [⟨"bool", "b"⟩]⟩, ⟨"B", []⟩, ⟨"A", []⟩] ∧
      (empty.offers past).ingest ⟨"B", [⟨"A", "a"⟩]⟩ = .error (.conflictingStructs "B") ∧
      empty.offers (past ++ [⟨"B", [⟨"A", "a"⟩]⟩]) = empty.offers past ∧
      empty.offers (past ++ [⟨"A", []⟩]) = empty.offers past ∧
      (empty.offers past).ingest ⟨"B", []⟩ = .ok (empty.offers past) ∧
      (empty.offers past).names = ["A", "B"] ∧
      Table.offers [] past = [("A", ⟨"A", [⟨"bool", "b"⟩]⟩), ("B", ⟨"B", []⟩)] := by
  obtain ⟨next, -, names, table, -⟩ :=
    offers_keep_first [⟨"A", [⟨"bool", "b"⟩]⟩, ⟨"B", []⟩, ⟨"A", []⟩]
  have hrefused := ((next ⟨"B", [⟨"A", "a"⟩]⟩).2.1 _).mpr ⟨rfl, ⟨"B", []⟩, rfl, by decide⟩
  refine ⟨_, rfl, hrefused, (next _).2.2.1 (.inl ⟨_, hrefused⟩),
    (next _).2.2.1 (.inr (by simp)), (next _).2.2.2 rfl, names.trans (by decide), table.trans rfl⟩

end Resolver

end ContractInterface.TypedData
