import ContractInterface.Abi
import Mathlib.Data.List.Induction
import Mathlib.Data.List.Nodup

/-! Items that are put into groups one by one. The groups stand in the order in which their names
came first, and the items of each in the order in which they came. When all are taken out and put
in again, nothing changes. -/
namespace ContractInterface.Overloads

variable {α : Type} {name : α → String} {groups : Overloads α} {xs : List α}

/-- Names in order of first occurrence, each with all items that have it. -/
def grouped (name : α → String) (xs : List α) : Overloads α :=
  (xs.map name).eraseDups.map fun n => (n, xs.filter (name · == n))

/-- The items of a name stand together, where the first of them came. -/
def byName (name : α → String) (xs : List α) : List α :=
  (xs.map name).eraseDups.flatMap fun n => xs.filter (name · == n)

/-- Put items into groups one by one. -/
def pushAll (name : α → String) (groups : Overloads α) (xs : List α) : Overloads α :=
  xs.foldl (fun groups x => push groups (name x) x) groups

theorem pushAll_append (groups : Overloads α) (xs ys : List α) :
    pushAll name groups (xs ++ ys) = pushAll name (pushAll name groups xs) ys :=
  List.foldl_append

theorem all_grouped (xs : List α) : (grouped name xs).all = byName name xs := by
  simp [all, grouped, byName, List.flatMap_map]

theorem eraseDups_concat (keys : List String) (key : String) :
    (keys ++ [key]).eraseDups =
      if key ∈ keys then keys.eraseDups else keys.eraseDups ++ [key] := by
  rw [List.eraseDups_append]
  split <;> simp [List.removeAll, List.eraseDups_cons, *]

theorem nodup_eraseDups (keys : List String) : keys.eraseDups.Nodup := by
  induction keys using List.reverseRecOn with
  | nil => exact List.nodup_nil
  | append_singleton keys key ih =>
    rw [eraseDups_concat]
    split
    · exact ih
    · next hmem =>
      refine List.nodup_append.mpr ⟨ih, List.nodup_singleton key, ?_⟩
      intro n hn m hm
      rw [List.mem_singleton.mp hm]
      rintro rfl
      exact hmem (List.mem_eraseDups.mp hn)

theorem push_new (x : α) {n : String} (h : n ∉ groups.map (·.1)) :
    groups.push n x = groups ++ [(n, [x])] := by
  induction groups with
  | nil => rfl
  | cons g groups ih =>
    rw [List.map_cons, List.mem_cons, not_or] at h
    rw [push, if_neg (Ne.symm h.1), ih h.2]
    rfl

theorem push_known (x : α) {n : String} {front back : Overloads α} {ys : List α}
    (h : n ∉ front.map (·.1)) :
    push (front ++ (n, ys) :: back) n x = front ++ (n, ys ++ [x]) :: back := by
  induction front with
  | nil => exact if_pos rfl
  | cons g front ih =>
    rw [List.map_cons, List.mem_cons, not_or] at h
    rw [List.cons_append, push, if_neg (Ne.symm h.1), ih h.2]
    rfl

/-- An item that comes last goes behind the others of its name, or else behind all. -/
theorem push_grouped (xs : List α) (x : α) :
    (grouped name xs).push (name x) x = grouped name (xs ++ [x]) := by
  have other {keys : List String} (h : name x ∉ keys) :
      (keys.map fun n => (n, (xs ++ [x]).filter (name · == n))) =
        keys.map fun n => (n, xs.filter (name · == n)) := by
    apply List.map_congr_left
    intro n hn
    have hne : name x ≠ n := fun heq => h (heq ▸ hn)
    simp [hne]
  rw [grouped, grouped, List.map_append, List.map_singleton, eraseDups_concat]
  split
  · next hmem =>
    obtain ⟨front, back, hkeys, hfront⟩ :=
      List.eq_append_cons_of_mem (List.mem_eraseDups.mpr hmem)
    have hback : name x ∉ back := by
      have hnodup := nodup_eraseDups (xs.map name)
      rw [hkeys] at hnodup
      exact (List.nodup_cons.mp hnodup.of_append_right).1
    rw [hkeys, List.map_append, List.map_append, List.map_cons, List.map_cons, other hfront,
      other hback, push_known x (by simpa using hfront)]
    simp
  · next hmem =>
    have hnone : xs.filter (name · == name x) = [] := by
      rw [List.filter_eq_nil_iff]
      intro y hy
      have hne : name y ≠ name x := fun heq => hmem (heq ▸ List.mem_map_of_mem hy)
      simpa using hne
    rw [push_new x (by simpa using hmem), List.map_append, other (by simpa using hmem)]
    simp [hnone]

theorem pushAll_nil (xs : List α) : pushAll name [] xs = grouped name xs := by
  induction xs using List.reverseRecOn with
  | nil => rfl
  | append_singleton xs x ih =>
    rw [pushAll_append, ih, ← push_grouped]
    rfl

theorem perm_all_push (groups : Overloads α) (n : String) (x : α) :
    (all (push groups n x)).Perm (all groups ++ [x]) := by
  induction groups with
  | nil => exact .refl _
  | cons g groups ih =>
    rw [push]
    split
    · have hlast : ([x] ++ all groups).Perm (all groups ++ [x]) := List.perm_append_comm
      simpa [all] using hlast.append_left g.2
    · simpa [all] using ih.append_left g.2

/-- Nothing is lost and nothing is doubled. -/
theorem perm_byName (xs : List α) : (byName name xs).Perm xs := by
  rw [← all_grouped]
  induction xs using List.reverseRecOn with
  | nil => exact .refl _
  | append_singleton xs x ih =>
    rw [← push_grouped]
    exact (perm_all_push _ _ x).trans (ih.append_right [x])

/-- Groups of different names, none of them empty, each with items of its name. -/
structure Keyed (name : α → String) (groups : Overloads α) : Prop where
  nodup : (groups.map (·.1)).Nodup
  nonempty : ∀ g ∈ groups, g.2 ≠ []
  named : ∀ g ∈ groups, ∀ x ∈ g.2, name x = g.1

theorem keyed_grouped (xs : List α) : Keyed name (grouped name xs) where
  nodup := by
    rw [grouped, List.map_map]
    simpa [Function.comp_def] using nodup_eraseDups (xs.map name)
  nonempty := by
    intro g hg
    obtain ⟨n, hn, rfl⟩ := List.mem_map.mp hg
    obtain ⟨x, hx, rfl⟩ := List.mem_map.mp (List.mem_eraseDups.mp hn)
    exact List.ne_nil_of_mem (List.mem_filter.mpr ⟨hx, beq_self_eq_true _⟩)
  named := by
    intro g hg x hx
    obtain ⟨n, _, rfl⟩ := List.mem_map.mp hg
    exact eq_of_beq (List.mem_filter.mp hx).2

theorem pushAll_group {front : Overloads α} {n : String} (hn : n ∉ front.map (·.1)) (ys : List α)
    {zs : List α} (hzs : ∀ z ∈ zs, name z = n) :
    pushAll name (front ++ [(n, ys)]) zs = front ++ [(n, ys ++ zs)] := by
  induction zs generalizing ys with
  | nil => simp [pushAll]
  | cons z zs ih =>
    obtain ⟨hz, hzs⟩ := List.forall_mem_cons.mp hzs
    have hrest := ih (ys ++ [z]) hzs
    rw [pushAll, List.foldl_cons, hz, push_known z hn]
    rwa [List.append_assoc, List.singleton_append] at hrest

/-- Groups that are taken apart are built again one behind the other. -/
theorem pushAll_all (front : Overloads α) (h : Keyed name groups)
    (hfront : ((front ++ groups).map (·.1)).Nodup) :
    pushAll name front (all groups) = front ++ groups := by
  induction groups generalizing front with
  | nil => simp [all, pushAll]
  | cons g groups ih =>
    obtain ⟨n, ys⟩ := g
    obtain ⟨y, ys, rfl⟩ := List.exists_cons_of_ne_nil (h.nonempty (n, ys) (by simp))
    have hnamed := h.named (n, y :: ys) (by simp)
    have hn : n ∉ front.map (·.1) := by
      rw [List.map_append, List.map_cons] at hfront
      intro hmem
      exact (List.nodup_append.mp hfront).2.2 n hmem n (by simp) rfl
    have hrest : Keyed name groups :=
      ⟨(List.nodup_cons.mp h.nodup).2, fun g hg => h.nonempty g (by simp [hg]),
        fun g hg => h.named g (by simp [hg])⟩
    have hfirst : pushAll name front (y :: ys) = front ++ [(n, y :: ys)] := by
      rw [pushAll, List.foldl_cons, hnamed y (by simp), push_new y hn]
      exact pushAll_group hn [y] fun z hz => hnamed z (by simp [hz])
    have hothers := ih (front ++ [(n, y :: ys)]) hrest (by simpa using hfront)
    have hall : all ((n, y :: ys) :: groups) = (y :: ys) ++ all groups := rfl
    rw [hall, pushAll_append, hfirst, hothers, List.append_assoc, List.singleton_append]

theorem grouped_all (h : Keyed name groups) : grouped name (all groups) = groups := by
  rw [← pushAll_nil]
  exact pushAll_all [] h (by simpa using h.nodup)

end ContractInterface.Overloads
