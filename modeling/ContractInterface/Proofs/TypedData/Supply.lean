import ContractInterface.Proofs.TypedData.Encoding

/-! Which definitions a resolver has been given, in whatever order and however often, settles what
it writes. What is written of a struct depends only on what is reached from it, down to the name
that is reported as missing. -/
namespace ContractInterface.TypedData
open Sequencing

variable {elementary : String → Bool}

theorem Member.exists_parse_type {text : String} {m : Member} (h : Member.parse text = .ok m) :
    ∃ s, TypeSpec.parse s = .ok m.ty := by
  unfold Member.parse at h
  dsimp only at h
  split at h
  · cases h
  · obtain ⟨t, ht, h⟩ := bind_eq_ok.mp h
    cases h
    exact ⟨_, ht⟩

/-- All types in the definition have been read. -/
def Definition.TypesRead (d : Definition) : Prop :=
  ∀ m ∈ d.members, ∃ text, TypeSpec.parse text = .ok m.ty

theorem Definition.typesRead {text : String} {d : Definition} (h : parse text = .ok d) :
    d.TypesRead := by
  intro m hm
  obtain ⟨rest, hread⟩ := parse_eq_ok.mp h
  obtain ⟨-, pieces, -, -, -, hmembers, -⟩ := read_eq_ok.mp hread
  obtain ⟨piece, -, hpiece⟩ := exists_of_mem_of_mapM_eq_ok (mapM_eq_ok.mpr hmembers) hm
  exact Member.exists_parse_type hpiece

theorem Reading.typesRead {text : String} {r : Reading} (h : parse text = .ok r) :
    ∀ d ∈ r.definitions, d.TypesRead := by
  intro d hd
  obtain ⟨text, ht⟩ := exists_parse_definition h d hd
  exact Definition.typesRead ht

namespace Struct

/-- The struct comes from a definition that was checked, whose types have all been read. -/
def Checked (s : Struct) : Prop :=
  ∃ d, ofDefinition d = .ok s ∧ ∀ m ∈ d.members, ∃ text, TypeSpec.parse text = .ok m.ty

theorem Obtained.checked {s : Struct} (h : s.Obtained) : s.Checked := by
  obtain ⟨text, d, hd, hs⟩ := h
  exact ⟨d, hs, Definition.typesRead hd⟩

/-- A type that has been read is read again from its span. -/
theorem Checked.readable {s : Struct} (h : s.Checked) : s.Readable := by
  obtain ⟨d, hs, htypes⟩ := h
  obtain ⟨name, -, hs⟩ := bind_eq_ok.mp hs
  obtain ⟨fields, hfields, hs⟩ := bind_eq_ok.mp hs
  cases hs
  intro f hf
  obtain ⟨m, hm, hmf⟩ := exists_of_mem_of_mapM_eq_ok hfields hf
  obtain ⟨name, -, hmf⟩ := bind_eq_ok.mp hmf
  cases hmf
  obtain ⟨text, ht⟩ := htypes m hm
  exact ⟨m.ty, TypeSpec.parse_span ht⟩

theorem exists_parse_of_foldlM {fields : List StructField} {known names : List String}
    (h : fields.foldlM (fun known f => f.rootNames.map (addReferences elementary known)) known =
      .ok names) : ∀ f ∈ fields, ∃ t, TypeSpec.parse f.ty = .ok t := by
  induction fields generalizing known with
  | nil => simp
  | cons f fields ih =>
    obtain ⟨known', hf, hrest⟩ := bind_eq_ok.mp h
    obtain ⟨roots, hroots, -⟩ := map_eq_ok.mp hf
    obtain ⟨t, ht, -⟩ := map_eq_ok.mp hroots
    exact List.forall_mem_cons.mpr ⟨⟨t, ht⟩, ih hrest⟩

/-- Nothing is listed as a reference that the struct does not refer to. -/
theorem refersTo_of_mem {s : Struct} {names : List String} {n : String}
    (h : s.referencesBy elementary = .ok names) (hn : n ∈ names) : s.RefersTo elementary n := by
  have hs : s.Readable := exists_parse_of_foldlM h
  obtain ⟨names', hnames', hmem⟩ := hs.exists_referencesBy elementary
  cases h.symm.trans hnames'
  exact (hmem n).mp hn

end Struct

namespace Resolver

variable {r r' : Resolver} {first name : String} {seen stack : List String}

section
variable {s : Struct}

theorem reach_nil : r.reach elementary seen [] = .ok seen := by rw [reach]

theorem reach_of_seen (hn : seen.contains name = true) :
    r.reach elementary seen (name :: stack) = r.reach elementary seen stack := by
  rw [reach]
  split
  · rfl
  · next hn' => cases hn.symm.trans hn'

theorem reach_of_unknown {e : Failure} (hn : seen.contains name = false)
    (hs : r.get name = .error e) : r.reach elementary seen (name :: stack) = .error e := by
  rw [reach]
  split
  · next hn' => cases hn.symm.trans hn'
  · split
    · next he =>
      cases he.symm.trans hs
      rfl
    · next hs' => cases hs.symm.trans hs'

theorem reach_of_get (hn : seen.contains name = false) (hs : r.get name = .ok s) :
    r.reach elementary seen (name :: stack) = s.referencesBy elementary >>= fun names =>
      r.reach elementary (name :: seen) (names.reverse ++ stack) := by
  rw [reach]
  split
  · next hn' => cases hn.symm.trans hn'
  · split
    · next hs' => cases hs.symm.trans hs'
    · next hs' =>
      cases hs.symm.trans hs'
      split
      · next he => rw [he]; rfl
      · next hnames => rw [hnames]; rfl

/-- The references of a struct that is reached go on a stack of which all is reached. -/
theorem reached_push (hstack : ∀ n ∈ name :: stack, r.Reach elementary first n)
    (hs : r.get name = .ok s) {names : List String}
    (hnames : s.referencesBy elementary = .ok names) :
    ∀ n ∈ names.reverse ++ stack, r.Reach elementary first n := by
  intro n hn
  rcases List.mem_append.mp hn with hn | hn
  · exact .step (hstack name (by simp)) (get_eq_ok.mp hs)
      (Struct.refersTo_of_mem hnames (List.mem_reverse.mp hn))
  · exact hstack n (List.mem_cons_of_mem name hn)

end

section
variable (h : (r'.find? name).map (·.referencesBy elementary) =
  (r.find? name).map (·.referencesBy elementary))
include h

/-- Where a name is defined in one resolver it is in another one that refers from it to the same
names. -/
theorem exists_get_of_references {s : Struct} (hs : r.get name = .ok s) :
    ∃ s', r'.get name = .ok s' ∧ s'.referencesBy elementary = s.referencesBy elementary := by
  rw [get_eq_ok.mp hs, Option.map_some, Option.map_eq_some_iff] at h
  obtain ⟨s', hs', hrefs⟩ := h
  exact ⟨s', get_eq_ok.mpr hs', hrefs⟩

theorem get_eq_error_of_references {e : Failure} (he : r.get name = .error e) :
    r'.get name = .error e := by
  obtain ⟨hnone, rfl⟩ := get_eq_error.mp he
  rw [hnone, Option.map_none, Option.map_eq_none_iff] at h
  exact get_eq_error.mpr ⟨h, rfl⟩

end

/-- The walk sees nothing that is not reached. -/
theorem mem_of_reach (hstack : ∀ n ∈ stack, r.Reach elementary first n) {all : List String}
    (h : r.reach elementary seen stack = .ok all) {n : String} (hn : n ∈ all) :
    n ∈ seen ∨ r.Reach elementary first n := by
  fun_induction reach elementary r seen stack with
  | case1 seen =>
    cases h
    exact .inl hn
  | case2 seen name stack _ ih => exact ih (fun m hm => hstack m (List.mem_cons_of_mem name hm)) h
  | case3 => cases h
  | case4 => cases h
  | case5 seen name stack _ s hs names hnames _ ih =>
    rcases ih (reached_push hstack hs hnames) h with hseen | hreach
    · rcases List.mem_cons.mp hseen with rfl | hseen
      · exact .inr (hstack n (by simp))
      · exact .inl hseen
    · exact .inr hreach

/-- The walk takes the same course where the definitions of all that is reached refer to the same
names. -/
theorem reach_eq (h : ∀ m, r.Reach elementary first m →
      (r'.find? m).map (·.referencesBy elementary) = (r.find? m).map (·.referencesBy elementary))
    (hstack : ∀ n ∈ stack, r.Reach elementary first n) :
    r'.reach elementary seen stack = r.reach elementary seen stack := by
  -- along the walk of `r`: all that waits is reached, so what is looked up next refers to the same
  fun_induction reach elementary r seen stack with
  | case1 seen => exact reach_nil
  | case2 seen name stack hn ih =>
    rw [reach_of_seen hn]
    exact ih fun m hm => hstack m (List.mem_cons_of_mem name hm)
  | case3 seen name stack hn e he =>
    have hstep := h name (hstack name (by simp))
    exact reach_of_unknown hn (get_eq_error_of_references hstep he)
  | case4 seen name stack hn s hs e he =>
    obtain ⟨s', hs', hrefs⟩ := exists_get_of_references (h name (hstack name (by simp))) hs
    rw [reach_of_get hn hs', hrefs, he]
    rfl
  | case5 seen name stack hn s hs names hnames _ ih =>
    obtain ⟨s', hs', hrefs⟩ := exists_get_of_references (h name (hstack name (by simp))) hs
    rw [reach_of_get hn hs', hrefs, hnames]
    exact ih (reached_push hstack hs hnames)

section
variable (h : ∀ m, r.Reach elementary first m → r'.find? m = r.find? m)
include h

theorem get_eq {n : String} (hn : r.Reach elementary first n) : r'.get n = r.get n := by
  rw [get, get, h n hn]

theorem mapM_get_eq {names : List String} (hnames : ∀ n ∈ names, r.Reach elementary first n) :
    names.mapM r'.get = names.mapM r.get := by
  induction names with
  | nil => rfl
  | cons n names ih =>
    rw [List.mapM_cons, List.mapM_cons, get_eq h (hnames n (by simp)),
      ih fun m hm => hnames m (List.mem_cons_of_mem n hm)]

end

/-- What comes of a name, be it structs or a failure, is settled by the definitions of the name and
of all that is reached from it. -/
theorem linearizeBy_eq (hname : r'.find? name = r.find? name)
    (h : ∀ m, r.Reach elementary name m → r'.find? m = r.find? m) :
    r'.linearizeBy elementary name = r.linearizeBy elementary name := by
  have hget : r'.get name = r.get name := by rw [get, get, hname]
  unfold linearizeBy
  rw [hget]
  cases hfirst : r.get name with
  | error e => rfl
  | ok first =>
    have hfound := get_eq_ok.mp hfirst
    have hself : first.name = name := name_of_find? hfound
    simp only [bind, Except.bind, hself]
    cases hnames : first.referencesBy elementary with
    | error e => rfl
    | ok names =>
      have hstack : ∀ n ∈ names.reverse, r.Reach elementary name n := fun n hn =>
        .direct hfound (Struct.refersTo_of_mem hnames (List.mem_reverse.mp hn))
      dsimp only
      rw [reach_eq (fun m hm => by rw [h m hm]) hstack]
      cases hseen : r.reach elementary [name] names.reverse with
      | error e => rfl
      | ok seen =>
        dsimp only
        rw [mapM_get_eq h]
        intro n hn
        obtain ⟨hmem, hne⟩ := List.mem_filter.mp (List.mem_mergeSort.mp hn)
        rcases mem_of_reach hstack hseen hmem with hself | hreach
        · simp [List.mem_singleton.mp hself] at hne
        · exact hreach

theorem encodeTypeBy_eq (hname : r'.find? name = r.find? name)
    (h : ∀ m, r.Reach elementary name m → r'.find? m = r.find? m) :
    r'.encodeTypeBy elementary name = r.encodeTypeBy elementary name := by
  rw [encodeTypeBy, encodeTypeBy, linearizeBy_eq hname h]

theorem typeHashBy_eq {hash : String → List UInt8} (hname : r'.find? name = r.find? name)
    (h : ∀ m, r.Reach elementary name m → r'.find? m = r.find? m) :
    r'.typeHashBy elementary hash name = r.typeHashBy elementary hash name := by
  rw [typeHashBy, typeHashBy, encodeTypeBy_eq hname h]

/-- Where all types can be read, a text is written or a struct is missing. -/
theorem encodeTypeBy_cases (elementary : String → Bool) (hr : r.Readable) (name : String) :
    (∃ text, r.encodeTypeBy elementary name = .ok text) ∨
      ∃ n, r.encodeTypeBy elementary name = .error (.missingStruct n) := by
  rcases linearizeBy_cases elementary hr name with
    ⟨first, others, hok, -⟩ | ⟨-, he⟩ | ⟨-, n, -, -, he⟩
  · exact .inl ⟨_, by rw [encodeTypeBy, hok]; rfl⟩
  · exact .inr ⟨name, by rw [encodeTypeBy, he]; rfl⟩
  · exact .inr ⟨n, by rw [encodeTypeBy, he]; rfl⟩

/-- A definition is known already, or new, or there is another one of its name. -/
theorem ingest_cases (r : Resolver) (s : Struct) :
    (r.find? s.name = some s ∧ r.ingest s = .ok r) ∨
    (r.find? s.name = none ∧ r.ingest s = .ok ⟨r.structs ++ [s]⟩) ∨
    ∃ t, r.find? s.name = some t ∧ t ≠ s ∧ r.ingest s = .error (.conflictingStructs s.name) := by
  cases hs : r.find? s.name with
  | none => exact .inr (.inl ⟨rfl, by rw [ingest, hs]⟩)
  | some t =>
    by_cases ht : t = s
    · subst ht
      exact .inl ⟨rfl, by rw [ingest, hs]; exact if_pos rfl⟩
    · exact .inr (.inr ⟨t, rfl, ht, by rw [ingest, hs]; exact if_neg ht⟩)

theorem find?_concat {s : Struct} (hs : r.find? s.name = none) (n : String) :
    find? ⟨r.structs ++ [s]⟩ n = if n = s.name then some s else r.find? n := by
  by_cases hn : n = s.name
  · rw [if_pos hn, hn, find?, List.find?_append, ← find?, hs]
    simp
  · simp [find?, List.find?_append, hn, Ne.symm hn]

theorem find?_of_ingest {s : Struct} (h : r.ingest s = .ok r') {n : String} (hn : n ≠ s.name) :
    r'.find? n = r.find? n := by
  rcases ingest_cases r s with ⟨-, hok⟩ | ⟨hs, hok⟩ | ⟨t, -, -, he⟩
  · cases h.symm.trans hok
    rfl
  · cases h.symm.trans hok
    rw [find?_concat hs, if_neg hn]
  · cases h.symm.trans he

/-- The resolver knows just the given definitions. -/
structure Knows (r : Resolver) (structs : List Struct) : Prop where
  find?_iff : ∀ n s, r.find? n = some s ↔ s ∈ structs ∧ s.name = n
  mem_of_mem : ∀ s ∈ r.structs, s ∈ structs

/-- No two definitions have the same name. -/
def Compatible (structs : List Struct) : Prop :=
  ∀ s ∈ structs, ∀ t ∈ structs, s.name = t.name → s = t

variable {structs structs' known : List Struct}

theorem knows_empty : empty.Knows [] := ⟨by simp [empty, find?], by simp [empty]⟩

namespace Knows

theorem compatible (h : r.Knows structs) : Compatible structs := by
  intro s hs t ht hname
  have hs := (h.find?_iff s.name s).mpr ⟨hs, rfl⟩
  have ht := (h.find?_iff s.name t).mpr ⟨ht, hname.symm⟩
  exact Option.some.inj (hs.symm.trans ht)

/-- What is known settles every look-up. -/
theorem find?_eq (h : r.Knows structs) (h' : r'.Knows structs')
    (hmem : ∀ s, s ∈ structs ↔ s ∈ structs') (n : String) : r'.find? n = r.find? n := by
  apply Option.ext
  intro s
  rw [h.find?_iff, h'.find?_iff, hmem]

theorem repeated {s : Struct} (h : r.Knows known) (hs : r.find? s.name = some s) :
    r.Knows (known ++ [s]) := by
  have hmem : ∀ t, t ∈ known ++ [s] ↔ t ∈ known := by
    intro t
    rw [List.mem_append, List.mem_singleton, or_iff_left_iff_imp]
    rintro rfl
    exact ((h.find?_iff t.name t).mp hs).1
  exact ⟨fun n t => by rw [hmem, h.find?_iff], fun t ht => (hmem t).mpr (h.mem_of_mem t ht)⟩

theorem added {s : Struct} (h : r.Knows known) (hs : r.find? s.name = none) :
    Knows ⟨r.structs ++ [s]⟩ (known ++ [s]) := by
  refine ⟨?_, ?_⟩
  · intro n t
    rw [find?_concat hs, List.mem_append, List.mem_singleton]
    split
    · next hn =>
      -- a name without a definition is not that of anything known
      have hnew : ¬ (t ∈ known ∧ t.name = n) := by
        rw [← h.find?_iff, hn, hs]
        simp
      rw [or_and_right, or_iff_right hnew, Option.some.injEq]
      constructor
      · rintro rfl
        exact ⟨rfl, hn.symm⟩
      · rintro ⟨rfl, -⟩
        rfl
    · next hn =>
      have hother : ¬ (t = s ∧ t.name = n) := by
        rintro ⟨rfl, rfl⟩
        exact hn rfl
      rw [h.find?_iff, or_and_right, or_iff_left hother]
  · intro t ht
    rcases List.mem_append.mp ht with ht | ht
    · exact List.mem_append_left _ (h.mem_of_mem t ht)
    · exact List.mem_append_right _ ht

end Knows

/-- Definitions are taken in one after the other as long as none has the name of another one. -/
theorem foldlM_ingest_cases (structs : List Struct) (hr : r.Knows known) :
    (∃ r', structs.foldlM ingest r = .ok r' ∧ r'.Knows (known ++ structs)) ∨
      ¬ Compatible (known ++ structs) ∧
        ∃ n, structs.foldlM ingest r = .error (.conflictingStructs n) := by
  induction structs generalizing r known with
  | nil => exact .inl ⟨r, rfl, by rwa [List.append_nil]⟩
  | cons s structs ih =>
    rw [List.foldlM_cons]
    rcases ingest_cases r s with ⟨hs, hok⟩ | ⟨hs, hok⟩ | ⟨t, ht, hne, he⟩
    · rw [hok, List.append_cons known]
      exact ih (hr.repeated hs)
    · rw [hok, List.append_cons known]
      exact ih (hr.added hs)
    · refine .inr ⟨?_, s.name, by rw [he]; rfl⟩
      obtain ⟨hmem, hname⟩ := (hr.find?_iff s.name t).mp ht
      exact fun h => hne (h t (by simp [hmem]) s (by simp) hname)

theorem ofStructs_cases (structs : List Struct) :
    (∃ r, ofStructs structs = .ok r ∧ r.Knows structs) ∨
      ¬ Compatible structs ∧ ∃ n, ofStructs structs = .error (.conflictingStructs n) :=
  foldlM_ingest_cases structs knows_empty

/-- Definitions are checked and taken in as their structs are. -/
theorem ofDefinitions_eq_ofStructs {ds : List Definition}
    (h : ds.mapM Struct.ofDefinition = .ok structs) : ofDefinitions ds = ofStructs structs := by
  suffices hfold : ∀ r : Resolver, ds.foldlM (fun r d => Struct.ofDefinition d >>= r.ingest) r =
      structs.foldlM ingest r from hfold empty
  have hall := mapM_eq_ok.mp h
  clear h
  induction hall with
  | nil => exact fun _ => rfl
  | @cons d s ds structs hd _ ih =>
    intro r
    rw [List.foldlM_cons, List.foldlM_cons, hd]
    exact bind_congr ih

/-- Neither the order in which definitions are supplied nor repetitions of them matter: there is a
conflict in either case or in none, and then a struct has the same text and the same hash, or the
same name is reported as missing. A definition that is taken in later matters to none of the structs
from which its name is not reached. -/
theorem outcomes_of_same_structs (elementary : String → Bool) (hash : String → List UInt8)
    (h : ∀ s, s ∈ structs ↔ s ∈ structs') :
    ((∃ n n', ofStructs structs = .error (.conflictingStructs n) ∧
        ofStructs structs' = .error (.conflictingStructs n')) ∨
      ∃ r r', ofStructs structs = .ok r ∧ ofStructs structs' = .ok r' ∧ ∀ name,
        r'.encodeTypeBy elementary name = r.encodeTypeBy elementary name ∧
        r'.typeHashBy elementary hash name = r.typeHashBy elementary hash name ∧
        ((∀ s ∈ structs, s.Checked) → (∃ text, r.encodeTypeBy elementary name = .ok text) ∨
          ∃ n, r.encodeTypeBy elementary name = .error (.missingStruct n))) ∧
    (∀ ds, ds.mapM Struct.ofDefinition = .ok structs → ofDefinitions ds = ofStructs structs) ∧
    ∀ (r r' : Resolver) (s : Struct) (name : String), r.ingest s = .ok r' → s.name ≠ name →
      ¬ r.Reach elementary name s.name →
        r'.encodeTypeBy elementary name = r.encodeTypeBy elementary name ∧
        r'.typeHashBy elementary hash name = r.typeHashBy elementary hash name := by
  refine ⟨?_, fun ds => ofDefinitions_eq_ofStructs, ?_⟩
  · rcases ofStructs_cases structs with ⟨r, hr, hknows⟩ | ⟨hconflict, n, hn⟩
    · rcases ofStructs_cases structs' with ⟨r', hr', hknows'⟩ | ⟨hconflict, -⟩
      · have hfind := hknows.find?_eq hknows' h
        refine .inr ⟨r, r', hr, hr', fun name => ⟨encodeTypeBy_eq (hfind name) fun m _ => hfind m,
          typeHashBy_eq (hfind name) fun m _ => hfind m, ?_⟩⟩
        intro hchecked
        have hreadable : r.Readable := fun s hs => (hchecked s (hknows.mem_of_mem s hs)).readable
        exact encodeTypeBy_cases elementary hreadable name
      · refine absurd (fun s hs t ht => ?_) hconflict
        exact hknows.compatible s ((h s).mpr hs) t ((h t).mpr ht)
    · rcases ofStructs_cases structs' with ⟨r', -, hknows'⟩ | ⟨-, n', hn'⟩
      · refine absurd (fun s hs t ht => ?_) hconflict
        exact hknows'.compatible s ((h s).mp hs) t ((h t).mp ht)
      · exact .inl ⟨n, n', hn, hn'⟩
  · intro r r' s name hs hne hreach
    have hname : r'.find? name = r.find? name := find?_of_ingest hs hne.symm
    have hfind : ∀ m, r.Reach elementary name m → r'.find? m = r.find? m := fun m hm =>
      find?_of_ingest hs fun he => hreach (he ▸ hm)
    exact ⟨encodeTypeBy_eq hname hfind, typeHashBy_eq hname hfind⟩

/-- The cycle of structs is supplied twice over, backwards and forwards, and a struct that none of
them needs is taken in. -/
theorem outcomes_of_same_structs_cycle :
    (∀ s, s ∈ cycle.structs ↔ s ∈ cycle.structs.reverse ++ cycle.structs) ∧
    ∃ r r' s, ofStructs cycle.structs = .ok r ∧
      ofStructs (cycle.structs.reverse ++ cycle.structs) = .ok r' ∧
      r'.encodeTypeBy (· == "uint256") "Node" = r.encodeTypeBy (· == "uint256") "Node" ∧
      ((∃ text, r.encodeTypeBy (· == "uint256") "Node" = .ok text) ∨
        ∃ n, r.encodeTypeBy (· == "uint256") "Node" = .error (.missingStruct n)) ∧
      cycle.ingest ⟨"Shape", []⟩ = .ok s ∧
      s.encodeTypeBy (· == "uint256") "Node" = cycle.encodeTypeBy (· == "uint256") "Node" := by
  have hmem : ∀ s, s ∈ cycle.structs ↔ s ∈ cycle.structs.reverse ++ cycle.structs := by
    simp
  have hshape : ¬ cycle.Reach (· == "uint256") "Node" "Shape" := by
    intro hreach
    obtain ⟨t, ht⟩ := closed_cycle.defined hreach
    have hnone : cycle.find? "Shape" = none := by decide
    cases hnone.symm.trans ht
  obtain ⟨supplied, -, later⟩ :=
    outcomes_of_same_structs (· == "uint256") Keccak.hashText hmem
  have hcycle : ofStructs cycle.structs = .ok cycle := rfl
  rcases supplied with ⟨n, -, hn, -⟩ | ⟨r, r', hr, hr', outcomes⟩
  · cases hcycle.symm.trans hn
  · obtain ⟨same, -, settled⟩ := outcomes "Node"
    exact ⟨hmem, r, r', _, hr, hr', same, settled fun s hs => (obtained_cycle s hs).checked, rfl,
      (later cycle _ ⟨"Shape", []⟩ "Node" rfl (by decide) hshape).1⟩

end Resolver

end ContractInterface.TypedData
