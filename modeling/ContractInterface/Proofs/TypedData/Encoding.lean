import ContractInterface.Proofs.TypedData.Linearization
import ContractInterface.Proofs.TypedData.Reading

/-! The encoding text of a struct. It has in it exactly the definitions of the struct and of all
that it needs, in their order, so that two resolvers with the same text agree on them. -/
namespace ContractInterface.TypedData
open Sequencing

namespace Reading

/-- Definitions in a row are read one after the other, up to the end of the text. -/
theorem exists_read {structs : List Struct} (h : ∀ s ∈ structs, s.WellFormed) :
    ∃ reading, read (String.join (structs.map (·.text))).toList = .ok reading ∧
      reading.rest = "" ∧ reading.definitions.mapM Struct.ofDefinition = .ok structs := by
  obtain ⟨ds, hrounds, hds⟩ : ∃ ds, Rounds (String.join (structs.map (·.text))).toList ds [] ∧
      ds.mapM Struct.ofDefinition = .ok structs := by
    induction structs with
    | nil => exact ⟨[], .done, rfl⟩
    | cons s structs ih =>
      obtain ⟨ds, hrounds, hds⟩ := ih fun t ht => h t (by simp [ht])
      obtain ⟨d, hread, hd⟩ :=
        (h s (by simp)).exists_read (String.join (structs.map (·.text))).toList
      refine ⟨d :: ds, ?_, ?_⟩
      · rw [List.map_cons, String.join_cons, String.toList_append]
        exact .more hread hrounds
      · rw [List.mapM_cons, hd, hds]
        rfl
  exact ⟨_, (read_of_end hrounds rfl).trans (if_pos rfl), rfl, hds⟩

end Reading

namespace Resolver

variable {elementary : String → Bool} {r r' : Resolver} {name : String}

theorem find?_eq_none {r : Resolver} {name : String} (h : name ∉ r.names) :
    r.find? name = none := by
  rw [find?, List.find?_eq_none]
  intro s hs
  rw [beq_iff_eq]
  rintro rfl
  exact h (List.mem_map.mpr ⟨s, hs, rfl⟩)

/-- Definitions of different names are taken in one after the other. -/
theorem foldlM_ingest {ds : List Definition} {structs : List Struct}
    (h : ds.mapM Struct.ofDefinition = .ok structs)
    (hn : (r.names ++ structs.map (·.name)).Nodup) :
    ds.foldlM (fun r d => Struct.ofDefinition d >>= r.ingest) r = .ok ⟨r.structs ++ structs⟩ := by
  have hall := mapM_eq_ok.mp h
  clear h
  induction hall generalizing r with
  | nil => rw [List.append_nil]; rfl
  | @cons d s ds structs hd _ ih =>
    have hnone : r.find? s.name = none := by
      apply find?_eq_none
      intro hmem
      exact (List.nodup_append.mp hn).2.2 _ hmem _ (by simp) rfl
    have hingest : r.ingest s = .ok ⟨r.structs ++ [s]⟩ := by rw [ingest, hnone]
    rw [List.foldlM_cons, bind_eq_ok]
    refine ⟨⟨r.structs ++ [s]⟩, by rw [hd]; exact hingest, ?_⟩
    have := ih (r := ⟨r.structs ++ [s]⟩) (by simpa [names] using hn)
    simpa using this

theorem ofDefinitions_eq_ok {ds : List Definition} {structs : List Struct}
    (h : ds.mapM Struct.ofDefinition = .ok structs) (hn : (structs.map (·.name)).Nodup) :
    ofDefinitions ds = .ok ⟨structs⟩ :=
  foldlM_ingest (r := empty) h (by simpa [names, empty] using hn)

theorem find?_of_nodup {structs : List Struct} (hn : (structs.map (·.name)).Nodup) {s : Struct}
    (hs : s ∈ structs) : find? ⟨structs⟩ s.name = some s := by
  induction structs with
  | nil => cases hs
  | cons t structs ih =>
    rw [List.map_cons, List.nodup_cons] at hn
    rcases List.mem_cons.mp hs with rfl | hs
    · simp [find?]
    · have hne : t.name ≠ s.name := by
        intro he
        exact hn.1 (he ▸ List.mem_map.mpr ⟨s, hs, rfl⟩)
      have := ih hn.2 hs
      rw [find?] at this ⊢
      rw [List.find?_cons_of_neg (by simpa using hne)]
      exact this

/-- What is reached depends only on the definitions of what is reached. -/
theorem reach_congr (hname : r'.find? name = r.find? name)
    (h : ∀ m, r.Reach elementary name m → r'.find? m = r.find? m) (n : String) :
    r'.Reach elementary name n ↔ r.Reach elementary name n := by
  constructor
  · intro hn
    induction hn with
    | direct hs hr => exact .direct (hname.symm.trans hs) hr
    | step _ hs hr ih => exact .step ih ((h _ ih).symm.trans hs) hr
  · intro hn
    induction hn with
    | direct hs hr => exact .direct (hname.trans hs) hr
    | step hm hs hr ih => exact .step ih ((h _ hm).trans hs) hr

/-- Every definition in the resolver was read and checked. -/
def Obtained (r : Resolver) : Prop := ∀ s ∈ r.structs, s.Obtained

theorem Obtained.readable (h : r.Obtained) : r.Readable :=
  fun s hs _ hf => ((h s hs).wellFormed.fields _ hf).exists_parse

namespace Linearization

variable {first : Struct} {others : List Struct}

theorem nodup (h : Linearization elementary r name first others) :
    ((first :: others).map (·.name)).Nodup := by
  rw [List.map_cons, List.nodup_cons, h.name_first]
  exact ⟨fun hmem => ((h.mem_names name).mp hmem).2 rfl, h.sorted.imp String.ne_of_lt⟩

theorem find?_of_mem (h : Linearization elementary r name first others) {s : Struct}
    (hs : s ∈ first :: others) : r.find? s.name = some s := by
  rcases List.mem_cons.mp hs with rfl | hs
  · rw [h.name_first, h.found]
  · exact h.stored s hs

/-- The names that are written are the name itself and all that is reached from it. -/
theorem mem_iff (h : Linearization elementary r name first others) (n : String) :
    n ∈ (first :: others).map (·.name) ↔ n = name ∨ r.Reach elementary name n := by
  rw [List.map_cons, List.mem_cons, h.name_first, h.mem_names]
  by_cases hn : n = name <;> simp [hn]

theorem exists_find? (h : Linearization elementary r name first others) {n : String}
    (hn : n = name ∨ r.Reach elementary name n) :
    ∃ s ∈ first :: others, s.name = n ∧ r.find? n = some s := by
  obtain ⟨s, hs, rfl⟩ := List.mem_map.mp ((h.mem_iff n).mpr hn)
  exact ⟨s, hs, rfl, h.find?_of_mem hs⟩

/-- Where the definitions of all that is reached agree, the same structs are written. -/
theorem congr (h : Linearization elementary r name first others)
    (hfind : ∀ n, n = name ∨ r.Reach elementary name n → r'.find? n = r.find? n) :
    Linearization elementary r' name first others := by
  have hreach := reach_congr (hfind name (.inl rfl)) fun m hm => hfind m (.inr hm)
  refine ⟨?_, ?_, ?_, h.sorted⟩
  · rw [hfind name (.inl rfl), h.found]
  · intro s hs
    have hmem := (h.mem_names s.name).mp (List.mem_map.mpr ⟨s, hs, rfl⟩)
    rw [hfind s.name (.inr hmem.1), h.stored s hs]
  · intro n
    rw [h.mem_names, hreach]

/-- The structs that are written need no others, so that they are written again the same way. -/
theorem restrict (h : Linearization elementary r name first others) :
    Linearization elementary ⟨first :: others⟩ name first others := by
  apply h.congr
  intro n hn
  obtain ⟨s, hs, rfl, hr⟩ := h.exists_find? hn
  rw [find?_of_nodup h.nodup hs, hr]

theorem wellFormed (h : Linearization elementary r name first others) (hr : r.Obtained) :
    ∀ s ∈ first :: others, s.WellFormed :=
  fun s hs => (hr s (List.mem_of_find?_eq_some (h.find?_of_mem hs))).wellFormed

theorem readable_restrict (h : Linearization elementary r name first others) (hr : r.Readable) :
    Readable ⟨first :: others⟩ :=
  fun s hs => hr s (List.mem_of_find?_eq_some (h.find?_of_mem hs))

end Linearization

/-- The encoding text of a struct is read as all definitions that were written, in their order, and
nothing is left over. -/
theorem exists_parse_join (hr : r.Obtained) {structs : List Struct}
    (h : r.linearizeBy elementary name = .ok structs) :
    ∃ reading, Reading.parse (String.join (structs.map (·.text))) = .ok reading ∧
      reading.rest = "" ∧ reading.definitions.mapM Struct.ofDefinition = .ok structs ∧
      ∃ d, reading.primary? = some d ∧ d.name = name := by
  obtain ⟨first, others, rfl, hl⟩ := (linearizeBy_eq_ok hr.readable).mp h
  obtain ⟨reading, hread, hrest, hdefs⟩ := Reading.exists_read (hl.wellFormed hr)
  refine ⟨reading, hread, hrest, hdefs, ?_⟩
  obtain ⟨definitions, rest, stop⟩ := reading
  cases mapM_eq_ok.mp hdefs with
  | @cons d _ _ _ hd _ => exact ⟨d, rfl, (Struct.name_of_ofDefinition hd).trans hl.name_first⟩

/-- A resolver of that text has just these definitions, and writes them in the same order. -/
theorem parse_join (hr : r.Obtained) {structs : List Struct}
    (h : r.linearizeBy elementary name = .ok structs) :
    parse (String.join (structs.map (·.text))) = .ok ⟨structs⟩ ∧
      linearizeBy elementary ⟨structs⟩ name = .ok structs := by
  obtain ⟨reading, hread, -, hdefs, -⟩ := exists_parse_join hr h
  obtain ⟨first, others, rfl, hl⟩ := (linearizeBy_eq_ok hr.readable).mp h
  constructor
  · rw [parse, hread]
    exact ofDefinitions_eq_ok hdefs hl.nodup
  · exact (linearizeBy_eq_ok (hl.readable_restrict hr.readable)).mpr
      ⟨first, others, rfl, hl.restrict⟩

/-- Resolvers that write the same text for a struct write the same definitions. -/
theorem linearizeBy_of_encodeTypeBy (hr : r.Obtained) (hr' : r'.Obtained) {text : String}
    (h : r.encodeTypeBy elementary name = .ok text)
    (h' : r'.encodeTypeBy elementary name = .ok text) :
    ∃ structs, r.linearizeBy elementary name = .ok structs ∧
      r'.linearizeBy elementary name = .ok structs := by
  obtain ⟨structs, hs, rfl⟩ := map_eq_ok.mp h
  obtain ⟨structs', hs', htext⟩ := map_eq_ok.mp h'
  have hp := (parse_join hr hs).1
  rw [← htext, (parse_join hr' hs').1] at hp
  cases hp
  exact ⟨structs, hs, hs'⟩

/-- From the encoding text of a struct all definitions that it needs are got back, in the order in
which they were written, and they have that text again. So resolvers with the same text agree on
which names are reached from the struct, and on their definitions. -/
theorem encodeTypeBy_faithful (elementary : String → Bool) (name : String) :
    (∀ r : Resolver, r.Obtained → ∀ structs, r.linearizeBy elementary name = .ok structs →
      ∃ text reading, r.encodeTypeBy elementary name = .ok text ∧
        Reading.parse text = .ok reading ∧ reading.rest = "" ∧
        reading.definitions.mapM Struct.ofDefinition = .ok structs ∧
        (∃ d, reading.primary? = some d ∧ d.name = name) ∧
        ∃ r', parse text = .ok r' ∧ r'.encodeTypeBy elementary name = .ok text) ∧
    (∀ r r' : Resolver, r.Obtained → r'.Obtained → ∀ text,
      r.encodeTypeBy elementary name = .ok text → r'.encodeTypeBy elementary name = .ok text →
      ∀ n, (n = name ∨ r.Reach elementary name n ↔ n = name ∨ r'.Reach elementary name n) ∧
        (n = name ∨ r.Reach elementary name n → r.find? n = r'.find? n)) := by
  constructor
  · intro r hr structs h
    obtain ⟨reading, hread, hrest, hdefs, hprimary⟩ := exists_parse_join hr h
    obtain ⟨hparse, hagain⟩ := parse_join hr h
    refine ⟨_, reading, by rw [encodeTypeBy, h]; rfl, hread, hrest, hdefs, hprimary, ⟨structs⟩,
      hparse, ?_⟩
    rw [encodeTypeBy, hagain]
    rfl
  · intro r r' hr hr' text h h' n
    obtain ⟨structs, hs, hs'⟩ := linearizeBy_of_encodeTypeBy hr hr' h h'
    obtain ⟨first, others, rfl, hl⟩ := (linearizeBy_eq_ok hr.readable).mp hs
    obtain ⟨first', others', heq, hl'⟩ := (linearizeBy_eq_ok hr'.readable).mp hs'
    cases heq
    refine ⟨?_, ?_⟩
    · rw [← hl.mem_iff, ← hl'.mem_iff]
    · intro hn
      obtain ⟨s, hs, rfl, hfind⟩ := hl.exists_find? hn
      rw [hfind, hl'.find?_of_mem hs]

/-- The definitions of the cycle, written with blanks in them. -/
theorem obtained_cycle : cycle.Obtained := by
  have obtained {s : Struct} (text : String)
      (h : (Definition.parse text >>= Struct.ofDefinition).toOption = some s) : s.Obtained :=
    ⟨text, bind_eq_ok.mp (toOption_eq_some.mp h)⟩
  intro s hs
  simp only [cycle, List.mem_cons, List.not_mem_nil, or_false] at hs
  rcases hs with rfl | rfl | rfl
  · exact obtained "Node( Edge[] edges, Node  parent)" (by decide +kernel)
  · exact obtained "Edge((Node,uint256)[2] ends, Colour  colour)" (by decide +kernel)
  · exact obtained "Colour( )" (by decide +kernel)

theorem find?_reverse_cycle (n : String) : find? ⟨cycle.structs.reverse⟩ n = cycle.find? n := by
  by_cases h : "Node" = n
  · subst h
    rfl
  · by_cases h' : "Edge" = n
    · subst h'
      rfl
    · simp [cycle, find?, List.find?_cons, h, h']

theorem encodeTypeBy_faithful_cycle :
    ∃ structs, cycle.linearizeBy (· == "uint256") "Node" = .ok structs ∧
      ∃ text r', cycle.encodeTypeBy (· == "uint256") "Node" = .ok text ∧ parse text = .ok r' ∧
        r'.encodeTypeBy (· == "uint256") "Node" = .ok text ∧
        encodeTypeBy (· == "uint256") ⟨cycle.structs.reverse⟩ "Node" = .ok text ∧
        (cycle.Reach (· == "uint256") "Node" "Colour" →
          Reach (· == "uint256") ⟨cycle.structs.reverse⟩ "Node" "Colour") := by
  obtain ⟨structs, hs⟩ : ∃ structs, cycle.linearizeBy (· == "uint256") "Node" = .ok structs :=
    linearizeBy_of_closed readable_cycle closed_cycle ⟨_, rfl⟩
  have obtained_reverse : Obtained ⟨cycle.structs.reverse⟩ :=
    fun s hs => obtained_cycle s (List.mem_reverse.mp hs)
  obtain ⟨first, others, rfl, hl⟩ := (linearizeBy_eq_ok readable_cycle).mp hs
  have hreverse := (linearizeBy_eq_ok obtained_reverse.readable).mpr
    ⟨first, others, rfl, hl.congr fun n _ => find?_reverse_cycle n⟩
  obtain ⟨read_again, agree⟩ := encodeTypeBy_faithful (· == "uint256") "Node"
  obtain ⟨text, -, htext, -, -, -, -, r', hr', hagain⟩ := read_again cycle obtained_cycle _ hs
  have htext' : encodeTypeBy (· == "uint256") ⟨cycle.structs.reverse⟩ "Node" = .ok text := by
    rw [encodeTypeBy, hreverse, ← htext, encodeTypeBy, hs]
  refine ⟨_, hs, text, r', htext, hr', hagain, htext', ?_⟩
  intro h
  exact ((agree cycle _ obtained_cycle obtained_reverse text htext htext' "Colour").1.mp
    (.inr h)).resolve_left (by decide)

end Resolver

end ContractInterface.TypedData
