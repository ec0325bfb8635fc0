import Mathlib
import ContractInterface.Proofs.TypedData.Outline

/-! What the encoding text takes from the spelling of the types. Which structs are written, and in
which order, is settled by the outlines of their definitions, but each type is written as it was
spelled where its definition was read. -/
namespace ContractInterface.TypedData
open Sequencing TypeSpec

namespace Resolver
open Definition

variable {elementary : String → Bool} {r r' : Resolver} {name : String}
  {ds ds' : List Definition}

theorem named_of_ofDefinitions (h : ofDefinitions ds = .ok r) : ∀ d ∈ ds, d.Named := by
  unfold ofDefinitions at h
  generalize empty = start at h
  induction ds generalizing start with
  | nil => simp
  | cons d ds ih =>
    rw [List.foldlM_cons] at h
    obtain ⟨next, hnext, h⟩ := bind_eq_ok.mp h
    obtain ⟨s, hs, -⟩ := bind_eq_ok.mp hnext
    exact List.forall_mem_cons.mpr ⟨(ofDefinition_eq_ok.mp hs).1, ih next h⟩

theorem ofDefinitions_of_named (h : ∀ d ∈ ds, d.Named) :
    ofDefinitions ds = ofStructs (ds.map (·.toStruct)) :=
  ofDefinitions_eq_ofStructs ((mapM_eq_ok_iff fun _ _ => ofDefinition_eq_ok).mpr ⟨h, rfl⟩)

/-- Definitions are taken in if their names are as they should be and their structs are. -/
theorem ofDefinitions_eq_ok_iff :
    ofDefinitions ds = .ok r ↔ (∀ d ∈ ds, d.Named) ∧ ofStructs (ds.map (·.toStruct)) = .ok r := by
  constructor
  · intro h
    have hnamed := named_of_ofDefinitions h
    exact ⟨hnamed, ofDefinitions_of_named hnamed ▸ h⟩
  · rintro ⟨hnamed, h⟩
    exact (ofDefinitions_of_named hnamed).trans h

theorem knows_of_ofDefinitions (h : ofDefinitions ds = .ok r) : r.Knows (ds.map (·.toStruct)) := by
  obtain ⟨-, h⟩ := ofDefinitions_eq_ok_iff.mp h
  rcases ofStructs_cases (ds.map (·.toStruct)) with ⟨r', hr', hknows⟩ | ⟨-, n, hn⟩
  · cases h.symm.trans hr'
    exact hknows
  · cases h.symm.trans hn

/-- Definitions that are read and taken in can be written and read again. -/
theorem obtained_of_ofDefinitions (hds : ∀ d ∈ ds, ∃ text, Definition.parse text = .ok d)
    (h : ofDefinitions ds = .ok r) : r.Obtained := by
  intro s hs
  obtain ⟨d, hd, rfl⟩ := List.mem_map.mp ((knows_of_ofDefinitions h).mem_of_mem s hs)
  obtain ⟨text, htext⟩ := hds d hd
  exact ⟨text, d, htext, ofDefinition_eq_ok.mpr ⟨named_of_ofDefinitions h d hd, rfl⟩⟩

/-- Whatever is defined in one of the resolvers is in the other, and refers to the same names. -/
def SameReferences (elementary : String → Bool) (r r' : Resolver) : Prop :=
  ∀ n, (r'.find? n).map (·.referencesBy elementary) = (r.find? n).map (·.referencesBy elementary)

section
variable (hds : ∀ d ∈ ds, d.TypesRead) (hds' : ∀ d ∈ ds', d.TypesRead)
  (hout : ds'.map (·.outline) = ds.map (·.outline))
include hds hds' hout

/-- A definition of an outline stands for one of the same outline elsewhere. -/
theorem exists_find?_of_outlines (h : r.Knows (ds.map (·.toStruct)))
    (h' : r'.Knows (ds'.map (·.toStruct))) {n : String} {s : Struct} (hs : r.find? n = some s) :
    ∃ s', r'.find? n = some s' ∧ s'.referencesBy elementary = s.referencesBy elementary := by
  obtain ⟨hmem, hname⟩ := (h.find?_iff n s).mp hs
  obtain ⟨d, hd, rfl⟩ := List.mem_map.mp hmem
  obtain ⟨d', hd', hsame⟩ := exists_outline_eq hout hd
  refine ⟨d'.toStruct, (h'.find?_iff n _).mpr ⟨List.mem_map.mpr ⟨d', hd', rfl⟩, ?_⟩, ?_⟩
  · exact (Prod.mk.inj hsame).1.trans hname
  · rw [referencesBy_toStruct (hds d hd), referencesBy_toStruct (hds' d' hd'), hsame]

theorem sameReferences (h : r.Knows (ds.map (·.toStruct)))
    (h' : r'.Knows (ds'.map (·.toStruct))) : SameReferences elementary r r' := by
  intro n
  cases hs : r.find? n with
  | some s =>
    obtain ⟨s', hs', hrefs⟩ := exists_find?_of_outlines hds hds' hout h h' hs
    rw [hs', Option.map_some, Option.map_some, hrefs]
  | none =>
    cases hs' : r'.find? n with
    | none => rfl
    | some s' =>
      obtain ⟨s, hfound, -⟩ : ∃ s, r.find? n = some s ∧
          s.referencesBy elementary = s'.referencesBy elementary :=
        exists_find?_of_outlines hds' hds hout.symm h' h hs'
      cases hs.symm.trans hfound

end

theorem SameReferences.get_name_eq (h : SameReferences elementary r r') (n : String) :
    (r'.get n).map (·.name) = (r.get n).map (·.name) := by
  cases hs : r.get n with
  | error e => rw [get_eq_error_of_references (h n) hs]
  | ok s =>
    obtain ⟨s', hs', -⟩ := exists_get_of_references (h n) hs
    rw [hs', Except.map, Except.map, name_of_find? (get_eq_ok.mp hs'),
      name_of_find? (get_eq_ok.mp hs)]

/-- Which structs are written, and in which order, is settled by what each refers to. -/
theorem SameReferences.linearizeBy_names_eq (h : SameReferences elementary r r') (name : String) :
    (r'.linearizeBy elementary name).map (·.map (·.name)) =
      (r.linearizeBy elementary name).map (·.map (·.name)) := by
  have names_cons (s : Struct) (x : Except Failure (List Struct)) :
      (x >>= fun structs => .ok (s :: structs)).map (·.map (·.name)) =
        (x.map (·.map (·.name))).map (s.name :: ·) := by
    cases x <;> rfl
  unfold linearizeBy
  cases hfirst : r.get name with
  | error e => rw [get_eq_error_of_references (h name) hfirst]; rfl
  | ok first =>
    obtain ⟨first', hfirst', hrefs⟩ := exists_get_of_references (h name) hfirst
    have hfound := get_eq_ok.mp hfirst
    have hname := name_of_find? hfound
    have hname' := name_of_find? (get_eq_ok.mp hfirst')
    rw [hfirst', ok_bind, ok_bind, hrefs, hname, hname']
    cases hnames : first.referencesBy elementary with
    | error e => rfl
    | ok names =>
      have hstack : ∀ n ∈ names.reverse, r.Reach elementary name n := fun n hn =>
        .direct hfound (Struct.refersTo_of_mem hnames (List.mem_reverse.mp hn))
      rw [ok_bind, ok_bind, reach_eq (fun m _ => h m) hstack]
      cases hseen : r.reach elementary [name] names.reverse with
      | error e => rfl
      | ok seen =>
        rw [ok_bind, ok_bind, names_cons, names_cons, map_mapM, map_mapM, hname,
          hname', funext h.get_name_eq]

/-- A struct is written in either case, or in none for the same reason. -/
theorem SameReferences.encodeTypeBy_outcomes (h : SameReferences elementary r r')
    (name : String) :
    (∃ e, r.encodeTypeBy elementary name = .error e ∧
        r'.encodeTypeBy elementary name = .error e) ∨
      ∃ s s', r.encodeTypeBy elementary name = .ok s ∧
        r'.encodeTypeBy elementary name = .ok s' := by
  rw [encodeTypeBy, encodeTypeBy]
  rcases outcomes_of_map_eq (h.linearizeBy_names_eq name).symm with
    ⟨e, he, he'⟩ | ⟨structs, structs', hs, hs'⟩
  · exact .inl ⟨e, by rw [he]; rfl, by rw [he']; rfl⟩
  · exact .inr ⟨_, _, by rw [hs]; rfl, by rw [hs']; rfl⟩

/-- What is written is the same exactly if all definitions that are written are. -/
theorem encodeTypeBy_eq_iff (hr : r.Obtained) (hr' : r'.Obtained) {s s' : String}
    (h : r.encodeTypeBy elementary name = .ok s) (h' : r'.encodeTypeBy elementary name = .ok s') :
    s = s' ↔ ∀ n, n = name ∨ r.Reach elementary name n → r.find? n = r'.find? n := by
  constructor
  · rintro rfl n hn
    obtain ⟨structs, hs, hs'⟩ := linearizeBy_of_encodeTypeBy hr hr' h h'
    obtain ⟨first, others, rfl, hl⟩ := (linearizeBy_eq_ok hr.readable).mp hs
    obtain ⟨first', others', heq, hl'⟩ := (linearizeBy_eq_ok hr'.readable).mp hs'
    cases heq
    obtain ⟨s, hmem, rfl, hfind⟩ := hl.exists_find? hn
    rw [hfind, hl'.find?_of_mem hmem]
  · intro hfind
    have hsame : r'.encodeTypeBy elementary name = r.encodeTypeBy elementary name :=
      encodeTypeBy_eq (hfind name (.inl rfl)).symm fun m hm => (hfind m (.inr hm)).symm
    exact Except.ok.inj (h.symm.trans (hsame.symm.trans h'))

section
variable (hds : ∀ d ∈ ds, d.TypesRead) (hds' : ∀ d ∈ ds', d.TypesRead)
  (hout : ds'.map (·.outline) = ds.map (·.outline))
include hds hds' hout

omit hds' in
/-- Where definitions were taken in, others of the same outlines are unless one that is repeated is
spelled in another way. -/
theorem exists_ofDefinitions_iff (h : ofDefinitions ds = .ok r) :
    (∃ r', ofDefinitions ds' = .ok r') ↔
      ∀ d ∈ ds', ∀ d' ∈ ds', d.outline = d'.outline → d.spelling = d'.spelling := by
  constructor
  · rintro ⟨r', hr'⟩ d hd d' hd' hsame
    rw [← toStruct_eq_iff hsame]
    exact (knows_of_ofDefinitions hr').compatible _ (List.mem_map.mpr ⟨d, hd, rfl⟩) _
      (List.mem_map.mpr ⟨d', hd', rfl⟩) (Prod.mk.inj hsame).1
  · intro hspelled
    have hnamed := named_of_outlines hout (named_of_ofDefinitions h)
    rw [ofDefinitions_of_named hnamed]
    rcases ofStructs_cases (ds'.map (·.toStruct)) with ⟨r', hr', -⟩ | ⟨hconflict, -⟩
    · exact ⟨r', hr'⟩
    · refine absurd ?_ hconflict
      intro s hs t ht hname
      obtain ⟨d, hd, rfl⟩ := List.mem_map.mp hs
      obtain ⟨d', hd', rfl⟩ := List.mem_map.mp ht
      -- the definitions of the same outlines that were taken in are one
      obtain ⟨e, he, hsame⟩ := exists_outline_eq hout.symm hd
      obtain ⟨e', he', hsame'⟩ := exists_outline_eq hout.symm hd'
      have hstruct : e.toStruct = e'.toStruct := by
        refine (knows_of_ofDefinitions h).compatible _ (List.mem_map.mpr ⟨e, he, rfl⟩) _
          (List.mem_map.mpr ⟨e', he', rfl⟩) ?_
        exact (Prod.mk.inj hsame).1.trans (hname.trans (Prod.mk.inj hsame').1.symm)
      have houtline := outline_eq_of_toStruct_eq (hds e he) (hds e' he') hstruct
      rw [hsame, hsame'] at houtline
      exact (toStruct_eq_iff houtline).mpr (hspelled d hd d' hd' houtline)

/-- Plain definitions of the same outlines are the same. -/
theorem ofDefinitions_of_plain
    (hp : ∀ d ∈ ds ++ ds', ∀ text ∈ d.spelling, Plain text.toList) :
    ofDefinitions ds' = .ok r ↔ ofDefinitions ds = .ok r := by
  have structs {ds : List Definition} (hds : ∀ d ∈ ds, d.TypesRead)
      (hp : ∀ d ∈ ds, ∀ text ∈ d.spelling, Plain text.toList) : ds.map (·.toStruct) =
        (ds.map (·.outline)).map fun o => ⟨o.1, o.2.map fun p => ⟨.ofList p.2.text, p.1⟩⟩ := by
    rw [List.map_map]
    exact List.map_congr_left fun d hd => toStruct_of_plain (hds d hd) (hp d hd)
  have hsame : ds'.map (·.toStruct) = ds.map (·.toStruct) := by
    rw [structs hds fun d hd => hp d (List.mem_append_left _ hd),
      structs hds' fun d hd => hp d (List.mem_append_right _ hd), hout]
  have hnamed : (∀ d ∈ ds', d.Named) ↔ ∀ d ∈ ds, d.Named :=
    ⟨named_of_outlines hout.symm, named_of_outlines hout⟩
  rw [ofDefinitions_eq_ok_iff, ofDefinitions_eq_ok_iff, hsame, hnamed]

end

theorem parse_of_reading {text : String} {reading : Reading}
    (h : Reading.parse text = .ok reading) : parse text = ofDefinitions reading.definitions := by
  rw [parse, h]
  rfl

theorem typeHashBy_of_encodeTypeBy {hash : String → List UInt8} {x : Except Failure String}
    (h : r.encodeTypeBy elementary name = x) :
    r.typeHashBy elementary hash name = x.map hash := by rw [typeHashBy, h]

/-- Texts whose definitions have the same outlines have resolvers that fail alike or both write a
struct, whichever names need no struct. They write the same exactly if the types of all structs that
are written are spelled the same. A text is refused though the other one is not exactly if two of
its definitions have one outline and are spelled in different ways. Neither happens where all types
are spelled plainly. -/
theorem outcomes_of_same_outlines (elementary : String → Bool) (hash : String → List UInt8)
    {text text' : String} {reading reading' : Reading}
    (h : Reading.parse text = .ok reading) (h' : Reading.parse text' = .ok reading')
    (hout : reading'.definitions.map (·.outline) = reading.definitions.map (·.outline)) :
    (∀ r r', parse text = .ok r → parse text' = .ok r' → ∀ name,
      (∃ e, r.encodeTypeBy elementary name = .error e ∧
        r'.encodeTypeBy elementary name = .error e ∧
        r.typeHashBy elementary hash name = .error e ∧
        r'.typeHashBy elementary hash name = .error e) ∨
      ∃ s s', r.encodeTypeBy elementary name = .ok s ∧ r'.encodeTypeBy elementary name = .ok s' ∧
        r.typeHashBy elementary hash name = .ok (hash s) ∧
        r'.typeHashBy elementary hash name = .ok (hash s') ∧
        (s = s' ↔ ∀ n, n = name ∨ r.Reach elementary name n → r.find? n = r'.find? n)) ∧
    (∀ r, parse text = .ok r → ((∃ r', parse text' = .ok r') ↔ ∀ d ∈ reading'.definitions,
      ∀ d' ∈ reading'.definitions, d.outline = d'.outline → d.spelling = d'.spelling)) ∧
    ((∀ d ∈ reading.definitions ++ reading'.definitions, ∀ t ∈ d.spelling, Plain t.toList) →
      ∀ r, parse text' = .ok r ↔ parse text = .ok r) := by
  have hread := Reading.typesRead h
  have hread' := Reading.typesRead h'
  simp only [parse_of_reading h, parse_of_reading h']
  refine ⟨?_, fun r hr => exists_ofDefinitions_iff hread hout hr,
    fun hp r => ofDefinitions_of_plain hread hread' hout hp⟩
  intro r r' hr hr' name
  have hrefs : SameReferences elementary r r' :=
    sameReferences hread hread' hout (knows_of_ofDefinitions hr) (knows_of_ofDefinitions hr')
  have hobtained := obtained_of_ofDefinitions (Reading.exists_parse_definition h) hr
  have hobtained' := obtained_of_ofDefinitions (Reading.exists_parse_definition h') hr'
  rcases hrefs.encodeTypeBy_outcomes name with ⟨e, he, he'⟩ | ⟨s, s', hs, hs'⟩
  · exact .inl ⟨e, he, he', typeHashBy_of_encodeTypeBy he, typeHashBy_of_encodeTypeBy he'⟩
  · exact .inr ⟨s, s', hs, hs', typeHashBy_of_encodeTypeBy hs, typeHashBy_of_encodeTypeBy hs',
      encodeTypeBy_eq_iff hobtained hobtained' hs hs'⟩

/-- A definition of a struct with one member. -/
def lone (span : String) (t : TypeSpec) : Definition := ⟨span, "A", [⟨t, "b"⟩]⟩

/-- A zero in front of a size makes another definition of one that is repeated. -/
theorem outcomes_of_same_outlines_repeated :
    ∃ reading reading' r, Reading.parse "A(bool[2] b)A(bool[2] b)" = .ok reading ∧
      Reading.parse "A(bool[2] b)A(bool[02] b)" = .ok reading' ∧
      reading'.definitions.map (·.outline) = reading.definitions.map (·.outline) ∧
      parse "A(bool[2] b)A(bool[2] b)" = .ok r ∧
      ¬ ∃ r', parse "A(bool[2] b)A(bool[02] b)" = .ok r' := by
  have hrounds : Reading.Rounds "A(bool[2] b)A(bool[2] b)".toList
      [lone "A(bool[2] b)" (.named "bool[2]" "bool" [some 2]),
        lone "A(bool[2] b)" (.named "bool[2]" "bool" [some 2])] [] :=
    @Reading.Rounds.more _ "A(bool[2] b)".toList _ _ _ (by cbv) (.more (by cbv) .done)
  have hrounds' : Reading.Rounds "A(bool[2] b)A(bool[02] b)".toList
      [lone "A(bool[2] b)" (.named "bool[2]" "bool" [some 2]),
        lone "A(bool[02] b)" (.named "bool[02]" "bool" [some 2])] [] :=
    @Reading.Rounds.more _ "A(bool[02] b)".toList _ _ _ (by cbv) (.more (by cbv) .done)
  have h := Reading.read_of_end hrounds rfl
  have h' := Reading.read_of_end hrounds' rfl
  have hr : parse "A(bool[2] b)A(bool[2] b)" = .ok ⟨[⟨"A", [⟨"bool[2]", "b"⟩]⟩]⟩ :=
    parse_of_reading h
  obtain ⟨-, accepted, -⟩ := outcomes_of_same_outlines isElementary Keccak.hashText h h' rfl
  refine ⟨_, _, _, h, h', rfl, hr, ?_⟩
  rw [accepted _ hr]
  intro hspelled
  have hsame := hspelled _ (.head _) _ (.tail _ (.head _)) rfl
  exact absurd hsame (by decide)

/-- A blank inside a tuple is written. -/
theorem encodeType_ne_of_blank :
    ∃ reading reading' r r', Reading.parse "A((bool) b)" = .ok reading ∧
      Reading.parse "A(( bool ) b)" = .ok reading' ∧
      reading'.definitions.map (·.outline) = reading.definitions.map (·.outline) ∧
      parse "A((bool) b)" = .ok r ∧ parse "A(( bool ) b)" = .ok r' ∧
      r.encodeType "A" = .ok "A((bool) b)" ∧ r'.encodeType "A" = .ok "A(( bool ) b)" := by
  have hrounds : Reading.Rounds "A((bool) b)".toList
      [lone "A((bool) b)" (.tuple "(bool)" "(bool)" [.named "bool" "bool" []] [])] [] :=
    .more (by cbv) .done
  have hrounds' : Reading.Rounds "A(( bool ) b)".toList
      [lone "A(( bool ) b)" (.tuple "( bool )" "( bool )" [.named "bool" "bool" []] [])] [] :=
    .more (by cbv) .done
  have h := Reading.read_of_end hrounds rfl
  have h' := Reading.read_of_end hrounds' rfl
  have hr : parse "A((bool) b)" = .ok ⟨[⟨"A", [⟨"(bool)", "b"⟩]⟩]⟩ := parse_of_reading h
  have hr' : parse "A(( bool ) b)" = .ok ⟨[⟨"A", [⟨"( bool )", "b"⟩]⟩]⟩ := parse_of_reading h'
  exact ⟨_, _, _, _, h, h', rfl, hr, hr', by cbv, by cbv⟩

end Resolver

end ContractInterface.TypedData
