import ContractInterface.Proofs.TypedData.Definition

/-! Texts with any number of definitions at their start. Each of them is what it is on its own,
wherever it stands and whatever follows it, up to the first place where no definition stands. -/
namespace ContractInterface.TypedData
open Sequencing

namespace Reading

/-- Definitions that are taken off a text one after the other, and what is left of it. -/
inductive Rounds : List Char → List Definition → List Char → Prop
  | done {cs : List Char} : Rounds cs [] cs
  | more {cs mid rest : List Char} {d : Definition} {ds : List Definition}
      (head : Definition.read cs = .ok (d, mid)) (others : Rounds mid ds rest) :
      Rounds cs (d :: ds) rest

namespace Rounds

variable {cs mid rest : List Char} {ds : List Definition}

/-- Nothing between the definitions is lost, and nothing is read twice. -/
theorem eq_append (h : Rounds cs ds rest) :
    cs = (String.join (ds.map (·.span))).toList ++ rest := by
  induction h with
  | done => rfl
  | more head _ ih =>
    rw [(Definition.append_of_read head).1, ih, List.map_cons, String.join_cons,
      String.toList_append, List.append_assoc]

/-- Every round takes a character at least, so there are no more rounds than characters. -/
theorem length_le (h : Rounds cs ds rest) : ds.length + rest.length ≤ cs.length := by
  induction h with
  | done => simp
  | more head _ ih =>
    have hlt := Definition.length_lt_of_read head
    rw [List.length_cons]
    omega

theorem parse_span (h : Rounds cs ds rest) : ∀ d ∈ ds, Definition.parse d.span = .ok d := by
  induction h with
  | done => simp
  | more head _ ih =>
    have halone := (Definition.append_of_read head).2.2 []
    rw [List.append_nil] at halone
    exact List.forall_mem_cons.mpr ⟨Definition.parse_eq_ok.mpr ⟨[], halone⟩, ih⟩

/-- Texts of one definition each are taken off again where they were joined. -/
theorem join {texts : List String}
    (h : List.Forall₂ (fun text d => Definition.parse text = .ok d ∧ d.span = text) texts ds)
    (tail : List Char) : Rounds ((String.join texts).toList ++ tail) ds tail := by
  induction h with
  | nil => exact .done
  | @cons text d texts ds hd _ ih =>
    obtain ⟨hparse, rfl⟩ := hd
    obtain ⟨rest, hread⟩ := Definition.parse_eq_ok.mp hparse
    rw [String.join_cons, String.toList_append, List.append_assoc]
    exact .more ((Definition.append_of_read hread).2.2 _) ih

theorem read_eq (h : Rounds cs ds mid) :
    read cs = (read mid).map fun r => { r with definitions := ds ++ r.definitions } := by
  induction h with
  | @done cs => cases hread : read cs <;> rfl
  | @more cs mid rest d ds head _ ih =>
    rw [read_of_definition head, ih]
    cases read rest <;> rfl

/-- From any text the rounds come to an end, at a place where no definition stands. -/
theorem exists_end (cs : List Char) :
    ∃ ds rest e, Rounds cs ds rest ∧ Definition.read rest = .error e := by
  induction cs using Reading.read.induct with
  | case1 cs e hread _ => exact ⟨[], cs, e, .done, hread⟩
  | case2 cs e hread _ => exact ⟨[], cs, e, .done, hread⟩
  | case3 cs d mid hread _ ih =>
    obtain ⟨ds, rest, e, hrounds, hend⟩ := ih
    exact ⟨d :: ds, rest, e, .more hread hrounds, hend⟩

end Rounds

/-- The outcome of a reading is decided where its rounds end. -/
theorem read_of_end {cs rest : List Char} {ds : List Definition} {e : Failure}
    (h : Rounds cs ds rest) (hend : Definition.read rest = .error e) :
    read cs = if e.isParse then .ok ⟨ds, .ofList rest, e, leftOver (.ofList rest) e⟩
      else .error e := by
  rw [h.read_eq, read_of_error hend]
  split
  · rw [Except.map, List.append_nil]
  · rfl

theorem read_eq_ok {cs : List Char} {r : Reading} :
    read cs = .ok r ↔ Rounds cs r.definitions r.rest.toList ∧
      Definition.read r.rest.toList = .error r.stop ∧ r.stop.isParse = true ∧
      r.log = leftOver r.rest r.stop := by
  constructor
  · intro h
    obtain ⟨ds, rest, e, hrounds, hend⟩ := Rounds.exists_end cs
    rw [read_of_end hrounds hend] at h
    split at h
    · next own =>
      cases h
      rw [String.toList_ofList]
      exact ⟨hrounds, hend, own, rfl⟩
    · cases h
  · rintro ⟨hrounds, hend, own, hlog⟩
    rw [read_of_end hrounds hend, if_pos own, String.ofList_toList, ← hlog]

/-- Each definition of a reading is one on its own. -/
theorem exists_parse_definition {text : String} {r : Reading} (h : parse text = .ok r) :
    ∀ d ∈ r.definitions, ∃ text, Definition.parse text = .ok d :=
  fun d hd => ⟨d.span, (read_eq_ok.mp h).1.parse_span d hd⟩

theorem leftOver_empty (stop : Failure) : leftOver "" stop = [] := rfl

theorem leftOver_eq_singleton {rest : String} (h : rest ≠ "") (stop : Failure) :
    ∃ message, leftOver rest stop = [⟨Log.debug, "parser", "parse", message⟩] := by
  rw [leftOver, if_neg (by simpa using h)]
  exact ⟨_, rfl⟩

/-- A reading is the definitions that stand one behind the other at the start of the text, each as
it is read on its own, and what follows them is refused. Definitions that are put in front of a
text are read as they are alone, and do not change what is read of the text. Every reading takes a
bounded number of rounds, the last of which decides its outcome. -/
theorem parse_standalone :
    (∀ text r, parse text = .ok r →
      String.join (r.definitions.map (·.span)) ++ r.rest = text ∧
      (∀ d ∈ r.definitions, Definition.parse d.span = .ok d) ∧
      Definition.parse r.rest = .error r.stop ∧ r.stop.isParse = true ∧
      (r.rest = "" → r.log = []) ∧
      (r.rest ≠ "" → ∃ message, r.log = [⟨Log.debug, "parser", "parse", message⟩])) ∧
    (∀ texts ds tail r,
      List.Forall₂ (fun text d => Definition.parse text = .ok d ∧ d.span = text) texts ds →
      parse tail = .ok r →
      parse (String.join texts ++ tail) = .ok { r with definitions := ds ++ r.definitions }) ∧
    (∀ text : String, ∃ ds rest e, Rounds text.toList ds rest ∧ ds.length ≤ text.length ∧
      Definition.read rest = .error e ∧
      parse text = if e.isParse then .ok ⟨ds, .ofList rest, e, leftOver (.ofList rest) e⟩
        else .error e) := by
  refine ⟨?_, ?_, ?_⟩
  · intro text r h
    obtain ⟨hrounds, hend, own, hlog⟩ := read_eq_ok.mp h
    refine ⟨?_, hrounds.parse_span, ?_, own, fun hrest => ?_, fun hrest => ?_⟩
    · apply String.toList_inj.mp
      rw [String.toList_append]
      exact hrounds.eq_append.symm
    · rw [Definition.parse, hend]
      rfl
    · rw [hlog, hrest, leftOver_empty]
    · rw [hlog]
      exact leftOver_eq_singleton hrest _
  · intro texts ds tail r h hr
    rw [parse, String.toList_append, (Rounds.join h tail.toList).read_eq, ← parse, hr]
    rfl
  · intro text
    obtain ⟨ds, rest, e, hrounds, hend⟩ := Rounds.exists_end text.toList
    have hlength := hrounds.length_le
    rw [String.length_toList] at hlength
    exact ⟨ds, rest, e, hrounds, by omega, hend, read_of_end hrounds hend⟩

theorem parse_standalone_pair :
    ∃ d d' r, Definition.parse "A(bool b)" = .ok d ∧ Definition.parse "B()" = .ok d' ∧
      parse ")C()" = .ok r ∧ r.definitions = [] ∧ r.rest = ")C()" ∧
      parse "A(bool b)B())C()" = .ok { r with definitions := [d, d'] } ∧
      ∃ message, r.log = [⟨Log.debug, "parser", "parse", message⟩] := by
  have consumed (text : String)
      (h : ((Definition.parse text).toOption.map (·.span)) = some text) :
      ∃ d, Definition.parse text = .ok d ∧ d.span = text := by
    obtain ⟨d, hd, hspan⟩ := Option.map_eq_some_iff.mp h
    exact ⟨d, toOption_eq_some.mp hd, hspan⟩
  obtain ⟨d, hd, hspan⟩ := consumed "A(bool b)" (by decide +kernel)
  obtain ⟨d', hd', hspan'⟩ := consumed "B()" (by decide +kernel)
  obtain ⟨e, he, own⟩ : ∃ e, Definition.read ")C()".toList = .error e ∧ e.isParse = true :=
    ⟨_, rfl, rfl⟩
  have hr : parse ")C()" = .ok ⟨[], ")C()", e, leftOver ")C()" e⟩ := by
    rw [parse, read_of_end .done he, if_pos own, String.ofList_toList]
  obtain ⟨alone, joined, -⟩ := parse_standalone
  refine ⟨d, d', _, hd, hd', hr, rfl, rfl, ?_, ?_⟩
  · exact joined ["A(bool b)", "B()"] [d, d'] _ _ (.cons ⟨hd, hspan⟩ (.cons ⟨hd', hspan'⟩ .nil)) hr
  · obtain ⟨-, -, -, -, -, leftover⟩ := alone _ _ hr
    exact leftover (show ")C()" ≠ "" by decide)

end Reading

end ContractInterface.TypedData
