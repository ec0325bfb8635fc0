import ContractInterface.Item.Basic
import ContractInterface.Proofs.Declaration.Grammar

/-! Blanks around the parameters of a declaration. In front of a parameter they play no part.
Behind it they do if the parameter is named: what follows the type is taken for the name as it
stands, and with a blank at its end it is no identifier. -/
namespace ContractInterface

/-- What comes of a reading: its result, or the kind of its failure without the texts in it. -/
def outcome {α : Type} (x : Except Failure α) : Except Nat α := x.mapError Failure.ctorIdx

theorem eq_ok_of_outcome_eq {α : Type} {x y : Except Failure α} {a : α}
    (h : outcome x = outcome y) (hy : y = .ok a) : x = .ok a := by
  subst hy
  cases x with
  | error e => cases h
  | ok b => cases h; rfl

namespace Declaration
open Text Sequencing TopLevel

/-- The first word ends in front of the blanks that follow it. -/
theorem span_append {after : List Char} (h : AllBlank after) (cs : List Char) :
    (cs ++ after).takeWhile (!isBlank ·) = cs.takeWhile (!isBlank ·) ∧
      (cs ++ after).dropWhile (!isBlank ·) = cs.dropWhile (!isBlank ·) ++ after := by
  have hafter : after.takeWhile (!isBlank ·) = [] ∧ after.dropWhile (!isBlank ·) = after := by
    cases after with
    | nil => simp
    | cons b after => simp [h b (by simp)]
  induction cs with
  | nil => exact hafter
  | cons c cs ih =>
    cases hc : isBlank c with
    | true => simp [hc]
    | false => simpa [hc] using ih

/-- Blanks behind a text part nothing off, and are left in what follows the first word. -/
theorem words_padded {before after : List Char} (hbefore : AllBlank before)
    (hafter : AllBlank after) (cs : List Char) :
    words (before ++ cs ++ after) =
      ((words cs).1, if (words cs).2 = [] then [] else (words cs).2 ++ after) := by
  rw [words, words, List.append_assoc, dropBlank_append hbefore, hafter.dropBlank_append]
  split
  · next h => simp [h]
  · obtain ⟨htake, hdrop⟩ := span_append hafter (dropBlank cs)
    rw [htake, hdrop, hafter.dropBlank_append]

/-- Nothing follows the first word if there is none. -/
theorem words_ne_nil {cs ty name : List Char} (h : words cs = (ty, name)) (hne : name ≠ []) :
    ty ≠ [] := by
  obtain ⟨rfl, rfl⟩ := Prod.mk.inj h
  cases hcs : dropBlank cs with
  | nil =>
    rw [hcs] at hne
    exact absurd rfl hne
  | cons c r => simp [isBlank_of_dropBlank hcs]

theorem not_isValid_append {after : List Char} (h : AllBlank after) (hne : after ≠ [])
    (name : List Char) : Identifier.isValid (name ++ after) = false := by
  obtain ⟨b, after, rfl⟩ := List.exists_cons_of_ne_nil hne
  rw [Bool.eq_false_iff]
  intro hvalid
  have hpart := Identifier.isPart_of_mem hvalid b (by simp)
  have hblank := h b (by simp)
  rw [Identifier.isBlank_of_isPart hpart] at hblank
  cases hblank

theorem outcome_parseParam_congr {text text' : String} {requireName : Bool}
    (h : words text.toList = words text'.toList) :
    outcome (parseParam text requireName) = outcome (parseParam text' requireName) := by
  rw [parseParam, parseParam, h]
  generalize words text'.toList = w
  obtain ⟨ty, name⟩ := w
  dsimp only
  split <;> rfl

/-- A name that is no identifier is refused whatever stands in front of it. -/
theorem parseParam_eq_identifier {text : String} {ty name : List Char} (requireName : Bool)
    (h : words text.toList = (ty, name)) (hne : name ≠ [])
    (hname : Identifier.isValid name = false) :
    parseParam text requireName =
      .error (.identifier (String.ofList name) (some "parameter name")) := by
  have hty := words_ne_nil h hne
  rw [parseParam, h]
  dsimp only
  rw [if_neg (by simp [hty, hne]), checkIdentifier, if_neg (by simp [hne, hname])]
  rfl

/-- A name that is an identifier is not refused as one that is none. -/
theorem outcome_parseParam_ne {text : String} {ty name : List Char} {requireName : Bool}
    (h : words text.toList = (ty, name)) (hname : Identifier.isValid name = true)
    (given : Utf16) (context : Option String) :
    outcome (parseParam text requireName) ≠
      outcome (.error (.identifier given context)) := by
  intro heq
  rw [parseParam, h] at heq
  dsimp only at heq
  split at heq
  · cases heq
  · rw [checkIdentifier, if_pos (by simp [hname]), ok_bind, outcome, mapError_bind,
      TypeSpec.parse] at heq
    cases hwhole : TypeSpec.whole (trim (String.ofList ty).toList) with
    | ok t => rw [String.toList_ofList] at *; rw [hwhole] at heq; cases heq
    | error halt =>
      rw [hwhole] at heq
      cases halt <;> cases heq

/-- Blanks behind the text would stand in the name that it ends with. -/
def Leaks (piece after : List Char) : Prop :=
  after ≠ [] ∧ Identifier.isValid (words piece).2 = true

section
variable {before piece after : List Char} (hbefore : AllBlank before) (hafter : AllBlank after)
  (requireName : Bool)
include hbefore hafter

theorem parseParam_padded_of_leaks (h : Leaks piece after) :
    parseParam (.ofList (before ++ piece ++ after)) requireName =
      .error (.identifier (String.ofList ((words piece).2 ++ after)) (some "parameter name")) := by
  obtain ⟨hne, hvalid⟩ := h
  have hname : (words piece).2 ≠ [] := by
    obtain ⟨c, cs, hcs, -⟩ := Identifier.exists_cons hvalid
    simp [hcs]
  have hwords := words_padded hbefore hafter piece
  rw [if_neg hname, ← String.toList_ofList (l := before ++ piece ++ after)] at hwords
  exact parseParam_eq_identifier requireName hwords (by simp [hname])
    (not_isValid_append hafter hne _)

/-- Blanks change nothing unless they would stand in a name. -/
theorem outcome_parseParam_padded (h : ¬ Leaks piece after) :
    outcome (parseParam (.ofList (before ++ piece ++ after)) requireName) =
      outcome (parseParam (.ofList piece) requireName) := by
  have hwords := words_padded hbefore hafter piece
  by_cases hsame : after = [] ∨ (words piece).2 = []
  · have heq : words (before ++ piece ++ after) = words piece := by
      rw [hwords]
      refine Prod.ext rfl ?_
      split
      · next hnone => exact hnone.symm
      · next hname => rw [hsame.resolve_right hname, List.append_nil]
    exact outcome_parseParam_congr (by simpa using heq)
  · -- neither name is an identifier
    obtain ⟨hne, hname⟩ := not_or.mp hsame
    have hvalid : Identifier.isValid (words piece).2 = false := by
      rw [Bool.eq_false_iff]
      exact fun hv => h ⟨hne, hv⟩
    rw [if_neg hname, ← String.toList_ofList (l := before ++ piece ++ after)] at hwords
    rw [parseParam_eq_identifier requireName hwords (by simp [hname])
      (not_isValid_append hafter hne _),
      parseParam_eq_identifier requireName (by rw [String.toList_ofList]) hname hvalid]
    rfl

theorem outcome_parseParam_padded_iff :
    outcome (parseParam (.ofList (before ++ piece ++ after)) requireName) =
      outcome (parseParam (.ofList piece) requireName) ↔ ¬ Leaks piece after := by
  refine ⟨fun heq h => ?_, outcome_parseParam_padded hbefore hafter requireName⟩
  rw [parseParam_padded_of_leaks hbefore hafter requireName h] at heq
  exact outcome_parseParam_ne (by rw [String.toList_ofList]) h.2 _ _ heq.symm

end

/-- A piece of a list, and the blanks that are put around it. -/
structure Slot where
  before : List Char
  piece : List Char
  after : List Char
  leading : AllBlank before
  closed : Closed ',' false piece
  trailing : AllBlank after

namespace Slot

/-- The piece with the blanks around it, or without them. -/
def shown (padded : Bool) (s : Slot) : List Char :=
  if padded then s.before ++ s.piece ++ s.after else s.piece

def Leaks (s : Slot) : Prop := Declaration.Leaks s.piece s.after

theorem closed_shown (padded : Bool) (s : Slot) : Closed ',' false (s.shown padded) := by
  cases padded with
  | true =>
    have hfront := (s.leading.closed (by decide)).append s.closed
    exact hfront.append (s.trailing.closed (by decide))
  | false => exact s.closed

theorem dropBlank_shown_eq_nil (padded : Bool) (s : Slot) :
    dropBlank (s.shown padded) = [] ↔ dropBlank s.piece = [] := by
  rw [dropBlank_eq_nil_iff, dropBlank_eq_nil_iff]
  cases padded with
  | true =>
    constructor
    · intro h c hc
      exact h c (by simp [shown, hc])
    · intro h
      exact (s.leading.append h).append s.trailing
  | false => exact Iff.rfl

theorem outcome_parseParam_shown {s : Slot} (h : ¬ s.Leaks) (requireName padded : Bool) :
    outcome (parseParam (.ofList (s.shown padded)) requireName) =
      outcome (parseParam (.ofList s.piece) requireName) := by
  cases padded with
  | true => exact outcome_parseParam_padded s.leading s.trailing requireName h
  | false => rfl

/-- The failure of a name that has blanks behind it. -/
def failure (s : Slot) : Failure :=
  .identifier (String.ofList ((words s.piece).2 ++ s.after)) (some "parameter name")

/-- The slots of a list that are read. A blank body has none. -/
def kept : List Slot → List Slot
  | [s] => if dropBlank s.piece = [] then [] else [s]
  | slots => slots

theorem dropBlankBody_map_shown (padded : Bool) (slots : List Slot) :
    dropBlankBody (slots.map (shown padded)) = (kept slots).map (shown padded) := by
  cases slots with
  | nil => rfl
  | cons s slots =>
    cases slots with
    | nil =>
      simp only [List.map_cons, List.map_nil, dropBlankBody, kept, List.isEmpty_iff,
        dropBlank_shown_eq_nil]
      split <;> rfl
    | cons s' slots => rfl

theorem mem_of_mem_kept {slots : List Slot} {s : Slot} (h : s ∈ kept slots) : s ∈ slots := by
  unfold kept at h
  split at h
  · split at h
    · cases h
    · exact h
  · exact h

theorem Leaks.mem_kept {slots : List Slot} {s : Slot} (h : s.Leaks) (hs : s ∈ slots) :
    s ∈ kept slots := by
  unfold kept
  split
  · next s' =>
    obtain rfl := List.mem_singleton.mp hs
    split
    · next hblank =>
      have hvalid := h.2
      rw [words, hblank] at hvalid
      cases hvalid
    · exact hs
  · exact hs

/-- A list of slots in parentheses. -/
def listOf (padded : Bool) (slots : List Slot) : List Char :=
  '(' :: [','].intercalate (slots.map (shown padded)) ++ [')']

/-- Read the pieces of a list one by one. -/
def read (padded requireNames : Bool) (slots : List Slot) : Except Failure (List Param) :=
  (kept slots).mapM fun s => parseParam (.ofList (s.shown padded)) requireNames

theorem readParams_listOf (text : String) (padded requireNames : Bool) (slots : List Slot)
    (rest : List Char) :
    readParams text requireNames ([','].intercalate (slots.map (shown padded)) ++ ')' :: rest) =
      (read padded requireNames slots).map fun ps => (ps, rest) := by
  have hcut : cut ',' 1 ([','].intercalate (slots.map (shown padded)) ++ ')' :: rest) =
      .ok ((kept slots).map (shown padded), rest) := by
    rw [← dropBlankBody_map_shown]
    cases slots with
    | nil => rfl
    | cons s slots =>
      rw [cut, scan_intercalate (by decide) (by decide) rest (by simp)]
      · rfl
      · simp only [List.forall_mem_map]
        exact fun s _ => s.closed_shown padded
  have hread : (((kept slots).map (shown padded)).mapM fun piece =>
      parseParam (.ofList piece) requireNames) = read padded requireNames slots := List.mapM_map
  rw [readParams, hcut, Except.mapError, ok_bind]
  dsimp only
  rw [hread]
  cases read padded requireNames slots <;> rfl

theorem outcome_read {slots : List Slot} (h : ∀ s ∈ slots, ¬ s.Leaks) (requireNames : Bool) :
    outcome (read true requireNames slots) = outcome (read false requireNames slots) := by
  have hkept : ∀ s ∈ kept slots, ¬ s.Leaks := fun s hs => h s (mem_of_mem_kept hs)
  rw [outcome, outcome, read, read, mapError_mapM, mapError_mapM]
  generalize kept slots = slots at hkept
  induction slots with
  | nil => rfl
  | cons s slots ih =>
    obtain ⟨hs, hslots⟩ := List.forall_mem_cons.mp hkept
    have hfirst := outcome_parseParam_shown hs requireNames true
    rw [outcome, outcome] at hfirst
    rw [List.mapM_cons, List.mapM_cons, ih hslots, hfirst]
    rfl

/-- The first name that has blanks behind it is refused, if all pieces are read without blanks. -/
theorem exists_failure_of_read {slots : List Slot} {requireNames : Bool} {ps : List Param}
    (h : read false requireNames slots = .ok ps) (hleaks : ∃ s ∈ slots, s.Leaks) :
    ∃ s ∈ slots, s.Leaks ∧ read true requireNames slots = .error s.failure := by
  obtain ⟨s, hs, hleak⟩ := hleaks
  have hmem := hleak.mem_kept hs
  suffices hkept : ∃ s ∈ kept slots, s.Leaks ∧ read true requireNames slots = .error s.failure by
    obtain ⟨s, hs, hleak, hread⟩ := hkept
    exact ⟨s, mem_of_mem_kept hs, hleak, hread⟩
  rw [read] at h ⊢
  generalize kept slots = slots at h hmem
  induction slots generalizing ps with
  | nil => cases hmem
  | cons s' slots ih =>
    rw [List.mapM_cons] at h ⊢
    obtain ⟨p, hp, h⟩ := bind_eq_ok.mp h
    obtain ⟨ps, hps, -⟩ := bind_eq_ok.mp h
    by_cases hs' : s'.Leaks
    · have hfirst : parseParam (.ofList (s'.shown true)) requireNames = .error s'.failure :=
        parseParam_padded_of_leaks s'.leading s'.trailing requireNames hs'
      exact ⟨s', by simp, hs', by rw [hfirst]; rfl⟩
    · have hfirst := eq_ok_of_outcome_eq (outcome_parseParam_shown hs' requireNames true) hp
      rcases List.mem_cons.mp hmem with rfl | hmem
      · exact absurd hleak hs'
      · obtain ⟨t, ht, hleak', hread⟩ := ih hps hmem
        exact ⟨t, by simp [ht], hleak', by rw [hfirst, hread]; rfl⟩

end Slot

/-- A text with a list of slots in it, and perhaps a second one behind. -/
structure Layout where
  head : List Char
  inputs : List Slot
  outputs : Option (List Slot)
  tail : List Char
  head_free : '(' ∉ head

/-- What is read behind the first list. -/
def readRest (text : String) (requireNames allowOutputs : Bool) (name : String)
    (inputs : List Param) (rest : List Char) : Except Failure Declaration := do
  let (outputs, rest) ← match allowOutputs, rest with
    | true, '(' :: body => (readParams text requireNames body).map fun (ps, r) => (some ps, r)
    | _, _ => .ok (none, rest)
  if rest.isEmpty then .ok ⟨name, inputs, outputs⟩
  else .error (.typeText text (.textAfterList (String.ofList rest)))

theorem parse_of_trim {text : String} {head body : List Char}
    (htrim : trim text.toList = head ++ '(' :: body) (hhead : '(' ∉ head)
    (requireNames allowOutputs : Bool) :
    parse text requireNames allowOutputs = (do
      let name ← checkIdentifier (.ofList head) (some "signature name") false
      let (inputs, rest) ← readParams (trimmed text) requireNames body
      readRest (trimmed text) requireNames allowOutputs name inputs rest) := by
  have hne : ∀ c ∈ head, decide (c ≠ '(') = true := by
    intro c hc
    rw [decide_eq_true_eq]
    rintro rfl
    exact hhead hc
  have htext : (trimmed text).toList = head ++ '(' :: body := by
    rw [trimmed, String.toList_ofList, htrim]
  have hdrop : (head ++ '(' :: body).dropWhile (· ≠ '(') = '(' :: body := by
    rw [List.dropWhile_append_of_pos hne]
    rfl
  have htake : (head ++ '(' :: body).takeWhile (· ≠ '(') = head := by
    rw [List.takeWhile_append_of_pos hne]
    simp
  rw [parse]
  dsimp only
  rw [htext, hdrop, htake]
  rfl

theorem outcome_readParams (text text' : String) (requireNames : Bool) (cs : List Char) :
    outcome (readParams text requireNames cs) = outcome (readParams text' requireNames cs) := by
  rw [readParams, readParams]
  cases cut ',' 1 cs <;> rfl

theorem outcome_readRest (text text' : String) (requireNames allowOutputs : Bool) (name : String)
    (inputs : List Param) (rest : List Char) :
    outcome (readRest text requireNames allowOutputs name inputs rest) =
      outcome (readRest text' requireNames allowOutputs name inputs rest) := by
  have hend (outputs : Option (List Param)) (rest : List Char) :
      outcome (if rest.isEmpty then .ok (⟨name, inputs, outputs⟩ : Declaration)
        else .error (.typeText text (.textAfterList (String.ofList rest)))) =
      outcome (if rest.isEmpty then .ok (⟨name, inputs, outputs⟩ : Declaration)
        else .error (.typeText text' (.textAfterList (String.ofList rest)))) := by
    split <;> rfl
  unfold readRest
  split
  · next body =>
    have hparams := outcome_readParams text text' requireNames body
    rw [outcome, outcome] at hparams
    rw [outcome, outcome, mapError_bind, mapError_bind, mapError_map, mapError_map, hparams]
    exact bind_congr fun x => hend x.1 x.2
  · exact hend none rest

namespace Layout

def slots (l : Layout) : List Slot := l.inputs ++ l.outputs.getD []

def secondOf (padded : Bool) : Option (List Slot) → List Char
  | none => []
  | some slots => Slot.listOf padded slots

def text (padded : Bool) (l : Layout) : String :=
  .ofList (l.head ++ Slot.listOf padded l.inputs ++ secondOf padded l.outputs ++ l.tail)

/-- What stands behind the first list, without the blanks at the end. -/
def rest (padded : Bool) (l : Layout) : List Char :=
  secondOf padded l.outputs ++ dropBlankEnd l.tail

theorem trim_text (padded : Bool) (l : Layout) :
    trim (l.text padded).toList = dropBlank l.head ++ '(' ::
      ([','].intercalate (l.inputs.map (Slot.shown padded)) ++ ')' :: l.rest padded) := by
  obtain ⟨head, inputs, outputs, tail, _⟩ := l
  rw [text, String.toList_ofList]
  cases outputs with
  | none =>
    have := trim_append_cons (c := '(') (d := ')') (by decide) (by decide) head
      ([','].intercalate (inputs.map (Slot.shown padded))) tail
    simpa [secondOf, Slot.listOf, rest] using this
  | some outputs =>
    have := trim_append_cons (c := '(') (d := ')') (by decide) (by decide) head
      ([','].intercalate (inputs.map (Slot.shown padded)) ++ ')' :: '(' ::
        [','].intercalate (outputs.map (Slot.shown padded))) tail
    simpa [secondOf, Slot.listOf, rest] using this

theorem parse_text (padded requireNames allowOutputs : Bool) (l : Layout) :
    parse (l.text padded) requireNames allowOutputs = (do
      let name ← checkIdentifier (.ofList (dropBlank l.head)) (some "signature name") false
      let inputs ← Slot.read padded requireNames l.inputs
      readRest (trimmed (l.text padded)) requireNames allowOutputs name inputs
        (l.rest padded)) := by
  have hhead : '(' ∉ dropBlank l.head := fun h =>
    l.head_free ((List.dropWhile_suffix _).subset h)
  rw [parse_of_trim (l.trim_text padded) hhead, Slot.readParams_listOf]
  cases Slot.read padded requireNames l.inputs <;> rfl

/-- A second list is read like the first one, and after it the text has to end. -/
theorem readRest_rest {l : Layout} {slots : List Slot} (h : l.outputs = some slots)
    (text : String) (padded requireNames : Bool) (name : String) (inputs : List Param) :
    readRest text requireNames true name inputs (l.rest padded) = (do
      let outputs ← Slot.read padded requireNames slots
      if (dropBlankEnd l.tail).isEmpty then .ok ⟨name, inputs, some outputs⟩
      else .error (.typeText text (.textAfterList (String.ofList (dropBlankEnd l.tail))))) := by
  have hlist : l.rest padded =
      '(' :: ([','].intercalate (slots.map (Slot.shown padded)) ++ ')' :: dropBlankEnd l.tail) := by
    simp [rest, secondOf, Slot.listOf, h]
  rw [hlist, readRest, Slot.readParams_listOf]
  cases Slot.read padded requireNames slots <;> rfl

theorem outcome_readRest_rest {l : Layout} (h : ∀ s ∈ l.slots, ¬ s.Leaks) (text text' : String)
    (requireNames allowOutputs : Bool) (name : String) (inputs : List Param) :
    outcome (readRest text requireNames allowOutputs name inputs (l.rest true)) =
      outcome (readRest text' requireNames allowOutputs name inputs (l.rest false)) := by
  rw [outcome_readRest text text']
  cases houtputs : l.outputs with
  | none => rw [rest, rest, houtputs]; rfl
  | some outputs =>
    cases allowOutputs with
    | false => rw [rest, rest, houtputs]; rfl
    | true =>
      have hleaks : ∀ s ∈ outputs, ¬ s.Leaks := fun s hs => h s (by simp [slots, houtputs, hs])
      have hread := Slot.outcome_read hleaks requireNames
      rw [outcome, outcome] at hread
      rw [readRest_rest houtputs, readRest_rest houtputs, outcome, outcome, mapError_bind,
        mapError_bind, hread]

theorem outcome_parse {l : Layout} (h : ∀ s ∈ l.slots, ¬ s.Leaks)
    (requireNames allowOutputs : Bool) :
    outcome (parse (l.text true) requireNames allowOutputs) =
      outcome (parse (l.text false) requireNames allowOutputs) := by
  have hleaks : ∀ s ∈ l.inputs, ¬ s.Leaks := fun s hs => h s (List.mem_append_left _ hs)
  have hinputs := Slot.outcome_read hleaks requireNames
  rw [outcome, outcome] at hinputs
  rw [parse_text, parse_text, outcome, outcome, mapError_bind, mapError_bind]
  refine bind_congr fun name => ?_
  rw [mapError_bind, mapError_bind, hinputs]
  exact bind_congr fun inputs => outcome_readRest_rest h _ _ requireNames allowOutputs name inputs

theorem parse_eq_error {l : Layout} (hleaks : ∃ s ∈ l.slots, s.Leaks)
    {requireNames allowOutputs : Bool} {d : Declaration}
    (h : parse (l.text false) requireNames allowOutputs = .ok d) :
    ∃ s ∈ l.slots, s.Leaks ∧ parse (l.text true) requireNames allowOutputs = .error s.failure := by
  rw [parse_text] at h ⊢
  obtain ⟨name, hname, h⟩ := bind_eq_ok.mp h
  obtain ⟨inputs, hinputs, h⟩ := bind_eq_ok.mp h
  rw [hname, ok_bind]
  by_cases hin : ∃ s ∈ l.inputs, s.Leaks
  · obtain ⟨s, hs, hleak, hread⟩ := Slot.exists_failure_of_read hinputs hin
    exact ⟨s, List.mem_append_left _ hs, hleak, by rw [hread]; rfl⟩
  · have hinputs' := eq_ok_of_outcome_eq
      (Slot.outcome_read (fun s hs hleak => hin ⟨s, hs, hleak⟩) requireNames) hinputs
    rw [hinputs', ok_bind]
    cases houtputs : l.outputs with
    | none =>
      obtain ⟨s, hs, hleak⟩ := hleaks
      exact absurd ⟨s, by simpa [slots, houtputs] using hs, hleak⟩ hin
    | some outputs =>
      cases allowOutputs with
      | false =>
        -- a second list that is not allowed is refused, with blanks or without
        rw [rest, houtputs] at h
        cases h
      | true =>
        rw [readRest_rest houtputs] at h ⊢
        obtain ⟨ps, hps, -⟩ := bind_eq_ok.mp h
        have hout : ∃ s ∈ outputs, s.Leaks := by
          obtain ⟨s, hs, hleak⟩ := hleaks
          rw [slots, houtputs] at hs
          exact ⟨s, (List.mem_append.mp hs).resolve_left fun hs => hin ⟨s, hs, hleak⟩, hleak⟩
        obtain ⟨s, hs, hleak, hread⟩ := Slot.exists_failure_of_read hps hout
        exact ⟨s, by simp [slots, houtputs, hs], hleak, by rw [hread]; rfl⟩

end Layout

/-- Blanks around a parameter change neither the parameter nor the kind of failure, except behind
a name: there they are taken for a part of it, and the name is refused. So it is with the pieces
of the lists of errors and functions. Where no blanks are put behind a name, the outcome is the
same. Where some are, a text that is read without them is refused for one of these names. -/
theorem outcome_padded {u v : String} (t : String) (requireName : Bool) (hu : AllBlank u.toList)
    (hv : AllBlank v.toList) (l : Layout) :
    ((outcome (parseParam (u ++ t ++ v) requireName) = outcome (parseParam t requireName) ↔
        ¬ Leaks t.toList v.toList) ∧
      (Leaks t.toList v.toList → parseParam (u ++ t ++ v) requireName =
        .error (.identifier (String.ofList ((words t.toList).2 ++ v.toList))
          (some "parameter name")))) ∧
    ((∀ s ∈ l.slots, ¬ s.Leaks) →
      outcome (ErrorItem.parse (l.text true)) = outcome (ErrorItem.parse (l.text false)) ∧
      outcome (FunctionItem.parse (l.text true)) = outcome (FunctionItem.parse (l.text false))) ∧
    ((∃ s ∈ l.slots, s.Leaks) →
      (∀ e, ErrorItem.parse (l.text false) = .ok e →
        ∃ s ∈ l.slots, s.Leaks ∧ ErrorItem.parse (l.text true) = .error s.failure) ∧
      ∀ f, FunctionItem.parse (l.text false) = .ok f →
        ∃ s ∈ l.slots, s.Leaks ∧ FunctionItem.parse (l.text true) = .error s.failure) := by
  refine ⟨?_, fun h => ?_, fun hleaks => ?_⟩
  · have htext : u ++ t ++ v = .ofList (u.toList ++ t.toList ++ v.toList) := by
      simp [String.append_assoc]
    have hiff : _ ↔ ¬ Leaks t.toList v.toList := outcome_parseParam_padded_iff hu hv requireName
    rw [← htext, String.ofList_toList] at hiff
    refine ⟨hiff, fun hleak => ?_⟩
    have herror := parseParam_padded_of_leaks hu hv requireName hleak
    rwa [← htext] at herror
  · have herror := Layout.outcome_parse h true false
    have hfunction := Layout.outcome_parse h false true
    rw [outcome, outcome] at herror hfunction
    constructor
    · rw [outcome, outcome, ErrorItem.parse, ErrorItem.parse, mapError_map, mapError_map,
        parseError, parseError, herror]
    · rw [outcome, outcome, FunctionItem.parse, FunctionItem.parse, mapError_map, mapError_map,
        parseFunction, parseFunction, hfunction]
  · constructor
    · intro e he
      obtain ⟨d, hd, -⟩ := map_eq_ok.mp he
      obtain ⟨s, hs, hleak, hread⟩ := Layout.parse_eq_error hleaks hd
      exact ⟨s, hs, hleak, by rw [ErrorItem.parse, parseError, hread]; rfl⟩
    · intro f hf
      obtain ⟨d, hd, -⟩ := map_eq_ok.mp hf
      obtain ⟨s, hs, hleak, hread⟩ := Layout.parse_eq_error hleaks hd
      exact ⟨s, hs, hleak, by rw [FunctionItem.parse, parseFunction, hread]; rfl⟩

/-- A blank in front of a parameter plays no part, and one behind its name does. In a list it is
the first named piece with a blank behind it that is refused. -/
theorem outcome_padded_error :
    outcome (parseParam (" " ++ "bool x" ++ "") true) = outcome (parseParam "bool x" true) ∧
    parseParam (" " ++ "bool x" ++ " ") true =
      .error (.identifier "x " (some "parameter name")) ∧
    ∃ l : Layout, l.text false = "E(uint256 a,bool b)" ∧ l.text true = "E(uint256 a ,bool b)" ∧
      (∃ e, ErrorItem.parse (l.text false) = .ok e) ∧
      ErrorItem.parse (l.text true) = .error (.identifier "a " (some "parameter name")) := by
  have hblank : AllBlank " ".toList := .of_all (by decide)
  have hleaks : Leaks "bool x".toList " ".toList := ⟨by decide, by decide⟩
  have hclosed (cs : List Char)
      (h : cs.all (fun c => c ≠ '(' ∧ c ≠ ')' ∧ c ≠ ',') = true) : Closed ',' false cs := by
    refine .of_forall fun c hc => ?_
    obtain ⟨hopen, hclose, hcomma⟩ := of_decide_eq_true (List.all_eq_true.mp h c hc)
    exact ⟨hopen, hclose, .inr hcomma⟩
  let a : Slot := ⟨[], "uint256 a".toList, [' '], .nil, hclosed _ (by decide), hblank⟩
  let b : Slot := ⟨[], "bool b".toList, [], .nil, hclosed _ (by decide), .nil⟩
  let l : Layout := ⟨['E'], [a, b], none, [], by decide⟩
  have ha : a.Leaks := show Leaks "uint256 a".toList [' '] from ⟨by decide, by decide⟩
  have hplain : l.text false = "E(uint256 a,bool b)" := rfl
  have hread := exists_of_isSome_toOption (x := ErrorItem.parse "E(uint256 a,bool b)")
    (by decide +kernel)
  rw [← hplain] at hread
  obtain ⟨hfront, -⟩ := outcome_padded (v := "") "bool x" true hblank .nil l
  obtain ⟨hboth, -, hlist⟩ := outcome_padded "bool x" true hblank hblank l
  refine ⟨hfront.1.mpr fun h => h.1 rfl, hboth.2 hleaks, l, hplain, rfl, hread, ?_⟩
  obtain ⟨e, he⟩ := hread
  obtain ⟨s, hs, hleak, herror⟩ := (hlist ⟨a, by simp [Layout.slots, l], ha⟩).1 e he
  have hs : s = a ∨ s = b := by simpa [Layout.slots, l] using hs
  rcases hs with rfl | rfl
  · exact herror
  · exact absurd rfl hleak.1

/-- Blanks behind a named parameter are not insignificant. -/
theorem not_padding_insignificant :
    ¬ ∀ (u t v : String) (requireName : Bool), AllBlank u.toList → AllBlank v.toList →
      outcome (parseParam (u ++ t ++ v) requireName) = outcome (parseParam t requireName) := by
  intro h
  have hblank : AllBlank " ".toList := .of_all (by decide)
  obtain ⟨p, hp⟩ := exists_of_isSome_toOption (x := parseParam "bool x" true) (by decide +kernel)
  have hpadded := eq_ok_of_outcome_eq (h "" "bool x" " " true .nil hblank) hp
  have hnone : (parseParam ("" ++ "bool x" ++ " ") true).toOption = none := by decide +kernel
  rw [hpadded] at hnone
  cases hnone

end Declaration

end ContractInterface
