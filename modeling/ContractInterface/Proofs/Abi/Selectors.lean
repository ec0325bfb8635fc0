import ContractInterface.Proofs.Abi.Arrangement
import ContractInterface.Proofs.Signature.ReadBack
import ContractInterface.Proofs.Text.Hexadecimal

/-! The selectors of an interface: in the lines that describe it, in the table of its functions,
and in the search for an error. All three go by the same items in the same order, whatever the
hash function is. -/
namespace ContractInterface
open Text

/-- What is told of an item in one line. -/
structure Line where
  kind : Kind
  signature : String
  selector : List UInt8
  deriving DecidableEq

def Line.text (l : Line) : String := Abi.line l.kind l.signature l.selector

namespace Item

/-- The line of a function, an event or an error. -/
def line? (hash : String → List UInt8) : Item → Option Line
  | function f => some ⟨.function, f.signature, selectorBy hash f.signature⟩
  | event e => some ⟨.event, e.signature, hash e.signature⟩
  | error e => some ⟨.error, e.signature, selectorBy hash e.signature⟩
  | _ => none

end Item

section
open Param

variable {name : String} {ps : List Param}

theorem noBlank_signature (hn : Identifier.isValid name.toList = true)
    (hp : ∀ p ∈ ps, NoBlank p.canonicalType.toList) :
    NoBlank (signature name ps none).toList := by
  have hname : NoBlank name.toList := fun c hc =>
    Identifier.isBlank_of_isPart (Identifier.isPart_of_mem hn c hc)
  have hbody : NoBlank ([','].intercalate (ps.map fun p => p.canonicalType.toList)) := by
    apply NoBlank.intercalate (.cons (by decide) .nil)
    simpa using hp
  have htext : (signature name ps none).toList = name.toList ++
      '(' :: [','].intercalate (ps.map fun p => p.canonicalType.toList) ++ [')'] := by
    rw [signature, String.toList_append, String.toList_append, Param.toList_listText,
      Param.toList_intercalate_canonicalTypes]
    simp
  rw [htext]
  exact (hname.append (.cons (by decide) hbody)).append (.cons (by decide) .nil)

theorem Item.WellFormed.noBlank_signature {x : Item} (h : x.WellFormed) {s : String}
    (hs : x.signature? = some s) : NoBlank s.toList := by
  cases h with
  | constructor _ => cases hs
  | fallback _ => cases hs
  | receive _ => cases hs
  | function name inputs _ =>
    cases hs
    exact ContractInterface.noBlank_signature name fun p hp => (inputs p hp).noBlank
  | event name inputs =>
    cases hs
    refine ContractInterface.noBlank_signature name fun p hp => ?_
    obtain ⟨q, indexed, hq, rfl⟩ := inputs p hp
    simpa using hq.noBlank
  | error name inputs =>
    cases hs
    exact ContractInterface.noBlank_signature name fun p hp => (inputs p hp).noBlank

end

namespace Line

/-- The words of a line are its kind, its signature and its selector. -/
theorem splitOn_text {l : Line} (h : NoBlank l.signature.toList) :
    l.text.toList.splitOn ' ' =
      [l.kind.tag.toList, l.signature.toList, (Hex.encode l.selector).toList] := by
  have htext : l.text.toList = [' '].intercalate
      [l.kind.tag.toList, l.signature.toList, (Hex.encode l.selector).toList] := by
    simp [text, Abi.line, List.intercalate_cons_cons]
  rw [htext]
  refine List.splitOn_intercalate ' ' ?_ (by simp)
  intro word hword
  have hcases : word = l.kind.tag.toList ∨ word = l.signature.toList ∨
      word = (Hex.encode l.selector).toList := by simpa using hword
  rcases hcases with rfl | rfl | rfl
  · cases l.kind <;> decide
  · intro hc
    cases h ' ' hc
  · intro hc
    cases Hex.not_isBlank_of_mem_encode hc

end Line

namespace Abi
open Overloads

variable (hash : String → List UInt8) (abi : Abi)

def lines : List Line := abi.items.filterMap (Item.line? hash)

def functionLines : List Line := (abi.lines hash).filter (·.kind = .function)

theorem lines_eq : abi.lines hash =
    abi.functions.all.map (fun f => ⟨.function, f.signature, selectorBy hash f.signature⟩) ++
      abi.events.all.map (fun e => ⟨.event, e.signature, hash e.signature⟩) ++
      abi.errors.all.map (fun e => ⟨.error, e.signature, selectorBy hash e.signature⟩) := by
  simp [lines, filterMap_items, Function.comp_def, Item.line?]

theorem describeBy_eq : describeBy hash abi = (abi.lines hash).map Line.text := by
  rw [lines_eq, describeBy]
  simp [Function.comp_def, Line.text]

theorem functionLines_eq : abi.functionLines hash =
    abi.functions.all.map fun f => ⟨.function, f.signature, selectorBy hash f.signature⟩ := by
  rw [functionLines, lines_eq]
  simp [List.filter_map, Function.comp_def]

theorem lines_kinds : ((abi.lines hash).map fun l => (l.kind, some l.signature)) =
    (abi.items.filter fun x => !x.kind.isSingle).map fun x => (x.kind, x.signature?) := by
  rw [lines]
  induction abi.items with
  | nil => rfl
  | cons x xs ih =>
    cases x with
    | constructor c => exact ih
    | fallback m => exact ih
    | receive m => exact ih
    | function f => exact congrArg (List.cons _) ih
    | event e => exact congrArg (List.cons _) ih
    | error e => exact congrArg (List.cons _) ih

/-- The table has one entry for each signature, and one record for each time that a signature came
again. -/
theorem functionSelectorsBy_eq : ∃ log, functionSelectorsBy hash abi =
      ((abi.functions.all.map (·.signature)).eraseDups.map fun s =>
        (s, Hex.encode (selectorBy hash s)), log) ∧
    log.length + (abi.functions.all.map (·.signature)).eraseDups.length =
      abi.functions.all.length ∧
    ∀ r ∈ log, r.level = Log.warning := by
  rw [functionSelectorsBy]
  induction abi.functions.all using List.reverseRecOn with
  | nil => exact ⟨[], rfl, rfl, by simp⟩
  | append_singleton fs f ih =>
    obtain ⟨log, hfs, hlength, hlevel⟩ := ih
    have hknown : ((fs.map (·.signature)).eraseDups.map fun s =>
        (s, Hex.encode (selectorBy hash s))).any (·.1 == f.signature) = true ↔
          f.signature ∈ fs.map (·.signature) := by
      simp [List.mem_eraseDups]
    rw [List.foldl_append, hfs, List.map_append, List.map_singleton, eraseDups_concat]
    dsimp only [List.foldl_cons, List.foldl_nil]
    split
    · next hany =>
      rw [if_pos (hknown.mp hany)]
      refine ⟨_, rfl, ?_, ?_⟩
      · simp only [List.length_append, List.length_singleton]
        omega
      · intro r hr
        rcases List.mem_append.mp hr with hr | hr
        · exact hlevel r hr
        · rw [List.mem_singleton.mp hr]
    · next hany =>
      rw [if_neg fun hmem => hany (hknown.mpr hmem)]
      refine ⟨log, by rw [List.map_append, List.map_singleton], ?_, hlevel⟩
      simp only [List.length_append, List.length_singleton]
      omega

/-- The same error is found by its selector as text, with the marker or without, and as bytes. -/
def Finds (bytes : List UInt8) (found : Option ErrorItem) : Prop :=
  errorBySelectorTextBy? hash abi (Hex.encode bytes) = .ok found ∧
    errorBySelectorTextBy? hash abi (.ofList (bytes.flatMap Hex.byteDigits)) = .ok found ∧
    errorBySelectorBy? hash abi bytes = found

theorem finds (bytes : List UInt8) : Finds hash abi bytes (errorBySelectorBy? hash abi bytes) := by
  obtain ⟨hmarked, hdigits⟩ := Hex.decode?_digits bytes
  refine ⟨?_, ?_, rfl⟩
  · rw [errorBySelectorTextBy?, hmarked]
  · rw [errorBySelectorTextBy?, String.toList_ofList, hdigits]

theorem errorBySelectorBy?_eq (bytes : List UInt8) : errorBySelectorBy? hash abi bytes =
    (abi.items.filterMap Item.error?).find? fun e => selectorBy hash e.signature == bytes := by
  simp [errorBySelectorBy?, filterMap_items, Function.comp_def]

theorem isSome_errorBySelectorBy? (bytes : List UInt8) :
    (errorBySelectorBy? hash abi bytes).isSome = true ↔
      ∃ l ∈ abi.lines hash, l.kind = .error ∧ l.selector = bytes := by
  rw [errorBySelectorBy?, List.find?_isSome, lines_eq]
  simp only [List.mem_append, List.mem_map, beq_iff_eq]
  constructor
  · rintro ⟨e, he, hbytes⟩
    exact ⟨_, .inr ⟨e, he, rfl⟩, rfl, hbytes⟩
  · rintro ⟨l, (⟨f, -, rfl⟩ | ⟨e, -, rfl⟩) | ⟨e, he, rfl⟩, hkind, hbytes⟩
    · cases hkind
    · cases hkind
    · exact ⟨e, he, hbytes⟩

/-- What calls with decoded items have built, the refused calls included. -/
def Built (abi : Abi) : Prop :=
  ∃ os : List Object, (∀ x, .item x ∈ os → ∃ j, Item.ofJson j = .ok x) ∧ abi = attempts empty os

theorem mem_of_mem_items_attempts {os : List Object} {x : Item}
    (h : x ∈ (attempts empty os).items) : .item x ∈ os := by
  obtain ⟨kept, hsub, honce, heq⟩ : ∃ kept, kept.Sublist (os.filterMap Object.item?) ∧
      SinglesOnce kept ∧ attempts empty os = arranged kept :=
    exists_attempts_eq (keyedByName_arranged []) os
  rw [heq, mem_items_arranged honce] at h
  obtain ⟨o, ho, hx⟩ := List.mem_filterMap.mp (hsub.subset h)
  cases o with
  | item y => cases hx; exact ho
  | param p => cases hx

theorem Built.wellFormed {abi : Abi} (h : Built abi) : ∀ x ∈ abi.items, x.WellFormed := by
  obtain ⟨os, hdecoded, rfl⟩ := h
  intro x hx
  obtain ⟨j, hj⟩ := hdecoded x (mem_of_mem_items_attempts hx)
  exact Item.wellFormed_of_ofJson hj

theorem Built.noBlank {abi : Abi} (h : Built abi) {hash : String → List UInt8} {l : Line}
    (hl : l ∈ abi.lines hash) : NoBlank l.signature.toList := by
  obtain ⟨x, hx, hline⟩ := List.mem_filterMap.mp hl
  refine (h.wellFormed x hx).noBlank_signature ?_
  cases x <;> cases hline <;> rfl

theorem lookup_map {α : Type} (g : String → α) {keys : List String} {s : String} (h : s ∈ keys) :
    (keys.map fun s => (s, g s)).lookup s = some (g s) := by
  induction keys with
  | nil => cases h
  | cons key keys ih =>
    rw [List.map_cons, List.lookup_cons]
    split
    · next heq => rw [eq_of_beq heq]
    · next hne => exact ih ((List.mem_cons.mp h).resolve_left (by simpa using hne))

/-- The views of an interface by its selectors agree, for every hash function. It is described by
one line for each function, event and error, in the order of its items, and the words of a line are
its kind, signature and selector. The table of functions has the signatures on the lines of
functions, each once and where it comes first, with the selectors on these lines, and there is one
warning for each further line. For the selector on the line of an error, the first error that has
it is found, and for other bytes none. -/
theorem selectors_agree (hash : String → List UInt8) (abi : Abi) (h : Built abi) :
    describeBy hash abi = (abi.lines hash).map Line.text ∧
    ((abi.lines hash).map fun l => (l.kind, some l.signature)) =
      ((abi.items.filter fun x => !x.kind.isSingle).map fun x => (x.kind, x.signature?)) ∧
    (∀ l ∈ abi.lines hash, l.text.toList.splitOn ' ' =
      [l.kind.tag.toList, l.signature.toList, (Hex.encode l.selector).toList]) ∧
    (∃ table log, functionSelectorsBy hash abi = (table, log) ∧
      table.map (·.1) = ((abi.functionLines hash).map (·.signature)).eraseDups ∧
      (∀ l ∈ abi.functionLines hash,
        table.lookup l.signature = some (Hex.encode l.selector)) ∧
      (∀ r ∈ log, r.level = Log.warning) ∧
      log.length + table.length = (abi.functionLines hash).length) ∧
    (∀ l ∈ abi.lines hash, l.kind = .error → ∃ e,
      (abi.items.filterMap Item.error?).find?
        (fun e => selectorBy hash e.signature == l.selector) = some e ∧
      Finds hash abi l.selector (some e)) ∧
    ∀ bytes, (∀ l ∈ abi.lines hash, l.kind = .error → l.selector ≠ bytes) →
      Finds hash abi bytes none := by
  refine ⟨describeBy_eq hash abi, lines_kinds hash abi,
    fun l hl => Line.splitOn_text (h.noBlank hl), ?_, ?_, ?_⟩
  · obtain ⟨log, htable, hlength, hlevel⟩ := functionSelectorsBy_eq hash abi
    refine ⟨_, log, htable, ?_, ?_, hlevel, ?_⟩
    · rw [functionLines_eq, List.map_map, List.map_map]
      simp [Function.comp_def]
    · rw [functionLines_eq]
      intro l hl
      obtain ⟨f, hf, rfl⟩ := List.mem_map.mp hl
      exact lookup_map _ (List.mem_eraseDups.mpr (List.mem_map_of_mem hf))
    · rw [functionLines_eq, List.length_map, List.length_map]
      exact hlength
  · intro l hl hkind
    obtain ⟨e, he⟩ := Option.isSome_iff_exists.mp
      ((isSome_errorBySelectorBy? hash abi l.selector).mpr ⟨l, hl, hkind, rfl⟩)
    refine ⟨e, (errorBySelectorBy?_eq hash abi l.selector).symm.trans he, ?_⟩
    rw [← he]
    exact finds hash abi l.selector
  · intro bytes hbytes
    have hnone : errorBySelectorBy? hash abi bytes = none := by
      rw [← Option.not_isSome_iff_eq_none, isSome_errorBySelectorBy?]
      rintro ⟨l, hl, hkind, heq⟩
      exact hbytes l hl hkind heq
    rw [← hnone]
    exact finds hash abi bytes

/-- A function twice, and two errors of one selector. -/
def twice : List Item :=
  [.error ⟨"A", []⟩, .function ⟨"f", [], [], .view⟩, .error ⟨"B", []⟩,
    .function ⟨"f", [], [], .pure⟩]

theorem selectors_agree_twice :
    Built (attempts empty (twice.map .item)) ∧
    (∃ table log, functionSelectorsBy (fun _ => [1, 2, 3, 4, 5])
        (attempts empty (twice.map .item)) = (table, log) ∧
      table.lookup "f()" = some "0x01020304" ∧ log.length + table.length = 2) ∧
    Finds (fun _ => [1, 2, 3, 4, 5]) (attempts empty (twice.map .item)) [1, 2, 3, 4]
      (some ⟨"A", []⟩) ∧
    Finds (fun _ => [1, 2, 3, 4, 5]) (attempts empty (twice.map .item)) [0, 2, 3, 4] none := by
  have hdecoded : ∀ x ∈ twice, (Item.ofJson x.toJson).toOption = some x := by decide +kernel
  have hbuilt : Built (attempts empty (twice.map .item)) := by
    refine ⟨twice.map .item, fun x hx => ⟨x.toJson, ?_⟩, rfl⟩
    obtain ⟨y, hy, heq⟩ := List.mem_map.mp hx
    cases heq
    exact Sequencing.toOption_eq_some.mp (hdecoded x hy)
  obtain ⟨-, -, -, ⟨table, log, htable, -, hlookup, -, hlength⟩, hfound, hnone⟩ :=
    selectors_agree (fun _ => [1, 2, 3, 4, 5]) _ hbuilt
  have hlines : (attempts empty (twice.map .item)).lines (fun _ => [1, 2, 3, 4, 5]) =
      [⟨.function, "f()", [1, 2, 3, 4]⟩, ⟨.function, "f()", [1, 2, 3, 4]⟩,
        ⟨.error, "A()", [1, 2, 3, 4]⟩, ⟨.error, "B()", [1, 2, 3, 4]⟩] := by decide +kernel
  rw [functionLines, hlines] at hlookup hlength
  rw [hlines] at hfound hnone
  have hselector := hlookup ⟨.function, "f()", [1, 2, 3, 4]⟩ (by decide)
  refine ⟨hbuilt, ⟨table, log, htable, hselector, hlength⟩, ?_, hnone _ (by decide)⟩
  obtain ⟨e, he, hfinds⟩ := hfound ⟨.error, "A()", [1, 2, 3, 4]⟩ (by decide) rfl
  have hfirst : e = ⟨"A", []⟩ := by
    have heval : ((attempts empty (twice.map .item)).items.filterMap Item.error?).find?
        (fun e => selectorBy (fun _ => [1, 2, 3, 4, 5]) e.signature == [1, 2, 3, 4]) =
          some ⟨"A", []⟩ := by decide +kernel
    exact Option.some.inj (he.symm.trans heval)
  rwa [hfirst] at hfinds

end Abi

end ContractInterface
