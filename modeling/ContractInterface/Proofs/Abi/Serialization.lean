import ContractInterface.Document
import ContractInterface.Proofs.Abi.Arrangement
import ContractInterface.Proofs.Json.RoundTrip

/-! The two ways in which an interface is written: as the list of its items, and as a record of its
parts with the items in their groups. Both tell the same. The record is plain JSON, no deeper than
its parameters are nested, so that it is read again. -/
namespace ContractInterface
open Sequencing

namespace Json

/-- An object whose keys are some of the given strings, in their order. -/
theorem Plain.object_of_keys {n : Nat} {fields : List (Utf16 × Json)} (keys : List String)
    (hkeys : (fields.map (·.1)).Sublist (keys.map Utf16.ofString)) (hnodup : keys.Nodup)
    (values : ∀ f ∈ fields, Plain n f.2) : Plain (n + 1) (.object fields) :=
  .object (hkeys.nodup (hnodup.map fun _ _ => Utf16.ofString_injective)) values

end Json

open Json (Plain)

namespace Param

/-- A level of components is an object in a list. -/
theorem WellFormed.plain_toJson {n : Nat} {p : Param} (h : WellFormed n p)
    (indexed : Option Bool) : Plain (2 * n) { p with indexed }.toJson := by
  induction h generalizing indexed with
  | @mk n name ty components internalType _ _ _ members ih =>
    have hmembers : Plain (2 * n + 1) (.array (toJsons components)) := by
      rw [toJsons_eq_map]
      refine .array (List.forall_mem_map.mpr fun c hc => ?_)
      simpa using ih c hc c.indexed
    unfold toJson
    refine .object_of_keys ["name", "type", "indexed", "components", "internalType"] ?_
      (by decide) ?_
    · cases indexed <;> cases internalType <;> cases components <;>
        simp [Json.field]
    · cases indexed <;> cases internalType <;> cases components <;>
        simp [Json.field, Plain.string, Plain.bool, hmembers]

theorem plain_toJsons {ps : List Param} (h : ∀ p ∈ ps, p.WellFormed (maxNesting + 1)) :
    Plain (2 * (maxNesting + 1) + 1) (.array (toJsons ps)) := by
  rw [toJsons_eq_map]
  refine .array (List.forall_mem_map.mpr fun p hp => ?_)
  simpa using (h p hp).plain_toJson p.indexed

theorem plain_toJsons_inputs {ps : List Param} (h : ∀ p ∈ ps, p.WellFormedInput) :
    Plain (2 * (maxNesting + 1) + 1) (.array (toJsons ps)) := by
  rw [toJsons_eq_map]
  refine .array (List.forall_mem_map.mpr fun p hp => ?_)
  obtain ⟨q, indexed, hq, rfl⟩ := h p hp
  exact hq.plain_toJson (some indexed)

end Param

namespace Item

theorem exists_toJson (x : Item) : ∃ fields, x.toJson = .object fields := by
  cases x <;> exact ⟨_, rfl⟩

theorem WellFormed.plain_toJson {x : Item} (h : x.WellFormed) :
    Plain (2 * (maxNesting + 1) + 2) x.toJson := by
  cases h with
  | @constructor c inputs =>
    refine .object_of_keys ["type", "inputs", "stateMutability"] (.refl _) (by decide) ?_
    simp [Plain.string, Param.plain_toJsons inputs]
  | fallback m =>
    refine .object_of_keys ["type", "stateMutability"] (.refl _) (by decide) ?_
    simp [Plain.string]
  | receive m =>
    refine .object_of_keys ["type", "stateMutability"] (.refl _) (by decide) ?_
    simp [Plain.string]
  | @function f name inputs outputs =>
    refine .object_of_keys ["type", "name", "inputs", "outputs", "stateMutability"] (.refl _)
      (by decide) ?_
    simp [Plain.string, Param.plain_toJsons inputs, Param.plain_toJsons outputs]
  | @event e name inputs =>
    refine .object_of_keys ["type", "name", "inputs", "anonymous"] (.refl _) (by decide) ?_
    simp [Plain.string, Plain.bool, Param.plain_toJsons_inputs inputs]
  | @error e name inputs =>
    refine .object_of_keys ["type", "name", "inputs"] (.refl _) (by decide) ?_
    simp [Plain.string, Param.plain_toJsons inputs]

end Item

namespace Abi
open Overloads

/-- What is decoded is made up of well-formed items. -/
theorem exists_ofItems_of_ofJson {j : Json} {abi : Abi} (h : ofJson j = .ok abi) :
    ∃ xs, (∀ x ∈ xs, x.WellFormed) ∧ ofItems xs = .ok abi := by
  obtain ⟨ys, -, h⟩ := bind_eq_ok.mp h
  suffices hfold : ∀ start : Abi,
      ys.foldlM (fun abi y => Item.ofJson y >>= abi.add) start = .ok abi →
        ∃ xs : List Item, (∀ x ∈ xs, x.WellFormed) ∧ xs.foldlM add start = .ok abi from
    hfold empty h
  clear h
  induction ys with
  | nil => exact fun start h => ⟨[], by simp, h⟩
  | cons y ys ih =>
    intro start h
    rw [List.foldlM_cons] at h
    obtain ⟨next, hnext, h⟩ := bind_eq_ok.mp h
    obtain ⟨x, hx, hadd⟩ := bind_eq_ok.mp hnext
    obtain ⟨xs, hxs, hfold⟩ := ih next h
    refine ⟨x :: xs, List.forall_mem_cons.mpr ⟨Item.wellFormed_of_ofJson hx, hxs⟩, ?_⟩
    rw [List.foldlM_cons, hadd]
    exact hfold

/-- The items of each name in a list under the name. -/
def groupsJson {α : Type} (toItem : α → Item) (groups : Overloads α) : Json :=
  .object (groups.map fun g => (Utf16.ofString g.1, .array (g.2.map fun x => (toItem x).toJson)))

/-- The record of an interface. -/
def json (abi : Abi) : Json :=
  .object [("constructor", .ofOption (fun c => (Item.constructor c).toJson) abi.constructor),
    ("fallback", .ofOption (fun m => (Item.fallback m).toJson) abi.fallback),
    ("receive", .ofOption (fun m => (Item.receive m).toJson) abi.receive),
    ("functions", groupsJson .function abi.functions),
    ("events", groupsJson .event abi.events),
    ("errors", groupsJson .error abi.errors)]

theorem toJson_groupsDocument {α : Type} (toItem : α → Item) (groups : Overloads α) :
    (groupsDocument toItem groups).toJson = .ok (groupsJson toItem groups) := by
  refine map_eq_ok.mpr ⟨_, ?_, rfl⟩
  induction groups with
  | nil => rfl
  | cons g groups ih =>
    have hgroup := Document.toJson_list_item (g.2.map toItem)
    rw [List.map_map, List.map_map] at hgroup
    exact bind_eq_ok.mpr ⟨_, hgroup, bind_eq_ok.mpr ⟨_, ih, rfl⟩⟩

theorem toJson_toDocument (abi : Abi) : abi.toDocument.toJson = .ok abi.json := by
  have hoption {α : Type} (toItem : α → Item) (x : Option α) :
      (Document.ofOption (fun a => .item (toItem a)) x).toJson =
        .ok (.ofOption (fun a => (toItem a).toJson) x) := by
    cases x with
    | none => rfl
    | some a => rfl
  rw [toDocument, Document.toJson]
  simp only [Document.fieldsToJson, hoption, toJson_groupsDocument]
  rfl

variable {abi : Abi}

/-- Names of groups differ, so each of them is one field. -/
theorem plain_groupsJson {α : Type} {name : α → String} {f : α → Item}
    {groups : Overloads α} (hkeyed : Keyed name groups)
    (h : ∀ x ∈ groups.all, (f x).WellFormed) :
    Plain (2 * (maxNesting + 1) + 4) (groupsJson f groups) := by
  refine .object_of_keys (groups.map (·.1)) ?_ hkeyed.nodup ?_
  · rw [List.map_map, List.map_map]
    exact .refl _
  · refine List.forall_mem_map.mpr fun g hg => ?_
    refine .array (List.forall_mem_map.mpr fun x hx => ?_)
    exact (h x (List.mem_flatMap.mpr ⟨g, hg, hx⟩)).plain_toJson

theorem plain_json (hkeyed : abi.KeyedByName) (h : ∀ x ∈ abi.items, x.WellFormed) :
    Plain (2 * (maxNesting + 1) + 5) abi.json := by
  have hoption {α : Type} {f : α → Item} {x : Option α}
      (hx : ∀ a, x = some a → (f a).WellFormed) :
      Plain (2 * (maxNesting + 1) + 4) (.ofOption (fun a => (f a).toJson) x) := by
    cases x with
    | none => exact .null
    | some a => exact (hx a rfl).plain_toJson.mono (by omega)
  have hconstructor := hoption (f := .constructor) (x := abi.constructor)
    fun c hc => h _ (by simp [items, hc])
  have hfallback := hoption (f := .fallback) (x := abi.fallback)
    fun m hm => h _ (by simp [items, hm])
  have hreceive := hoption (f := .receive) (x := abi.receive)
    fun m hm => h _ (by simp [items, hm])
  have hfunctions := plain_groupsJson (f := .function) hkeyed.functions
    fun x hx => h _ (by simp [items, hx])
  have hevents := plain_groupsJson (f := .event) hkeyed.events
    fun x hx => h _ (by simp [items, hx])
  have herrors := plain_groupsJson (f := .error) hkeyed.errors
    fun x hx => h _ (by simp [items, hx])
  refine .object_of_keys ["constructor", "fallback", "receive", "functions", "events", "errors"]
    (.refl _) (by decide) ?_
  simp [hconstructor, hfallback, hreceive, hfunctions, hevents, herrors]

/-- The field of a key, in which something stands. -/
def single (fields : List (Utf16 × Json)) (key : Utf16) : List Json :=
  match Json.field? fields key with
  | none | some .null => []
  | some x => [x]

/-- All members of the lists that stand in the object of a key. -/
def members (fields : List (Utf16 × Json)) (key : Utf16) : List Json :=
  match Json.field? fields key with
  | some (.object groups) => groups.flatMap fun g =>
    match g.2 with
    | .array xs => xs
    | _ => []
  | _ => []

/-- What a record of an interface lists: the constructor, the fallback and the receive function,
where there are any, and all members of functions, events and errors. -/
def listing : Json → List Json
  | .object fields =>
    single fields "constructor" ++ single fields "fallback" ++ single fields "receive" ++
      members fields "functions" ++ members fields "events" ++ members fields "errors"
  | _ => []

theorem listing_json (abi : Abi) : listing abi.json = abi.toJsons := by
  have hsingle {α : Type} {toItem : α → Item} {x : Option α} {fields : List (Utf16 × Json)}
      {key : Utf16}
      (h : Json.field? fields key = some (.ofOption (fun a => (toItem a).toJson) x)) :
      single fields key = (x.map toItem).toList.map Item.toJson := by
    rw [single, h]
    cases x with
    | none => rfl
    | some a =>
      obtain ⟨fs, hfs⟩ := (toItem a).exists_toJson
      simp [Json.ofOption, hfs]
  have hmembers {α : Type} {toItem : α → Item} {groups : Overloads α}
      {fields : List (Utf16 × Json)} {key : Utf16}
      (h : Json.field? fields key = some (groupsJson toItem groups)) :
      members fields key = (groups.all.map toItem).map Item.toJson := by
    rw [members, h, groupsJson]
    simp [List.flatMap_map, all, List.map_flatMap, Function.comp_def]
  rw [json, listing, hsingle rfl, hsingle rfl, hsingle rfl, hmembers rfl, hmembers rfl,
    hmembers rfl, toJsons, items]
  simp only [List.map_append]

end Abi

/-- Items, wrapped or not, and JSON in lists and objects. -/
inductive Nest
  | json (x : Json)
  | item (x : Item)
  | wrapped (x : Item) (owned : Bool)
  | list (members : List Nest)
  | object (fields : List (Utf16 × Nest))

namespace Nest

mutual

def toDocument : Nest → Document
  | json x => .json x
  | item x => .item x
  | wrapped x owned => .value (.wrapped x owned)
  | list members => .list (toDocuments members)
  | object fields => .object (fieldsToDocuments fields)

def toDocuments : List Nest → List Document
  | [] => []
  | n :: ns => toDocument n :: toDocuments ns

def fieldsToDocuments : List (Utf16 × Nest) → List (Utf16 × Document)
  | [] => []
  | (key, n) :: fields => (key, toDocument n) :: fieldsToDocuments fields

end

mutual

/-- The same lists and objects, with its JSON in the place of each item. -/
def toJson : Nest → Json
  | json x => x
  | item x => x.toJson
  | wrapped x _ => x.toJson
  | list members => .array (toJsons members)
  | object fields => .object (fieldsToJson fields)

def toJsons : List Nest → List Json
  | [] => []
  | n :: ns => toJson n :: toJsons ns

def fieldsToJson : List (Utf16 × Nest) → List (Utf16 × Json)
  | [] => []
  | (key, n) :: fields => (key, toJson n) :: fieldsToJson fields

end

mutual

theorem toJson_toDocument : ∀ n : Nest, n.toDocument.toJson = .ok n.toJson
  | json _ => rfl
  | item _ => rfl
  | wrapped _ _ => rfl
  | list members => map_eq_ok.mpr ⟨_, toJsons_toDocuments members, rfl⟩
  | object fields => map_eq_ok.mpr ⟨_, fieldsToJson_fieldsToDocuments fields, rfl⟩

theorem toJsons_toDocuments :
    ∀ ns : List Nest, Document.toJsons (toDocuments ns) = .ok (toJsons ns)
  | [] => rfl
  | n :: ns => by
    have hfirst := toJson_toDocument n
    have hothers := toJsons_toDocuments ns
    exact bind_eq_ok.mpr ⟨_, hfirst, bind_eq_ok.mpr ⟨_, hothers, rfl⟩⟩

theorem fieldsToJson_fieldsToDocuments : ∀ fields : List (Utf16 × Nest),
    Document.fieldsToJson (fieldsToDocuments fields) = .ok (fieldsToJson fields)
  | [] => rfl
  | (_, n) :: fields => by
    have hfirst := toJson_toDocument n
    have hothers := fieldsToJson_fieldsToDocuments fields
    exact bind_eq_ok.mpr ⟨_, hfirst, bind_eq_ok.mpr ⟨_, hothers, rfl⟩⟩

end

end Nest

namespace Abi

/-- The record of an interface that was decoded is written, and read again. What it lists is what
the interface has, and from that list the interface is got back. Items that lie in lists and
objects, wrapped or not, are written as their JSON in the same place. -/
theorem serializations_agree :
    (∀ j abi, ofJson j = .ok abi → ∃ text x, abi.toDocument.compact = .ok text ∧
      Json.read text = .ok x ∧ listing x = abi.toJsons ∧
      ofJson (.array (listing x)) = .ok abi) ∧
    ∀ n : Nest, n.toDocument.compact = .ok n.toJson.compact ∧
      n.toDocument.indented = .ok n.toJson.indented := by
  constructor
  · intro j abi h
    obtain ⟨xs, hxs, habi⟩ := exists_ofItems_of_ofJson h
    obtain ⟨honce, rfl⟩ := ofItems_eq_ok.mp habi
    have hitems : ∀ x ∈ (arranged xs).items, x.WellFormed := fun x hx =>
      hxs x ((mem_items_arranged honce).mp hx)
    have hplain := plain_json (keyedByName_arranged xs) hitems
    refine ⟨(arranged xs).json.compact, (arranged xs).json, ?_, ?_, listing_json _, ?_⟩
    · rw [Document.compact, toJson_toDocument]
      rfl
    · exact (hplain.mono (by decide)).read_compact
    · rw [listing_json, toJsons, ofJson_map_toJson fun x hx => (hitems x hx).ofJson_toJson]
      exact ofItems_items habi
  · intro n
    rw [Document.compact, Document.indented, Nest.toJson_toDocument]
    exact ⟨rfl, rfl⟩

/-- Two functions of one name, an event and a constructor. -/
def vault : Json :=
  .array [.object [("type", .string "function"), ("name", .string "pay"), ("inputs", .array
      [.object [("name", .string "to"), ("type", .string "tuple[]"), ("components", .array
        [.object [("name", .string "who"), ("type", .string "address")]])]])],
    .object [("type", .string "event"), ("name", .string "Paid"), ("inputs", .array
      [.object [("name", .string "by"), ("type", .string "address"), ("indexed", .bool true)]])],
    .object [("type", .string "constructor")],
    .object [("type", .string "function"), ("name", .string "pay")]]

/-- An item, a wrapped item and a number in a list in an object. -/
def shelf : Nest :=
  .object [("items", .list [.item (.receive .payable), .wrapped (.fallback .view) false,
    .json (.int 2)])]

theorem serializations_agree_vault :
    (∃ abi text x, ofJson vault = .ok abi ∧ abi.size = 4 ∧ abi.toDocument.compact = .ok text ∧
      Json.read text = .ok x ∧ listing x = abi.toJsons ∧ ofJson (.array (listing x)) = .ok abi) ∧
    shelf.toDocument.compact = .ok
      ("\x7b\"items\": [\x7b\"type\": \"receive\", \"stateMutability\": \"payable\"\x7d, " ++
        "\x7b\"type\": \"fallback\", \"stateMutability\": \"view\"\x7d, 2]\x7d") := by
  obtain ⟨records, nests⟩ := serializations_agree
  have hsize : ((ofJson vault).map size).toOption = some 4 := by decide +kernel
  obtain ⟨abi, habi, hfour⟩ := map_eq_ok.mp (toOption_eq_some.mp hsize)
  obtain ⟨text, x, htext, hread, hlisting, hagain⟩ := records vault abi habi
  refine ⟨⟨abi, text, x, habi, hfour, htext, hread, hlisting, hagain⟩, ?_⟩
  rw [(nests shelf).1]
  exact congrArg Except.ok (by decide +kernel)

end Abi

end ContractInterface
