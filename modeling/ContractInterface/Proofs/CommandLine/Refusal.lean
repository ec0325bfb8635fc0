import ContractInterface.CommandLine.Run
import ContractInterface.Proofs.Item.Refusal
import ContractInterface.Proofs.Refusal

/-! What keeps a command from its output. Most of it is reported as a failure of the target: text or
JSON that says nothing, and files that the system does not give. -/
namespace ContractInterface
open Sequencing

/-- A failure of text or JSON, or of a number in it that has too many digits. -/
def Failure.OfText (e : Failure) : Prop := e.isParse = true ∨ ∃ n, e = .digitLimit n

theorem Failure.isReported_of_isParse {e : Failure} (h : e.isParse = true) :
    e.isReported = true := by
  cases e <;> first | rfl | cases h

theorem Failure.Accounted.ofText {cs : List Char} {e : Failure} (h : e.Accounted cs) :
    e.OfText := by
  cases h with
  | parse own => exact .inl own
  | digitLimit _ => exact .inr ⟨_, rfl⟩

theorem Failure.AccountedIn.ofText {x : Json} {e : Failure} (h : e.AccountedIn x) : e.OfText := by
  cases h with
  | parse own => exact .inl own
  | digitLimit _ _ => exact .inr ⟨_, rfl⟩

theorem Abi.failsIn_ofJson (x : Json) : FailsIn Failure.OfText (ofJson x) := by
  have hitems : FailsIn Failure.OfText (itemsOfJson x) := by
    unfold itemsOfJson
    dsimp only
    split
    · exact .ok _
    · exact .error (.inl rfl)
  have hadd (abi : Abi) (item : Item) : FailsIn Failure.OfText (abi.add item) := by
    cases item with
    | constructor c | fallback m | receive m =>
      rw [add]
      split
      · exact .error (.inl rfl)
      · exact .ok _
    | function f | event e | error e => exact .ok _
  refine hitems.bind fun items _ => .foldlM (fun abi y _ => ?_) _
  exact ((Item.failsIn_ofJson y).mono fun _ he => he.ofText).bind fun item _ => hadd abi item

namespace TypedData

theorem failsIn_rootNames (f : StructField) : FailsIn Failure.OfText f.rootNames :=
  ((TypeSpec.failsIn_parse f.ty).mono fun _ he => he.ofText).map

theorem Struct.failsIn_ofDefinition (d : Definition) :
    FailsIn Failure.OfText (Struct.ofDefinition d) := by
  have hname (name : String) (context : Option String) :
      FailsIn Failure.OfText (checkIdentifier name context false) :=
    (failsIn_checkIdentifier [] name context false).mono fun _ he => he.ofText
  refine (hname _ _).bind fun name _ => ?_
  exact (FailsIn.mapM fun m _ => (hname _ _).bind fun _ _ => .ok _).bind fun fields _ => .ok _

namespace Resolver

variable {r : Resolver}

theorem failsIn_get (r : Resolver) (name : String) : FailsIn Failure.OfText (r.get name) := by
  unfold get
  split
  · exact .ok _
  · exact .error (.inl rfl)

theorem failsIn_ingest (r : Resolver) (s : Struct) : FailsIn Failure.OfText (r.ingest s) := by
  unfold ingest
  split
  · exact .ok _
  · split
    · exact .ok _
    · exact .error (.inl rfl)

theorem failsIn_ofDefinitions (ds : List Definition) :
    FailsIn Failure.OfText (ofDefinitions ds) :=
  .foldlM (fun r d _ => (Struct.failsIn_ofDefinition d).bind fun s _ => failsIn_ingest r s) _

theorem failsIn_referencesBy (elementary : String → Bool) (s : Struct) :
    FailsIn Failure.OfText (s.referencesBy elementary) :=
  .foldlM (fun _ f _ => (failsIn_rootNames f).map) _

theorem failsIn_reach (elementary : String → Bool) (r : Resolver) (seen stack : List String) :
    FailsIn Failure.OfText (r.reach elementary seen stack) := by
  fun_induction reach elementary r seen stack with
  | case1 seen => exact .ok _
  | case2 seen name stack hn ih => exact ih
  | case3 seen name stack hn e he => exact .error (failsIn_get r name e he)
  | case4 seen name stack hn s hs e he => exact .error (failsIn_referencesBy elementary s e he)
  | case5 seen name stack hn s hs names hnames hlt ih => exact ih

theorem failsIn_encodeTypeBy (elementary : String → Bool) (r : Resolver) (name : String) :
    FailsIn Failure.OfText (r.encodeTypeBy elementary name) := by
  refine FailsIn.map ((failsIn_get r name).bind fun first _ => ?_)
  refine (failsIn_referencesBy elementary first).bind fun names _ => ?_
  refine (failsIn_reach elementary r _ _).bind fun seen _ => ?_
  exact (FailsIn.mapM fun n _ => failsIn_get r n).bind fun _ _ => .ok _

end Resolver

end TypedData

namespace Document

theorem exists_toJson_list {ds : List Document} (h : ∀ d ∈ ds, ∃ x, d.toJson = .ok x) :
    ∃ x, (list ds).toJson = .ok x := by
  obtain ⟨xs, hxs⟩ := exists_mapM_iff.mpr h
  exact ⟨.array xs, map_eq_ok.mpr ⟨xs, toJsons_eq_mapM ds ▸ hxs, rfl⟩⟩

theorem exists_toJson_object {fields : List (Utf16 × Document)}
    (h : ∀ f ∈ fields, ∃ x, f.2.toJson = .ok x) : ∃ x, (object fields).toJson = .ok x := by
  suffices hfields : ∃ xs, fieldsToJson fields = .ok xs by
    obtain ⟨xs, hxs⟩ := hfields
    exact ⟨.object xs, map_eq_ok.mpr ⟨xs, hxs, rfl⟩⟩
  induction fields with
  | nil => exact ⟨[], rfl⟩
  | cons f fields ih =>
    obtain ⟨x, hx⟩ := h f (by simp)
    obtain ⟨xs, hxs⟩ := ih fun g hg => h g (by simp [hg])
    exact ⟨_, bind_eq_ok.mpr ⟨x, hx, bind_eq_ok.mpr ⟨xs, hxs, rfl⟩⟩⟩

end Document

namespace CommandLine
open TypedData

/-- What keeps a command from its output and is not reported: numbers of too many digits, JSON that
lies too deep, paths that are none and files that hold no text, and a primary type that was
dropped. -/
inductive Escapes (a : Arguments) : Failure → Prop
  | digits (n : Nat) : Escapes a (.digitLimit n)
  | depth (bracket : Json.Bracket) : Escapes a (.jsonDepth bracket)
  | file (e : FileError) (h : e.fault.report? = none) : Escapes a (.file e)
  | primary (h : a.primary = some .dropped) : Escapes a .noStructName

theorem Escapes.isReported {a : Arguments} {e : Failure} (h : Escapes a e) :
    e.isReported = false := by
  cases h with
  | digits n => rfl
  | depth bracket => rfl
  | file e h => simp [Failure.isReported, Failure.isParse, Failure.isSystem, h]
  | primary h => rfl

variable {a : Arguments}

/-- A failure is reported, or is one of the few that are not. -/
def Settled (a : Arguments) (e : Failure) : Prop := e.isReported = true ∨ Escapes a e

theorem settled_of_ofText {e : Failure} (h : e.OfText) : Settled a e := by
  rcases h with h | ⟨n, rfl⟩
  · exact .inl (Failure.isReported_of_isParse h)
  · exact .inr (.digits n)

theorem settled_file (e : FileError) : Settled a (.file e) := by
  cases h : e.fault.report? with
  | none => exact .inr (.file e h)
  | some error =>
    left
    simp [Failure.isReported, Failure.isSystem, h]

theorem failsIn_load (files : FileTree) (path : Utf16) :
    FailsIn (Settled a) (Abi.load files path) := by
  have hfile : FailsIn (Settled a) ((files.read path).mapError Failure.file) :=
    .mapError fun e _ => settled_file e
  have hjson (s : String) : FailsIn (Settled a) ((Json.read s).mapError Failure.ofFault) := by
    refine .mapError fun fault _ => ?_
    cases fault with
    | flaw => exact .inl rfl
    | digitLimit n => exact .inr (.digits n)
    | tooDeep bracket => exact .inr (.depth bracket)
  refine hfile.bind fun text _ => FailsIn.bind ?_ fun abi _ => .ok _
  exact (hjson _).bind fun x _ => (Abi.failsIn_ofJson x).mono fun _ he => settled_of_ofText he

theorem failsIn_describeErrorBy (hash : String → List UInt8) (text : String) :
    FailsIn (Settled a) (describeErrorBy hash text >>= Document.indented) := by
  have hparse : FailsIn (Settled a) (ErrorItem.parse text) :=
    ((Declaration.failsIn_parse text true false).mono fun _ he => settled_of_ofText he.ofText).map
  rw [describeErrorBy, bind_assoc]
  exact hparse.bind fun e _ => .ok _

theorem exists_toJson_describeDefinition (d : Definition) :
    ∃ x, (describeDefinition d).toJson = .ok x := by
  refine Document.exists_toJson_object ?_
  simp only [List.forall_mem_cons, List.not_mem_nil, false_imp_iff, implies_true, and_true]
  refine ⟨⟨_, rfl⟩, Document.exists_toJson_list fun member hmember => ?_⟩
  obtain ⟨m, -, rfl⟩ := List.mem_map.mp hmember
  exact ⟨_, rfl⟩

/-- What is described of a reading can be written. -/
theorem exists_toJson_of_describeReadingBy {elementary : String → Bool}
    {hash : String → List UInt8} {text : String} {reading : Reading}
    {primary : Option (Except Failure String)} {d : Document}
    (h : describeReadingBy elementary hash text reading primary = .ok d) :
    ∃ x, d.toJson = .ok x := by
  unfold describeReadingBy at h
  split at h
  · cases h
  · obtain ⟨resolver, -, h⟩ := bind_eq_ok.mp h
    obtain ⟨name, -, h⟩ := bind_eq_ok.mp h
    obtain ⟨encoding, -, h⟩ := bind_eq_ok.mp h
    obtain ⟨bytes, -, h⟩ := bind_eq_ok.mp h
    cases h
    refine Document.exists_toJson_object ?_
    simp only [List.forall_mem_cons, List.not_mem_nil, false_imp_iff, implies_true, and_true]
    refine ⟨Document.exists_toJson_list fun d hd => ?_, ⟨_, rfl⟩, ⟨_, rfl⟩, ⟨_, rfl⟩⟩
    obtain ⟨definition, -, rfl⟩ := List.mem_map.mp hd
    exact exists_toJson_describeDefinition definition

/-- A name that is asked for is there, unless it was dropped. -/
theorem failsIn_primaryName (first : String) :
    FailsIn (Settled a) (a.primaryName.getD (.ok first)) := by
  rw [Arguments.primaryName]
  cases hprimary : a.primary with
  | none => exact .ok _
  | some value =>
    cases value with
    | text s => exact .ok _
    | dropped => exact .error (.inr (.primary hprimary))

theorem failsIn_describeReadingBy (elementary : String → Bool) (hash : String → List UInt8)
    (text : String) (reading : Reading) :
    FailsIn (Settled a) (describeReadingBy elementary hash text reading a.primaryName) := by
  unfold describeReadingBy
  split
  · exact .error (.inl rfl)
  · next first _ =>
    have hencode (r : Resolver) (name : String) :
        FailsIn (Settled a) (r.encodeTypeBy elementary name) :=
      (Resolver.failsIn_encodeTypeBy elementary r name).mono fun _ he => settled_of_ofText he
    refine ((Resolver.failsIn_ofDefinitions _).mono fun _ he => settled_of_ofText he).bind
      fun resolver _ => (failsIn_primaryName first.name).bind fun name _ => ?_
    exact (hencode resolver name).bind fun _ _ => (hencode resolver name).map.bind fun _ _ => .ok _

theorem failsIn_describeEncodeTypeBy (elementary : String → Bool) (hash : String → List UInt8)
    (text : String) :
    FailsIn (Settled a)
      ((describeEncodeTypeBy elementary hash text a.primaryName).1 >>= Document.indented) := by
  unfold describeEncodeTypeBy
  split
  · next failure hfailure =>
    obtain ⟨n, rfl, -⟩ := Reading.failsIn_read text.toList failure hfailure
    exact .error (.inr (.digits n))
  · next reading _ =>
    refine (failsIn_describeReadingBy elementary hash text reading).bind fun d hd => ?_
    obtain ⟨x, hx⟩ := exists_toJson_of_describeReadingBy hd
    rw [Document.indented, hx]
    exact .ok _

end CommandLine

end ContractInterface
