import ContractInterface.Proofs.Sequencing
import ContractInterface.Settings.Dotenv
import ContractInterface.Settings.Given

/-! How settings fail, and that those of the environment are settings given by name. -/
namespace ContractInterface
open Sequencing

namespace Settings

theorem failsIn_parseLevel (text : Utf16) : FailsIn (·.isValue = true) (parseLevel text) := by
  unfold parseLevel
  dsimp only
  split
  · split
    · exact .error rfl
    · split
      · exact .ok _
      · exact .error rfl
  · split
    · exact .ok _
    · exact .error rfl

theorem failsIn_ofEnvironment (env : Environment) :
    FailsIn (·.isValue = true) (ofEnvironment env) := by
  have hlevel : FailsIn (·.isValue = true) (levelOf env) := by
    unfold levelOf
    split
    · exact .ok _
    · exact failsIn_parseLevel _
  exact hlevel.bind fun _ _ => .ok _

/-- Settings fail as their loader does, or are no settings. -/
theorem failsIn_loadBy {loader : Loader} (h : loader.Documented) (environment : Environment)
    (files : FileTree) (path : Utf16) :
    FailsIn (fun e => e.isSystem = true ∨ e.isValue = true)
      (loadBy loader environment files path) := by
  have hvariables (env : Environment) :
      FailsIn (fun e => e.isSystem = true ∨ e.isValue = true) (ofEnvironment env) :=
    (failsIn_ofEnvironment env).mono fun _ he => .inr he
  unfold loadBy
  split
  · have hloader : FailsIn (fun e => e.isSystem = true ∨ e.isValue = true)
        (loader environment files path) := h.failure environment files path
    exact hloader.bind fun env _ => hvariables env
  · exact hvariables environment

namespace Given

@[simp] theorem readLevel_string (text : Utf16) :
    readLevel (.string text) = (parseLevel text).map .int := by rw [readLevel]

@[simp] theorem readLevel_int (level : Int) : readLevel (.int level) = .ok (.int level) := rfl

@[simp] theorem readSwitch_string (text : Utf16) :
    readSwitch (.string text) = .bool (parseSwitch text) := by rw [readSwitch]

@[simp] theorem readSwitch_bool (b : Bool) : readSwitch (.bool b) = .bool b := rfl

variable (env : Environment)

theorem lookup_fieldOf (name variableName key : String) :
    (fieldOf env name variableName).lookup (key : Utf16) =
      if key = name then (env.lookup variableName).map .string else none := by
  unfold fieldOf
  cases env.lookup variableName with
  | none => simp
  | some text =>
    by_cases h : key = name
    · simp [h]
    · have hkey : (key == name) = false := beq_false_of_ne h
      simp [List.lookup_cons, h, hkey]

theorem field?_fieldsOf (name variableName : String) (h : (name, variableName) ∈ fieldVariables) :
    Json.field? (fieldsOf env) name = (env.lookup variableName).map .string := by
  simp only [fieldVariables, List.mem_cons, Prod.mk.injEq, List.not_mem_nil, or_false] at h
  rcases h with ⟨rfl, rfl⟩ | ⟨rfl, rfl⟩ | ⟨rfl, rfl⟩ | ⟨rfl, rfl⟩ <;>
    simp [Json.field?, fieldsOf, fieldVariables, List.lookup_append, lookup_fieldOf]

theorem find?_unknown_fieldsOf :
    (fieldsOf env).find? (fun f => !isKnown f.1) = none := by
  rw [List.find?_eq_none]
  intro f hf
  obtain ⟨v, hv, hf⟩ := List.mem_flatMap.mp hf
  obtain ⟨text, -, rfl⟩ := Option.map_eq_some_iff.mp (Option.mem_toList.mp hf)
  have hknown : isKnown (v.1 : Utf16) = true := List.any_eq_true.mpr ⟨v, hv, beq_self_eq_true _⟩
  simp [hknown]

/-- The settings of the environment are given by name. -/
theorem ofFields_fieldsOf : ofFields (fieldsOf env) = (ofEnvironment env).map given := by
  have hlevel : readLevel (((env.lookup logLevelVariable).map Json.string).getD
      (given {}).logLevel) = (levelOf env).map .int := by
    rw [levelOf]
    cases env.lookup logLevelVariable <;> simp [given, Except.map]
  have hfile (file : Option Utf16) :
      (file.map Json.string).getD (given {}).logFile = .ofOption .string file := by
    cases file <;> simp [given, Json.ofOption]
  have hswitch (text : Option Utf16) :
      readSwitch ((text.map Json.string).getD (given {}).logToStdout) =
        .bool (text.elim true parseSwitch) := by
    cases text <;> simp [given]
  have hdirectory (directory : Option Utf16) :
      (directory.map Json.string).getD (given {}).abiDirectory =
        .string (directory.getD "./abis") := by
    cases directory <;> simp [given]
  rw [ofFields, find?_unknown_fieldsOf]
  dsimp only
  rw [field?_fieldsOf env "abi_dir" abiDirectoryVariable (by simp [fieldVariables]),
    field?_fieldsOf env "log_level" logLevelVariable (by simp [fieldVariables]),
    field?_fieldsOf env "log_filename" logFileVariable (by simp [fieldVariables]),
    field?_fieldsOf env "log_stdout" logToStdoutVariable (by simp [fieldVariables]),
    hlevel, hfile, hswitch, hdirectory, ofEnvironment]
  cases levelOf env <;> rfl

end Given

end Settings

namespace Dotenv

theorem failsIn_extend (environment : Environment) (text : String) :
    FailsIn (·.isValue = true) (extend environment text) := by
  refine .foldlM (fun env b _ => ?_) _
  dsimp only
  split
  · split_ifs
    · exact .error rfl
    · exact .error rfl
    · exact .ok _
  · exact .ok _

/-- A file of variables fails to be loaded as is known of loaders. -/
theorem documented_load : Settings.Loader.Documented load := by
  refine ⟨fun environment files path => ?_⟩
  unfold load
  split
  · exact FailsIn.ok _
  · refine FailsIn.bind (.mapError fun e _ => ?_) fun text _ =>
      (failsIn_extend environment text).mono fun _ he => .inr he
    cases h : e.fault.report? with
    | none => exact .inr (by simp [Failure.isValue, h])
    | some error => exact .inl (by simp [Failure.isSystem, h])

end Dotenv

end ContractInterface
