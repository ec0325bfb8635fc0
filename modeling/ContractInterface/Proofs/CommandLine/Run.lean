import ContractInterface.Proofs.CommandLine.Refusal
import ContractInterface.Proofs.Log.Lines
import ContractInterface.Proofs.Settings

/-! How runs end. A run goes through stages: what the arguments say of the file of settings, the
settings, the log file and the command. It prints the output of the command behind lines of the
log, or stops at some stage and prints such lines only. The system may refuse all that it is asked
for, and standard output may be interrupted anywhere. -/
namespace ContractInterface
open Sequencing

namespace Failure

theorem isSystem_of_isValue {e : Failure} (h : e.isValue = true) : e.isSystem = false := by
  cases e with
  | file error => simpa [isValue, isSystem] using h
  | system error => cases h
  | _ => rfl

end Failure

namespace CommandLine
open Log Log.State Operation

inductive Stage
  | arguments
  | settings
  | logFile
  | command

variable {lib : Libraries} {time : String} {outlet : Outlet} {a : Arguments}
  {s : Log.State}

/-- The logger that settings ask for, or why there is none. -/
def logger (settings : Settings) (files : FileTree) (outlet : Outlet) :
    Except Failure Unit × Log.State :=
  (setup settings.logFile settings.logToStdout false
    { level := some (.number settings.logLevel) }).run.run (initial files outlet)

/-- The output of the command, or the stage at which a run stops and why. -/
def attempt (lib : Libraries) (time : String) (environment : Environment)
    (files : FileTree) (outlet : Outlet) (a : Arguments) : Except (Stage × Failure) String :=
  match a.dotenvFile with
  | .dropped => .error (.arguments, .noFileName)
  | .text dotenvFile =>
    match Settings.loadBy lib.loader environment files dotenvFile with
    | .error e => .error (.settings, e)
    | .ok settings =>
      match logger settings files outlet with
      | (.error e, _) => .error (.logFile, e)
      | (.ok (), s) => ((output lib time settings a).run.run s).1.mapError (.command, ·)

/-- What a run neither reports nor takes for a mistake in the settings. -/
inductive Uncaught (a : Arguments) : Stage → Failure → Prop
  | arguments (h : a.dotenvFile = .dropped) : Uncaught a .arguments .noFileName
  | settings {e : Failure} (h : e.isSystem = true) : Uncaught a .settings e
  | logFile {e : Failure} (h : e.IsOfFile) : Uncaught a .logFile e
  | command {e : Failure} (h : Escapes a e) : Uncaught a .command e

/-- What a run with the given outcome leaves: an exit code, or a failure that is not caught, and
what it has printed. An output that is interrupted is not caught either. -/
inductive Ends (time : String) (outlet : Outlet) (a : Arguments) :
    Except (Stage × Failure) String → Except Failure Nat → String → Prop
  | output {log text : String} (hlog : Lines time outlet log)
      (hwhole : outlet log (text ++ "\n") = none) :
      Ends time outlet a (.ok text) (.ok 0) (log ++ (text ++ "\n"))
  | interrupted {log text : String} {i : Interruption} (hlog : Lines time outlet log)
      (hcut : outlet log (text ++ "\n") = some i) :
      Ends time outlet a (.ok text) (.error (.system i.error))
        (log ++ outlet.taken log (text ++ "\n"))
  | reported {log : String} {stage : Stage} {e : Failure} (hlog : Lines time outlet log)
      (h : ¬ Uncaught a stage e) : Ends time outlet a (.error (stage, e)) (.ok 1) log
  | uncaught {log : String} {stage : Stage} {e : Failure} (hlog : Lines time outlet log)
      (h : Uncaught a stage e) : Ends time outlet a (.error (stage, e)) (.error e) log

section
variable {α : Type} {f : Unit → Operation Log.State α} {P : Except Failure α → Log.State → Prop}

theorem meets_record_bind {r : Record} (hs : Ready time outlet s)
    (h : ∀ s', Ready time outlet s' → Meets (f ()) s' P) : Meets (record time r >>= f) s P :=
  h _ (hs.log r)

theorem meets_records_bind {change : Record → Record} {rs : List Record}
    (hs : Ready time outlet s) (h : ∀ s', Ready time outlet s' → Meets (f ()) s' P) :
    Meets ((rs.forM fun r => record time (change r)) >>= f) s P := by
  induction rs generalizing s with
  | nil => exact h s hs
  | cons r rs ih =>
    rw [List.forM_eq_forM, List.forM_cons, bind_assoc]
    exact meets_record_bind hs fun s' hs' => ih hs'

end

/-- A command logs on its way to its output and prints nothing. -/
theorem meets_output (lib : Libraries) (settings : Settings) (a : Arguments)
    (hs : Ready time outlet s) :
    Meets (output lib time settings a) s fun r s' =>
      Ready time outlet s' ∧ FailsIn (Settled a) r := by
  unfold output
  cases a.command with
  | abi =>
    refine meets_get_bind (meets_record_bind hs fun s hs => meets_get_bind ?_)
    refine meets_lift_then (fun loaded _ => ?_) fun e he => ⟨hs, .error (failsIn_load _ _ e he)⟩
    exact meets_record_bind hs fun s hs => meets_pure ⟨hs, .ok _⟩
  | error => exact meets_lift_bind ⟨hs, failsIn_describeErrorBy _ _⟩
  | typedData =>
    refine meets_records_bind hs fun s hs => ?_
    exact meets_lift_bind ⟨hs, failsIn_describeEncodeTypeBy _ _ _⟩

/-- What is taken of a text is written, and printing fails if that is not all of it. -/
theorem run_print (text : String) (s : Log.State) :
    (print text).run.run s =
      ((s.outlet s.stdout text).elim (.ok ()) fun i => .error (.system i.error), s.put text) := by
  rw [print, run_get_bind, run_set_bind]
  cases s.outlet s.stdout text <;> rfl

/-- The output is printed behind the log, as a whole or until that is interrupted. -/
theorem meets_print (text : String) (hs : Ready time outlet s) :
    Meets (print (text ++ "\n") >>= fun _ => pure 0) s fun r s' =>
      Ends time outlet a (.ok text) r s'.stdout := by
  obtain ⟨hlog, -, rfl⟩ := hs
  unfold Meets
  rw [run_bind, run_print]
  cases h : s.outlet s.stdout (text ++ "\n") with
  | none =>
    have hwhole : s.outlet.taken s.stdout (text ++ "\n") = text ++ "\n" := by
      rw [Outlet.taken, h]
    have hends : Ends time s.outlet a (.ok text) (.ok 0) (s.stdout ++ (text ++ "\n")) :=
      .output hlog h
    rw [← hwhole] at hends
    exact hends
  | some i => exact .interrupted hlog h

theorem meets_execute (settings : Settings) (a : Arguments) (hs : Ready time outlet s) :
    Meets (execute lib time settings a) s fun r s' =>
      Ends time outlet a (((output lib time settings a).run.run s).1.mapError (.command, ·)) r
        s'.stdout := by
  have houtput := meets_output lib settings a hs
  unfold Meets at houtput ⊢
  rw [execute, run_bind, run_tryCatch, map_eq_pure_bind, run_bind]
  cases h : (output lib time settings a).run.run s with
  | mk r s' =>
    rw [h] at houtput
    obtain ⟨hready, hfails⟩ := houtput
    cases r with
    | ok text => exact meets_print text hready
    | error e =>
      dsimp only
      rcases hfails e rfl with hreported | hescapes
      · rw [if_pos hreported]
        refine .reported (hready.log _).stdout fun h => ?_
        cases h with
        | command hescapes => cases hreported.symm.trans hescapes.isReported
      · rw [if_neg (by simp [hescapes.isReported])]
        exact .uncaught hready.stdout (.command hescapes)

/-- What comes behind the handlers that settings ask for starts with the logger that they have made,
unless there is no file to write to. -/
theorem meets_setup_then (time : String) {settings : Settings} {files : FileTree} {α : Type}
    {f : Unit → Operation Log.State α} {P : Except Failure α → Log.State → Prop}
    (hok : ∀ s, logger settings files outlet = (.ok (), s) → Ready time outlet s →
      Meets (f ()) s P)
    (herror : ∀ e s, logger settings files outlet = (.error e, s) → e.IsOfFile →
      Ready time outlet s → P (.error e) s) :
    Meets (setup settings.logFile settings.logToStdout false
      { level := some (.number settings.logLevel) } >>= f) (initial files outlet) P := by
  have hsetup : Meets (setup settings.logFile settings.logToStdout false
      { level := some (.number settings.logLevel) }) (initial files outlet) fun r s =>
      logger settings files outlet = (r, s) ∧ Attaches (initial files outlet) r s :=
    ⟨rfl, meets_setup rfl rfl _ _ _ _⟩
  refine hsetup.bind (fun _ s ⟨hlogger, hs⟩ => ?_) fun e s ⟨hlogger, hs⟩ => ?_
  · exact hok s hlogger (hs.ready (ready_initial files outlet))
  · exact herror e s hlogger (hs.failure e rfl) (hs.ready (ready_initial files outlet))

/-- The handler that the defaults ask for needs no file. -/
theorem run_setup_default (files : FileTree) (outlet : Outlet) :
    (setup none true false {}).run.run (initial files outlet) =
      (.ok (), ⟨info, [⟨.stdout, info, defaultFormat, some timeFormat, 0⟩], files, "", outlet⟩) :=
  rfl

theorem meets_perform (hloader : lib.loader.Documented) (time : String) (environment : Environment)
    (files : FileTree) (outlet : Outlet) (a : Arguments) :
    Meets (perform lib time environment a) (initial files outlet) fun r s' =>
      Ends time outlet a (attempt lib time environment files outlet a) r s'.stdout := by
  have hfiles : (initial files outlet).files = files := rfl
  unfold perform attempt
  cases hfile : a.dotenvFile with
  | dropped => exact .uncaught .nil (.arguments hfile)
  | text file =>
    refine meets_lift_then (fun dotenvFile hdotenv => meets_get_bind ?_) (fun _ h => by cases h)
    cases hdotenv
    rw [hfiles]
    dsimp only
    have hfails := Settings.failsIn_loadBy hloader environment files file
    cases hload : Settings.loadBy lib.loader environment files file with
    | error e =>
      dsimp only
      rcases hfails e hload with hsystem | hvalue
      · -- the system has refused, which is no mistake in the settings
        have hvalue : ¬ e.isValue = true := fun h => by
          cases hsystem.symm.trans (Failure.isSystem_of_isValue h)
        rw [if_neg hvalue]
        exact .uncaught .nil (.settings hsystem)
      · have hready : Ready time outlet
            ⟨info, [⟨.stdout, info, defaultFormat, some timeFormat, 0⟩], files, "", outlet⟩ :=
          ⟨.nil, by simp, rfl⟩
        rw [if_pos hvalue]
        unfold Meets
        rw [run_bind, run_setup_default]
        refine .reported (hready.log _).stdout fun h => ?_
        cases h with
        | settings hsystem => cases hsystem.symm.trans (Failure.isSystem_of_isValue hvalue)
    | ok settings =>
      dsimp only
      refine meets_setup_then time (fun s hlogger hs => ?_) fun e s hlogger he hs => ?_
      · rw [hlogger]
        exact meets_execute settings a hs
      · rw [hlogger]
        exact .uncaught hs.stdout (.logFile he)

/-- The error of the system, or of a file, that a run has ended with. -/
def Ending.refusal? (e : Ending) : Option (FileError ⊕ SystemError) :=
  match e.exitCode with
  | .error (.file error) => some (.inl error)
  | .error (.system error) => some (.inr error)
  | _ => none

theorem exists_ending_of_refusal? {x : Except Usage Ending} {error : FileError ⊕ SystemError}
    (h : x.toOption.bind Ending.refusal? = some error) :
    ∃ ending, x = .ok ending ∧ ending.exitCode = .error (error.elim .file .system) := by
  obtain ⟨ending, hx, hending⟩ := Option.bind_eq_some_iff.mp h
  refine ⟨ending, toOption_eq_some.mp hx, ?_⟩
  unfold Ending.refusal? at hending
  split at hending
  · next hcode =>
    cases hending
    exact hcode
  · next hcode =>
    cases hending
    exact hcode
  · cases hending

/-- A working directory with an empty file of settings that must not be read. -/
def locked : FileTree :=
  { FileTree.ofFiles "/work" [("abikit.env", "")] with
    refuses := fun _ access _ =>
      if access = .openToRead then some ⟨13, "Permission denied"⟩ else none }

/-- Standard output on a full device. -/
def fullDevice : Outlet := fun _ _ => some ⟨⟨28, "No space left on device"⟩, 0⟩

end CommandLine

end ContractInterface
