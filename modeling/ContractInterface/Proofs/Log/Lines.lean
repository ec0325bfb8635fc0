import ContractInterface.Log.Handler
import ContractInterface.Proofs.Operation

/-! What logging writes to standard output: lines, each of which shows a record in the format of the
handler as far as standard output takes it. -/
namespace ContractInterface

/-- What the system or the path of a file makes an operation fail with. -/
inductive Failure.IsOfFile : Failure → Prop
  | file (e : FileError) : IsOfFile (.file e)
  | system (error : SystemError) : IsOfFile (.system error)

namespace Log

/-- Text that is made of what is taken of lines that show records. -/
inductive Lines (time : String) (outlet : Outlet) : String → Prop
  | nil : Lines time outlet ""
  | line {text line : String} {r : Record} (before : Lines time outlet text)
      (shown : line? defaultFormat time r = some line) :
      Lines time outlet (text ++ outlet.taken text (line ++ "\n"))

namespace State

/-- What holds whenever something is logged: standard output has nothing but lines of records, and
the handlers that write to it use the format of such lines. -/
structure Ready (time : String) (outlet : Outlet) (s : State) : Prop where
  stdout : Lines time outlet s.stdout
  format : ∀ h ∈ s.handlers, h.sink = .stdout → h.format = defaultFormat
  outlet : s.outlet = outlet

variable {time : String} {outlet : Outlet} {s : State}

theorem ready_initial (files : FileTree) (outlet : Outlet) :
    Ready time outlet (initial files outlet) := ⟨.nil, by simp [initial], rfl⟩

theorem Ready.concat {h : Handler} (hs : Ready time outlet s)
    (hformat : h.sink = .stdout → h.format = defaultFormat) :
    Ready time outlet { s with handlers := s.handlers ++ [h] } := by
  refine ⟨hs.stdout, fun h' hh' => ?_, hs.outlet⟩
  rcases List.mem_append.mp hh' with hh' | hh'
  · exact hs.format h' hh'
  · obtain rfl := List.mem_singleton.mp hh'
    exact hformat

theorem Ready.write {h : Handler} {line : String} {r : Record} (hs : Ready time outlet s)
    (hformat : h.sink = .stdout → h.format = defaultFormat)
    (hline : line? h.format time r = some line) : Ready time outlet (write h (line ++ "\n") s) := by
  obtain ⟨hstdout, hall, rfl⟩ := hs
  unfold State.write
  split
  · next hsink => exact ⟨hstdout.line (hformat hsink ▸ hline), hall, rfl⟩
  · exact ⟨hstdout, hall, rfl⟩
  · split <;> exact ⟨hstdout, hall, rfl⟩

theorem Ready.emit {h : Handler} {r : Record} (hs : Ready time outlet s)
    (hformat : h.sink = .stdout → h.format = defaultFormat) :
    Ready time outlet (emit time r s h) := by
  unfold State.emit
  split
  · exact hs.concat hformat
  · next line hline =>
    have hshown : line? h.format time r = some line := by
      split at hline
      · cases hline
      · exact hline
    have hwritten := hs.write hformat hshown
    -- the handler goes to the end of the list as it is, but for the count of what it has written
    have hconcat := hs.concat (h := { h with written := h.written + (line ++ "\n").utf8ByteSize })
      hformat
    exact ⟨hwritten.stdout, hconcat.format, hwritten.outlet⟩

theorem Ready.emitAll {handlers : List Handler} {r : Record} (hs : Ready time outlet s)
    (hformat : ∀ h ∈ handlers, h.sink = .stdout → h.format = defaultFormat) :
    Ready time outlet (handlers.foldl (State.emit time r) s) := by
  induction handlers generalizing s with
  | nil => exact hs
  | cons h handlers ih =>
    exact ih (hs.emit (hformat h (by simp))) fun h' hh' => hformat h' (by simp [hh'])

/-- Logging a record writes lines of records only. -/
theorem Ready.log (hs : Ready time outlet s) (r : Record) : Ready time outlet (s.log time r) := by
  have hstart : Ready time outlet (if s.handlers.isEmpty then
      { s with handlers := [⟨.stderr, 0, plainFormat, none, 0⟩] } else s) := by
    split
    · exact ⟨hs.stdout, by simp, hs.outlet⟩
    · exact hs
  unfold State.log
  generalize (if s.handlers.isEmpty then _ else s) = start at hstart
  dsimp only
  split
  · exact hstart
  · refine Ready.emitAll ⟨hstart.stdout, ?_, hstart.outlet⟩ hstart.format
    intro h hh
    cases hh

open Operation

/-- What an operation on handlers leaves: standard output as it was, and handlers that were there or
have the format of lines. It fails for what the system refuses and for a path that is none. -/
structure Attaches (s : State) {α : Type} (r : Except Failure α) (s' : State) : Prop where
  outlet : s'.outlet = s.outlet
  stdout : s'.stdout = s.stdout
  handlers : ∀ h ∈ s'.handlers, h ∈ s.handlers ∨ h.format = defaultFormat
  failure : ∀ e, r = .error e → e.IsOfFile

theorem Attaches.kept {α : Type} {s s' : State} (a : α) (houtlet : s'.outlet = s.outlet)
    (hstdout : s'.stdout = s.stdout) (hhandlers : s'.handlers = s.handlers) :
    Attaches s (.ok a) s' :=
  ⟨houtlet, hstdout, fun _ hh => .inl (hhandlers ▸ hh), by simp⟩

theorem Attaches.refused {α : Type} {e : Failure} (h : e.IsOfFile) (s : State) :
    Attaches s (.error e : Except Failure α) s :=
  ⟨rfl, rfl, fun _ hh => .inl hh, fun _ he => Except.error.inj he ▸ h⟩

theorem Attaches.trans {α β : Type} {s s' s'' : State} {r : Except Failure α}
    {r' : Except Failure β} (h : Attaches s r s') (h' : Attaches s' r' s'') :
    Attaches s r' s'' := by
  refine ⟨h'.outlet.trans h.outlet, h'.stdout.trans h.stdout, fun x hx => ?_, h'.failure⟩
  rcases h'.handlers x hx with hx | hx
  · exact h.handlers x hx
  · exact .inr hx

theorem Attaches.bind {α β : Type} {s : State} {x : Operation State α} {f : α → Operation State β}
    (hx : Meets x s (Attaches s)) (hf : ∀ a s', Meets (f a) s' (Attaches s')) :
    Meets (x >>= f) s (Attaches s) :=
  hx.bind (fun a s' h => (hf a s').mono fun _ _ h' => h.trans h')
    fun _ _ h => ⟨h.outlet, h.stdout, h.handlers, fun e he => h.failure e (by cases he; rfl)⟩

theorem Attaches.ready {α : Type} {r : Except Failure α} {s' : State} (h : Attaches s r s')
    (hs : Ready time outlet s) : Ready time outlet s' := by
  refine ⟨h.stdout ▸ hs.stdout, fun x hx hsink => ?_, h.outlet.trans hs.outlet⟩
  rcases h.handlers x hx with hx | hx
  · exact hs.format x hx hsink
  · exact hx

theorem meets_discard {α : Type} {x : Operation State α} (h : Meets x s (Attaches s)) :
    Meets (discard x) s (Attaches s) := by
  have hdiscard : discard x = x >>= fun _ => pure () := rfl
  rw [hdiscard]
  exact Attaches.bind h fun _ _ => meets_pure (.kept _ rfl rfl rfl)

/-- An operation that may be left out. -/
theorem meets_when {c : Bool} {x : Operation State Unit} (h : Meets x s (Attaches s)) :
    Meets (if c then x else pure ()) s (Attaches s) := by
  cases c with
  | true => exact h
  | false => exact meets_pure (.kept () rfl rfl rfl)

theorem meets_findRoot (needed : Bool) (s : State) : Meets (findRoot needed) s (Attaches s) := by
  unfold findRoot
  refine meets_get_bind ?_
  dsimp only
  split
  · next error _ => exact meets_throw (.refused (.system error) s)
  · exact meets_pure (.kept () rfl rfl rfl)

theorem meets_prepareLogPath (name : Utf16) (s : State) :
    Meets (prepareLogPath name) s (Attaches s) := by
  unfold prepareLogPath
  refine Attaches.bind (meets_findRoot _ s) fun _ s => ?_
  refine meets_get_bind ?_
  dsimp only
  generalize s.files.makeDirectories _ = made
  obtain ⟨files, error⟩ := made
  dsimp only
  refine Attaches.bind (meets_modify _ (.kept () rfl rfl rfl)) fun _ s => ?_
  cases error with
  | none => exact meets_pure (.kept _ rfl rfl rfl)
  | some e => exact meets_throw (.refused (.file e) _)

/-- The steps of a set-up one after the other, where those that may be left out then do nothing. -/
theorem setup_eq_steps (file : Option Utf16) (toStdout keepHandlers : Bool) (o : Options) :
    setup file toStdout keepHandlers o =
      (if !keepHandlers then modify removeHandlers else pure ()) >>= fun _ =>
      (if toStdout then discard (addStdoutHandler o) else pure ()) >>= fun _ =>
      file.elim (pure ()) (fun name => discard (addFileHandler name o)) >>= fun _ =>
      get >>= fun before => liftM (leastLevel before.handlers o) >>= fun level =>
      modify fun s => { s with level } := by
  cases keepHandlers <;> cases toStdout <;> cases file <;> rfl

theorem isValid_defaultFormat : Format.isValid defaultFormat.toList = true := by decide +kernel

theorem exists_leastLevel {o : Options} {level : Level} (hlevel : o.levelOrInfo = .ok level)
    (handlers : List Handler) : ∃ l, leastLevel handlers o = .ok l := by
  cases handlers with
  | nil => exact ⟨level, hlevel⟩
  | cons h handlers => exact ⟨_, rfl⟩

section
variable {o : Options} {level : Level} (hformat : o.format = none)
  (hlevel : o.levelOrInfo = .ok level)
include hformat hlevel

theorem meets_attach (sink : Sink) (s : State) : Meets (attach sink o) s (Attaches s) := by
  have htext : o.formatText = defaultFormat := by rw [Options.formatText, hformat]
  unfold attach
  rw [hlevel, htext, isValid_defaultFormat]
  refine ⟨rfl, rfl, fun h hh => ?_, fun e he => by cases he⟩
  rcases List.mem_append.mp hh with hh | hh
  · exact .inl hh
  · obtain rfl := List.mem_singleton.mp hh
    exact .inr rfl

theorem meets_addFileHandler (name : Utf16) (s : State) :
    Meets (addFileHandler name o) s (Attaches s) := by
  unfold addFileHandler
  refine Attaches.bind (meets_prepareLogPath name s) fun path s => ?_
  refine Attaches.bind (meets_findRoot _ s) fun _ s => ?_
  refine meets_get_bind (meets_get_bind ?_)
  split
  · next e _ => exact meets_throw (.refused (.file e) _)
  · refine Attaches.bind (meets_modify _ (.kept () rfl rfl rfl)) fun _ s => ?_
    exact meets_attach hformat hlevel _ s

/-- Setting up handlers writes nothing to standard output, and fails only if there is no file to
write to. -/
theorem meets_setup (file : Option Utf16) (toStdout keepHandlers : Bool) (s : State) :
    Meets (setup file toStdout keepHandlers o) s (Attaches s) := by
  rw [setup_eq_steps]
  refine Attaches.bind ?_ fun _ s => Attaches.bind ?_ fun _ s => Attaches.bind ?_ fun _ s => ?_
  · exact meets_when (meets_modify _ ⟨rfl, rfl, by simp [removeHandlers], by simp⟩)
  · exact meets_when (meets_discard (meets_attach hformat hlevel _ s))
  · cases file with
    | some name => exact meets_discard (meets_addFileHandler hformat hlevel name s)
    | none => exact meets_pure (.kept _ rfl rfl rfl)
  · refine meets_get_bind ?_
    obtain ⟨l, hl⟩ := exists_leastLevel hlevel s.handlers
    rw [hl]
    exact meets_modify _ (.kept () rfl rfl rfl)

end

end State

end Log

end ContractInterface
