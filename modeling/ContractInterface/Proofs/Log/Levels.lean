import ContractInterface.Proofs.Log.Lines
import Mathlib.Tactic.Tauto

/-! The level of the logger and those of its handlers. A record that the logger does not pass
reaches no handler, whatever the handlers ask for. A set-up that comes to its end brings the level
of the logger down to that of the most verbose handler; a handler that is attached on its own, or in
a set-up that fails behind it, leaves the level of the logger as it is. -/
namespace ContractInterface.Log
open Operation

/-- A call on the logger. -/
inductive Call
  | addStdout (o : Options)
  | addFile (name : Utf16) (o : Options)
  | setup (file : Option Utf16) (toStdout keepHandlers : Bool) (o : Options)
  | close (deleteFiles : Bool)

namespace Call
open State

def operation : Call → Operation State Unit
  | addStdout o => discard (addStdoutHandler o)
  | addFile name o => discard (addFileHandler name o)
  | setup file toStdout keepHandlers o => State.setup file toStdout keepHandlers o
  | close deleteFiles => modify (State.close deleteFiles)

/-- The call does not fail. -/
def Completes (c : Call) (s : State) : Prop := (c.operation.run.run s).1 = .ok ()

instance (c : Call) (s : State) : Decidable (c.Completes s) :=
  match h : (c.operation.run.run s).1 with
  | .ok () => .isTrue h
  | .error _ => .isFalse fun hok => nomatch h.symm.trans hok

end Call

/-- The level is at most that of each of the handlers. -/
def AtMost (level : Level) (handlers : List Handler) : Prop := ∀ h ∈ handlers, level ≤ h.level

instance (level : Level) (handlers : List Handler) : Decidable (AtMost level handlers) :=
  inferInstanceAs (Decidable (∀ h ∈ handlers, level ≤ h.level))

/-- The options make a handler, and the level is the one that it has. -/
def Options.Makes (o : Options) (level : Level) : Prop :=
  o.levelOrInfo = .ok level ∧ Format.isValid o.formatText.toList = true

namespace State

/-- The state that a call leaves, be it that it fails. -/
def call (s : State) (c : Call) : State := (c.operation.run.run s).2

def calls (s : State) (cs : List Call) : State := cs.foldl call s

/-- The logger passes all that one of its handlers asks for. -/
def Tracks (s : State) : Prop := AtMost s.level s.handlers

instance (s : State) : Decidable s.Tracks := inferInstanceAs (Decidable (AtMost s.level s.handlers))

end State

namespace Call

/-- The call attaches a handler below the level of the logger and leaves the logger at its level. -/
def Lags (s : State) : Call → Prop
  | addStdout o => ∃ level, o.Makes level ∧ level < s.level
  | addFile name o => (addFile name o).Completes s ∧ ∃ level, o.Makes level ∧ level < s.level
  | setup file toStdout keepHandlers o => ¬ (setup file toStdout keepHandlers o).Completes s ∧
      toStdout = true ∧ ∃ level, o.Makes level ∧ level < s.level
  | close _ => False

/-- The call detaches the handlers there are, or brings the level of the logger down to theirs. -/
def Restores (s : State) : Call → Prop
  | setup file toStdout keepHandlers o =>
    keepHandlers = false ∨ (setup file toStdout keepHandlers o).Completes s
  | close _ => True
  | _ => False

end Call

/-- One of the calls to come restores what the calls before it have left. -/
def State.Restored : State → List Call → Prop
  | _, [] => False
  | s, c :: cs => c.Restores s ∨ Restored (s.call c) cs

theorem AtMost.append_iff {level : Level} {hs hs' : List Handler} :
    AtMost level (hs ++ hs') ↔ AtMost level hs ∧ AtMost level hs' := by
  simp [AtMost, or_imp, forall_and]

theorem AtMost.foldl_min (level : Level) (hs : List Handler) :
    hs.foldl (fun l h => min l h.level) level ≤ level ∧
      AtMost (hs.foldl (fun l h => min l h.level) level) hs := by
  induction hs generalizing level with
  | nil => simp [AtMost]
  | cons h hs ih =>
    obtain ⟨hle, hall⟩ := ih (min level h.level)
    refine ⟨Int.le_trans hle (Int.min_le_left ..), List.forall_mem_cons.mpr ⟨?_, hall⟩⟩
    exact Int.le_trans hle (Int.min_le_right ..)

namespace State

variable {s s' : State} {o : Options} {level : Level}

theorem atMost_of_leastLevel {hs : List Handler} (h : leastLevel hs o = .ok level) :
    AtMost level hs := by
  cases hs with
  | nil => simp [AtMost]
  | cons x hs =>
    cases h
    obtain ⟨hle, hall⟩ := AtMost.foldl_min x.level hs
    exact List.forall_mem_cons.mpr ⟨hle, hall⟩

/-- The logger is at the level at which it was, and the handlers are those that were attached and
one more if the options make one. -/
structure Attached (o : Options) (s s' : State) : Prop where
  level : s'.level = s.level
  atMost : ∀ l, AtMost l s'.handlers ↔ AtMost l s.handlers ∧ ∀ level, o.Makes level → l ≤ level

/-- The logger and its handlers are as they were. -/
structure Unmoved (s s' : State) : Prop where
  level : s'.level = s.level
  handlers : s'.handlers = s.handlers

theorem Unmoved.trans {s'' : State} (h : Unmoved s s') (h' : Unmoved s' s'') : Unmoved s s'' :=
  ⟨h'.level.trans h.level, h'.handlers.trans h.handlers⟩

theorem Unmoved.attached {s'' : State} (h : Unmoved s s') (h' : Attached o s' s'') :
    Attached o s s'' :=
  ⟨h'.level.trans h.level, fun l => by rw [h'.atMost, h.handlers]⟩

theorem attached_of_not_makes (h : ∀ level, ¬ o.Makes level) : Attached o s s :=
  ⟨rfl, fun _ => ⟨fun hs => ⟨hs, fun level hl => absurd hl (h level)⟩, fun hs => hs.1⟩⟩

theorem meets_attach_level (sink : Sink) (o : Options) (s : State) :
    Meets (attach sink o) s fun r s' => Attached o s s' ∧ ((∃ e, r = .error e) → Unmoved s s') := by
  unfold attach
  refine meets_lift_then (fun level hlevel => ?_) fun e he => ?_
  · split
    · next hformat =>
      -- the level is the only one that the options make
      have hmakes : ∀ l, (∀ made, o.Makes made → l ≤ made) ↔ l ≤ level := by
        intro l
        constructor
        · exact fun h => h level ⟨hlevel, hformat⟩
        · intro h made hmade
          cases hlevel.symm.trans hmade.1
          exact h
      refine ⟨⟨rfl, fun l => ?_⟩, by rintro ⟨e, he⟩; cases he⟩
      rw [hmakes]
      exact AtMost.append_iff.trans (and_congr_right fun _ => by simp [AtMost])
    · next hformat =>
      refine meets_throw ⟨attached_of_not_makes ?_, fun _ => ⟨rfl, rfl⟩⟩
      exact fun _ h => hformat h.2
  · refine ⟨attached_of_not_makes ?_, fun _ => ⟨rfl, rfl⟩⟩
    intro level h
    cases he.symm.trans h.1

theorem unmoved_findRoot (needed : Bool) (s : State) :
    Meets (findRoot needed) s fun _ s' => Unmoved s s' := by
  unfold findRoot
  refine meets_get_bind ?_
  dsimp only
  split
  · exact meets_throw ⟨rfl, rfl⟩
  · exact meets_pure ⟨rfl, rfl⟩

theorem unmoved_prepareLogPath (name : Utf16) (s : State) :
    Meets (prepareLogPath name) s fun _ s' => Unmoved s s' := by
  unfold prepareLogPath
  refine (unmoved_findRoot _ s).bind (fun _ s₁ h₁ => ?_) fun _ _ h => h
  refine meets_get_bind ?_
  dsimp only
  generalize s₁.files.makeDirectories _ = made
  obtain ⟨files, error⟩ := made
  have hmodify : Meets (modify fun s => { s with files }) s₁ fun _ s' => Unmoved s s' :=
    meets_modify _ ⟨h₁.level, h₁.handlers⟩
  refine hmodify.bind (fun _ s' h => ?_) fun _ _ h => h
  cases error with
  | none => exact meets_pure h
  | some e => exact meets_throw h

/-- A handler for a file is attached like any other, or fails and is not. -/
theorem meets_addFileHandler_level (name : Utf16) (o : Options) (s : State) :
    Meets (addFileHandler name o) s fun r s' =>
      (∀ h, r = .ok h → Attached o s s') ∧ ((∃ e, r = .error e) → Unmoved s s') := by
  unfold addFileHandler
  refine (unmoved_prepareLogPath name s).bind (fun path s₁ h₁ => ?_)
    fun _ _ h => ⟨by simp, fun _ => h⟩
  refine (unmoved_findRoot _ s₁).bind (fun _ s₂ h₂ => ?_)
    fun _ _ h => ⟨by simp, fun _ => h₁.trans h⟩
  refine meets_get_bind (meets_get_bind ?_)
  split
  · exact meets_throw ⟨by simp, fun _ => h₁.trans h₂⟩
  · next files _ =>
    have hmodify : Meets (modify fun s => { s with files }) s₂ fun _ s' => Unmoved s s' :=
      meets_modify _ (h₁.trans ⟨h₂.level, h₂.handlers⟩)
    refine hmodify.bind (fun _ s₃ h₃ => ?_) fun _ _ h => ⟨by simp, fun _ => h⟩
    refine (meets_attach_level _ o s₃).mono fun r s₄ h₄ => ?_
    exact ⟨fun _ _ => h₃.attached h₄.1, fun he => h₃.trans (h₄.2 he)⟩

theorem meets_discard_iff {α : Type} {x : Operation State α}
    {P : Except Failure Unit → State → Prop} :
    Meets (discard x) s P ↔ Meets x s fun r s' => P (r.map fun _ => ()) s' := by
  have hdiscard : discard x = x >>= fun _ => pure () := rfl
  unfold Meets
  rw [hdiscard, run_bind]
  cases x.run.run s with
  | mk r s' => cases r <;> rfl

/-- The logger is at the level at which it was, and the handlers are those that a set-up keeps and
one for standard output, if that is asked for and the options make one. -/
structure Opened (toStdout keepHandlers : Bool) (o : Options) (s s' : State) : Prop where
  level : s'.level = s.level
  atMost : ∀ l, AtMost l s'.handlers ↔ (keepHandlers = true → AtMost l s.handlers) ∧
    (toStdout = true → ∀ level, o.Makes level → l ≤ level)

theorem Opened.unmoved {toStdout keepHandlers : Bool} {s'' : State}
    (h : Opened toStdout keepHandlers o s s') (h' : Unmoved s' s'') :
    Opened toStdout keepHandlers o s s'' :=
  ⟨h'.level.trans h.level, fun l => by rw [h'.handlers, h.atMost]⟩

theorem meets_keep (keepHandlers : Bool) (o : Options) (s : State) :
    Meets (if !keepHandlers then modify removeHandlers else pure ()) s fun r s' =>
      r = .ok () ∧ Opened false keepHandlers o s s' := by
  cases keepHandlers with
  | true => exact meets_pure ⟨rfl, rfl, by simp⟩
  | false => exact meets_modify _ ⟨rfl, rfl, by simp [removeHandlers, AtMost]⟩

theorem meets_open {keepHandlers : Bool} (toStdout : Bool)
    (h : Opened false keepHandlers o s s') :
    Meets (if toStdout then discard (addStdoutHandler o) else pure ()) s' fun _ s'' =>
      Opened toStdout keepHandlers o s s'' := by
  cases toStdout with
  | false => exact meets_pure h
  | true =>
    refine meets_discard_iff.mpr ((meets_attach_level .stdout o s').mono fun _ s'' h' => ?_)
    refine ⟨h'.1.level.trans h.level, fun l => ?_⟩
    rw [h'.1.atMost, h.atMost]
    simp

/-- A log file that cannot be opened leaves all as it was; one that can leaves what was there. -/
theorem meets_openFile (file : Option Utf16) (o : Options) (s : State) :
    Meets (file.elim (pure ()) fun name => discard (addFileHandler name o)) s fun r s' =>
      (r = .ok () → s'.level = s.level ∧ ∀ l, AtMost l s'.handlers → AtMost l s.handlers) ∧
        (r ≠ .ok () → Unmoved s s') := by
  cases file with
  | none => exact meets_pure ⟨fun _ => ⟨rfl, fun _ h => h⟩, fun h => absurd rfl h⟩
  | some name =>
    refine meets_discard_iff.mpr ((meets_addFileHandler_level name o s).mono fun r s' h => ?_)
    cases r with
    | ok x =>
      have hx := h.1 x rfl
      exact ⟨fun _ => ⟨hx.level, fun l hl => ((hx.atMost l).mp hl).1⟩, fun hne => absurd rfl hne⟩
    | error e => exact ⟨nofun, fun _ => h.2 ⟨e, rfl⟩⟩

/-- A set-up comes to its end with the logger at the level of its most verbose handler, or fails
before a handler for a file is there. -/
theorem meets_setup_level (file : Option Utf16) (toStdout keepHandlers : Bool) (o : Options)
    (s : State) :
    Meets (setup file toStdout keepHandlers o) s fun r s' =>
      (r = .ok () → s'.Tracks) ∧ (r ≠ .ok () → Opened toStdout keepHandlers o s s') := by
  rw [setup_eq_steps]
  refine (meets_keep keepHandlers o s).bind (fun _ s₁ h₁ => ?_) fun e _ h₁ => by cases h₁.1
  refine (meets_open toStdout h₁.2).bind (fun _ s₂ h₂ => ?_)
    fun e _ h₂ => ⟨nofun, fun _ => h₂⟩
  refine (meets_openFile file o s₂).bind (fun _ s₃ h₃ => ?_)
    fun e _ h₃ => ⟨nofun, fun _ => h₂.unmoved (h₃.2 nofun)⟩
  obtain ⟨hlevel, hatMost⟩ := h₃.1 rfl
  refine meets_get_bind (meets_lift_then (fun level hleast => ?_) fun e hleast => ?_)
  · exact meets_modify _ ⟨fun _ => atMost_of_leastLevel hleast, fun hne => absurd rfl hne⟩
  · -- no level is found only if there are no handlers
    refine ⟨nofun, fun _ => ⟨hlevel.trans h₂.level, fun l => ?_⟩⟩
    have hnil : s₃.handlers = [] := by
      cases hhandlers : s₃.handlers with
      | nil => rfl
      | cons h hs => rw [hhandlers] at hleast; cases hleast
    have hl : AtMost l s₃.handlers := by simp [hnil, AtMost]
    exact iff_of_true hl ((h₂.atMost l).mp (hatMost l hl))

theorem not_exists_makes_lt_iff : (¬ ∃ level, o.Makes level ∧ level < s.level) ↔
    ∀ level, o.Makes level → s.level ≤ level := by
  simp

theorem Unmoved.tracks_iff (h : Unmoved s s') : s'.Tracks ↔ s.Tracks := by
  rw [Tracks, Tracks, h.level, h.handlers]

theorem Attached.tracks_iff (h : Attached o s s') :
    s'.Tracks ↔ s.Tracks ∧ ¬ ∃ level, o.Makes level ∧ level < s.level := by
  rw [Tracks, h.level, h.atMost, not_exists_makes_lt_iff, Tracks]

theorem Opened.tracks_iff {toStdout keepHandlers : Bool} (h : Opened toStdout keepHandlers o s s') :
    s'.Tracks ↔ (keepHandlers = true → s.Tracks) ∧
      ¬ (toStdout = true ∧ ∃ level, o.Makes level ∧ level < s.level) := by
  rw [Tracks, h.level, h.atMost, not_and, not_exists_makes_lt_iff, Tracks]

theorem attached_addStdout (o : Options) (s : State) : Attached o s (s.call (.addStdout o)) :=
  (meets_discard_iff.mpr ((meets_attach_level .stdout o s).mono fun _ _ h => h.1) :
    Meets (Call.addStdout o).operation s fun _ s' => Attached o s s')

theorem addFile_cases (name : Utf16) (o : Options) (s : State) :
    ((Call.addFile name o).Completes s → Attached o s (s.call (.addFile name o))) ∧
      (¬ (Call.addFile name o).Completes s → Unmoved s (s.call (.addFile name o))) := by
  have h : Meets (Call.addFile name o).operation s fun r s' =>
      (r = .ok () → Attached o s s') ∧ (r ≠ .ok () → Unmoved s s') := by
    refine meets_discard_iff.mpr ((meets_addFileHandler_level name o s).mono fun r s' h => ?_)
    cases r with
    | ok x => exact ⟨fun _ => h.1 x rfl, fun hne => absurd rfl hne⟩
    | error e => exact ⟨nofun, fun _ => h.2 ⟨e, rfl⟩⟩
  exact h

/-- After a call the logger tracks its handlers if it did before, or the call restores that, and the
call attaches no handler below its level. -/
theorem tracks_call_iff (s : State) (c : Call) :
    (s.call c).Tracks ↔ (s.Tracks ∨ c.Restores s) ∧ ¬ c.Lags s := by
  cases c with
  | addStdout o =>
    rw [(attached_addStdout o s).tracks_iff]
    simp [Call.Restores, Call.Lags]
  | addFile name o =>
    obtain ⟨hok, herror⟩ := addFile_cases name o s
    by_cases hc : (Call.addFile name o).Completes s
    · rw [(hok hc).tracks_iff]
      simp [Call.Restores, Call.Lags, hc]
    · rw [(herror hc).tracks_iff]
      simp [Call.Restores, Call.Lags, hc]
  | setup file toStdout keepHandlers o =>
    obtain ⟨hok, herror⟩ := meets_setup_level file toStdout keepHandlers o s
    by_cases hc : (Call.setup file toStdout keepHandlers o).Completes s
    · have htracks : (s.call (.setup file toStdout keepHandlers o)).Tracks := hok hc
      simp [Call.Restores, Call.Lags, hc, htracks]
    · have h : Opened toStdout keepHandlers o s (s.call (.setup file toStdout keepHandlers o)) :=
        herror hc
      rw [h.tracks_iff]
      cases keepHandlers <;> simp [Call.Restores, Call.Lags, hc]
  | close deleteFiles =>
    have htracks : (s.call (.close deleteFiles)).Tracks := fun x hx => by cases hx
    simp [Call.Restores, Call.Lags, htracks]

theorem forall_calls_cons {P : List Call → Call → List Call → Prop} {c : Call} {cs : List Call} :
    (∀ past c' later, c :: cs = past ++ c' :: later → P past c' later) ↔
      P [] c cs ∧ ∀ past c' later, cs = past ++ c' :: later → P (c :: past) c' later := by
  constructor
  · intro h
    exact ⟨h [] c cs rfl, fun past c' later heq => h (c :: past) c' later (by rw [heq]; rfl)⟩
  · rintro ⟨hfirst, hlater⟩ past c' later heq
    cases past with
    | nil =>
      cases heq
      exact hfirst
    | cons x past =>
      cases heq
      exact hlater past c' later rfl

/-- After any calls the logger tracks its handlers exactly if it did at the start, or that was
restored, and behind every call that attached a handler below its level there is one that restored
it. -/
theorem tracks_calls_iff (s : State) (cs : List Call) :
    (s.calls cs).Tracks ↔ (s.Tracks ∨ s.Restored cs) ∧ ∀ past c later, cs = past ++ c :: later →
      c.Lags (s.calls past) → (s.calls (past ++ [c])).Restored later := by
  induction cs generalizing s with
  | nil => simp [calls, Restored]
  | cons c cs ih =>
    have hcalls (past : List Call) : s.calls (c :: past) = (s.call c).calls past := rfl
    rw [hcalls, ih, tracks_call_iff, forall_calls_cons, Restored]
    simp only [List.nil_append, List.cons_append, hcalls]
    have hstart : s.calls [] = s := rfl
    have hnext : (s.call c).calls [] = s.call c := rfl
    rw [hstart, hnext]
    tauto

/-- Handlers that ask for none of a record have their turn and write nothing. -/
theorem foldl_emit_of_lt {time : String} {r : Record} {hs : List Handler}
    (h : ∀ x ∈ hs, r.level < x.level) (s : State) :
    hs.foldl (emit time r) s = { s with handlers := s.handlers ++ hs } := by
  induction hs generalizing s with
  | nil => simp
  | cons x hs ih =>
    obtain ⟨hx, hhs⟩ := List.forall_mem_cons.mp h
    rw [List.foldl_cons, ih hhs, emit, if_pos hx]
    simp

/-- A logger that tracks its handlers filters nothing: a record comes to all handlers, each of which
decides by its own level. -/
theorem log_of_tracks (h : s.Tracks) (hne : s.handlers ≠ []) (time : String) {r : Record}
    (hr : 0 < r.level) :
    s.log time r = s.handlers.foldl (emit time r) { s with handlers := [] } := by
  have hempty : s.handlers.isEmpty = false := by simpa using hne
  have hpositive : ¬ r.level ≤ 0 := Int.not_le.mpr hr
  unfold log
  rw [hempty]
  by_cases hlevel : r.level < s.level
  · -- what the logger does not pass, none of the handlers asks for
    rw [foldl_emit_of_lt fun x hx => Int.lt_of_lt_of_le hlevel (h x hx)]
    simp [hlevel]
  · simp [hlevel, hpositive]

/-- Whatever calls were made, those that failed among them, the logger is at most at the level of
each of its handlers exactly if behind every call that attached a handler below it, on its own or in
a set-up that failed, there is a set-up that came to its end, or a call that detached the handlers.
A set-up that comes to its end always leaves it so. Then no record that a handler asks for is
filtered out in front of it; records of a level of zero or less are not written at all. -/
theorem tracks_after_calls (files : FileTree) (outlet : Outlet) (cs : List Call) :
    (((initial files outlet).calls cs).Tracks ↔ ∀ past c later, cs = past ++ c :: later →
      c.Lags ((initial files outlet).calls past) →
        ((initial files outlet).calls (past ++ [c])).Restored later) ∧
    (∀ file toStdout keepHandlers o,
      (Call.setup file toStdout keepHandlers o).Completes ((initial files outlet).calls cs) →
        ((initial files outlet).calls (cs ++ [.setup file toStdout keepHandlers o])).Tracks) ∧
    (((initial files outlet).calls cs).Tracks →
      ((initial files outlet).calls cs).handlers ≠ [] →
        ∀ time r, 0 < r.level → ((initial files outlet).calls cs).log time r =
          ((initial files outlet).calls cs).handlers.foldl (emit time r)
            { (initial files outlet).calls cs with handlers := [] }) := by
  refine ⟨?_, ?_, fun h hne time r => log_of_tracks h hne time⟩
  · have hstart : (initial files outlet).Tracks := fun x hx => by cases hx
    simpa [hstart] using tracks_calls_iff (initial files outlet) cs
  · intro file toStdout keepHandlers o hc
    rw [calls, List.foldl_append]
    exact (meets_setup_level file toStdout keepHandlers o _).1 hc

/-- A handler for debugging is attached, and a set-up that keeps it lets through what it wants. -/
theorem tracks_after_calls_debug :
    let o : Options := { format := some "%(message)s", level := some (.number debug) }
    let s := (initial (.empty "/") .unlimited).calls [.addStdout o, .setup none false true {}]
    s.Tracks ∧ (s.log "" ⟨debug, "", "", "seen"⟩).stdout = "seen\n" := by
  intro o s
  obtain ⟨-, -, hlog⟩ :=
    tracks_after_calls (.empty "/") .unlimited [.addStdout o, .setup none false true {}]
  have htracks : s.Tracks :=
    (tracks_after_calls (.empty "/") .unlimited [.addStdout o]).2.1 none false true {}
      (by decide +kernel)
  refine ⟨htracks, ?_⟩
  rw [hlog htracks (by decide +kernel) "" _ (by decide)]
  decide +kernel

/-- A handler for debugging is attached to the logger as it is at the start, which goes on to pass
no less than warnings: what the handler asks for is not written. -/
theorem not_tracks_of_addStdout :
    let o : Options := { format := some "%(message)s", level := some (.number debug) }
    let s := (initial (.empty "/") .unlimited).calls [.addStdout o]
    ¬ s.Tracks ∧ s.handlers.map Handler.level = [debug] ∧
      (s.log "" ⟨debug, "", "", "lost"⟩).stdout = "" := by
  decide +kernel

end State

end ContractInterface.Log
