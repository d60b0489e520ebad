import Beachhead.Companion
import Beachhead.Journal

/-!
# What the companion writes to the log

The program with its log statements, each of them one line with the arguments of the
statement. The lines do not change what the program does.
-/
namespace Beachhead

/-- `log::LogLevel` as far as the companion uses it. -/
inductive LogLevel where
  | error | warn | info | debug
  deriving DecidableEq

namespace LogLevel

def verbosity : LogLevel → ℕ
  | .error => 1
  | .warn => 2
  | .info => 3
  | .debug => 4

/-- A filter lets a line pass that is at least as severe. -/
def passes (level filter : LogLevel) : Bool := level.verbosity ≤ filter.verbosity

end LogLevel

/-- The log statements of the companion and of `main`. -/
inductive LogLine where
  | initialized
  | startIteration
  | enumerating
  | enumerationFailed (e : InspectionError)
  | enumerated (names : List (Pending Text))
  | inspecting (name : Text)
  | notInspected (level : LogLevel) (name : Text) (e : CompanionError)
  | envVarNotFound (level : LogLevel) (envvar name : Text)
  | wouldUpdate (name : Text) (publication : Publication)
  | updating (name : Text) (publication : Publication)
  | notPublished (name : Text) (e : CompanionError)
  | notifying (status : Text) (now : ℤ)
  | statusNotUpdated (e : CompanionError)
  | watchdogDeadlines (timeout ping : ℤ)
  | deadlinePassed (desc : Text)
  | deadlineComesUp (desc : Text) (milliseconds : ℤ)
  | deadlineDisabled (desc : Text)
  | received (sig : Option Signal)
  | wakingUp
  | refreshDisabled
  | stoppingNotUpdated (e : CompanionError)
  | watchdogNotRead (e : IoError)

def LogLine.level : LogLine → LogLevel
  | .notInspected level _ _ | .envVarNotFound level _ _ => level
  | .notPublished _ _ | .watchdogNotRead _ => .error
  | .statusNotUpdated _ | .stoppingNotUpdated _ => .warn
  | .initialized | .wouldUpdate _ _ | .updating _ _ => .info
  | _ => .debug

/-- The error that the line is about. -/
def LogLine.error? : LogLine → Option CompanionError
  | .enumerationFailed e => some (.inspection e)
  | .notInspected _ _ e | .notPublished _ e | .statusNotUpdated e | .stoppingNotUpdated e => some e
  | .envVarNotFound _ envvar name => some (.envVarMissing name envvar)
  | _ => none

/-- The container and its publication that the line announces. -/
def LogLine.update? : LogLine → Option (Text × Publication)
  | .wouldUpdate name publication | .updating name publication => some (name, publication)
  | _ => none

abbrev LoggedM (ω : Type) := EStateM Stop (Context ω × List LogLine)

namespace Companion.Logged
open Program

variable {ω α : Type} (config : Config) (env : Environment ω)

def span (event : Event) (x : LoggedM ω α) : LoggedM ω α := do
  let before := (← get).1.world
  let a ← x
  silent (modify fun ctx => ctx.note ⟨event, before, ctx.world⟩)
  return a

/-- Notify the service manager; a failure is only written to the log. -/
def notifyOrWarn (line : CompanionError → LogLine) (entries : List (Text × Text)) :
    LoggedM ω Unit := do
  match ← silent (notify env entries) with
  | .error e => log (line e)
  | .ok () => pure ()

/-- The arguments are only evaluated if the line is shown. -/
def debugDeadlines (now : ℤ) (dog : UInt64) : LoggedM ω Unit := do
  if env.debugEnabled then
    let timeout ← silent (addDuration now (Duration.microseconds (min dog.toNat (2 ^ 63 - 1))))
    let ping ← silent (addDuration now (watchdogTimeout dog))
    log (.watchdogDeadlines timeout ping)

def notifyStatus (status : Text) : LoggedM ω Unit := do
  if config.systemd then
    let now ← silent (now env)
    log (.notifying status now)
    notifyOrWarn env .statusNotUpdated (aliveEntries status)
    match config.watchdogMicroseconds with
    | some dog =>
      debugDeadlines env now dog
      silent (setNextWatchdog (← silent (addDuration now (watchdogTimeout dog))))
    | none => pure ()

def deadlineToAlarmClock (now : ℤ) (deadline : Option ℤ) (desc : Text) :
    LoggedM ω (Receiver ω) :=
  match deadline with
  | some deadline =>
    if now > deadline then do
      log (.deadlinePassed desc)
      return .closed
    else do
      log (.deadlineComesUp desc ((deadline - now) / 1000000))
      let remaining ← silent (toStd (deadline - now))
      silent (call (fun w => (.after w remaining, w)) fun _ => .after desc remaining)
  | none => do
    log (.deadlineDisabled desc)
    return .kept

def addEnumerated (index : AList fun _ : Text => Pending Text) :
    LoggedM ω ((AList fun _ : Text => Pending Text) × Except InspectionError Unit) := do
  if config.enumerate then
    log .enumerating
    match ← silent (call (env.inspector.enumerate · []) fun r => .enumerate r.2 r.1) with
    | (.error e, _) =>
      log (.enumerationFailed e)
      return (index, .error e)
    | (.ok (), enumeration) => return (enumeration.foldl orInsertEnumerated index, .ok ())
  else return (index, .ok ())

def enumerate (explicitContainerNames : List Text) :
    LoggedM ω (List (Pending Text) × Except CompanionError Unit) := do
  let r ← addEnumerated config env (explicitContainerNames.foldl insertExplicit ∅)
  let finalNames ← silent (drain env r.1)
  return (finalNames, r.2.mapError .inspection)

/-- The level at which a failed inspection is logged. -/
def inspectionLevel (wasExplicit : Bool) : LogLevel :=
  if config.missingContainer = .report then .error else if wasExplicit then .warn else .info

/-- The level at which a missing variable is logged. -/
def envVarLevel (wasExplicit : Bool) : LogLevel :=
  match wasExplicit, config.missingEnvvar with
  | true, .automatic | _, .report => .error
  | _, _ => .info

def refreshContainer (errors : List CompanionError) (name : Pending Text) :
    LoggedM ω (List CompanionError) := do
  log (.inspecting name.todo)
  match ← silent (inspect env name) with
  | .error e =>
    log (.notInspected (inspectionLevel config name.explicit) name.todo e)
    return if considerError config name.explicit then errors ++ [e] else errors
  | .ok inspection =>
    if !inspection.todo.envvarPresent then
      log (.envVarNotFound (envVarLevel config name.explicit) config.envvar name.todo)
      return if envVarError config name.explicit then
        errors ++ [.envVarMissing name.todo config.envvar] else errors
    else if config.dryRun then
      log (.wouldUpdate name.todo (toPublication inspection))
      return errors
    else
      log (.updating name.todo (toPublication inspection))
      match ← silent (publish env (toPublication inspection)) with
      | .error e =>
        log (.notPublished name.todo e)
        return errors ++ [e]
      | .ok () => return errors

def refresh (explicitContainerNames : List Text) : LoggedM ω (List CompanionError) := do
  let r ← enumerate config env explicitContainerNames
  let errors := match r.2 with
    | .error e => [e]
    | .ok () => []
  log (.enumerated r.1)
  r.1.foldlM (refreshContainer config env) errors

def waitPass (refreshTimeout : Receiver ω) : LoggedM ω (Option Bool) := do
  silent (mark .waitPass)
  match ← silent (call env.poll .poll) with
  | some sig =>
    log (.received sig)
    return some false
  | none =>
    let now ← silent (now env)
    let watchdogTimeout ←
      deadlineToAlarmClock now (← get).1.nextWatchdog "watchdog".toList
    match ← silent (call (env.select · refreshTimeout watchdogTimeout) .woke) with
    | .signal sig =>
      log (.received sig)
      return some false
    | .refresh => return some true
    | .watchdog =>
      log .wakingUp
      notifyStatus config env "Waiting".toList
      return none

def wait (passes : ℕ) : LoggedM ω Bool := do
  silent (mark .wait)
  match config.refreshSeconds with
  | some refreshSeconds =>
    let startOfWait ← silent (now env)
    let nextRefresh ← silent (addDuration startOfWait (Duration.seconds refreshSeconds.toNat))
    let refreshTimeout ← deadlineToAlarmClock startOfWait (some nextRefresh) "refresh".toList
    loop .unfinished (waitPass config env refreshTimeout) passes
  | none =>
    log .refreshDisabled
    return false

def notifyStopping : LoggedM ω Unit := do
  if config.systemd then notifyOrWarn env .stoppingNotUpdated shutdownEntries

def endIteration (errors : List CompanionError) (passes : ℕ) :
    LoggedM ω (Option (Except (List CompanionError) Unit)) := do
  notifyStatus config env "Waiting".toList
  if ← wait config env passes then return none
  else
    notifyStopping config env
    if errors.isEmpty || config.refreshSeconds.isSome then return some (.ok ())
    else return some (.error errors)

def iteration (explicitContainerNames : List Text) (passes : ℕ) :
    LoggedM ω (Option (Except (List CompanionError) Unit)) := do
  silent (mark .iteration)
  log .startIteration
  notifyStatus config env "Refreshing".toList
  let errors ← span .work (refresh config env explicitContainerNames)
  endIteration config env errors passes

def iterate (explicitContainerNames : List Text) (iterations passes : ℕ) :
    LoggedM ω (Except (List CompanionError) Unit) :=
  loop .unfinished (iteration config env explicitContainerNames passes) iterations

def run (explicitContainerNames : List Text) (iterations passes : ℕ) :
    LoggedM ω (Except (List CompanionError) Unit) := do
  silent (new config env)
  log .initialized
  if config.systemd then
    match ← silent (notify env readyEntries) with
    | .error e => return .error [e]
    | .ok () => iterate config env explicitContainerNames iterations passes
  else iterate config env explicitContainerNames iterations passes

variable {config : Config} {env : Environment ω}

theorem notifyOrWarn_erases (line : CompanionError → LogLine) (entries : List (Text × Text))
    {β : Type} {f : Unit → LoggedM ω β} {g : Except CompanionError Unit → CompanionM ω β}
    (h : ∀ r, Simulates Erases Eq (f ()) (g r)) :
    Simulates Erases Eq (notifyOrWarn env line entries >>= f) (notify env entries >>= g) := by
  rw [notifyOrWarn, bind_assoc]
  refine (Simulates.silent _).bind ?_
  rintro r _ rfl
  cases r with
  | error e => exact Simulates.log (h _)
  | ok u => exact h _

theorem debugDeadlines_erases (t : ℤ) (dog : UInt64) : Simulates Erases Eq
    (debugDeadlines env t dog) (Companion.debugDeadlines env t dog) := by
  rw [debugDeadlines, Companion.debugDeadlines]
  split
  · refine (Simulates.silent _).bind fun timeout _ _ => ?_
    exact (Simulates.silent _).bind fun ping _ _ => Simulates.log_last _
  · exact Simulates.pure rfl

theorem notifyStatus_erases (status : Text) : Simulates Erases Eq
    (notifyStatus config env status) (Companion.notifyStatus config env status) := by
  rw [notifyStatus, Companion.notifyStatus]
  split
  · refine (Simulates.silent _).bind ?_
    rintro t _ rfl
    refine Simulates.log (notifyOrWarn_erases _ _ fun _ => ?_)
    cases config.watchdogMicroseconds with
    | none => exact Simulates.pure rfl
    | some dog =>
      refine (debugDeadlines_erases t dog).bind fun _ _ _ => (Simulates.silent _).bind ?_
      rintro deadline _ rfl
      exact Simulates.silent _
  · exact Simulates.pure rfl

theorem deadlineToAlarmClock_erases (t : ℤ) (deadline : Option ℤ) (desc : Text) :
    Simulates Erases Eq (deadlineToAlarmClock (ω := ω) t deadline desc)
      (Companion.deadlineToAlarmClock t deadline desc) := by
  cases deadline with
  | none => exact Simulates.log (Simulates.pure rfl)
  | some deadline =>
    rw [deadlineToAlarmClock, Companion.deadlineToAlarmClock]
    split
    · exact Simulates.log (Simulates.pure rfl)
    · refine Simulates.log ((Simulates.silent _).bind ?_)
      rintro remaining _ rfl
      exact Simulates.silent _

theorem enumerate_erases (explicit : List Text) : Simulates Erases Eq
    (enumerate config env explicit) (Companion.enumerate config env explicit) := by
  have hadd (index : AList fun _ : Text => Pending Text) : Simulates Erases Eq
      (addEnumerated config env index) (Companion.addEnumerated config env index) := by
    rw [addEnumerated, Companion.addEnumerated]
    split
    · refine Simulates.log ((Simulates.silent _).bind ?_)
      rintro ⟨result, found⟩ _ rfl
      cases result with
      | error e => exact Simulates.log (Simulates.pure rfl)
      | ok u => exact Simulates.pure rfl
    · exact Simulates.pure rfl
  refine (hadd _).bind ?_
  rintro r _ rfl
  refine (Simulates.silent _).bind ?_
  rintro names _ rfl
  exact Simulates.pure rfl

theorem refreshContainer_erases (errors : List CompanionError) (name : Pending Text) :
    Simulates Erases Eq (refreshContainer config env errors name)
      (Companion.refreshContainer config env errors name) := by
  rw [refreshContainer, Companion.refreshContainer]
  refine Simulates.log ((Simulates.silent _).bind ?_)
  rintro result _ rfl
  cases result with
  | error e => exact Simulates.log (Simulates.pure rfl)
  | ok inspection =>
    dsimp only
    split
    · exact Simulates.log (Simulates.pure rfl)
    · split
      · exact Simulates.log (Simulates.pure rfl)
      · refine Simulates.log ((Simulates.silent _).bind ?_)
        rintro published _ rfl
        cases published with
        | error e => exact Simulates.log (Simulates.pure rfl)
        | ok u => exact Simulates.pure rfl

theorem refresh_erases (explicit : List Text) : Simulates Erases Eq
    (refresh config env explicit) (Companion.refresh config env explicit) := by
  refine (enumerate_erases explicit).bind ?_
  rintro r _ rfl
  refine Simulates.log (Simulates.foldlM (V := Eq) (W := Eq) ?_
    (List.forall₂_same.mpr fun _ _ => rfl) rfl)
  rintro errors _ name _ rfl rfl
  exact refreshContainer_erases errors name

theorem span_erases (event : Event) {x : LoggedM ω α} {y : CompanionM ω α}
    (h : Simulates Erases Eq x y) :
    Simulates Erases Eq (span event x) (Companion.span event y) := by
  refine Simulates.get.bind ?_
  rintro s _ rfl
  refine h.bind ?_
  rintro a _ rfl
  exact (Simulates.silent _).bind fun _ _ _ => Simulates.pure rfl

theorem waitPass_erases (refreshTimeout : Receiver ω) : Simulates Erases (Option.Rel Eq)
    (waitPass config env refreshTimeout) (Companion.waitPass config env refreshTimeout) := by
  refine (Simulates.silent _).bind fun _ _ _ => (Simulates.silent _).bind ?_
  rintro sig _ rfl
  cases sig with
  | some sig => exact Simulates.log (Simulates.pure (.some rfl))
  | none =>
    refine (Simulates.silent _).bind ?_
    rintro t _ rfl
    refine Simulates.get.bind ?_
    rintro ctx _ rfl
    refine (deadlineToAlarmClock_erases _ _ _).bind ?_
    rintro watchdogTimeout _ rfl
    refine (Simulates.silent _).bind ?_
    rintro wake _ rfl
    cases wake with
    | signal sig => exact Simulates.log (Simulates.pure (.some rfl))
    | refresh => exact Simulates.pure (.some rfl)
    | watchdog =>
      exact Simulates.log ((notifyStatus_erases _).bind fun _ _ _ => Simulates.pure .none)

theorem wait_erases (passes : ℕ) : Simulates Erases Eq (wait config env passes)
    (Companion.wait config env passes) := by
  rw [wait, Companion.wait]
  refine (Simulates.silent _).bind fun _ _ _ => ?_
  cases config.refreshSeconds with
  | none => exact Simulates.log (Simulates.pure rfl)
  | some refreshSeconds =>
    refine (Simulates.silent _).bind ?_
    rintro t _ rfl
    refine (Simulates.silent _).bind ?_
    rintro nextRefresh _ rfl
    refine (deadlineToAlarmClock_erases _ _ _).bind ?_
    rintro refreshTimeout _ rfl
    exact Simulates.loop (waitPass_erases refreshTimeout) _ passes

theorem notifyStopping_erases : Simulates Erases Eq (notifyStopping config env)
    (Companion.notifyStopping config env) := by
  rw [notifyStopping, Companion.notifyStopping]
  split
  · rw [← bind_pure (notifyOrWarn env _ _)]
    exact notifyOrWarn_erases _ _ fun _ => Simulates.pure rfl
  · exact Simulates.pure rfl

theorem endIteration_erases (errors : List CompanionError) (passes : ℕ) :
    Simulates Erases (Option.Rel Eq) (endIteration config env errors passes)
      (Companion.endIteration config env errors passes) := by
  refine (notifyStatus_erases _).bind fun _ _ _ => (wait_erases passes).bind ?_
  rintro again _ rfl
  cases again with
  | true => exact Simulates.pure .none
  | false =>
    refine notifyStopping_erases.bind fun _ _ _ => ?_
    split
    · exact Simulates.pure (.some rfl)
    · exact Simulates.pure (.some rfl)

theorem iteration_erases (explicit : List Text) (passes : ℕ) :
    Simulates Erases (Option.Rel Eq) (iteration config env explicit passes)
      (Companion.iteration config env explicit passes) := by
  refine (Simulates.silent _).bind fun _ _ _ => Simulates.log ?_
  refine (notifyStatus_erases _).bind fun _ _ _ => ?_
  refine (span_erases _ (refresh_erases explicit)).bind ?_
  rintro errors _ rfl
  exact endIteration_erases errors passes

/-- The log lines do not change what a run does. -/
theorem run_erases (config : Config) (env : Environment ω) (explicit : List Text) (n passes : ℕ) :
    Simulates Erases Eq (run config env explicit n passes)
      (Companion.run config env explicit n passes) := by
  have hloop : Simulates Erases Eq (iterate config env explicit n passes)
      (Companion.iterate config env explicit n passes) :=
    Simulates.loop (iteration_erases explicit passes) _ n
  rw [run, Companion.run]
  refine (Simulates.silent _).bind fun _ _ _ => Simulates.log ?_
  split
  · refine (Simulates.silent _).bind ?_
    rintro result _ rfl
    cases result with
    | error e => exact Simulates.pure rfl
    | ok u => exact hloop
  · exact hloop

end Companion.Logged
end Beachhead
