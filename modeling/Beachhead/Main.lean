import Beachhead.Args
import Beachhead.DateRange
import Beachhead.Shown

/-!
# The process

`main` reads the command line, sets up the log, asks the service manager for the watchdog
interval and runs the companion. What is left of a run is an exit status and the messages of
the errors that it returned.
-/
namespace Beachhead
open Program Companion

section display

def Text.ParseIntError.display : Text.ParseIntError → Text
  | .empty => "cannot parse integer from empty string".toList
  | .invalidDigit => "invalid digit found in string".toList
  | .overflow => "number too large to fit in target type".toList

def DomainSpecError.display (e : DomainSpecError) : Text :=
  "Failed to parse domain spec option. Domain name: \"".toList ++ e.domainName ++ "\"".toList ++
    (match e.key with
      | some key => " Option name: \"".toList ++ key ++ "\"".toList
      | none => []) ++ " Cause: ".toList ++ e.cause.display

def ShipliftError.display (e : ShipliftError) : Text :=
  "Error while communicating with the docker daemon. Details: ".toList ++ e.actual

def InspectionError.display : InspectionError → Text
  | .domainSpec e => "Inspection error. ".toList ++ e.display
  | .shiplift e => "Inspection error. ".toList ++ e.display

def PublishingError.display : PublishingError → Text
  | .redis e => "Publishing error. ".toList ++ e.description

def CompanionError.display : CompanionError → Text
  | .inspection err => "Error during inspection. Error: ".toList ++ err.display
  | .publishing err => "Error during publishing. Error: ".toList ++ err.display
  | .envVarMissing containerName envvar =>
    "Configured environment variable missing on container. container name: ".toList ++
      containerName ++ ", environment variable: ".toList ++ envvar
  | .systemd err => "Error communicating with systemd Error: ".toList ++ err.details

end display

/-- How the process ends, and the messages about its fatal errors. -/
structure Exit where
  status : ℕ
  fatal : List Text
  deriving DecidableEq

def fatalError (message : Text) : Text := "Fatal error: ".toList ++ message

/-- `none` if the process goes on. -/
def stayCalmAnd {T E : Type} (display : E → Text) : Except E T → Option Exit
  | .ok _ => none
  | .error e => some ⟨100, [fatalError (display e)]⟩

def stayVeryCalmAnd {T E : Type} (display : E → Text) : Except (List E) T → Option Exit
  | .ok _ => none
  | .error es => some ⟨100, es.map fun e => fatalError (display e)⟩

/-- The level that `init_log` sets for the companion. -/
def Args.logLevel (args : Args) : LogLevel :=
  match args.flagVerbose, args.flagQuiet with
  | false, false => .info
  | true, _ => .debug
  | _, true => .warn

variable {ω : Type}

/-- `main` after the command line was parsed. The logger, the service manager and what the
companion runs in are arguments. -/
def main (args : Args) (initLog : Except Text Unit) (watchdogEnabled : Except IoError UInt64)
    (env : Config → Environment ω) (iterations passes : ℕ) : LoggedM ω Exit :=
  match stayCalmAnd id initLog with
  | some exit => pure exit
  | none =>
    match args.argsTransform.deconstruct with
    | none => throw .panic
    | some (config, argContainers) =>
      match readSystemdConfig watchdogEnabled config with
      | .error e => do
        log (.watchdogNotRead e)
        return ⟨2, []⟩
      | .ok config => do
        let result ← Logged.run config (env config) argContainers iterations passes
        return (stayVeryCalmAnd CompanionError.display result).getD ⟨0, []⟩

/-- The errors of enumerations. -/
def Event.enumerationErrors : Event → List CompanionError
  | .enumerate _ (.error e) => [.inspection e]
  | _ => []

def CompanionError.isSystemd : CompanionError → Bool
  | .systemd _ => true
  | _ => false

/-- The errors about containers that a filter at the level of warnings shows. -/
def containerErrors (lines : List LogLine) : List CompanionError :=
  ((shownAt .warn lines).filterMap LogLine.error?).filter fun e => !e.isSystemd

/-- How a process ends that is left with these errors. -/
def exitWith (errors : List CompanionError) : Exit :=
  if errors.isEmpty then ⟨0, []⟩ else ⟨100, errors.map fun e => fatalError e.display⟩

section
variable {config : Config} {env : Environment ω} {explicit : List Text}

/-- The errors that the work of an iteration counts, as its calls show them. -/
theorem workErrors_calls (ctx : Context ω) :
    workErrors config env explicit ctx =
      ((askStep config env ctx).1.events ++
        (visits config env explicit ctx).flatMap Visit.events).flatMap Event.enumerationErrors ++
      ((askStep config env ctx).1.events ++
        (visits config env explicit ctx).flatMap Visit.events).flatMap
          (Event.failures config explicit) := by
  have hasked : (askStep config env ctx).1.events.flatMap Event.enumerationErrors =
        (askStep config env ctx).1.errors ∧
      (askStep config env ctx).1.events.flatMap (Event.failures config explicit) = [] := by
    rcases (askStep config env ctx).1 with - | ⟨found, e | u⟩
    · exact ⟨rfl, rfl⟩
    · exact ⟨rfl, rfl⟩
    · exact ⟨rfl, rfl⟩
  have hvisit (v : Visit) : v.events.flatMap Event.enumerationErrors = [] := by
    cases hpublished : v.published <;>
      simp [Visit.events, hpublished, Event.enumerationErrors]
  have herrors : (visits config env explicit ctx).flatMap (Visit.errors config) =
      (visits config env explicit ctx).flatMap fun v =>
        v.events.flatMap (Event.failures config explicit) := by
    refine List.flatMap_congr fun v hv => ?_
    have hfaithful : v.Faithful config := visits_faithful explicit ctx v hv
    exact hfaithful.errors_eq ((visits_merged explicit ctx).mark v.name (List.mem_map_of_mem hv))
  rw [List.flatMap_append, List.flatMap_append, hasked.1, hasked.2, List.flatMap_assoc,
    List.flatMap_assoc, workErrors, herrors]
  simp [hvisit]

private theorem enumerationErrors_calls (events : List Event) :
    events.flatMap Event.enumerationErrors =
      (events.filter Event.isContainer).flatMap Event.enumerationErrors := by
  induction events with
  | nil => rfl
  | cons e events ih =>
    rw [List.flatMap_cons, ih]
    cases hcontainer : e.isContainer with
    | true => rw [List.filter_cons_of_pos hcontainer, List.flatMap_cons]
    | false =>
      have hnone : e.enumerationErrors = [] := by
        cases e with
        | enumerate names r => cases hcontainer
        | _ => rfl
      rw [List.filter_cons_of_neg (by simp [hcontainer]), hnone, List.nil_append]

/-- Failures to reach the service manager do not come from calls about containers, and nothing
else comes from other calls. -/
theorem failures_isSystemd {e : Event} {error : CompanionError}
    (h : error ∈ e.failures config explicit) : error.isSystemd = !e.isContainer := by
  cases e with
  | notify entries r =>
    cases r with
    | error e =>
      rw [Event.failures] at h
      split at h
      · cases h
      · rw [List.mem_singleton.mp h]
        rfl
    | ok u => cases h
  | inspect name r =>
    cases r with
    | error e =>
      rw [Event.failures] at h
      split at h
      · rw [List.mem_singleton.mp h]
        rfl
      · cases h
    | ok inspection =>
      rw [Event.failures] at h
      split at h
      · cases h
      · split at h
        · rw [List.mem_singleton.mp h]
          rfl
        · cases h
  | publish p r =>
    cases r with
    | error e =>
      rw [List.mem_singleton.mp h]
      rfl
    | ok u => cases h
  | _ => cases h

private theorem failures_calls (config : Config) (explicit : List Text) (events : List Event) :
    (events.flatMap (Event.failures config explicit)).filter (fun e => !e.isSystemd) =
      (events.filter Event.isContainer).flatMap (Event.failures config explicit) := by
  induction events with
  | nil => rfl
  | cons e events ih =>
    rw [List.flatMap_cons, List.filter_append, ih]
    cases hcontainer : e.isContainer with
    | true =>
      have hall : (e.failures config explicit).filter (fun e => !e.isSystemd) =
          e.failures config explicit := by
        refine List.filter_eq_self.mpr fun error herror => ?_
        rw [failures_isSystemd herror, hcontainer]
        rfl
      rw [List.filter_cons_of_pos hcontainer, List.flatMap_cons, hall]
    | false =>
      have hnone : (e.failures config explicit).filter (fun e => !e.isSystemd) = [] := by
        refine List.filter_eq_nil_iff.mpr fun error herror => ?_
        rw [failures_isSystemd herror, hcontainer]
        decide
      rw [List.filter_cons_of_neg (by simp [hcontainer]), hnone, List.nil_append]

/-- A one-shot run that has sent its initial notification returns the errors of its calls. -/
theorem run_calls (explicit : List Text) (honce : config.refreshSeconds = none) {w : ω}
    (hready : ∀ err, ¬ReadyFails config env w err) (n passes : ℕ) :
    Triple (run config env explicit (n + 1) passes) (start w)
      (fun result ctx => result = verdict (ctx.events.flatMap Event.enumerationErrors ++
        (ctx.events.flatMap (Event.failures config explicit)).filter fun e => !e.isSystemd))
      fun e ctx => e = .panic ∧ OutOfRange config ctx := by
  obtain ⟨ctx, hctx, hrun⟩ := run_ready hready explicit (n + 1) passes
  rw [Triple, hrun]
  refine (iterate_oneShot honce explicit n passes ctx).mono (fun result ctx' h => ?_)
    fun _ _ h => h
  obtain ⟨ctx₀, hquiet, rfl, hquiet'⟩ := h
  obtain ⟨new, hnew, -, hcalls⟩ := worked_new config env explicit ctx₀
  have hmark : containerEvents (ctx.record .iteration ctx.world).trace = [] := by
    have hlast : containerEvents [(⟨.iteration, ctx.world, ctx.world⟩ : Entry ω)] = [] := rfl
    have happend := containerEvents_append ctx.trace [⟨.iteration, ctx.world, ctx.world⟩]
    rw [hctx, hlast] at happend
    exact happend
  have hevents : ctx'.events.filter Event.isContainer = (askStep config env ctx₀).1.events ++
      (visits config env explicit ctx₀).flatMap Visit.events := by
    have hcontainers : containerEvents ctx'.trace = _ := hquiet'.containerEvents
    rw [hnew, containerEvents_append, hquiet.containerEvents, hmark, hcalls, List.nil_append]
      at hcontainers
    exact hcontainers
  rw [enumerationErrors_calls, failures_calls, hevents, workErrors_calls]

end

private theorem stayVeryCalmAnd_verdict (errors : List CompanionError) :
    (stayVeryCalmAnd CompanionError.display (verdict errors)).getD ⟨0, []⟩ = exitWith errors := by
  rw [verdict, exitWith]
  split
  · rfl
  · rfl

/-- The log of a run shows the errors about containers that its calls lead to. -/
theorem containerErrors_journal (config : Config) (env : Environment ω) (explicit : List Text)
    (n passes : ℕ) (w : ω) : containerErrors (journal config env explicit n passes w) =
      ((finalState (run config env explicit n passes) (start w)).events.flatMap
        (Event.failures config explicit)).filter fun e => !e.isSystemd := by
  have herrors := journal_errors config env explicit n passes w
  have hmap (lines : List LogLine) : lines.filterMap LogLine.error? =
      (lines.map LogLine.error?).filterMap id := by
    rw [List.filterMap_map]
    rfl
  rw [containerErrors, hmap, herrors, List.filterMap_map]
  congr 1
  exact List.filterMap_some

/-- The refresh interval, as it is given or computed. -/
def Args.refreshInterval (args : Args) : UInt32 :=
  args.flagRefresh.getD (defaultRefresh args.flagExpire)

private theorem argsTransform_kept (args : Args) :
    args.argsTransform.flagSystemd = args.flagSystemd ∧
    args.argsTransform.argContainers = args.argContainers := by
  simp only [Args.argsTransform]
  split_ifs <;> exact ⟨rfl, rfl⟩

private theorem deconstruct_flags {args : Args} {config : Config} {containers : List Text}
    (h : args.deconstruct = some (config, containers)) :
    config.systemd = args.flagSystemd ∧ config.dryRun = args.flagDryRun := by
  rw [Args.deconstruct] at h
  cases hrefresh : args.flagRefresh with
  | none =>
    rw [hrefresh] at h
    cases h
  | some r =>
    rw [hrefresh] at h
    cases h
    exact ⟨rfl, rfl⟩

/-- The configuration that the command line asks for. -/
theorem deconstruct_config (args : Args) : ∃ config,
    args.argsTransform.deconstruct = some (config, args.argContainers) ∧
      config.systemd = args.flagSystemd ∧ config.refreshSeconds =
        if args.refreshInterval = 0 then none else some args.refreshInterval := by
  obtain ⟨config, hconfig, -, hrefresh⟩ := Args.deconstruct_argsTransform args
  obtain ⟨hsystemd, hcontainers⟩ := argsTransform_kept args
  rw [hcontainers] at hconfig
  exact ⟨config, hconfig, (deconstruct_flags hconfig).1.trans hsystemd, hrefresh⟩

private theorem readSystemdConfig_ok {watchdogEnabled : Except IoError UInt64} (config : Config)
    (h : config.systemd = true → ∃ dog, watchdogEnabled = .ok dog) : ∃ config',
    readSystemdConfig watchdogEnabled config = .ok config' ∧ config'.systemd = config.systemd ∧
      config'.refreshSeconds = config.refreshSeconds := by
  unfold readSystemdConfig
  by_cases hsystemd : config.systemd
  · obtain ⟨dog, rfl⟩ := h hsystemd
    rw [if_pos hsystemd]
    dsimp only
    split
    · exact ⟨_, rfl, rfl, rfl⟩
    · exact ⟨_, rfl, rfl, rfl⟩
  · rw [if_neg hsystemd]
    exact ⟨config, rfl, rfl, rfl⟩

private theorem readSystemdConfig_dryRun {watchdogEnabled : Except IoError UInt64}
    {config config' : Config} (h : readSystemdConfig watchdogEnabled config = .ok config') :
    config'.dryRun = config.dryRun := by
  unfold readSystemdConfig at h
  split_ifs at h
  · cases watchdogEnabled with
    | error e => cases h
    | ok dog =>
      dsimp only at h
      split_ifs at h
      · rw [← Except.ok.inj h]
      · rw [← Except.ok.inj h]
  · rw [← Except.ok.inj h]

/-- `main` is the run of the configuration that the command line asks for. -/
theorem main_run (args : Args) (watchdogEnabled : Except IoError UInt64)
    (env : Config → Environment ω)
    (h : args.flagSystemd = true → ∃ dog, watchdogEnabled = .ok dog) : ∃ asked config,
    args.argsTransform.deconstruct = some (asked, args.argContainers) ∧
      readSystemdConfig watchdogEnabled asked = .ok config ∧
      config.systemd = args.flagSystemd ∧ config.refreshSeconds =
        (if args.refreshInterval = 0 then none else some args.refreshInterval) ∧
      ∀ n passes, main args (.ok ()) watchdogEnabled env n passes = do
        let result ← Logged.run config (env config) args.argContainers n passes
        return (stayVeryCalmAnd CompanionError.display result).getD ⟨0, []⟩ := by
  obtain ⟨config, hconfig, hsystemd, hrefresh⟩ := deconstruct_config args
  obtain ⟨config', hread, hsystemd', hrefresh'⟩ :=
    readSystemdConfig_ok config (by rw [hsystemd]; exact h)
  refine ⟨config, config', hconfig, hread, hsystemd'.trans hsystemd, hrefresh'.trans hrefresh,
    fun n passes => ?_⟩
  simp only [main, stayCalmAnd, hconfig, hread]

/-- How a run ends and what it has logged decide how the process ends. -/
theorem Logged.run_exit {config : Config} {env : Environment ω} {explicit : List Text}
    {n passes : ℕ} {w : ω} {Q : Except (List CompanionError) Unit → Context ω → Prop}
    {E : Stop → Context ω → Prop} (h : Triple (run config env explicit n passes) (start w) Q E) :
    Triple (do
        let result ← Logged.run config env explicit n passes
        return (stayVeryCalmAnd CompanionError.display result).getD ⟨0, []⟩) (start w, [])
      (fun exit s => ∃ result, Q result s.1 ∧
        exit = (stayVeryCalmAnd CompanionError.display result).getD ⟨0, []⟩ ∧
        finalState (Logged.run config env explicit n passes) (start w, []) = s)
      fun e s => E e s.1 := by
  have hlogged := (Logged.run_erases config env explicit n passes).triple [] h
  refine Triple.bind ((hlogged.and Triple.finalState_eq).mono_error fun _ _ h => h.1)
    fun result s h => ?_
  exact Triple.pure ⟨result, h.1, rfl, h.2⟩

section
variable {config : Config} {env : Environment ω} {w : ω} (explicit : List Text) (n passes : ℕ)

/-- The process ends with the error of the initial notification. -/
theorem Logged.exit_readyFails {err : IoError} (h : ReadyFails config env w err) :
    Triple (do
        let result ← Logged.run config env explicit n passes
        return (stayVeryCalmAnd CompanionError.display result).getD ⟨0, []⟩) (start w, [])
      (fun exit _ => exit = exitWith [.systemd err]) fun _ _ => False := by
  obtain ⟨err', ctx, h', -, -, hrun⟩ | ⟨hready, -⟩ :=
    run_cases config (quiet_waits env).toAlongPings explicit n passes (start w)
  · obtain rfl : err = err' := Except.error.inj (h.2.symm.trans h'.2)
    have hended : Triple (run config env explicit n passes) (start w)
        (fun result _ => result = .error [.systemd err]) fun _ _ => False := Triple.ok hrun rfl
    refine (Logged.run_exit hended).mono (fun exit s h => ?_) fun _ _ h => h
    obtain ⟨result, rfl, hexit, -⟩ := h
    exact hexit
  · exact absurd h (hready err)

/-- A process that refreshes ends well, if it ends. -/
theorem Logged.exit_refreshing {r : UInt32} (hr : config.refreshSeconds = some r)
    (hready : ∀ err, ¬ReadyFails config env w err) :
    Triple (do
        let result ← Logged.run config env explicit n passes
        return (stayVeryCalmAnd CompanionError.display result).getD ⟨0, []⟩) (start w, [])
      (fun exit _ => exit = ⟨0, []⟩) fun _ _ => True := by
  obtain ⟨ctx, -, hrun⟩ := run_ready hready explicit n passes
  have hended : Triple (run config env explicit n passes) (start w)
      (fun result _ => result = .ok ()) fun _ _ => True := by
    rw [Triple, hrun]
    exact iterate_ok hr explicit n passes ctx
  refine (Logged.run_exit hended).mono (fun exit s h => ?_) fun _ _ h => h
  obtain ⟨result, rfl, hexit, -⟩ := h
  exact hexit

/-- A single run ends with a message for the failed enumeration and for every error about a
container that the log has shown. -/
theorem Logged.exit_oneShot (honce : config.refreshSeconds = none)
    (hready : ∀ err, ¬ReadyFails config env w err) :
    Triple (do
        let result ← Logged.run config env explicit (n + 1) passes
        return (stayVeryCalmAnd CompanionError.display result).getD ⟨0, []⟩) (start w, [])
      (fun exit s => exit = exitWith (s.1.events.flatMap Event.enumerationErrors ++
        containerErrors s.2)) fun e s => e = .panic ∧ OutOfRange config s.1 := by
  have hended := run_calls explicit honce hready n passes
  refine (Logged.run_exit hended).mono (fun exit s h => ?_) fun _ _ h => h
  obtain ⟨result, rfl, rfl, rfl⟩ := h
  have hctx := (run_erased config env explicit (n + 1) passes w).finalState
  have hjournal := containerErrors_journal config env explicit (n + 1) passes w
  rw [Erases] at hctx
  rw [stayVeryCalmAnd_verdict, hctx, ← hjournal, journal]

end

/-- The process ends with status 100 and a message if the log cannot be set up, and with status 2
if the watchdog interval cannot be read. Otherwise it ends as its run: with status 100 if the
initial notification fails, with status 0 if it refreshes, and else with a message for the
failed enumeration and one for each error about a container that the log has shown. -/
theorem main_exit {ω : Type} (args : Args) (initLog : Except Text Unit)
    (watchdogEnabled : Except IoError UInt64) (env : Config → Environment ω) (n passes : ℕ)
    (w : ω) :
    (∀ e, initLog = .error e → main args initLog watchdogEnabled env n passes (start w, []) =
      .ok ⟨100, [fatalError e]⟩ (start w, [])) ∧
    (∀ e, initLog = .ok () → args.flagSystemd = true → watchdogEnabled = .error e →
      main args initLog watchdogEnabled env n passes (start w, []) =
        .ok ⟨2, []⟩ (start w, [.watchdogNotRead e])) ∧
    (initLog = .ok () → (args.flagSystemd = true → ∃ dog, watchdogEnabled = .ok dog) →
      ∃ asked config, args.argsTransform.deconstruct = some (asked, args.argContainers) ∧
      readSystemdConfig watchdogEnabled asked = .ok config ∧ config.systemd = args.flagSystemd ∧
      (∀ err, ReadyFails config (env config) w err →
        Triple (main args initLog watchdogEnabled env n passes) (start w, [])
          (fun exit _ => exit = exitWith [.systemd err]) fun _ _ => False) ∧
      ((∀ err, ¬ReadyFails config (env config) w err) → args.refreshInterval ≠ 0 →
        Triple (main args initLog watchdogEnabled env n passes) (start w, [])
          (fun exit _ => exit = ⟨0, []⟩) fun _ _ => True) ∧
      ((∀ err, ¬ReadyFails config (env config) w err) → args.refreshInterval = 0 →
        Triple (main args initLog watchdogEnabled env (n + 1) passes) (start w, [])
          (fun exit s => exit = exitWith (s.1.events.flatMap Event.enumerationErrors ++
            containerErrors s.2)) fun e s => e = .panic ∧ OutOfRange config s.1)) := by
  refine ⟨?_, ?_, ?_⟩
  · rintro e rfl
    rfl
  · rintro e rfl hsystemd rfl
    obtain ⟨config, hconfig, hsystemd', -⟩ := deconstruct_config args
    have hread : readSystemdConfig (.error e) config = .error e := by
      rw [readSystemdConfig, if_pos (hsystemd'.trans hsystemd)]
    simp only [main, stayCalmAnd, hconfig, hread]
    rfl
  · rintro rfl hwatchdog
    obtain ⟨asked, config, hconfig, hread, hsystemd, hrefresh, hmain⟩ :=
      main_run args watchdogEnabled env hwatchdog
    refine ⟨asked, config, hconfig, hread, hsystemd, fun err hfails => ?_,
      fun hready hinterval => ?_, fun hready hinterval => ?_⟩
    · rw [hmain]
      exact Logged.exit_readyFails args.argContainers n passes hfails
    · rw [hmain]
      rw [if_neg hinterval] at hrefresh
      exact Logged.exit_refreshing args.argContainers n passes hrefresh hready
    · rw [hmain]
      rw [if_pos hinterval] at hrefresh
      exact Logged.exit_oneShot args.argContainers n passes hrefresh hready

/-- The command line for one run on a container that is missing. -/
def onceDb : Args :=
  { Args.default with flagRefresh := some 0, argContainers := ["db".toList] }

theorem main_exit_db : ∃ exit s,
    main onceDb (.ok ()) (.ok 0) (fun _ => fixedEnvironment dbMissing) 1 0 (start (), []) =
      .ok exit s ∧
    exit = exitWith (s.1.events.flatMap Event.enumerationErrors ++ containerErrors s.2) ∧
    exit = exitWith [.inspection (.shiplift ⟨"no such container".toList⟩)] := by
  obtain ⟨asked, config, -, -, hsystemd, -, -, honce⟩ :=
    (main_exit onceDb (.ok ()) (.ok 0) (fun _ => fixedEnvironment dbMissing) 0 0 ()).2.2 rfl
      fun h => by cases h
  have hended := honce (fun err hfails => by cases hsystemd.symm.trans hfails.1) rfl
  exact ⟨_, _, rfl, hended.of_ok rfl, rfl⟩

/-- A dry run is not quiet. -/
theorem logLevel_dryRun {args : Args} (h : args.flagDryRun = true) :
    args.argsTransform.flagDryRun = true ∧
      LogLevel.passes .info args.argsTransform.logLevel = true := by
  have hquiet : args.argsTransform.flagQuiet = false ∧ args.argsTransform.flagDryRun = true := by
    simp only [Args.argsTransform]
    split_ifs <;> simp_all
  refine ⟨hquiet.2, ?_⟩
  rw [Args.logLevel, hquiet.1]
  cases args.argsTransform.flagVerbose <;> rfl

private theorem update_level {line : LogLine} {update : Text × Publication}
    (h : line.update? = some update) : line.level = .info := by
  cases line with
  | wouldUpdate name publication | updating name publication => rfl
  | _ => cases h

/-- A dry run publishes nothing, and whatever the options about verbosity are, its log shows the
update that each container asks for, in the order in which they were inspected. -/
theorem dryRun_announced {ω : Type} (args : Args) (hdry : args.flagDryRun = true)
    (asked config : Config) (containers : List Text)
    (hconfig : args.argsTransform.deconstruct = some (asked, containers))
    (watchdogEnabled : Except IoError UInt64)
    (hread : readSystemdConfig watchdogEnabled asked = .ok config) (env : Environment ω)
    (n passes : ℕ) (w : ω) :
    (∀ E ∈ (finalState (run config env containers n passes) (start w)).trace,
      ∀ p result, E.event ≠ .publish p result) ∧
    (shownAt args.argsTransform.logLevel (journal config env containers n passes w)).filterMap
        LogLine.update? =
      (finalState (run config env containers n passes) (start w)).events.filterMap
        Event.request? := by
  obtain ⟨htransformed, hlevel⟩ := logLevel_dryRun hdry
  have hconfig_dry : config.dryRun = true := by
    rw [readSystemdConfig_dryRun hread, (deconstruct_flags hconfig).2, htransformed]
  constructor
  · intro E hE p result hevent
    obtain ⟨u, v, htrace⟩ := List.append_of_mem hE
    obtain ⟨hwet, -⟩ := published_found htrace hevent
    rw [hconfig_dry] at hwet
    cases hwet
  · rw [← journal_updates, shownAt, List.filterMap_filter]
    refine List.filterMap_congr fun line _ => ?_
    cases hupdate : line.update? with
    | none => simp
    | some update => rw [update_level hupdate, if_pos hlevel]

/-- The service manager asks for a ping every 30 seconds. -/
def quietDry : Args :=
  { Args.default with
    flagQuiet := true, flagDryRun := true, flagSystemd := true, argContainers := ["web".toList] }

theorem dryRun_announced_web : ∃ asked config, quietDry.argsTransform.deconstruct =
    some (asked, ["web".toList]) ∧ readSystemdConfig (.ok 30000000) asked = .ok config ∧
    (shownAt quietDry.argsTransform.logLevel
      (journal config (fixedEnvironment dbMissing) ["web".toList] 1 1 ())).filterMap
        LogLine.update? =
      [("web".toList, ⟨"10.0.0.2".toList, [⟨"example.org".toList, some 80, none⟩]⟩)] :=
  ⟨_, _, rfl, rfl, (dryRun_announced quietDry rfl _ _ ["web".toList] rfl (.ok 30000000) rfl
    (fixedEnvironment dbMissing) 1 1 ()).2.trans (by decide)⟩

end Beachhead
