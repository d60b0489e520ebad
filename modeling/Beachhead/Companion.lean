import Beachhead.DateTime
import Beachhead.Inspector
import Beachhead.Program
import Beachhead.Publisher
import Mathlib.Data.List.AList

/-!
# The companion loop

The program acts on a world through the two traits and the operating system. Each
call is recorded in a trace with the worlds before and after it; the program never
reads the trace. The two loops have a bound on the number of passes, so a run that
is cut off is a run that is still going on.
-/
namespace Beachhead

inductive Signal where
  | int | term | abrt
  deriving DecidableEq

structure IoError where
  details : Text
  deriving DecidableEq

inductive CompanionError where
  | inspection (err : InspectionError)
  | publishing (err : PublishingError)
  | envVarMissing (containerName envvar : Text)
  | systemd (err : IoError)
  deriving DecidableEq

/-- Thing that needs to be handled and whether it was requested explicitly. -/
structure Pending (α : Type) where
  explicit : Bool
  todo : α
  deriving DecidableEq

/-- The receiving end of an alarm channel in a world `ω`. -/
inductive Receiver (ω : Type) where
  /-- The sender is gone: unblocked immediately. -/
  | closed
  /-- `chan::after`, called in the world `since`. -/
  | after (since : ω) (remaining : ℤ)
  /-- The sender is kept: never unblocked. -/
  | kept

/-- The branch that a blocking `chan_select!` takes. -/
inductive Wake where
  | signal (sig : Option Signal)
  | refresh
  | watchdog
  deriving DecidableEq

/-- What the program calls in a world `ω`. -/
structure Environment (ω : Type) where
  inspector : Inspect ω
  publisher : Publish ω
  /-- `Local::now`. -/
  now : ω → ℤ × ω
  /-- `daemon::notify`. -/
  notify : ω → List (Text × Text) → Except IoError Unit × ω
  /-- `chan_select!` on the termination signal with a default branch, which gives `none`. -/
  poll : ω → Option (Option Signal) × ω
  /-- `chan_select!` on the termination signal, the refresh and the watchdog alarm. -/
  select : ω → Receiver ω → Receiver ω → Wake × ω
  /-- The order in which a hash map with these entries is drained. -/
  drain : ω → List (Sigma fun _ : Text => Pending Text) →
    List (Sigma fun _ : Text => Pending Text)
  drain_perm : ∀ w entries, (drain w entries).Perm entries
  /-- Whether the arguments of `debug!` are evaluated. -/
  debugEnabled : Bool

inductive Event where
  | now (reading : ℤ)
  | notify (entries : List (Text × Text)) (result : Except IoError Unit)
  | enumerate (names : List Text) (result : Except InspectionError Unit)
  | inspect (name : Text) (result : Except InspectionError Inspection)
  | publish (publication : Publication) (result : Except PublishingError Unit)
  | poll (sig : Option (Option Signal))
  | after (desc : Text) (remaining : ℤ)
  | woke (wake : Wake)
  /-- The loop of `run` starts an iteration. -/
  | iteration
  /-- The part of an iteration between its two status notifications. -/
  | work
  /-- The program enters `wait`. -/
  | wait
  /-- The loop of `wait` starts a pass. -/
  | waitPass
  deriving DecidableEq

namespace Event

def isIteration : Event → Bool
  | .iteration => true
  | _ => false

/-- The entries into `wait` and into its loop. -/
def isWait : Event → Bool
  | .wait | .waitPass => true
  | _ => false

/-- The calls that are about containers. -/
def isContainer : Event → Bool
  | .enumerate _ _ | .inspect _ _ | .publish _ _ => true
  | _ => false

end Event

structure Entry (ω : Type) where
  event : Event
  before : ω
  after : ω
  deriving DecidableEq

structure Context (ω : Type) where
  nextWatchdog : Option ℤ
  world : ω
  trace : List (Entry ω)

inductive Stop where
  | panic
  /-- The bound on the number of passes is used up. -/
  | unfinished
  deriving DecidableEq

abbrev CompanionM (ω : Type) := EStateM Stop (Context ω)

namespace Context

variable {ω : Type}

def note (ctx : Context ω) (entry : Entry ω) : Context ω :=
  { ctx with trace := ctx.trace ++ [entry] }

/-- What a call leaves behind. -/
def record (ctx : Context ω) (event : Event) (w : ω) : Context ω :=
  { ctx.note ⟨event, ctx.world, w⟩ with world := w }

end Context

namespace Companion
open Program

variable {ω α : Type}

def call (op : ω → α × ω) (event : α → Event) : CompanionM ω α := fun ctx =>
  .ok (op ctx.world).1 (ctx.record (event (op ctx.world).1) (op ctx.world).2)

def mark (event : Event) : CompanionM ω Unit := call (fun w => ((), w)) fun _ => event

/-- Record the whole of `x` as one event. -/
def span (event : Event) (x : CompanionM ω α) : CompanionM ω α := do
  let before := (← get).world
  let a ← x
  modify fun ctx => ctx.note ⟨event, before, ctx.world⟩
  return a

def addDuration (now : ℤ) (d : ℤ) : CompanionM ω ℤ :=
  match DateTime.add? now d with
  | some t => pure t
  | none => throw .panic

/-- `Duration::to_std` and `unwrap`. -/
def toStd (d : ℤ) : CompanionM ω ℤ :=
  if d < 0 then throw .panic else pure d

def STATE_READY : Text := "READY".toList
def STATE_STATUS : Text := "STATUS".toList
def STATE_WATCHDOG : Text := "WATCHDOG".toList
def STATE_STOPPING : Text := "STOPPING".toList

variable (config : Config) (env : Environment ω)

def now : CompanionM ω ℤ := call env.now .now

def notify (entries : List (Text × Text)) : CompanionM ω (Except CompanionError Unit) := do
  let result ← call (env.notify · entries) (.notify entries)
  return result.mapError .systemd

/-- 45% of the interval that the service manager requires. -/
def watchdogTimeout (dog : UInt64) : ℤ := Duration.microseconds (9 * dog.toNat / 20)

def aliveEntries (status : Text) : List (Text × Text) :=
  [(STATE_STATUS, status), (STATE_WATCHDOG, "1".toList)]

/-- The arguments of the message about the next deadline. -/
def debugDeadlines (now : ℤ) (dog : UInt64) : CompanionM ω Unit := do
  if env.debugEnabled then
    let _ ← addDuration now (Duration.microseconds (min dog.toNat (2 ^ 63 - 1)))
    let _ ← addDuration now (watchdogTimeout dog)

def setNextWatchdog (t : ℤ) : CompanionM ω Unit :=
  modify fun ctx => { ctx with nextWatchdog := some t }

def notifyStatus (status : Text) : CompanionM ω Unit := do
  if config.systemd then
    -- taken before the call, so the deadline is conservative
    let now ← now env
    let _ ← notify env (aliveEntries status)
    match config.watchdogMicroseconds with
    | some dog =>
      debugDeadlines env now dog
      setNextWatchdog (← addDuration now (watchdogTimeout dog))
    | none => pure ()

def deadlineToAlarmClock (now : ℤ) (deadline : Option ℤ) (desc : Text) :
    CompanionM ω (Receiver ω) :=
  match deadline with
  | some deadline =>
    if now > deadline then pure .closed
    else do
      let remaining ← toStd (deadline - now)
      call (fun w => (.after w remaining, w)) fun _ => .after desc remaining
  | none => pure .kept

/-- The constructor of `Context`. -/
def new : CompanionM ω Unit := do
  if config.watchdogMicroseconds.isSome then
    setNextWatchdog (← now env)

/-- The entries that `insert` makes for the names listed explicitly. -/
def insertExplicit (index : AList fun _ : Text => Pending Text) (name : Text) :
    AList fun _ : Text => Pending Text := index.insert name ⟨true, name⟩

/-- `entry(name).or_insert(..)` for the names found by enumeration. -/
def orInsertEnumerated (index : AList fun _ : Text => Pending Text) (name : Text) :
    AList fun _ : Text => Pending Text :=
  if name ∈ index then index else index.insert name ⟨false, name⟩

def drain (index : AList fun _ : Text => Pending Text) : CompanionM ω (List (Pending Text)) := do
  return (env.drain (← get).world index.entries).map Sigma.snd

/-- The part of `enumerate` that asks the inspector. -/
def addEnumerated (index : AList fun _ : Text => Pending Text) :
    CompanionM ω ((AList fun _ : Text => Pending Text) × Except InspectionError Unit) := do
  if config.enumerate then
    let r ← call (env.inspector.enumerate · []) fun r => .enumerate r.2 r.1
    return match r with
      | (.error e, _) => (index, .error e)
      | (.ok (), enumeration) => (enumeration.foldl orInsertEnumerated index, .ok ())
  else return (index, .ok ())

def enumerate (explicitContainerNames : List Text) :
    CompanionM ω (List (Pending Text) × Except CompanionError Unit) := do
  let r ← addEnumerated config env (explicitContainerNames.foldl insertExplicit ∅)
  let finalNames ← drain env r.1
  return (finalNames, r.2.mapError .inspection)

def inspect (containerName : Pending Text) :
    CompanionM ω (Except CompanionError (Pending Inspection)) := do
  let result ← call (env.inspector.inspect · containerName.todo) (.inspect containerName.todo)
  return (result.map (Pending.mk containerName.explicit)).mapError .inspection

def publish (publication : Publication) : CompanionM ω (Except CompanionError Unit) := do
  let result ← call (env.publisher.publish · publication) (.publish publication)
  return result.mapError .publishing

def toPublication (inspection : Pending Inspection) : Publication :=
  ⟨inspection.todo.host, inspection.todo.specs⟩

/-- Whether a failed inspection is added to the errors. -/
def considerError (wasExplicit : Bool) : Bool :=
  if config.missingContainer = .report then true else if wasExplicit then true else false

/-- Whether a missing variable is added to the errors. -/
def envVarError (wasExplicit : Bool) : Bool :=
  match wasExplicit, config.missingEnvvar with
  | true, .automatic | _, .report => true
  | _, _ => false

/-- Inspect and publish one container. -/
def refreshContainer (errors : List CompanionError) (name : Pending Text) :
    CompanionM ω (List CompanionError) := do
  match ← inspect env name with
  | .error e => return if considerError config name.explicit then errors ++ [e] else errors
  | .ok inspection =>
    if !inspection.todo.envvarPresent then
      return if envVarError config name.explicit then
        errors ++ [.envVarMissing name.todo config.envvar] else errors
    else if config.dryRun then return errors
    else match ← publish env (toPublication inspection) with
      | .error e => return errors ++ [e]
      | .ok () => return errors

/-- Combine the names, then refresh each of the containers. -/
def refresh (explicitContainerNames : List Text) : CompanionM ω (List CompanionError) := do
  let r ← enumerate config env explicitContainerNames
  let errors := match r.2 with
    | .error e => [e]
    | .ok () => []
  r.1.foldlM (refreshContainer config env) errors

/-- One pass of the loop of `wait`. -/
def waitPass (refreshTimeout : Receiver ω) : CompanionM ω (Option Bool) := do
  mark .waitPass
  -- signals take precedence over waiting
  match ← call env.poll .poll with
  | some _ => return some false
  | none =>
    let now ← now env
    let watchdogTimeout ← deadlineToAlarmClock now (← get).nextWatchdog "watchdog".toList
    match ← call (env.select · refreshTimeout watchdogTimeout) .woke with
    | .signal _ => return some false
    | .refresh => return some true
    | .watchdog =>
      notifyStatus config env "Waiting".toList
      return none

/-- Wait for the next refresh. Gives `false` when the program should exit. -/
def wait (passes : ℕ) : CompanionM ω Bool := do
  mark .wait
  match config.refreshSeconds with
  | some refreshSeconds =>
    let startOfWait ← now env
    let nextRefresh ← addDuration startOfWait (Duration.seconds refreshSeconds.toNat)
    let refreshTimeout ← deadlineToAlarmClock startOfWait (some nextRefresh) "refresh".toList
    loop .unfinished (waitPass config env refreshTimeout) passes
  | none => return false

def shutdownEntries : List (Text × Text) :=
  [(STATE_STATUS, "Stopping".toList), (STATE_STOPPING, "1".toList)]

def notifyStopping : CompanionM ω Unit := do
  if config.systemd then
    let _ ← notify env shutdownEntries

/-- The end of an iteration: wait, and shut down unless another iteration follows. -/
def endIteration (errors : List CompanionError) (passes : ℕ) :
    CompanionM ω (Option (Except (List CompanionError) Unit)) := do
  notifyStatus config env "Waiting".toList
  if ← wait config env passes then return none
  else
    notifyStopping config env
    -- errors of the last iteration only matter if there was only one
    if errors.isEmpty || config.refreshSeconds.isSome then return some (.ok ())
    else return some (.error errors)

/-- One pass of the loop of `run`. -/
def iteration (explicitContainerNames : List Text) (passes : ℕ) :
    CompanionM ω (Option (Except (List CompanionError) Unit)) := do
  mark .iteration
  notifyStatus config env "Refreshing".toList
  let errors ← span .work (refresh config env explicitContainerNames)
  endIteration config env errors passes

/-- The loop of `run`, after the initial notification. -/
def iterate (explicitContainerNames : List Text) (iterations passes : ℕ) :
    CompanionM ω (Except (List CompanionError) Unit) :=
  loop .unfinished (iteration config env explicitContainerNames passes) iterations

def readyEntries : List (Text × Text) := [(STATE_READY, "1".toList)]

def run (explicitContainerNames : List Text) (iterations passes : ℕ) :
    CompanionM ω (Except (List CompanionError) Unit) := do
  new config env
  if config.systemd then
    match ← notify env readyEntries with
    | .error e => return .error [e]
    | .ok () => iterate config env explicitContainerNames iterations passes
  else iterate config env explicitContainerNames iterations passes

/-- The world at the start of a run. -/
def start (w : ω) : Context ω := ⟨none, w, []⟩

end Companion
end Beachhead
