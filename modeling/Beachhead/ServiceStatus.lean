import Beachhead.Lifecycle
import Beachhead.Verdict

/-!
# What the service manager is told

The service manager shows the last status that it has taken. Every phase of the protocol
fixes what was sent before it is reached. So the last status that was sent is always what
the program does, and it is shown unless its notification failed.
-/
namespace Beachhead
open Companion

/-- The status that a notification sends, and whether the service manager took it. -/
def Event.status? : Event → Option (Text × Bool)
  | .notify entries result => (entries.lookup STATE_STATUS).map fun status => (status, result.isOk)
  | _ => none

/-- Whether the event is a notification with the key. -/
def Event.sends (key : Text) : Event → Bool
  | .notify entries _ => (entries.lookup key).isSome
  | _ => false

namespace Companion
open Machine

/-- The last status that was sent, and whether the service manager took it. -/
def lastSent (events : List Event) : Option (Text × Bool) :=
  (events.filterMap Event.status?).getLast?

/-- The status that the service manager shows, the last one that it took. -/
def shown (events : List Event) : Option Text :=
  ((events.filterMap Event.status?).filter Prod.snd).getLast?.map Prod.fst

private theorem lastSent_concat (events : List Event) (e : Event) :
    lastSent (events ++ [e]) = e.status?.or (lastSent events) := by
  rw [lastSent, List.filterMap_append]
  cases h : e.status? with
  | none => simp [h, lastSent]
  | some status => simp [h]

/-- A status that was taken is shown until another one is sent. -/
theorem shown_of_lastSent {events : List Event} {status : Text}
    (h : lastSent events = some (status, true)) :
    shown events = some status := by
  obtain ⟨earlier, hlast⟩ := List.getLast?_eq_some_iff.mp h
  rw [shown, hlast, List.filter_append]
  simp

variable {config : Config}

/-- The service manager took READY. The status was sent last, and it is shown if it was taken. -/
structure Announced (status : Text) (events : List Event) : Prop where
  ready : .notify readyEntries (.ok ()) ∈ events
  sent : ∃ taken, lastSent events = some (status, taken) ∧
    (taken = true → shown events = some status)

private theorem announced_of_sent {status : Text} {taken : Bool} {events : List Event}
    (hready : .notify readyEntries (.ok ()) ∈ events) (h : lastSent events = some (status, taken)) :
    Announced status events :=
  ⟨hready, taken, h, fun htaken => shown_of_lastSent (htaken ▸ h)⟩

private theorem Announced.silent {status : Text} {events : List Event} {e : Event}
    (h : Announced status events) (he : e.status? = none) : Announced status (events ++ [e]) := by
  obtain ⟨taken, hsent, -⟩ := h.sent
  have hlast : lastSent (events ++ [e]) = some (status, taken) := by
    rw [lastSent_concat, he, Option.none_or, hsent]
  exact announced_of_sent (List.mem_append_left _ h.ready) hlast

private theorem announced_alive {events : List Event} (h : .notify readyEntries (.ok ()) ∈ events)
    (status : Text) (result : Except IoError Unit) :
    Announced status (events ++ [.notify (aliveEntries status) result]) :=
  announced_of_sent (List.mem_append_left _ h) (lastSent_concat _ _)

/-- What the service manager was told when the phase is reached. -/
def Told (events : List Event) : Phase → Prop
  | .starting => ∀ e ∈ events, ∀ entries result, e ≠ .notify entries result
  | .failed | .stopped => True
  | .ready | .announcing => .notify readyEntries (.ok ()) ∈ events
  | .enumerating | .refreshing _ | .closing => Announced "Refreshing".toList events
  | .worked | .waiting | .polling | .selecting | .pinging | .stopping =>
    Announced "Waiting".toList events

private theorem Announced.work {events : List Event} (h : Announced "Refreshing".toList events) :
    Told events (Phase.work config) := by
  rw [Phase.work]
  split
  · exact h
  · exact h

private theorem Announced.leave {events : List Event} (h : Announced "Waiting".toList events)
    (hsystemd : config.systemd = true) : Told events (Phase.leave config) := by
  rw [Phase.leave, if_pos hsystemd]
  exact h

section
variable {u : List Event} {r : Phase} {e : Event}

private theorem told_starting (h : Told u .starting)
    (hstep : Phase.starting.advance config e = some r) : Told (u ++ [e]) r := by
  cases e with
  | now t =>
    obtain rfl := Option.some.inj hstep
    exact List.forall_mem_append.mpr ⟨h, by simp⟩
  | notify entries result =>
    obtain ⟨rfl, hr⟩ := Option.ite_none_right_eq_some.mp hstep
    obtain rfl := Option.some.inj hr
    cases result with
    | ok u => exact List.mem_append_right _ List.mem_cons_self
    | error err => trivial
  | _ => cases hstep

private theorem told_ready (hsystemd : config.systemd = true) (h : Told u .ready)
    (hstep : Phase.ready.advance config e = some r) : Told (u ++ [e]) r := by
  cases e with
  | now t =>
    obtain rfl := Option.some.inj hstep
    exact List.mem_append_left _ h
  | iteration =>
    rw [Phase.advance, if_pos hsystemd] at hstep
    obtain rfl := Option.some.inj hstep
    exact List.mem_append_left _ h
  | _ => cases hstep

private theorem told_announcing (h : Told u .announcing)
    (hstep : Phase.announcing.advance config e = some r) : Told (u ++ [e]) r := by
  cases e with
  | now t =>
    obtain rfl := Option.some.inj hstep
    exact List.mem_append_left _ h
  | notify entries result =>
    obtain ⟨rfl, hr⟩ := Option.ite_none_right_eq_some.mp hstep
    obtain rfl := Option.some.inj hr
    exact (announced_alive h _ result).work
  | _ => cases hstep

private theorem told_enumerating (h : Announced "Refreshing".toList u)
    (hstep : Phase.enumerating.advance config e = some r) : Told (u ++ [e]) r := by
  cases e with
  | enumerate names result =>
    obtain rfl := Option.some.inj hstep
    exact h.silent rfl
  | _ => cases hstep

private theorem told_refreshing (hsystemd : config.systemd = true) {found : Option Publication}
    (h : Announced "Refreshing".toList u)
    (hstep : (Phase.refreshing found).advance config e = some r) : Told (u ++ [e]) r := by
  cases found with
  | none =>
    cases e with
    | inspect name result =>
      obtain rfl := Option.some.inj hstep
      exact h.silent rfl
    | work =>
      rw [Phase.advance, if_pos hsystemd] at hstep
      obtain rfl := Option.some.inj hstep
      exact h.silent rfl
    | _ => cases hstep
  | some found =>
    cases e with
    | publish publication result =>
      obtain ⟨-, hr⟩ := Option.ite_none_right_eq_some.mp hstep
      obtain rfl := Option.some.inj hr
      exact h.silent rfl
    | _ => cases hstep

private theorem told_closing (h : Announced "Refreshing".toList u)
    (hstep : Phase.closing.advance config e = some r) : Told (u ++ [e]) r := by
  cases e with
  | now t =>
    obtain rfl := Option.some.inj hstep
    exact h.silent rfl
  | notify entries result =>
    obtain ⟨rfl, hr⟩ := Option.ite_none_right_eq_some.mp hstep
    obtain rfl := Option.some.inj hr
    exact announced_alive h.ready _ result
  | _ => cases hstep

private theorem told_worked (hsystemd : config.systemd = true) (h : Announced "Waiting".toList u)
    (hstep : Phase.worked.advance config e = some r) : Told (u ++ [e]) r := by
  cases e with
  | wait =>
    obtain rfl := Option.some.inj hstep
    split
    · exact h.silent rfl
    · exact (h.silent rfl).leave hsystemd
  | _ => cases hstep

private theorem told_waiting (h : Announced "Waiting".toList u)
    (hstep : Phase.waiting.advance config e = some r) : Told (u ++ [e]) r := by
  cases e with
  | now t | after desc remaining | waitPass =>
    obtain rfl := Option.some.inj hstep
    exact h.silent rfl
  | _ => cases hstep

private theorem told_polling (hsystemd : config.systemd = true) (h : Announced "Waiting".toList u)
    (hstep : Phase.polling.advance config e = some r) : Told (u ++ [e]) r := by
  cases e with
  | poll sig =>
    obtain rfl := Option.some.inj hstep
    split
    · exact (h.silent rfl).leave hsystemd
    · exact h.silent rfl
  | _ => cases hstep

private theorem told_selecting (hsystemd : config.systemd = true)
    (h : Announced "Waiting".toList u) (hstep : Phase.selecting.advance config e = some r) :
    Told (u ++ [e]) r := by
  cases e with
  | now t | after desc remaining =>
    obtain rfl := Option.some.inj hstep
    exact h.silent rfl
  | woke wake =>
    have hwoke : Announced "Waiting".toList (u ++ [.woke wake]) := h.silent rfl
    cases wake with
    | signal sig =>
      obtain rfl := Option.some.inj hstep
      exact hwoke.leave hsystemd
    | refresh =>
      obtain rfl := Option.some.inj hstep
      exact hwoke.ready
    | watchdog =>
      rw [Phase.advance, if_pos hsystemd] at hstep
      obtain rfl := Option.some.inj hstep
      exact hwoke
  | _ => cases hstep

private theorem told_pinging (h : Announced "Waiting".toList u)
    (hstep : Phase.pinging.advance config e = some r) : Told (u ++ [e]) r := by
  cases e with
  | now t =>
    obtain rfl := Option.some.inj hstep
    exact h.silent rfl
  | notify entries result =>
    obtain ⟨rfl, hr⟩ := Option.ite_none_right_eq_some.mp hstep
    obtain rfl := Option.some.inj hr
    exact announced_alive h.ready _ result
  | _ => cases hstep

private theorem told_stopping (hstep : Phase.stopping.advance config e = some r) :
    Told (u ++ [e]) r := by
  cases e with
  | notify entries result =>
    obtain ⟨-, hr⟩ := Option.ite_none_right_eq_some.mp hstep
    obtain rfl := Option.some.inj hr
    trivial
  | _ => cases hstep

/-- A call leads to a phase for which the service manager was told enough. -/
theorem told_step (hsystemd : config.systemd = true) {p : Phase} (h : Told u p)
    (hstep : p.advance config e = some r) : Told (u ++ [e]) r := by
  cases p with
  | starting => exact told_starting h hstep
  | ready => exact told_ready hsystemd h hstep
  | announcing => exact told_announcing h hstep
  | enumerating => exact told_enumerating h hstep
  | refreshing found => exact told_refreshing hsystemd h hstep
  | closing => exact told_closing h hstep
  | worked => exact told_worked hsystemd h hstep
  | waiting => exact told_waiting h hstep
  | polling => exact told_polling hsystemd h hstep
  | selecting => exact told_selecting hsystemd h hstep
  | pinging => exact told_pinging h hstep
  | stopping => exact told_stopping hstep
  | failed | stopped => cases hstep

end

/-- A notification is the first, the last or one with a status. -/
theorem advance_notify {p r : Phase} {entries : List (Text × Text)} {result : Except IoError Unit}
    (h : p.advance config (.notify entries result) = some r) :
    p = .starting ∧ entries = readyEntries ∨ (∃ status, entries = aliveEntries status) ∨
      r = .stopped ∧ entries = shutdownEntries := by
  cases p with
  | starting => exact .inl ⟨rfl, (Option.ite_none_right_eq_some.mp h).1⟩
  | announcing | closing | pinging =>
    exact .inr (.inl ⟨_, (Option.ite_none_right_eq_some.mp h).1⟩)
  | stopping =>
    obtain ⟨hentries, hr⟩ := Option.ite_none_right_eq_some.mp h
    exact .inr (.inr ⟨(Option.some.inj hr).symm, hentries⟩)
  | refreshing found => cases found <;> cases h
  | _ => cases h

/-- A notification is READY or comes after READY was taken. -/
theorem ready_of_notify {p r : Phase} {entries : List (Text × Text)} {result : Except IoError Unit}
    {events : List Event} (h : p.advance config (.notify entries result) = some r)
    (htold : Told events p) :
    entries = readyEntries ∨ .notify readyEntries (.ok ()) ∈ events := by
  cases p with
  | starting => exact .inl (Option.ite_none_right_eq_some.mp h).1
  | announcing => exact .inr htold
  | closing | pinging | stopping => exact .inr htold.ready
  | refreshing found => cases found <;> cases h
  | _ => cases h

/-- A container is only handled in the phases of the refresh. -/
theorem told_of_container {p r : Phase} {e : Event} {events : List Event}
    (h : p.advance config e = some r) (he : e.isContainer = true) (htold : Told events p) :
    Announced "Refreshing".toList events := by
  cases e with
  | enumerate names result | inspect name result | publish publication result =>
    cases p with
    | enumerating | refreshing found => exact htold
    | _ => cases h
  | _ => cases he

/-- A status is sent before what it says happens, READY comes after no notification and every other
notification after READY was taken, and no call comes after STOPPING. -/
structure Truthful (before : List Event) (e : Event) (after : List Event) : Prop where
  refreshing : e.isContainer = true → Announced "Refreshing".toList before
  waiting : ∀ wake, e = .woke wake → Announced "Waiting".toList before
  first : e.sends STATE_READY = true → ∀ e' ∈ before, ∀ entries result, e' ≠ .notify entries result
  others : ∀ entries result, e = .notify entries result → e.sends STATE_READY = false →
    .notify readyEntries (.ok ()) ∈ before
  last : e.sends STATE_STOPPING = true → after = []

private theorem truthful_of_read (hsystemd : config.systemd = true) {before after : List Event}
    {e : Event} {p : Phase}
    (h : read (Phase.advance config) .starting (before ++ e :: after) = some p) :
    Truthful before e after := by
  obtain ⟨q, r, hbefore, he, hafter⟩ := read_middle h
  have htold : Told before q := read_invariant (I := Told) (by simp [Told])
    (fun u p a r => told_step hsystemd) hbefore
  have hstatus (status : Text) : (aliveEntries status).lookup STATE_READY = none ∧
      (aliveEntries status).lookup STATE_STOPPING = none := ⟨rfl, rfl⟩
  constructor
  · exact fun hcontainer => told_of_container he hcontainer htold
  · rintro wake rfl
    cases q with
    | selecting => exact htold
    | refreshing found => cases found <;> cases he
    | _ => cases he
  · intro hsends
    cases e with
    | notify entries result =>
      obtain ⟨rfl, -⟩ | ⟨status, rfl⟩ | ⟨-, rfl⟩ := advance_notify he
      · exact htold
      · cases hsends
      · cases hsends
    | _ => cases hsends
  · rintro entries result rfl hother
    obtain rfl | hready := ready_of_notify he htold
    · cases hother
    · exact hready
  · intro hsends
    cases e with
    | notify entries result =>
      obtain ⟨-, rfl⟩ | ⟨status, rfl⟩ | ⟨rfl, -⟩ := advance_notify he
      · cases hsends
      · cases hsends
      · exact read_refusing (fun _ => rfl) hafter
    | _ => cases hsends

/-- With systemd no container is handled before READY was taken, the last status that was sent is
always what the program does and is shown if it was taken, READY is the first notification, and
nothing follows STOPPING. -/
theorem run_truthful {ω : Type} (config : Config) (env : Environment ω)
    (hsystemd : config.systemd = true) (explicit : List Text) (n passes : ℕ) (w : ω)
    (before after : List Event) (e : Event)
    (h : (Program.finalState (run config env explicit n passes) (start w)).events =
      before ++ e :: after) : Truthful before e after := by
  obtain ⟨p, hp⟩ := finalState_phase config env explicit n passes w
  rw [InPhase, h, Phase.initial, if_pos hsystemd] at hp
  exact truthful_of_read hsystemd hp

/-- The events of a run that is told to stop in its first wait. -/
def announcedEvents : List Event :=
  (Program.finalState (run { Config.default with systemd := true } (fixedEnvironment dbMissing)
    ["web".toList] 1 1) (start ())).events

theorem run_truthful_web : Truthful (announcedEvents.take 4)
    (.inspect "web".toList (dbMissing "web".toList)) (announcedEvents.drop 5) :=
  run_truthful { Config.default with systemd := true } (fixedEnvironment dbMissing) rfl
    ["web".toList] 1 1 () _ _ _ (by decide +kernel)

end Companion
end Beachhead
