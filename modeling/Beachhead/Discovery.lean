import Beachhead.EnvironmentLines
import Beachhead.Verdict

/-!
# Containers that are listed and found

The daemon's list has the name of a container with a slash in front, and the companion
keeps that slash. An inspection uses the name it was given as the host, and the names of
an iteration are compared as texts.
-/
namespace Beachhead.Companion
open Program DockerInspector

variable {ω α : Type} {config : Config} {env : Environment ω} {D : Docker ω}

/-- The name that the daemon's list has for a container. -/
def daemonName (name : Text) : Text := '/' :: name

/-- The container is in the daemon's list and is inspected under both names. -/
structure Running (D : Docker ω) (w : ω) (name : Text) : Prop where
  listed : ∃ containers, (D.list w "running".toList).1 = .ok containers ∧
    ∃ c ∈ containers, c.names.head? = some (daemonName name)
  inspect : ∀ w, (D.inspect w (daemonName name)).1 = (D.inspect w name).1

def publicationOf : Event → Option Publication
  | .publish publication _ => some publication
  | _ => none

/-- What `x` hands to the publisher. -/
def publishedBy (x : CompanionM ω α) (ctx : Context ω) : List Publication :=
  ((finalState x ctx).trace.drop ctx.trace.length).filterMap fun E => publicationOf E.event

/-- The key under which a publication is stored. -/
def publicationKey (config : Config) (publication : Publication) : Text :=
  RedisPublisher.serviceKey config publication.host []

def isNamed (name : Text) (p : Pending Text) : Bool := p.todo = name ∨ p.todo = daemonName name

/-- It makes no difference whether the container is listed or found, and it is one pending
item if it is both. -/
structure SameDiscovery (config : Config) (env : Environment ω) (explicit : List Text)
    (name : Text) (ctx ctx' : Context ω) : Prop where
  published : ∀ errors errors',
    publishedBy (refreshContainer config env errors ⟨true, name⟩) ctx' =
      publishedBy (refreshContainer config env errors' ⟨false, daemonName name⟩) ctx'
  keys : ∀ errors errors',
    (publishedBy (refreshContainer config env errors ⟨true, name⟩) ctx').map
        (publicationKey config) =
      (publishedBy (refreshContainer config env errors' ⟨false, daemonName name⟩) ctx').map
        (publicationKey config)
  merged : config.enumerate = true → name ∈ explicit →
    ∃ pending result ctx₁, enumerate config env explicit ctx = .ok (pending, result) ctx₁ ∧
      ∃ p, pending.filter (isNamed name) = [p] ∧ p.explicit = true

/-- The variable is set and the parser accepts its values. -/
def Announces (config : Config) (container : ContainerDetails) : Prop :=
  matchingValues config container.env ≠ [] ∧
    ¬DomainSpec.PortRejected ([' '].intercalate (matchingValues config container.env))

/-- The daemon's answer leads to a publication. -/
def IsPublished (config : Config) (answer : Except ShipliftError ContainerDetails) : Prop :=
  config.dryRun = false ∧ ∃ container, answer = .ok container ∧ Announces config container

theorem announces_iff (container : ContainerDetails) : Announces config container ↔
    ∃ specs, parseContainerEnvVars container.env config false [] = (.ok (), true, specs) := by
  rw [Announces, ← DomainSpec.parseAll_error_iff _ [], parseContainerEnvVars_values]
  generalize DomainSpec.parseAll ([' '].intercalate (matchingValues config container.env)) [] = left
  obtain ⟨result, specs⟩ := left
  cases result <;> simp [Except.mapError]

private theorem publication?_announced (hdry : config.dryRun = false) {container : ContainerDetails}
    (h : Announces config container) : ∃ specs, ∀ name,
      publication? config (inspection config name container) =
        some ⟨if config.dockerNetwork then name else container.ipAddress, specs⟩ := by
  obtain ⟨specs, hspecs⟩ := (announces_iff container).mp h
  refine ⟨specs, fun name => ?_⟩
  rw [inspection, hspecs]
  simp [publication?, hdry]

private theorem publication?_silent {container : ContainerDetails}
    (h : ¬(config.dryRun = false ∧ Announces config container)) (name : Text) :
    publication? config (inspection config name container) = none := by
  rw [announces_iff] at h
  rw [inspection]
  generalize parseContainerEnvVars container.env config false [] = parsed at h ⊢
  obtain ⟨result, present, specs⟩ := parsed
  cases result with
  | error e => rfl
  | ok u =>
    cases present with
    | false => rfl
    | true =>
      have hdry : config.dryRun = true := by simpa using h
      simp [publication?, hdry]

private theorem publishedBy_refreshContainer (errors : List CompanionError) (name : Pending Text)
    (ctx : Context ω) : publishedBy (refreshContainer config env errors name) ctx =
      (publication? config (env.inspector.inspect ctx.world name.todo).1).toList := by
  rw [publishedBy, finalState, refreshContainer_eq]
  have hinspected : (inspectStep env ctx name.todo).1 =
    (env.inspector.inspect ctx.world name.todo).1 := rfl
  rw [← hinspected]
  cases h : publication? config (inspectStep env ctx name.todo).1 with
  | none =>
    rw [visit_none h]
    simp [inspectStep, Context.record, Context.note, publicationOf]
  | some publication =>
    rw [visit_some h]
    simp [inspectStep, publishStep, Context.record, Context.note, publicationOf]

private theorem daemonName_ne (name : Text) : name ≠ daemonName name := by
  intro h
  have hlength := congrArg List.length h
  rw [daemonName, List.length_cons] at hlength
  omega

/-- What is published under two names of one container differs exactly if something is
published and the host is the name. -/
theorem publishedBy_same_iff (hI : env.inspector = toInspect D config) {name : Text}
    {ctx : Context ω} (h : (D.inspect ctx.world (daemonName name)).1 = (D.inspect ctx.world name).1)
    (errors errors' : List CompanionError) :
    publishedBy (refreshContainer config env errors ⟨true, name⟩) ctx =
        publishedBy (refreshContainer config env errors' ⟨false, daemonName name⟩) ctx ↔
      config.dockerNetwork = false ∨ ¬IsPublished config (D.inspect ctx.world name).1 := by
  rw [publishedBy_refreshContainer, publishedBy_refreshContainer, hI]
  change Option.toList (publication? config (DockerInspector.inspect D config ctx.world name).1) =
    Option.toList (publication? config
      (DockerInspector.inspect D config ctx.world (daemonName name)).1) ↔ _
  cases hanswer : (D.inspect ctx.world name).1 with
  | error e =>
    rw [docker_inspect_error hanswer, docker_inspect_error (h.trans hanswer)]
    simp [IsPublished]
  | ok container =>
    rw [docker_inspect_ok hanswer, docker_inspect_ok (h.trans hanswer)]
    by_cases hpublished : config.dryRun = false ∧ Announces config container
    · obtain ⟨specs, hspecs⟩ := publication?_announced hpublished.1 hpublished.2
      rw [hspecs, hspecs]
      have hne : name ≠ daemonName name := daemonName_ne name
      cases config.dockerNetwork <;> simp [IsPublished, hpublished, hne]
    · rw [publication?_silent hpublished, publication?_silent hpublished]
      have hnot : ¬IsPublished config (.ok container) := by
        simpa [IsPublished] using hpublished
      exact iff_of_true rfl (.inr hnot)

/-- The names of a container that is listed and found are two pending items. -/
theorem pending_of_found (hI : env.inspector = toInspect D config)
    (henumerate : config.enumerate = true) {explicit : List Text} {name : Text}
    (hexplicit : name ∈ explicit) {ctx : Context ω} (h : Running D ctx.world name) :
    ∃ p ∈ processed config env explicit ctx, ∃ p' ∈ processed config env explicit ctx,
      p.todo = name ∧ p'.todo = daemonName name := by
  have hmerged : Merged (processed config env explicit ctx) explicit
      (askStep config env ctx).1.names := processed_merged explicit ctx
  have hfound : daemonName name ∈ (askStep config env ctx).1.names := by
    obtain ⟨containers, hlist, c, hc, hhead⟩ := h.listed
    rw [mem_asked, hI]
    change _ ∧ (DockerInspector.enumerate D ctx.world []).1.1 = .ok () ∧
      daemonName name ∈ (DockerInspector.enumerate D ctx.world []).1.2
    unfold DockerInspector.enumerate
    generalize D.list ctx.world "running".toList = answer at hlist
    obtain ⟨result, w⟩ := answer
    obtain rfl : result = .ok containers := hlist
    exact ⟨henumerate, rfl, List.mem_map.mpr ⟨c, hc, by rw [hhead, Option.getD_some]⟩⟩
  obtain ⟨p, hp, htodo⟩ := List.mem_map.mp ((hmerged.mem name).mpr (.inl hexplicit))
  obtain ⟨p', hp', htodo'⟩ := List.mem_map.mp ((hmerged.mem (daemonName name)).mpr (.inr hfound))
  exact ⟨p, hp, p', hp', htodo, htodo'⟩

/-- A container that is listed and found is never merged into one pending item. -/
theorem not_merged (hI : env.inspector = toInspect D config)
    (henumerate : config.enumerate = true) {explicit : List Text} {name : Text}
    (hexplicit : name ∈ explicit) {ctx : Context ω} (h : Running D ctx.world name)
    {pending : List (Pending Text)} {result : Except CompanionError Unit} {ctx' : Context ω}
    (hpending : enumerate config env explicit ctx = .ok (pending, result) ctx') (p : Pending Text) :
    pending.filter (isNamed name) ≠ [p] := by
  intro hfilter
  rw [enumerate_eq] at hpending
  injection hpending with hresult
  obtain rfl := (Prod.mk.inj hresult).1
  obtain ⟨q, hq, q', hq', htodo, htodo'⟩ := pending_of_found hI henumerate hexplicit h
  have hmem : ∀ r ∈ processed config env explicit ctx, isNamed name r → r = p := by
    intro r hr hnames
    have hfiltered := List.mem_filter.mpr ⟨hr, hnames⟩
    rwa [hfilter, List.mem_singleton] at hfiltered
  have hp := hmem q hq (by simp [isNamed, htodo])
  have hp' := hmem q' hq' (by simp [isNamed, htodo'])
  apply daemonName_ne name
  calc
    name = p.todo := by rw [← htodo, hp]
    _ = daemonName name := by rw [← htodo', hp']

/-- A container may be listed or found without a difference exactly if the host is not its
name or nothing is published, and it is not listed while the daemon is asked for names. -/
theorem sameDiscovery_iff {ω : Type} (D : Docker ω) (config : Config) (env : Environment ω)
    (hI : env.inspector = toInspect D config) (explicit : List Text) (name : Text)
    (ctx ctx' : Context ω) (h : Running D ctx.world name) :
    SameDiscovery config env explicit name ctx ctx' ↔
      (config.dockerNetwork = false ∨ ¬IsPublished config (D.inspect ctx'.world name).1) ∧
        (config.enumerate = false ∨ name ∉ explicit) := by
  constructor
  · intro hsame
    refine ⟨(publishedBy_same_iff hI (h.inspect _) [] []).mp (hsame.published [] []), ?_⟩
    by_contra hcon
    rw [not_or, Bool.not_eq_false, not_not] at hcon
    obtain ⟨pending, result, ctx₁, hpending, p, hp, -⟩ := hsame.merged hcon.1 hcon.2
    exact not_merged hI hcon.1 hcon.2 h hpending p hp
  · rintro ⟨hhost, hlisted⟩
    have hpublished : ∀ errors errors',
        publishedBy (refreshContainer config env errors ⟨true, name⟩) ctx' =
          publishedBy (refreshContainer config env errors' ⟨false, daemonName name⟩) ctx' :=
      fun errors errors' => (publishedBy_same_iff hI (h.inspect _) errors errors').mpr hhost
    refine ⟨hpublished, fun errors errors' => by rw [hpublished errors errors'], ?_⟩
    intro henumerate hexplicit
    obtain hoff | hnot := hlisted
    · rw [henumerate] at hoff
      cases hoff
    · exact absurd hexplicit hnot

/-- A daemon with the container `web`. -/
def webDocker : Docker Unit where
  list w _ := (.ok [⟨"4f1d".toList, ["/web".toList]⟩], w)
  inspect w _ := (.ok ⟨"10.0.0.2".toList, some ["BEACHHEAD_DOMAINS=example.org".toList]⟩, w)

private theorem webDocker_running : Running webDocker () "web".toList where
  listed := ⟨_, rfl, _, List.mem_cons_self, rfl⟩
  inspect _ := rfl

def webEnvironment (config : Config) : Environment Unit :=
  { fixedEnvironment dbMissing with inspector := toInspect webDocker config }

/-- The container is found, and published under its address. -/
theorem sameDiscovery_iff_web :
    SameDiscovery { Config.default with enumerate := true }
      (webEnvironment { Config.default with enumerate := true }) [] "web".toList (start ())
      (start ()) :=
  (sameDiscovery_iff webDocker { Config.default with enumerate := true }
    (webEnvironment { Config.default with enumerate := true }) rfl [] "web".toList (start ())
    (start ()) webDocker_running).mpr ⟨.inl rfl, .inr List.not_mem_nil⟩

def onNetwork : Config := { Config.default with dockerNetwork := true, enumerate := true }

/-- On the docker network the container `web` is published as `web` if it is listed and as
`/web` if it is found. -/
theorem not_sameDiscovery_web :
    Running webDocker () "web".toList ∧
    publishedBy (refreshContainer onNetwork (webEnvironment onNetwork) [] ⟨true, "web".toList⟩)
        (start ()) =
      [⟨"web".toList, [⟨"example.org".toList, some 80, some 443⟩]⟩] ∧
    publishedBy (refreshContainer onNetwork (webEnvironment onNetwork) [] ⟨false, "/web".toList⟩)
        (start ()) =
      [⟨"/web".toList, [⟨"example.org".toList, some 80, some 443⟩]⟩] ∧
    ¬SameDiscovery onNetwork (webEnvironment onNetwork) ["web".toList] "web".toList (start ())
      (start ()) := by
  have hlisted : publishedBy (refreshContainer onNetwork (webEnvironment onNetwork) []
      ⟨true, "web".toList⟩) (start ()) =
        [⟨"web".toList, [⟨"example.org".toList, some 80, some 443⟩]⟩] := by decide
  have hfound : publishedBy (refreshContainer onNetwork (webEnvironment onNetwork) []
      ⟨false, "/web".toList⟩) (start ()) =
        [⟨"/web".toList, [⟨"example.org".toList, some 80, some 443⟩]⟩] := by decide
  refine ⟨webDocker_running, hlisted, hfound, fun h => ?_⟩
  have hsame := h.published [] []
  have hname : daemonName "web".toList = "/web".toList := rfl
  rw [hname, hlisted, hfound] at hsame
  exact absurd hsame (by decide)

end Beachhead.Companion
