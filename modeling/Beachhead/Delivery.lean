import Beachhead.Convergence
import Beachhead.EnvironmentLines
import Beachhead.ParserGrammar
import Beachhead.PublishedPorts

/-!
# From the environment of a container to the consumer

A container asks for domains in the documented grammar. Once it has been published, what a
consumer reads under its host are these domains with their ports, at every later moment and
whatever else the run publishes, until the container asks for something else.
-/
namespace Beachhead.DomainSpec

/-- Values in the grammar are parsed into the meanings of their trees. -/
theorem parse_values {groups : List (List SpecTree)} {values : List Text}
    (h : List.Forall₂ Rendered groups values) :
    (values.map parse).prod = ⟨.ok (), groups.flatten.map SpecTree.meaning⟩ := by
  induction h with
  | nil => rfl
  | @cons ts value groups values hvalue _ ih =>
    rw [List.map_cons, List.prod_cons, parse_rendered hvalue, ih, List.flatten_cons,
      List.map_append]
    rfl

end Beachhead.DomainSpec

namespace Beachhead.Consumer
open Json JsonSerializer RedisPublisher

/-- The decoder reads every value back whose ports it accepts. -/
theorem parsePublished_accepted (K : Codec) (accept : ℤ → Bool) (host : Text)
    {specs : List DomainSpec} (h : ∀ spec ∈ specs,
      (checkPort accept spec.httpPort).isSome ∧ (checkPort accept spec.httpsPort).isSome) :
    parsePublished K accept host (storedText K host specs) =
      some (specs.map fun spec => (spec.specId, spec)) := by
  have hcheck (o : Option UInt16) (ho : (checkPort accept o).isSome) :
      checkPort accept o = some o := by
    cases o with
    | none => rfl
    | some p =>
      rw [checkPort] at ho ⊢
      split at ho
      · exact if_pos ‹_›
      · cases ho
  rw [parsePublished, storedText, K.decode_encode _ (domainConfigs_valid host specs)]
  simp only [Option.bind_eq_bind, Option.bind_some, Value.asArray, domainConfigs]
  induction specs with
  | nil => rfl
  | cons spec specs ih =>
    obtain ⟨⟨hhttp, hhttps⟩, hrest⟩ := List.forall_mem_cons.mp h
    simp only [List.map_cons, List.mapM_cons, parseDomainConfig_domainConfig, hcheck _ hhttp,
      hcheck _ hhttps, ih hrest]
    rfl

end Beachhead.Consumer

namespace Beachhead.Companion
open Program Causation DomainSpec DockerInspector RedisPublisher

variable {ω : Type} {config : Config} {env : Environment ω} {D : Docker ω}

/-- The entry inspects a container that is served under the host and has these values of the
configured variable. -/
def Asks (D : Docker ω) (config : Config) (host : Text) (E : Entry ω) (values : List Text) :
    Prop :=
  ∃ name result container, E.event = .inspect name result ∧
    (D.inspect E.before name).1 = .ok container ∧
    host = hostOf config (fun _ => container) name ∧ matchingValues config container.env = values

/-- What an inspection finds in values in the grammar. -/
theorem inspection_rendered {name : Text} {container : ContainerDetails}
    {groups : List (List SpecTree)} {inspected : Inspection}
    (hvalues : List.Forall₂ Rendered groups (matchingValues config container.env))
    (h : inspection config name container = .ok inspected) :
    inspected.specs = groups.flatten.map SpecTree.meaning := by
  rw [inspection, parseContainerEnvVars_eq, afterValues, parse_values hvalues] at h
  cases h
  rfl

/-- In a list with an entry that is not the last one, the last one comes later. -/
private theorem mem_of_append_cons {α : Type} {u v u' : List α} {a b : α}
    (h : u ++ a :: v = u' ++ [b]) (hne : a ≠ b) : b ∈ v := by
  rcases List.eq_nil_or_concat v with rfl | ⟨v', c, rfl⟩
  · obtain ⟨-, hab⟩ := List.append_inj' h rfl
    exact absurd (List.head_eq_of_cons_eq hab) hne
  · have hlast : u ++ a :: v' ++ [c] = u' ++ [b] := by simpa using h
    obtain ⟨-, hcb⟩ := List.append_inj' hlast rfl
    rw [List.head_eq_of_cons_eq hcb]
    simp

/-- A publication of a run publishes what the container asks for that was inspected directly
before it. -/
theorem published_asked (hI : env.inspector = toInspect D config) {explicit : List Text}
    {n passes : ℕ} {w : ω} {u v rest : List (Entry ω)} {m P : Entry ω} {p : Publication}
    {result : Except PublishingError Unit}
    (htrace : (finalState (run config env explicit n passes) (start w)).trace =
      u ++ m :: v ++ P :: rest)
    (hm : ∀ name result, m.event ≠ .inspect name result) (hevent : P.event = .publish p result) :
    ∃ I ∈ v, ∃ values, Asks D config p.host I values ∧
      ∀ groups, List.Forall₂ Rendered groups values →
        p.specs = groups.flatten.map SpecTree.meaning := by
  obtain ⟨-, u', I, name, container, hlast, hinspect, hanswer, hfound⟩ :=
    published_inspected hI htrace hevent
  have hI_mem : I ∈ v := by
    apply mem_of_append_cons hlast
    rintro rfl
    exact hm _ _ hinspect
  have hhost : p.host = hostOf config (fun _ => container) name :=
    @inspection_host _ (fun _ => container) _ _ hfound
  exact ⟨I, hI_mem, _, ⟨name, _, container, hinspect, hanswer, hhost, rfl⟩,
    fun groups hgroups => inspection_rendered hgroups hfound⟩

/-- The ports of the trees are ones that a consumer accepts. -/
theorem meaning_accepted {ts : List SpecTree}
    (h : ∀ t ∈ ts, t.meaning.httpPort ≠ some 0 ∧ t.meaning.httpsPort ≠ some 0) :
    ∀ spec ∈ ts.map SpecTree.meaning,
      (Consumer.checkPort Consumer.portInRange spec.httpPort).isSome ∧
        (Consumer.checkPort Consumer.portInRange spec.httpsPort).isSome := by
  intro spec hspec
  obtain ⟨t, ht, rfl⟩ := List.mem_map.mp hspec
  rw [Consumer.checkPort_isSome, Consumer.checkPort_isSome]
  exact h t ht

/-- From an iteration on, the containers under a host ask for the same domains in the documented
grammar. Once they have been published, what is stored under the host is read as these domains,
their ids and their ports, at every later moment. -/
theorem delivered {ω : Type} (K : Json.Codec) (R : Redis.Server ω) (hR : R.SetExLaw)
    (hW : WriteLaw R) (D : Docker ω) (config : Config) (env : Environment ω)
    (hI : env.inspector = toInspect D config) (hP : env.publisher = toPublish K R config)
    (e : UInt32) (he : config.expireSeconds = some e)
    (hinert : Inert env fun w (f : Text × Text) => R.stored w f.1 = some f.2)
    (groups : List (List SpecTree)) (values : List Text)
    (hvalues : List.Forall₂ Rendered groups values)
    (hports : ∀ t ∈ groups.flatten, t.meaning.httpPort ≠ some 0 ∧ t.meaning.httpsPort ≠ some 0)
    (explicit : List Text) (n passes : ℕ) (w : ω) (u v x y : List (Entry ω)) (m P E : Entry ω)
    (htrace : (finalState (run config env explicit n passes) (start w)).trace =
      u ++ m :: (v ++ P :: (x ++ E :: y)))
    (hm : m.event = .iteration) (p : Publication) (hevent : P.event = .publish p (.ok ()))
    (hasks : ∀ F ∈ v ++ x, ∀ values', Asks D config p.host F values' → values' = values)
    (text : Text) (htext : R.stored E.after (config.keyPrefix ++ p.host) = some text) :
    Consumer.parsePublished K Consumer.portInRange p.host text =
      some (groups.flatten.map fun t => (t.meaning.specId, t.meaning)) := by
  -- every publication under the host has the specs of the trees
  have hspecs {m' F : Entry ω} {u' v' rest : List (Entry ω)} {p' : Publication}
      {result : Except PublishingError Unit}
      (hsplit : (finalState (run config env explicit n passes) (start w)).trace =
        u' ++ m' :: v' ++ F :: rest) (hm' : ∀ name result, m'.event ≠ .inspect name result)
      (hv' : v' ⊆ v ++ x) (hF : F.event = .publish p' result) (hhost : p'.host = p.host) :
      p'.specs = groups.flatten.map SpecTree.meaning := by
    obtain ⟨I, hImem, values', hask, hmeaning⟩ := published_asked hI hsplit hm' hF
    rw [hhost] at hask
    obtain rfl := hasks I (hv' hImem) values' hask
    exact hmeaning groups hvalues
  have htext_eq : text = storedText K p.host (groups.flatten.map SpecTree.meaning) := by
    have hchain := run_accounts config hinert (publish_causes hW hP) explicit n passes w
    have hsplit : (finalState (run config env explicit n passes) (start w)).trace =
        u ++ m :: v ++ P :: (x ++ E :: y) := by simpa using htrace
    have hcalled := run_called config env explicit n passes w P (by rw [hsplit]; simp)
    rw [hsplit] at hchain
    obtain hold | ⟨F, hF, p', result, hF_event, hhost, hlater⟩ :=
      stored_since hR hP he hcalled hevent hchain.split.2.split.1.justified htext
    · rw [hold, hspecs hsplit (by simp [hm]) (by simp) hevent rfl]
    · -- `F` comes later, so that what it publishes was asked for after `P`
      obtain ⟨a, b, hab, ha⟩ : ∃ a b, x ++ E :: y = a ++ F :: b ∧ a ⊆ x := by
        rcases List.mem_append.mp hF with hF | hF
        · obtain ⟨a, c, rfl⟩ := List.append_of_mem hF
          exact ⟨a, c ++ E :: y, by simp, by simp⟩
        · obtain rfl := List.mem_singleton.mp hF
          exact ⟨x, y, rfl, List.Subset.refl x⟩
      have hsplit' : (finalState (run config env explicit n passes) (start w)).trace =
          u ++ m :: v ++ P :: a ++ F :: b := by
        rw [hsplit, hab]
        simp
      have hav : a ⊆ v ++ x := fun G hG => List.mem_append_right v (ha hG)
      rw [hlater, hspecs hsplit' (by simp [hevent]) hav hF_event hhost]
  rw [htext_eq, Consumer.parsePublished_accepted K _ _ (meaning_accepted hports), List.map_map]
  rfl

def alphaTree : SpecTree := ⟨"alpha.org".toList, by decide, false, .absent, .absent⟩

private theorem alphaTrace_ended : 3 < alphaTrace.length := by decide +kernel

/-- The entries of the trace that publish the container. -/
def alphaEntry (i : ℕ) (hi : i < 4) : Entry (Text → Option Text) :=
  alphaTrace.get ⟨i, Nat.lt_of_lt_of_le hi alphaTrace_ended⟩

private theorem alphaEntry_iteration : (alphaEntry 0 (by decide)).event = .iteration := by
  decide +kernel

private theorem alphaEntry_publish : (alphaEntry 2 (by decide)).event =
    .publish ⟨"alpha".toList, [⟨"alpha.org".toList, some 80, some 443⟩]⟩ (.ok ()) := by
  decide +kernel

private theorem alphaTrace_split : alphaTrace = [] ++ alphaEntry 0 (by decide) ::
    ([alphaEntry 1 (by decide)] ++ alphaEntry 2 (by decide) ::
      ([] ++ alphaEntry 3 (by decide) :: alphaTrace.drop 4)) := by
  simp only [alphaEntry, List.get_eq_getElem, List.nil_append, List.cons_append,
    List.getElem_cons_drop, List.drop_zero]

theorem delivered_alpha : Consumer.parsePublished Json.compact Consumer.portInRange "alpha".toList
    (storedText Json.compact "alpha".toList [⟨"alpha.org".toList, some 80, some 443⟩]) =
      some [("alpha_org".toList, ⟨"alpha.org".toList, some 80, some 443⟩)] := by
  refine delivered Json.compact Redis.memory Redis.memory_setExLaw memory_writeLaw
    (fixedDocker (twoContainers id)) Config.default
    (storeEnvironment Config.default (twoContainers id)) rfl rfl 60 rfl
    ⟨fun _ _ => id, fun _ _ _ => id, fun _ _ => id, fun _ _ _ _ => id, fun _ _ => id,
      fun _ _ _ => id⟩ [[alphaTree]] ["alpha.org".toList] (.cons (.last alphaTree) .nil)
    ?_ ["alpha".toList] 1 1 (fun _ => none) [] [alphaEntry 1 (by decide)] []
    (alphaTrace.drop 4) _ _ _ alphaTrace_split alphaEntry_iteration _ alphaEntry_publish ?_ _ ?_
  · intro t ht
    obtain rfl : t = alphaTree := by simpa using ht
    decide
  · rintro F - values' ⟨name, result, container, -, hanswer, hhost, rfl⟩
    obtain rfl : twoContainers id name = container := Except.ok.inj hanswer
    obtain rfl : "alpha".toList = name := hhost
    decide
  · decide +kernel

end Beachhead.Companion
