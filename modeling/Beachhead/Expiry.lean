import Beachhead.Liveness
import Beachhead.Provenance

/-!
# A registration that is not refreshed disappears

The publisher does not remember what it has published. A key is there only for the
expiration after a publication, so a container that is not inspected with success any
more loses its key, whatever requests have failed.
-/
namespace Beachhead.Companion
open Program Coverage RedisPublisher

variable {ω : Type} {config : Config} {env : Environment ω}

/-- The entry publishes under the key, and the moment comes before the publication expires. -/
def Leases (K : Json.Codec) (config : Config) (T : Redis.Timeline ω) (e : UInt32) (E : Entry ω)
    (f : Text × ℤ) : Prop :=
  ∃ p result, E.event = .publish p result ∧ f.1 = hostKey config p.host ∧
    f.2 ∈ Set.Ico (T.executedAt E.before (request K config p))
      (T.executedAt E.before (request K config p) + Duration.seconds e.toNat)

private theorem Undisturbed.inert {T : Redis.Timeline ω} (hT : Undisturbed env T) :
    Inert env fun w (f : Text × ℤ) => f.2 ∈ T.present w f.1 where
  now w f hf := by rwa [hT.now] at hf
  notify w entries f hf := by rwa [hT.notify] at hf
  poll w f hf := by rwa [hT.poll] at hf
  select w refresh watchdog f hf := by rwa [hT.select] at hf
  enumerate w f hf := by rwa [hT.enumerate] at hf
  inspect w name f hf := by rwa [hT.inspect] at hf

/-- A moment at which a key is present after a publication was one before, or the publication
leases it. -/
theorem publish_leases {clock : ω → ℤ} {K : Json.Codec} {R : Redis.Server ω}
    {T : Redis.Timeline ω} (hR : R.ExpiryLaw clock T) {e : UInt32}
    (he : config.expireSeconds = some e) (w : ω) (p : Publication) (f : Text × ℤ)
    (hf : f.2 ∈ T.present (RedisPublisher.publish K R config w p).2 f.1) :
    f.2 ∈ T.present w f.1 ∨ Leases K config T e
      ⟨.publish p (RedisPublisher.publish K R config w p).1, w,
        (RedisPublisher.publish K R config w p).2⟩ f := by
  obtain ⟨key, t⟩ := f
  obtain hpresent | ⟨-, hpresent⟩ := publish_present (K := K) hR he w p
  · rw [hpresent] at hf
    by_cases hkey : key = hostKey config p.host
    · subst hkey
      dsimp only at hf
      rw [Function.update_self] at hf
      obtain ⟨hold, -⟩ | hnew := hf
      · exact .inl hold
      · exact .inr ⟨p, _, rfl, rfl, hnew⟩
    · dsimp only at hf
      rw [Function.update_of_ne hkey] at hf
      exact .inl hf
  · rw [hpresent] at hf
    exact .inl hf

/-- At any moment of a run, a key is present only as it was at the start, or until the expiration
after a publication of a container that the docker daemon reported with the variable. -/
theorem registration_expires {ω : Type} (clock : ω → ℤ) (K : Json.Codec) (R : Redis.Server ω)
    (T : Redis.Timeline ω) (hR : R.ExpiryLaw clock T) (D : Docker ω) (config : Config)
    (env : Environment ω) (hI : env.inspector = DockerInspector.toInspect D config)
    (hP : env.publisher = RedisPublisher.toPublish K R config) (hT : Undisturbed env T)
    (e : UInt32) (he : config.expireSeconds = some e) (explicit : List Text) (n passes : ℕ)
    (w : ω) (u v : List (Entry ω)) (E : Entry ω)
    (htrace : (finalState (run config env explicit n passes) (start w)).trace = u ++ E :: v)
    (key : Text) (t : ℤ) (ht : t ∈ T.present E.after key) :
    t ∈ T.present w key ∨ ∃ P ∈ u ++ [E], ∃ p result, P.event = .publish p result ∧
      FoundBefore D config explicit (u ++ [E]) P p ∧ key = config.keyPrefix ++ p.host ∧
      T.executedAt P.before (request K config p) ≤ t ∧
      t < T.executedAt P.before (request K config p) + Duration.seconds e.toNat := by
  have hpublish (w : ω) (p : Publication) (f : Text × ℤ)
      (hf : f.2 ∈ T.present (env.publisher.publish w p).2 f.1) :
      f.2 ∈ T.present w f.1 ∨ Leases K config T e
        ⟨.publish p (env.publisher.publish w p).1, w, (env.publisher.publish w p).2⟩ f := by
    rw [hP] at hf ⊢
    exact publish_leases hR he w p f hf
  have hchain := run_accounts config hT.inert hpublish explicit n passes w
  rw [htrace] at hchain
  obtain hold | ⟨P, hPmem, p, result, hevent, hkey, hsent, hbefore⟩ :=
    hchain.split.1.justified (key, t) ht
  · exact .inl hold
  · have htrace' := htrace.trans (List.append_cons u E v)
    exact .inr ⟨P, hPmem, p, result, hevent, published_origin hI htrace' hPmem hevent, hkey, hsent,
      hbefore⟩

/-- The daemon of one container, which takes 0.3 seconds for an inspection. -/
def slowDocker : Docker (ℤ × List Setting) where
  list w _ := (.ok [], w)
  inspect w name := (.ok (twoContainers (fun _ => webAddress) name), (w.1 + 300000000, w.2))

def expiringEnvironment : Environment (ℤ × List Setting) :=
  { leasedEnvironment with inspector := DockerInspector.toInspect slowDocker leased }

def expiringTrace : List (Entry (ℤ × List Setting)) :=
  (finalState (run leased expiringEnvironment ["alpha".toList] 1 0) (start (0, []))).trace

private theorem expiringTrace_length : 2 < expiringTrace.length := by decide +kernel

private theorem expiringTrace_after : (expiringTrace.get ⟨2, expiringTrace_length⟩).after =
    (300000000, [⟨webAddress, storedText Json.compact webAddress
      [⟨"alpha.org".toList, some 80, some 443⟩], 300000000, Duration.seconds 3⟩]) := by
  decide +kernel

theorem registration_expires_alpha :
    (400000000 : ℤ) ∈ expiringTimeline.present (0, []) webAddress ∨
    ∃ P ∈ expiringTrace.take 2 ++ [expiringTrace.get ⟨2, expiringTrace_length⟩], ∃ p result,
      P.event = .publish p result ∧ FoundBefore slowDocker leased
        ["alpha".toList]
        (expiringTrace.take 2 ++ [expiringTrace.get ⟨2, expiringTrace_length⟩]) P p ∧
      webAddress = leased.keyPrefix ++ p.host ∧
      expiringTimeline.executedAt P.before (request Json.compact leased p) ≤ 400000000 ∧
      400000000 < expiringTimeline.executedAt P.before (request Json.compact leased p) +
        Duration.seconds (3 : UInt32).toNat := by
  refine registration_expires Prod.fst Json.compact expiring expiringTimeline expiring_law
    slowDocker leased expiringEnvironment rfl rfl
    { leasedEnvironment_undisturbed with enumerate := fun _ => rfl, inspect := fun _ _ => rfl }
    3 rfl ["alpha".toList] 1 0 (0, []) (expiringTrace.take 2) (expiringTrace.drop 3)
    (expiringTrace.get ⟨2, expiringTrace_length⟩) ?_ webAddress 400000000 ?_
  · rw [List.get_eq_getElem, List.getElem_cons_drop, List.take_append_drop]
    rfl
  · rw [expiringTrace_after]
    exact .inr ⟨by decide, by decide⟩

end Beachhead.Companion
