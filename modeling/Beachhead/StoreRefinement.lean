import Beachhead.JsonText
import Beachhead.LastWrite
import Beachhead.PublishedValue

/-!
# The store as a map from hosts to spec lists

With an expiration the publisher stores the encoded spec list of a host under the
host's key, so any sequence of publishes is a sequence of assignments. Without
one it hands the raw vector to the client, which flattens it into arguments.
-/
namespace Beachhead.RedisPublisher
open Json JsonSerializer

/-- The two branches send the same single value, and it encodes the specs. -/
def SamePayload (K : Codec) (config : Config) (publication : Publication) : Prop :=
  ∃ key value,
    request K { config with expireSeconds := none } publication = Redis.set [key] [value] ∧
    (∀ e : UInt32, request K { config with expireSeconds := some e } publication =
      Redis.setEx [key] [value] e.toNat) ∧
    value = K.encode (.array (domainConfigs publication.host publication.specs))

/-- The arguments of the `SET` are the key and one text for each spec. -/
theorem request_set (K : Codec) (config : Config) (publication : Publication) :
    request K { config with expireSeconds := none } publication =
      Redis.set [config.keyPrefix ++ publication.host]
        ((domainConfigs publication.host publication.specs).map K.encode) := by
  rw [request, serviceKey, List.nil_append, List.map_eq_flatMap]
  rfl

theorem request_setEx (K : Codec) (config : Config) (publication : Publication) {e : UInt32}
    (he : config.expireSeconds = some e) : request K config publication =
      Redis.setEx [config.keyPrefix ++ publication.host]
        [K.encode (.array (domainConfigs publication.host publication.specs))] e.toNat := by
  simp [request, he, serviceKey, Redis.stringArgs]

/-- No single object is the text of an array, so the two branches never agree. -/
theorem not_samePayload (K : Codec) (config : Config) (publication : Publication) :
    ¬SamePayload K config publication := by
  rintro ⟨key, value, hset, -, rfl⟩
  rw [request_set, Redis.set, Redis.set] at hset
  simp only [List.cons_append, List.nil_append, List.cons.injEq, true_and] at hset
  have hmap := hset.2
  obtain ⟨host, specs⟩ := publication
  cases specs with
  | nil => simp [domainConfigs] at hmap
  | cons spec specs =>
    cases specs with
    | cons s specs => simp [domainConfigs] at hmap
    | nil =>
      have hvalid := domainConfigs_valid host [spec]
      have h := K.encode_injective (domainConfig_valid host spec) hvalid
        (List.singleton_inj.mp hmap)
      cases h

/-- The publication of the test without expiration. -/
def ttlPublication : Publication :=
  ⟨"example.com".toList, [⟨"admin.example.com".toList, some 80, none⟩]⟩

theorem not_samePayload_ttlPublication : ¬SamePayload compact Config.default ttlPublication := by
  rintro ⟨key, value, hset, -, hvalue⟩
  have hlast : (request compact { Config.default with expireSeconds := none }
      ttlPublication).getLast? = some value := by
    rw [hset]
    rfl
  rw [hvalue] at hlast
  exact absurd hlast (by decide)

/-- Publish one after the other, with the result of each. -/
def publishAll {ω : Type} (K : Codec) (R : Redis.Server ω) (config : Config) :
    ω → List Publication → List (Except PublishingError Unit) × ω
  | w, [] => ([], w)
  | w, publication :: rest =>
    let (result, w) := publish K R config w publication
    let (results, w) := publishAll K R config w rest
    (result :: results, w)

/-- The spec list of the last publication with the host. -/
def lastSpecs (publications : List Publication) (host : Text) : Option (List DomainSpec) :=
  LastWrite.last (publications.map fun p => (p.host, p.specs)) host

section
variable {ω : Type} {K : Codec} {R : Redis.Server ω} {config : Config}

theorem publish_ok {w : ω} {publication : Publication}
    (h : (publish K R config w publication).1 = .ok ()) :
    (R.execute w (request K config publication)).1 = .ok () := by
  simp only [publish] at h
  cases hr : (R.execute w (request K config publication)).1 with
  | error e => simp [hr, Except.mapError] at h
  | ok u => rfl

/-- The text stored for a host and a spec list. -/
def storedText (K : Codec) (host : Text) (specs : List DomainSpec) : Text :=
  K.encode (.array (domainConfigs host specs))

def hostKey (config : Config) (host : Text) : Text := config.keyPrefix ++ host

theorem hostKey_injective (config : Config) : Function.Injective (hostKey config) :=
  fun _ _ h => List.append_cancel_left h

/-- One successful publish assigns the spec list to the host. -/
theorem publish_represents (hR : R.SetExLaw) {e : UInt32} (he : config.expireSeconds = some e)
    {base : Text → Option Text} {w : ω} {r : Text → Option (List DomainSpec)}
    (hr : LastWrite.Represents base (R.stored w) (hostKey config) (storedText K) r)
    {publication : Publication} (hok : (publish K R config w publication).1 = .ok ()) :
    LastWrite.Represents base (R.stored (publish K R config w publication).2) (hostKey config)
      (storedText K) (LastWrite.assign r (publication.host, publication.specs)) := by
  have h := publish_ok hok
  rw [request_setEx K config publication he] at h
  have hw : (publish K R config w publication).2 = (R.execute w (Redis.setEx
      [config.keyPrefix ++ publication.host] [storedText K publication.host publication.specs]
      e.toNat)).2 := by
    rw [← storedText] at h
    simp only [publish, request_setEx K config publication he, storedText]
  rw [hw]
  exact hr.assign (hostKey_injective config) (hR.self _ _ _ _ h) fun k hk => hR.other _ _ _ _ k h hk

private theorem publishAll_represents (hR : R.SetExLaw) {e : UInt32}
    (he : config.expireSeconds = some e)
    {base : Text → Option Text} {w : ω} {r : Text → Option (List DomainSpec)}
    (hr : LastWrite.Represents base (R.stored w) (hostKey config) (storedText K) r)
    {publications : List Publication}
    (hok : ∀ x ∈ (publishAll K R config w publications).1, x = .ok ()) :
    LastWrite.Represents base (R.stored (publishAll K R config w publications).2) (hostKey config)
      (storedText K) (LastWrite.run r (publications.map fun p => (p.host, p.specs))) := by
  induction publications generalizing w r with
  | nil => exact hr
  | cons publication rest ih =>
    rw [publishAll, List.forall_mem_cons] at hok
    exact ih (publish_represents hR he hr hok.1) hok.2

end

/-- After any sequence of successful publishes the key of each host holds the last spec
list published for it, which the consumer decodes, and every other key is unchanged. -/
theorem publishAll_refines {ω : Type} (K : Codec) (R : Redis.Server ω) (hR : R.SetExLaw)
    (config : Config) (e : UInt32) (he : config.expireSeconds = some e) (w : ω)
    (publications : List Publication)
    (hok : ∀ x ∈ (publishAll K R config w publications).1, x = .ok ()) :
    (∀ host ∈ publications.map Publication.host, ∃ specs text,
      lastSpecs publications host = some specs ∧
      R.stored (publishAll K R config w publications).2 (config.keyPrefix ++ host) = some text ∧
      K.decode text = some (.array (domainConfigs host specs)) ∧
      Consumer.parsePublished K Consumer.anyPort host text =
        some (specs.map fun spec => (spec.specId, spec))) ∧
    (∀ key, (∀ host ∈ publications.map Publication.host, key ≠ config.keyPrefix ++ host) →
      R.stored (publishAll K R config w publications).2 key = R.stored w key) := by
  have hrep := publishAll_represents hR he
    (LastWrite.represents_empty (R.stored w) (hostKey config) (storedText K)) hok
  have hrun (host : Text) : LastWrite.run (fun _ => none)
      (publications.map fun p => (p.host, p.specs)) host = lastSpecs publications host := by
    rw [LastWrite.run_eq_last, lastSpecs, Option.or_none]
  constructor
  · intro host hhost
    have hmem : host ∈ (publications.map fun p => (p.host, p.specs)).map Prod.fst := by
      simpa using hhost
    obtain ⟨specs, hspecs⟩ := LastWrite.last_isSome hmem
    refine ⟨specs, storedText K host specs, hspecs, ?_, ?_, ?_⟩
    · exact hrep.written host specs (by rw [hrun, lastSpecs, hspecs])
    · exact K.decode_encode _ (domainConfigs_valid host specs)
    · exact Consumer.parsePublished_encode K host specs
  · intro key hkey
    refine hrep.unwritten key fun host hhost => hkey host ?_
    rw [hrun, lastSpecs] at hhost
    by_contra hmem
    refine hhost (LastWrite.last_of_not_mem ?_)
    simpa using hmem

def otherPublication : Publication :=
  ⟨"example.org".toList, [⟨"www.example.org".toList, none, some 446⟩]⟩

theorem publishAll_refines_interleaved :
    ∃ specs text, lastSpecs [ttlPublication, otherPublication, ⟨ttlPublication.host, []⟩]
        ttlPublication.host = some specs ∧
      Redis.memory.stored (publishAll compact Redis.memory Config.default (fun _ => none)
        [ttlPublication, otherPublication, ⟨ttlPublication.host, []⟩]).2
        (Config.default.keyPrefix ++ ttlPublication.host) = some text ∧
      compact.decode text = some (.array (domainConfigs ttlPublication.host specs)) ∧
      Consumer.parsePublished compact Consumer.anyPort ttlPublication.host text =
        some (specs.map fun spec => (spec.specId, spec)) :=
  (publishAll_refines compact Redis.memory Redis.memory_setExLaw Config.default 60 rfl
    (fun _ => none) [ttlPublication, otherPublication, ⟨ttlPublication.host, []⟩]
    (by decide)).1 ttlPublication.host (by simp)

end Beachhead.RedisPublisher
