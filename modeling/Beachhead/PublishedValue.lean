import Beachhead.Publisher

/-!
# Reading a published value back

The decoder is the one the consumer side uses in the tests, read structurally: an
absent protocol field is `none`, a present one is an object with host and port.
-/
namespace Beachhead
open Json JsonSerializer

namespace Json.Value

def asObject : Value → Option Object
  | .object o => some o
  | _ => none

def asString : Value → Option Text
  | .string s => some s
  | _ => none

def asArray : Value → Option (List Value)
  | .array xs => some xs
  | _ => none

def asI64 : Value → Option ℤ
  | .u64 n => if n.toNat < 2 ^ 63 then some n.toNat else none
  | _ => none

end Json.Value

namespace Consumer

/-- `accept` is the decoder's check of the port number. -/
def parseHostConfig (accept : ℤ → Bool) (rawDomainConfig : Object)
    (protocolKey expectedHost : Text) : Option (Option UInt16) :=
  match rawDomainConfig.get protocolKey with
  | none => some none
  | some protocolConfig => do
    let protocolConfig ← protocolConfig.asObject
    let host ← (← protocolConfig.get JSON_HOST).asString
    guard (host = expectedHost)
    let port ← (← protocolConfig.get JSON_PORT).asI64
    guard (accept port)
    return some (UInt16.ofInt port)

def parseDomainConfig (accept : ℤ → Bool) (expectedHost : Text) (rawDomainConfig : Value) :
    Option (Text × DomainSpec) := do
  let rawDomainConfig ← rawDomainConfig.asObject
  let id ← (← rawDomainConfig.get JSON_ID).asString
  let domain ← (← rawDomainConfig.get JSON_DOMAIN).asString
  let http ← parseHostConfig accept rawDomainConfig JSON_HTTP expectedHost
  let https ← parseHostConfig accept rawDomainConfig JSON_HTTPS expectedHost
  return (id, ⟨domain, http, https⟩)

/-- Every entry of a stored text, with its id. -/
def parsePublished (K : Codec) (accept : ℤ → Bool) (expectedHost text : Text) :
    Option (List (Text × DomainSpec)) := do
  let rawpub ← K.decode text
  let specs ← rawpub.asArray
  specs.mapM (parseDomainConfig accept expectedHost)

/-- No condition on the port beyond its type. -/
def anyPort : ℤ → Bool := fun _ => true

end Consumer

namespace JsonSerializer

def backend (host : Text) (port : UInt16) : Value :=
  .object [(JSON_HOST, .string host), (JSON_PORT, portToJson port)]

/-- The fields of an encoded spec, in the order of the map. -/
def fields (host : Text) (spec : DomainSpec) : Object :=
  (JSON_DOMAIN, .string spec.domainName) ::
    ((spec.httpPort.map fun p => (JSON_HTTP, backend host p)).toList ++
      ((spec.httpsPort.map fun p => (JSON_HTTPS, backend host p)).toList ++
        [(JSON_ID, .string spec.specId)]))

theorem domainConfig_eq (host : Text) (spec : DomainSpec) :
    domainConfig host spec = fields host spec := by
  obtain ⟨d, http, https⟩ := spec
  cases http <;> cases https <;> rfl

theorem domainConfig_valid (host : Text) (spec : DomainSpec) :
    Valid (.object (domainConfig host spec)) := by
  rw [domainConfig_eq, Valid, validMembers_iff]
  have hbackend (p : UInt16) : Valid (backend host p) := by
    have hkeys : JSON_HOST < JSON_PORT := by decide
    rw [backend, Valid, validMembers_iff]
    simp [hkeys, portToJson, Valid]
  have hkeys : JSON_DOMAIN < JSON_HTTP ∧ JSON_DOMAIN < JSON_HTTPS ∧ JSON_DOMAIN < JSON_ID ∧
      JSON_HTTP < JSON_HTTPS ∧ JSON_HTTP < JSON_ID ∧ JSON_HTTPS < JSON_ID := by decide
  obtain ⟨d, http, https⟩ := spec
  cases http <;> cases https <;> simp [fields, hkeys, hbackend, Valid]

theorem domainConfigs_valid (host : Text) (specs : List DomainSpec) :
    Valid (.array (domainConfigs host specs)) := by
  rw [Valid, validElems_iff, domainConfigs, List.forall_mem_map]
  exact fun spec _ => domainConfig_valid host spec

end JsonSerializer

namespace Consumer

theorem ofInt_portToJson (p : UInt16) :
    (portToJson p).asI64 = some (p.toNat : ℤ) ∧ UInt16.ofInt p.toNat = p := by
  have hp := p.toNat_lt
  constructor
  · simp only [portToJson, Value.asI64, UInt16.toNat_toUInt64]
    rw [if_pos (by omega)]
  · have hmod : ((p.toNat : ℤ) % 2 ^ 16).toNat = p.toNat := by omega
    rw [UInt16.ofInt, hmod, UInt16.ofNat_toNat]

theorem fields_get (host : Text) (spec : DomainSpec) :
    (fields host spec).get JSON_HTTP = spec.httpPort.map (backend host) ∧
      (fields host spec).get JSON_HTTPS = spec.httpsPort.map (backend host) := by
  obtain ⟨d, http, https⟩ := spec
  cases http <;> cases https <;> exact ⟨rfl, rfl⟩

/-- What the check of the port number makes of a port. -/
def checkPort (accept : ℤ → Bool) : Option UInt16 → Option (Option UInt16)
  | none => some none
  | some p => if accept p.toNat then some (some p) else none

private theorem parseHostConfig_backend (accept : ℤ → Bool) (host : Text) {m : Object} {key : Text}
    {o : Option UInt16} (hm : m.get key = o.map (backend host)) :
    parseHostConfig accept m key host = checkPort accept o := by
  cases o with
  | none =>
    rw [Option.map_none] at hm
    simp [parseHostConfig, hm, checkPort]
  | some p =>
    rw [Option.map_some] at hm
    obtain ⟨hi, hp⟩ := ofInt_portToJson p
    have hh : Object.get JSON_HOST [(JSON_HOST, .string host), (JSON_PORT, portToJson p)] =
        some (.string host) := rfl
    have hport : Object.get JSON_PORT [(JSON_HOST, .string host), (JSON_PORT, portToJson p)] =
        some (portToJson p) := rfl
    by_cases haccept : accept p.toNat
    · simp [parseHostConfig, hm, backend, Value.asObject, hh, hport, Value.asString, hi, haccept,
        hp, checkPort]
    · simp [parseHostConfig, hm, backend, Value.asObject, hh, hport, Value.asString, hi, haccept,
        checkPort]

theorem parseDomainConfig_domainConfig (accept : ℤ → Bool) (host : Text) (spec : DomainSpec) :
    parseDomainConfig accept host (.object (domainConfig host spec)) = do
      let http ← checkPort accept spec.httpPort
      let https ← checkPort accept spec.httpsPort
      return (spec.specId, ⟨spec.domainName, http, https⟩) := by
  obtain ⟨hhttp, hhttps⟩ := fields_get host spec
  have hdomain : (fields host spec).get JSON_DOMAIN = some (.string spec.domainName) := rfl
  have hid : (fields host spec).get JSON_ID = some (.string spec.specId) := by
    obtain ⟨d, http, https⟩ := spec
    cases http <;> cases https <;> rfl
  simp [parseDomainConfig, domainConfig_eq, Value.asObject, hid, hdomain,
    parseHostConfig_backend accept host hhttp, parseHostConfig_backend accept host hhttps,
    Value.asString]

private theorem checkPort_anyPort (o : Option UInt16) : checkPort anyPort o = some o := by
  cases o <;> rfl

/-- Decoding undoes encoding. -/
theorem parsePublished_encode (K : Codec) (host : Text) (specs : List DomainSpec) :
    parsePublished K anyPort host (K.encode (.array (domainConfigs host specs))) =
      some (specs.map fun spec => (spec.specId, spec)) := by
  rw [parsePublished, K.decode_encode _ (domainConfigs_valid host specs)]
  simp only [Option.bind_eq_bind, Option.bind_some, Value.asArray, domainConfigs]
  induction specs with
  | nil => rfl
  | cons spec specs ih =>
    simp only [List.map_cons, List.mapM_cons, parseDomainConfig_domainConfig, checkPort_anyPort, ih]
    rfl

end Consumer
end Beachhead
