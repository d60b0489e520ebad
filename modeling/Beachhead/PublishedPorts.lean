import Beachhead.ParameterList
import Beachhead.PublishedValue

/-!
# The ports of a published value

The decoder requires a positive port. The parser reads any numeral of the type, so the
decoder rejects exactly the values with a last `http` or `https` parameter that reads
as 0.
-/
namespace Beachhead
open Json JsonSerializer DomainSpec

namespace Consumer

/-- The decoder's check of the port number. -/
def portInRange (p : ℤ) : Bool := 0 < p ∧ p ≤ 65535

/-- Every backend object of an entry carries a port that passes the check. -/
def PortsAccepted (entry : Value) : Prop :=
  ∀ o, entry.asObject = some o → ∀ key ∈ [JSON_HTTP, JSON_HTTPS], ∀ protocolConfig,
    o.get key = some protocolConfig → ∃ b port p, protocolConfig.asObject = some b ∧
      b.get JSON_PORT = some port ∧ port.asI64 = some p ∧ 0 < p ∧ p ≤ 65535

/-- Some match captured a parameter list whose last `http` or `https` parameter is 0. -/
def ZeroPort (raw : Text) : Prop := ∃ c ∈ DS_PAT.capturesIter raw,
  lastPort HTTP 80 (rawParams c) none = some 0 ∨ lastPort HTTPS 443 (rawParams c) none = some 0

/-- The port of a backend object passes the check unless it is 0. -/
theorem backend_port (host : Text) (p : UInt16) : (∃ b port n, (backend host p).asObject = some b ∧
    b.get JSON_PORT = some port ∧ port.asI64 = some n ∧ 0 < n ∧ n ≤ 65535) ↔ p ≠ 0 := by
  have hread : (portToJson p).asI64 = some (p.toNat : ℤ) := (ofInt_portToJson p).1
  have hget : Object.get JSON_PORT [(JSON_HOST, .string host), (JSON_PORT, portToJson p)] =
      some (portToJson p) := rfl
  have hlt := p.toNat_lt
  rw [Ne, ← UInt16.toNat_inj, UInt16.toNat_zero]
  constructor
  · rintro ⟨b, port, n, hb, hport, hn, hpos, -⟩
    obtain rfl := Option.some.inj hb
    obtain rfl := Option.some.inj (hget.symm.trans hport)
    obtain rfl := Option.some.inj (hread.symm.trans hn)
    omega
  · intro hne
    exact ⟨_, _, _, rfl, hget, hread, by omega, by omega⟩

private theorem portsAccepted_domainConfig (host : Text) (spec : DomainSpec) :
    PortsAccepted (.object (domainConfig host spec)) ↔
      spec.httpPort ≠ some 0 ∧ spec.httpsPort ≠ some 0 := by
  have hbackend (o : Option UInt16) :
      (∀ protocolConfig, o.map (backend host) = some protocolConfig → ∃ b port p,
        protocolConfig.asObject = some b ∧ b.get JSON_PORT = some port ∧
        port.asI64 = some p ∧ 0 < p ∧ p ≤ 65535) ↔ o ≠ some 0 := by
    cases o with
    | none => simp
    | some p =>
      rw [Option.map_some, Ne, Option.some_inj, ← Ne, ← backend_port host p]
      exact ⟨fun h => h _ rfl, fun h _ hsome => Option.some.inj hsome ▸ h⟩
  obtain ⟨hhttp, hhttps⟩ := fields_get host spec
  have hobject : Value.asObject (.object (fields host spec)) = some (fields host spec) := rfl
  rw [domainConfig_eq, PortsAccepted, ← hbackend spec.httpPort, ← hbackend spec.httpsPort,
    ← hhttp, ← hhttps]
  constructor
  · intro h
    exact ⟨h _ hobject JSON_HTTP (by simp), h _ hobject JSON_HTTPS (by simp)⟩
  · intro h o ho key hkey
    obtain rfl := Option.some.inj (hobject.symm.trans ho)
    obtain rfl | rfl : key = JSON_HTTP ∨ key = JSON_HTTPS := by simpa using hkey
    · exact h.1
    · exact h.2

theorem checkPort_isSome (o : Option UInt16) :
    (checkPort portInRange o).isSome ↔ o ≠ some 0 := by
  cases o with
  | none => simp [checkPort]
  | some p =>
    have hlt := p.toNat_lt
    have hrange : portInRange p.toNat = true ↔ p ≠ 0 := by
      rw [portInRange, decide_eq_true_iff, Ne, ← UInt16.toNat_inj, UInt16.toNat_zero]
      omega
    by_cases hp : p = 0
    · subst hp
      decide
    · rw [checkPort, if_pos (hrange.mpr hp)]
      simp [hp]

/-- A spec has port 0 exactly if the last parameter of one of the keys reads as 0. -/
theorem listMeaning_zero (d : Text) (ps : List Text) :
    ((listMeaning d ps).httpPort = some 0 ∨ (listMeaning d ps).httpsPort = some 0) ↔
      lastPort HTTP 80 ps none = some 0 ∨ lastPort HTTPS 443 ps none = some 0 := by
  rw [listMeaning]
  cases lastPort HTTP 80 ps none <;> cases lastPort HTTPS 443 ps none <;> simp

theorem zeroPort_iff {raw : Text} {specs : List DomainSpec}
    (h : parseAll raw [] = (.ok (), specs)) :
    ZeroPort raw ↔ ∃ spec ∈ specs, spec.httpPort = some 0 ∨ spec.httpsPort = some 0 := by
  obtain ⟨out, rfl, hall⟩ := (parseAll_ok_iff _ _ _).mp h
  have hmeaning : ∀ c ∈ DS_PAT.capturesIter raw, ∀ spec, parseCaptures c = .ok spec →
      ((spec.httpPort = some 0 ∨ spec.httpsPort = some 0) ↔
        lastPort HTTP 80 (rawParams c) none = some 0 ∨
          lastPort HTTPS 443 (rawParams c) none = some 0) := by
    intro c hc spec hspec
    rw [parseCaptures_ok hc hspec]
    exact listMeaning_zero _ _
  rw [ZeroPort]
  clear h
  generalize DS_PAT.capturesIter raw = cs at hall hmeaning
  induction hall with
  | nil => simp
  | cons hspec _ ih =>
    rw [List.forall_mem_cons] at hmeaning
    rw [List.exists_mem_cons_iff, List.exists_mem_cons_iff]
    exact or_congr (hmeaning.1 _ hspec).symm (ih hmeaning.2)

/-- The decoder accepts the ports of a parsed environment value exactly if no match has port 0
as its last `http` or its last `https` parameter. -/
theorem portsAccepted_iff (raw : Text) (specs : List DomainSpec)
    (h : parseAll raw [] = (.ok (), specs)) (host : Text) :
    (∀ entry ∈ domainConfigs host specs, PortsAccepted entry) ↔ ¬ZeroPort raw := by
  rw [zeroPort_iff h, domainConfigs, List.forall_mem_map]
  push Not
  constructor
  · intro haccepted spec hspec
    exact (portsAccepted_domainConfig host spec).mp (haccepted spec hspec)
  · intro hports spec hspec
    exact (portsAccepted_domainConfig host spec).mpr (hports spec hspec)

/-- An explicit port, which comes after a port 0, and a default port. -/
theorem portsAccepted_iff_example : PortsAccepted
    (.object (domainConfig "web".toList ⟨"example.org".toList, some 8080, some 443⟩)) := by
  have haccepted := (portsAccepted_iff "example.org:http=0:http=8080:https".toList
    [⟨"example.org".toList, some 8080, some 443⟩] (by decide) "web".toList).mpr
  refine haccepted ?_ _ List.mem_cons_self
  rintro ⟨c, hc, hzero⟩
  have hcaptures : DS_PAT.capturesIter "example.org:http=0:http=8080:https".toList =
      [[(1, "example.org".toList), (3, "http=0:http=8080:https".toList),
        (2, ":http=0:http=8080:https".toList)]] := by decide
  rw [hcaptures, List.mem_singleton] at hc
  subst hc
  exact absurd hzero (by decide)

/-- The parser accepts port 0. -/
theorem not_portsAccepted_zero :
    parseAll "example.org:http=0".toList [] = (.ok (), [⟨"example.org".toList, some 0, none⟩]) ∧
    ¬∀ (raw : Text) (specs : List DomainSpec), parseAll raw [] = (.ok (), specs) →
      ∀ host, ∀ entry ∈ domainConfigs host specs, PortsAccepted entry := by
  have hparse : parseAll "example.org:http=0".toList [] =
      (.ok (), [⟨"example.org".toList, some 0, none⟩]) := by decide
  refine ⟨hparse, fun h => ?_⟩
  have haccepted := h _ _ hparse "web".toList _ List.mem_cons_self
  exact ((portsAccepted_domainConfig _ _).mp haccepted).1 rfl

end Consumer
end Beachhead
