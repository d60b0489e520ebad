import Beachhead.Config

/-!
# From the command line to the configuration

The arguments are decoded by docopt and then rewritten: a missing refresh interval
becomes 45% of the expiration. The configuration reads the interval 0 as a single run,
whether it was asked for or computed.
-/
namespace Beachhead

structure Args where
  flagVerbose : Bool
  flagQuiet : Bool
  flagExpire : UInt32
  flagRefresh : Option UInt32
  flagEnvvar : Text
  flagKeyPrefix : Text
  argContainers : List Text
  flagDockerNetwork : Bool
  flagDryRun : Bool
  flagErrorMissingEnvvar : Bool
  flagErrorMissingContainer : Bool
  flagIgnoreMissingEnvvar : Bool
  flagEnumerate : Bool
  flagSystemd : Bool

namespace Args

/-- The defaults of the options, with no container and without `--enumerate`. -/
def default : Args where
  flagVerbose := false
  flagQuiet := false
  flagExpire := 60
  flagRefresh := none
  flagEnvvar := "BEACHHEAD_DOMAINS".toList
  flagKeyPrefix := "/beachhead/".toList
  argContainers := []
  flagDockerNetwork := false
  flagDryRun := false
  flagErrorMissingEnvvar := false
  flagErrorMissingContainer := false
  flagIgnoreMissingEnvvar := false
  flagEnumerate := false
  flagSystemd := false

/-- `(expire as f64 * 0.45) as u32` -/
def defaultRefresh (expire : UInt32) : UInt32 := UInt32.ofNat (9 * expire.toNat / 20)

def argsTransform (args : Args) : Args :=
  -- quiet and verbose cancel each other out
  let args := if args.flagQuiet && args.flagVerbose then
    { args with flagQuiet := false, flagVerbose := false } else args
  -- dry-run implies !quiet
  let args := if args.flagDryRun then { args with flagQuiet := false } else args
  if args.flagRefresh.isNone then
    { args with flagRefresh := some (defaultRefresh args.flagExpire) }
  else args

/-- The configuration and the names listed explicitly. Without a refresh interval the
program panics. -/
def deconstruct (args : Args) : Option (Config × List Text) := do
  let refreshSeconds ← args.flagRefresh.map fun r => if r = 0 then none else some r
  return ({
    keyPrefix := args.flagKeyPrefix
    expireSeconds := if args.flagExpire = 0 then none else some args.flagExpire
    refreshSeconds := refreshSeconds
    dockerNetwork := args.flagDockerNetwork
    envvar := args.flagEnvvar
    dryRun := args.flagDryRun
    missingEnvvar := match args.flagErrorMissingEnvvar, args.flagIgnoreMissingEnvvar with
      | true, true => .automatic
      | false, false => .automatic
      | true, _ => .report
      | _, true => .ignore
    missingContainer := if args.flagErrorMissingContainer then .report else .ignore
    enumerate := args.flagEnumerate
    systemd := args.flagSystemd
    watchdogMicroseconds := none }, args.argContainers)

/-- The registration is refreshed before it expires, and not more often than every 10
seconds if it lasts longer than that. -/
def KeepsAlive (expire : UInt32) (config : Config) : Prop :=
  ∃ r, config.refreshSeconds = some r ∧ r < expire ∧ (10 < expire → 10 ≤ r)

private theorem defaultRefresh_toNat (expire : UInt32) :
    (defaultRefresh expire).toNat = 9 * expire.toNat / 20 := by
  have hlt := expire.toNat_lt
  have hsize : 9 * expire.toNat / 20 < UInt32.size := by
    rw [UInt32.size]
    omega
  exact UInt32.toNat_ofNat_of_lt' hsize

private theorem argsTransform_refresh (args : Args) : (argsTransform args).flagRefresh =
    some (args.flagRefresh.getD (defaultRefresh args.flagExpire)) := by
  simp only [argsTransform]
  cases h : args.flagRefresh <;> split_ifs <;> simp_all

private theorem argsTransform_expire (args : Args) :
    (argsTransform args).flagExpire = args.flagExpire := by
  simp only [argsTransform]
  split_ifs <;> rfl

/-- After the transformation the program does not panic. A computed interval of 0 means a
single run, as one that was asked for does. -/
theorem deconstruct_argsTransform (args : Args) : ∃ config,
    (argsTransform args).deconstruct = some (config, (argsTransform args).argContainers) ∧
      config.expireSeconds = (if args.flagExpire = 0 then none else some args.flagExpire) ∧
      config.refreshSeconds =
        let r := args.flagRefresh.getD (defaultRefresh args.flagExpire)
        if r = 0 then none else some r := by
  rw [deconstruct, argsTransform_refresh, argsTransform_expire]
  exact ⟨_, rfl, rfl, rfl⟩

theorem defaultRefresh_eq_zero_iff (expire : UInt32) :
    defaultRefresh expire = 0 ↔ expire.toNat < 3 := by
  rw [← UInt32.toNat_inj, defaultRefresh_toNat, UInt32.toNat_zero]
  omega

/-- The default refresh interval keeps registrations alive exactly for the expiration times
from 3 to 10 and from 23 seconds on. -/
theorem keepsAlive_default_iff (args : Args) (hrefresh : args.flagRefresh = none)
    (hexpire : 1 ≤ args.flagExpire) : ∃ config,
    (argsTransform args).deconstruct = some (config, (argsTransform args).argContainers) ∧
      (KeepsAlive args.flagExpire config ↔
        (3 ≤ args.flagExpire ∧ args.flagExpire ≤ 10) ∨ 23 ≤ args.flagExpire) := by
  obtain ⟨config, hconfig, -, hinterval⟩ := deconstruct_argsTransform args
  refine ⟨config, hconfig, ?_⟩
  generalize args.flagExpire = e at hexpire hinterval ⊢
  have hr : (defaultRefresh e).toNat = 9 * e.toNat / 20 := defaultRefresh_toNat e
  have hten : (10 : UInt32).toNat = 10 := rfl
  have hconst : (1 : UInt32).toNat = 1 ∧ (3 : UInt32).toNat = 3 ∧ (23 : UInt32).toNat = 23 :=
    ⟨rfl, rfl, rfl⟩
  simp only [hrefresh, Option.getD_none] at hinterval
  simp only [UInt32.le_iff_toNat_le, hconst, hten] at hexpire ⊢
  by_cases hzero : defaultRefresh e = 0
  · have hsmall : e.toNat < 3 := (defaultRefresh_eq_zero_iff e).mp hzero
    have hnone : ¬KeepsAlive e config := by
      rintro ⟨r, hsome, -⟩
      rw [hinterval, if_pos hzero] at hsome
      cases hsome
    simp only [hnone, false_iff]
    omega
  · have hlarge : ¬e.toNat < 3 := mt (defaultRefresh_eq_zero_iff e).mpr hzero
    rw [if_neg hzero] at hinterval
    have hsome : KeepsAlive e config ↔ 9 * e.toNat / 20 < e.toNat ∧
        (10 < e.toNat → 10 ≤ 9 * e.toNat / 20) := by
      simp [KeepsAlive, hinterval, UInt32.lt_iff_toNat_lt, UInt32.le_iff_toNat_le, hr]
    rw [hsome]
    omega

/-- The expiration of one minute. -/
theorem keepsAlive_default_minute : ∃ config,
    (argsTransform Args.default).deconstruct = some (config, []) ∧ KeepsAlive 60 config := by
  obtain ⟨config, hconfig, hiff⟩ := keepsAlive_default_iff Args.default rfl (by decide)
  exact ⟨config, hconfig, hiff.mpr (by decide)⟩

/-- With 2 seconds the program runs once and exits; with 20 it refreshes every 9 seconds. -/
theorem not_keepsAlive_default :
    ((argsTransform { Args.default with flagExpire := 2 }).deconstruct.map
      fun p => p.1.refreshSeconds) = some none ∧
    ((argsTransform { Args.default with flagExpire := 20 }).deconstruct.map
      fun p => p.1.refreshSeconds) = some (some 9) ∧
    ¬∀ args : Args, args.flagRefresh = none → 1 ≤ args.flagExpire → ∃ config,
      (argsTransform args).deconstruct = some (config, (argsTransform args).argContainers) ∧
        KeepsAlive args.flagExpire config := by
  refine ⟨by decide, by decide, fun h => ?_⟩
  obtain ⟨config, hconfig, r, hr, -⟩ := h { Args.default with flagExpire := 2 } rfl (by decide)
  have hnone : ((argsTransform { Args.default with flagExpire := 2 }).deconstruct.map
      fun p => p.1.refreshSeconds) = some none := by decide
  rw [hconfig, Option.map_some, hr] at hnone
  cases hnone

end Args
end Beachhead
