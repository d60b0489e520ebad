import Beachhead.Text

/-!
# Configuration

The fields that the companion loop, the inspector and the publisher read.
-/
namespace Beachhead

/-- Behaviour when a container does not have the environment variable. -/
inductive MissingEnvVarHandling where
  | automatic | report | ignore
  deriving DecidableEq

/-- Behaviour when a container cannot be inspected. -/
inductive MissingContainerHandling where
  | report | ignore
  deriving DecidableEq

structure Config where
  keyPrefix : Text
  expireSeconds : Option UInt32
  refreshSeconds : Option UInt32
  dockerNetwork : Bool
  envvar : Text
  dryRun : Bool
  missingEnvvar : MissingEnvVarHandling
  missingContainer : MissingContainerHandling
  enumerate : Bool
  systemd : Bool
  watchdogMicroseconds : Option UInt64

namespace Config

/-- The configuration of the unit tests. -/
def default : Config where
  keyPrefix := []
  expireSeconds := some 60
  refreshSeconds := some 27
  dockerNetwork := false
  envvar := "BEACHHEAD_DOMAINS".toList
  dryRun := false
  missingEnvvar := .automatic
  missingContainer := .ignore
  enumerate := false
  systemd := false
  watchdogMicroseconds := none

end Config
end Beachhead
