import Beachhead.Config
import Beachhead.DomainSpec

/-!
# Inspection of containers

An inspector lists the running containers and reads the specs of one container.
The docker inspector asks the docker daemon, which is a parameter, and parses the
value of every environment line with the configured name.
-/
namespace Beachhead

structure Inspection where
  host : Text
  specs : List DomainSpec
  envvarPresent : Bool
  deriving DecidableEq

/-- An error of the docker client. -/
structure ShipliftError where
  actual : Text
  deriving DecidableEq

/-- The boxed errors an inspector can return. -/
inductive InspectionError where
  | domainSpec (e : DomainSpecError)
  | shiplift (e : ShipliftError)
  deriving DecidableEq

/-- The `Inspect` trait: an implementation acts on the world. -/
structure Inspect (ω : Type) where
  /-- The names are pushed to the given vector, also before an error. -/
  enumerate : ω → List Text → (Except InspectionError Unit × List Text) × ω
  inspect : ω → Text → Except InspectionError Inspection × ω

/-- An entry of the container list. -/
structure ContainerSummary where
  id : Text
  names : List Text

/-- What the daemon reports about one container. -/
structure ContainerDetails where
  ipAddress : Text
  env : Option (List Text)

/-- The docker daemon in a world `ω`. -/
structure Docker (ω : Type) where
  /-- The containers with the given status. -/
  list : ω → Text → Except ShipliftError (List ContainerSummary) × ω
  inspect : ω → Text → Except ShipliftError ContainerDetails × ω

namespace DockerInspector

/-- The loop over the lines of an environment. -/
def parseLines (config : Config) :
    List Text → Bool → List DomainSpec → Except InspectionError Unit × Bool × List DomainSpec
  | [], envvarPresent, specs => (.ok (), envvarPresent, specs)
  | line :: env, envvarPresent, specs =>
    match Text.splitn2 '=' line with
    | (_, none) => parseLines config env envvarPresent specs
    | (name, some value) =>
      if name ≠ config.envvar then parseLines config env envvarPresent specs
      else match DomainSpec.parseAll value specs with
        | (.error e, specs) => (.error (.domainSpec e), true, specs)
        | (.ok (), specs) => parseLines config env true specs

def parseContainerEnvVars (envOpt : Option (List Text)) (config : Config) (envvarPresent : Bool)
    (specs : List DomainSpec) : Except InspectionError Unit × Bool × List DomainSpec :=
  match envOpt with
  | some env => parseLines config env envvarPresent specs
  | none => (.ok (), envvarPresent, specs)

variable {ω : Type} (D : Docker ω) (config : Config)

def enumerate (w : ω) (containerNames : List Text) :
    (Except InspectionError Unit × List Text) × ω :=
  match D.list w "running".toList with
  | (.error e, w) => ((.error (.shiplift e), containerNames), w)
  | (.ok containers, w) =>
    ((.ok (), containerNames ++ containers.map fun c => c.names.head?.getD c.id), w)

/-- What an inspection makes of the daemon's answer. -/
def inspection (containerName : Text) (container : ContainerDetails) :
    Except InspectionError Inspection :=
  let containerHost := if config.dockerNetwork then containerName else container.ipAddress
  match parseContainerEnvVars container.env config false [] with
  | (.error e, _) => .error e
  | (.ok (), envvarPresent, specs) => .ok ⟨containerHost, specs, envvarPresent⟩

def inspect (w : ω) (containerName : Text) : Except InspectionError Inspection × ω :=
  match D.inspect w containerName with
  | (.error e, w) => (.error (.shiplift e), w)
  | (.ok container, w) => (inspection config containerName container, w)

def toInspect : Inspect ω := ⟨enumerate D, inspect D config⟩

end DockerInspector
end Beachhead
