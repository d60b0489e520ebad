import Beachhead.Config
import Beachhead.DomainSpec
import Beachhead.Redis

/-!
# Publications and their encoding

A publication is stored as a JSON array with one object for each domain spec,
under the key that consists of the configured text and the publication's host.
-/
namespace Beachhead
open Json

structure Publication where
  host : Text
  specs : List DomainSpec
  deriving DecidableEq

namespace JsonSerializer

def JSON_HOST : Text := "host".toList
def JSON_PORT : Text := "port".toList
def JSON_ID : Text := "id".toList
def JSON_DOMAIN : Text := "domain".toList
def JSON_HTTP : Text := "http".toList
def JSON_HTTPS : Text := "https".toList

def portToJson (port : UInt16) : Value := .u64 port.toUInt64

/-- `Option<json::Object>::to_json`. -/
def objectToJson : Option Object → Value
  | some o => .object o
  | none => .null

/-- An absent value leaves the field out. -/
def svcConfig {T : Type} (toJson : T → Value) (domainConfig : Object) (field : Text)
    (valueOpt : Option T) : Object :=
  match valueOpt with
  | some value => domainConfig.insert field (toJson value)
  | none => domainConfig

def backendSetup (host : Text) (port : UInt16) : Option Object :=
  some (Object.insert JSON_PORT (portToJson port) (Object.insert JSON_HOST (.string host) []))

def domainConfig (containerHost : Text) (spec : DomainSpec) : Object :=
  let config := svcConfig .string [] JSON_ID (some spec.specId)
  let config := svcConfig .string config JSON_DOMAIN (some spec.domainName)
  let config := svcConfig objectToJson config JSON_HTTP
    (spec.httpPort.map (backendSetup containerHost))
  svcConfig objectToJson config JSON_HTTPS (spec.httpsPort.map (backendSetup containerHost))

def domainConfigs (containerHost : Text) (specs : List DomainSpec) : List Value :=
  specs.map fun spec => .object (domainConfig containerHost spec)

end JsonSerializer

/-- The boxed errors a publisher can return. -/
inductive PublishingError where
  | redis (e : Redis.RedisError)
  deriving DecidableEq

/-- The `Publish` trait: an implementation acts on the world. -/
structure Publish (ω : Type) where
  publish : ω → Publication → Except PublishingError Unit × ω

namespace RedisPublisher
open JsonSerializer

def serviceKey (config : Config) (containerName key : Text) : Text :=
  key ++ config.keyPrefix ++ containerName

/-- The request that publishes a publication. -/
def request (K : Codec) (config : Config) (publication : Publication) : Redis.Request :=
  let key := serviceKey config publication.host []
  let publishedConfig := domainConfigs publication.host publication.specs
  let redisValue := K.encode (.array publishedConfig)
  match config.expireSeconds with
  | some expireSeconds =>
    Redis.setEx (Redis.stringArgs key) (Redis.stringArgs redisValue) expireSeconds.toNat
  | none =>
    -- the vector itself is passed here, not the encoded text
    Redis.set (Redis.stringArgs key) (Redis.vecArgs (Redis.jsonArgs K) publishedConfig)

def publish {ω : Type} (K : Codec) (R : Redis.Server ω) (config : Config) (w : ω)
    (publication : Publication) : Except PublishingError Unit × ω :=
  let (result, w) := R.execute w (request K config publication)
  (result.mapError .redis, w)

def toPublish {ω : Type} (K : Codec) (R : Redis.Server ω) (config : Config) : Publish ω :=
  ⟨publish K R config⟩

end RedisPublisher
end Beachhead
