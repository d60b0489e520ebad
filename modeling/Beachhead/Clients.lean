import Beachhead.Registration
import Beachhead.SameAnswers

/-!
# The clients of the inspector and of the publisher

Each of the two makes its client with the first call that needs one and keeps it for the
rest of the run. As making a client does not touch the world, the program does what it would
do if every call made a client of its own.
-/
namespace Beachhead

/-- The addresses in the configuration. -/
structure Addresses where
  redisHost : Text
  redisPort : UInt16
  dockerUrl : Text

namespace Redis

/-- Where a client connects to, over TCP. -/
structure ConnectionInfo where
  addr : Text × UInt16
  db : ℤ
  passwd : Option Text

/-- The client library. A client connects anew for every request. -/
structure ClientLibrary (ω Client : Type) where
  openClient : ω → ConnectionInfo → Except RedisError Client × ω
  execute : Client → ω → Request → Except RedisError Unit × ω
  stored : ω → Text → Option Text

end Redis

/-- The docker client library. -/
structure Docker.ClientLibrary (ω Client : Type) where
  host : Text → Client
  list : Client → ω → Text → Except ShipliftError (List ContainerSummary) × ω
  inspect : Client → ω → Text → Except ShipliftError ContainerDetails × ω

/-- The clients that the inspector and the publisher have kept. -/
structure Clients (DockerClient RedisClient : Type) where
  dockerClientOpt : Option DockerClient
  redisClientOpt : Option RedisClient
  deriving DecidableEq

variable {ω DockerClient RedisClient : Type}

namespace DockerInspector

variable (L : Docker.ClientLibrary ω DockerClient) (addresses : Addresses)

def createDockerClient (s : ω × Clients DockerClient RedisClient) :
    DockerClient × ω × Clients DockerClient RedisClient :=
  match s.2.dockerClientOpt with
  | some client => (client, s)
  | none =>
    let client := L.host addresses.dockerUrl
    (client, s.1, { s.2 with dockerClientOpt := some client })

/-- The daemon, asked through the client that is kept. -/
def keptDocker : Docker (ω × Clients DockerClient RedisClient) where
  list s status :=
    let (client, s) := createDockerClient L addresses s
    let r := L.list client s.1 status
    (r.1, r.2, s.2)
  inspect s containerName :=
    let (client, s) := createDockerClient L addresses s
    let r := L.inspect client s.1 containerName
    (r.1, r.2, s.2)

/-- The daemon, asked through a client for each call. -/
def freshDocker : Docker ω where
  list := L.list (L.host addresses.dockerUrl)
  inspect := L.inspect (L.host addresses.dockerUrl)

end DockerInspector

namespace RedisPublisher

variable (L : Redis.ClientLibrary ω RedisClient) (addresses : Addresses)

def connectionInfo : Redis.ConnectionInfo where
  addr := (addresses.redisHost, addresses.redisPort)
  db := 0
  passwd := none

def createRedisClient (s : ω × Clients DockerClient RedisClient) :
    Except Redis.RedisError RedisClient × ω × Clients DockerClient RedisClient :=
  match s.2.redisClientOpt with
  | some client => (.ok client, s)
  | none =>
    match L.openClient s.1 (connectionInfo addresses) with
    | (.error e, w) => (.error e, w, s.2)
    | (.ok client, w) => (.ok client, w, { s.2 with redisClientOpt := some client })

/-- The server, asked through the client that is kept. -/
def keptServer : Redis.Server (ω × Clients DockerClient RedisClient) where
  execute s request :=
    match createRedisClient L addresses s with
    | (.error e, s) => (.error e, s)
    | (.ok client, s) =>
      let r := L.execute client s.1 request
      (r.1, r.2, s.2)
  stored s := L.stored s.1

/-- The server, asked through a client for each request. -/
def freshServer : Redis.Server ω where
  execute w request :=
    match L.openClient w (connectionInfo addresses) with
    | (.error e, w) => (.error e, w)
    | (.ok client, w) => L.execute client w request
  stored := L.stored

end RedisPublisher

/-- The same alarm in a world without the clients. -/
def Receiver.map {τ : Type} (f : ω → τ) : Receiver ω → Receiver τ
  | .closed => .closed
  | .after since remaining => .after (f since) remaining
  | .kept => .kept

/-- The world of `env` beside a state of type `C` that only the inspector and the publisher use. -/
def Environment.beside {C : Type} (env : Environment ω) (inspector : Inspect (ω × C))
    (publisher : Publish (ω × C)) : Environment (ω × C) where
  inspector := inspector
  publisher := publisher
  now s := ((env.now s.1).1, (env.now s.1).2, s.2)
  notify s entries := ((env.notify s.1 entries).1, (env.notify s.1 entries).2, s.2)
  poll s := ((env.poll s.1).1, (env.poll s.1).2, s.2)
  select s refresh watchdog :=
    let r := env.select s.1 (refresh.map Prod.fst) (watchdog.map Prod.fst)
    (r.1, r.2, s.2)
  drain s := env.drain s.1
  drain_perm s := env.drain_perm s.1
  debugEnabled := env.debugEnabled

namespace Companion
open Program DockerInspector RedisPublisher

/-- The world is the same, and the clients that are kept are those that would be made. -/
structure KeepsClients (D : Docker.ClientLibrary ω DockerClient) (addresses : Addresses)
    (opened : Except Redis.RedisError RedisClient) (s : ω × Clients DockerClient RedisClient)
    (w : ω) : Prop where
  world : s.1 = w
  docker : ∀ client, s.2.dockerClientOpt = some client → client = D.host addresses.dockerUrl
  redis : ∀ client, s.2.redisClientOpt = some client → opened = .ok client

variable {D : Docker.ClientLibrary ω DockerClient} {R : Redis.ClientLibrary ω RedisClient}
  {addresses : Addresses} {opened : Except Redis.RedisError RedisClient}
  {s : ω × Clients DockerClient RedisClient} {w : ω}

private theorem createDockerClient_keeps (h : KeepsClients D addresses opened s w) :
    (createDockerClient D addresses s).1 = D.host addresses.dockerUrl ∧
      KeepsClients D addresses opened (createDockerClient D addresses s).2 w := by
  rw [createDockerClient]
  cases hclient : s.2.dockerClientOpt with
  | some client => exact ⟨h.docker client hclient, h⟩
  | none => exact ⟨rfl, h.world, fun client hnew => (Option.some.inj hnew).symm, h.redis⟩

private theorem createRedisClient_keeps
    (hopen : ∀ w, R.openClient w (connectionInfo addresses) = (opened, w))
    (h : KeepsClients D addresses opened s w) :
    (createRedisClient R addresses s).1 = opened ∧
      KeepsClients D addresses opened (createRedisClient R addresses s).2 w := by
  rw [createRedisClient]
  cases hclient : s.2.redisClientOpt with
  | some client => exact ⟨(h.redis client hclient).symm, h⟩
  | none =>
    dsimp only
    rw [hopen]
    cases opened with
    | error e => exact ⟨rfl, h.world, h.docker, h.redis⟩
    | ok client =>
      exact ⟨rfl, h.world, h.docker, fun client hnew => congrArg Except.ok (Option.some.inj hnew)⟩

private theorem KeepsClients.moved (h : KeepsClients D addresses opened s w) (v : ω) :
    KeepsClients D addresses opened (v, s.2) v := ⟨rfl, h.docker, h.redis⟩

private theorem keptDocker_list (h : KeepsClients D addresses opened s w) (status : Text) :
    SameAnswer (KeepsClients D addresses opened) ((keptDocker D addresses).list s status)
      ((freshDocker D addresses).list w status) := by
  obtain ⟨hclient, hkeeps⟩ := createDockerClient_keeps h
  simp only [keptDocker, freshDocker]
  rw [hclient, hkeeps.world]
  exact ⟨rfl, hkeeps.moved _⟩

private theorem keptDocker_inspect (h : KeepsClients D addresses opened s w) (name : Text) :
    SameAnswer (KeepsClients D addresses opened) ((keptDocker D addresses).inspect s name)
      ((freshDocker D addresses).inspect w name) := by
  obtain ⟨hclient, hkeeps⟩ := createDockerClient_keeps h
  simp only [keptDocker, freshDocker]
  rw [hclient, hkeeps.world]
  exact ⟨rfl, hkeeps.moved _⟩

private theorem keptServer_execute
    (hopen : ∀ w, R.openClient w (connectionInfo addresses) = (opened, w))
    (h : KeepsClients D addresses opened s w) (request : Redis.Request) :
    SameAnswer (KeepsClients D addresses opened) ((keptServer R addresses).execute s request)
      ((freshServer R addresses).execute w request) := by
  obtain ⟨hclient, hkeeps⟩ := createRedisClient_keeps hopen h
  simp only [keptServer, freshServer]
  rw [hopen]
  generalize hcreated : createRedisClient R addresses s = created at hclient hkeeps
  obtain ⟨result, s'⟩ := created
  obtain rfl : result = opened := hclient
  cases result with
  | error e => exact ⟨rfl, hkeeps⟩
  | ok client =>
    dsimp only
    rw [hkeeps.world]
    exact ⟨rfl, hkeeps.moved _⟩

private theorem SameAnswer.split {α τ : Type} {S : ω → τ → Prop} {r : α × ω} {r' : α × τ}
    (h : SameAnswer S r r') : ∃ answer w v, r = (answer, w) ∧ r' = (answer, v) ∧ S w v :=
  ⟨r.1, r.2, r'.2, rfl, Prod.ext h.answer.symm rfl, h.world⟩

theorem enumerate_sameAnswer {τ : Type} {S : ω → τ → Prop} {docker : Docker ω}
    {docker' : Docker τ} {w : ω} {v : τ}
    (h : ∀ status, SameAnswer S (docker.list w status) (docker'.list v status)) :
    SameAnswer S (DockerInspector.enumerate docker w [])
      (DockerInspector.enumerate docker' v []) := by
  obtain ⟨answer, w', v', hr, hr', hS⟩ := (h "running".toList).split
  rw [DockerInspector.enumerate, DockerInspector.enumerate, hr, hr']
  cases answer with
  | error e => exact ⟨rfl, hS⟩
  | ok containers => exact ⟨rfl, hS⟩

theorem inspect_sameAnswer {τ : Type} {S : ω → τ → Prop} {docker : Docker ω}
    {docker' : Docker τ} {w : ω} {v : τ} (config : Config) {name : Text}
    (h : SameAnswer S (docker.inspect w name) (docker'.inspect v name)) :
    SameAnswer S (DockerInspector.inspect docker config w name)
      (DockerInspector.inspect docker' config v name) := by
  obtain ⟨answer, w', v', hr, hr', hS⟩ := h.split
  rw [DockerInspector.inspect, DockerInspector.inspect, hr, hr']
  cases answer with
  | error e => exact ⟨rfl, hS⟩
  | ok container => exact ⟨rfl, hS⟩

theorem publish_sameAnswer {τ : Type} {S : ω → τ → Prop} {server : Redis.Server ω}
    {server' : Redis.Server τ} {w : ω} {v : τ} (K : Json.Codec) (config : Config)
    (h : ∀ request, SameAnswer S (server.execute w request) (server'.execute v request))
    (publication : Publication) :
    SameAnswer S (RedisPublisher.publish K server config w publication)
      (RedisPublisher.publish K server' config v publication) := by
  obtain ⟨answer, w', v', hr, hr', hS⟩ := (h (request K config publication)).split
  rw [RedisPublisher.publish, RedisPublisher.publish, hr, hr']
  exact ⟨rfl, hS⟩

private theorem map_sameAlarm {S : ω × Clients DockerClient RedisClient → ω → Prop}
    (hS : ∀ s w, S s w → s.1 = w) {alarm : Receiver (ω × Clients DockerClient RedisClient)}
    {alarm' : Receiver ω} (h : SameAlarm S alarm alarm') : alarm.map Prod.fst = alarm' := by
  cases h with
  | closed => rfl
  | after armed remaining => rw [Receiver.map, hS _ _ armed]
  | kept => rfl

private theorem beside_sameAnswers (env : Environment ω) (config : Config)
    (hI : env.inspector = toInspect (freshDocker D addresses) config)
    (publisher : Publish (ω × Clients DockerClient RedisClient)) :
    SameAnswers (KeepsClients D addresses opened)
      (env.beside (toInspect (keptDocker D addresses) config) publisher) env where
  now s w h := by
    obtain rfl := h.world
    exact ⟨rfl, h.moved _⟩
  notify s w entries h := by
    obtain rfl := h.world
    exact ⟨rfl, h.moved _⟩
  poll s w h := by
    obtain rfl := h.world
    exact ⟨rfl, h.moved _⟩
  select s w refresh refresh' watchdog watchdog' h hrefresh hdog := by
    obtain rfl := h.world
    obtain rfl := map_sameAlarm (fun _ _ hS => hS.world) hrefresh
    obtain rfl := map_sameAlarm (fun _ _ hS => hS.world) hdog
    exact ⟨rfl, h.moved _⟩
  enumerate s w h := by
    rw [hI]
    exact enumerate_sameAnswer (keptDocker_list h)
  inspect s w name h := by
    rw [hI]
    exact inspect_sameAnswer config (keptDocker_inspect h name)
  drain s w entries h := by
    obtain rfl := h.world
    rfl
  debugEnabled := rfl

/-- A run with clients that are made once and kept makes the same calls and has the same result as
a run that makes a client for every call. -/
theorem run_keptClients {ω DockerClient RedisClient : Type} (K : Json.Codec)
    (D : Docker.ClientLibrary ω DockerClient) (R : Redis.ClientLibrary ω RedisClient)
    (addresses : Addresses) (opened : Except Redis.RedisError RedisClient)
    (hopen : ∀ w, R.openClient w (connectionInfo addresses) = (opened, w)) (config : Config)
    (env : Environment ω) (hI : env.inspector = toInspect (freshDocker D addresses) config)
    (hP : env.publisher = toPublish K (freshServer R addresses) config) (explicit : List Text)
    (n passes : ℕ) (w : ω) :
    SameEnd (Mirrors (KeepsClients D addresses opened) fun _ => true) Eq
      (run config (env.beside (toInspect (keptDocker D addresses) config)
        (toPublish K (keptServer R addresses) config)) explicit n passes (start (w, ⟨none, none⟩)))
      (run config env explicit n passes (start w)) := by
  refine run_sameAnswers (beside_sameAnswers env config hI _) (fun s v p h => ?_) config explicit n
    passes ⟨rfl, fun _ h => (by cases h), fun _ h => by cases h⟩
  rw [hP]
  exact publish_sameAnswer K config (keptServer_execute hopen h) p

/-- A library whose clients are the addresses. -/
def memoryLibrary : Redis.ClientLibrary (Text → Option Text) Redis.ConnectionInfo where
  openClient w info := (.ok info, w)
  execute _ := Redis.memory.execute
  stored := Redis.memory.stored

def fixedLibrary : Docker.ClientLibrary (Text → Option Text) Text where
  host url := url
  list _ := (fixedDocker (twoContainers id)).list
  inspect _ := (fixedDocker (twoContainers id)).inspect

def localAddresses : Addresses where
  redisHost := "localhost".toList
  redisPort := 6379
  dockerUrl := "unix://var/run/docker.sock".toList

theorem run_keptClients_alpha :
    SameEnd (Mirrors (KeepsClients fixedLibrary localAddresses
        (.ok (connectionInfo localAddresses))) fun _ => true) Eq
      (run Config.default ((storeEnvironment Config.default (twoContainers id)).beside
        (toInspect (keptDocker fixedLibrary localAddresses) Config.default)
        (toPublish Json.compact (keptServer memoryLibrary localAddresses) Config.default))
        ["alpha".toList] 2 1 (start (fun _ => none, ⟨none, none⟩)))
      (run Config.default (storeEnvironment Config.default (twoContainers id)) ["alpha".toList] 2 1
        (start fun _ => none)) :=
  run_keptClients Json.compact fixedLibrary memoryLibrary localAddresses _ (fun _ => rfl)
    Config.default (storeEnvironment Config.default (twoContainers id)) rfl rfl
    ["alpha".toList] 2 1 fun _ => none

end Companion
end Beachhead
